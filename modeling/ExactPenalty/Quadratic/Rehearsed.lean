import ExactPenalty.Quadratic.Solver
import ExactPenalty.Steering

/-!
# Rehearsed answers to quadratic programs

To see how a method behaves when its quadratic programs have no answer, or a bad one, the answers
can be rehearsed: after some calls that are answered honestly, every call gets the same reply,
whatever the program.
-/

set_option autoImplicit false

namespace ExactPenalty

variable {R : Type} [Scalar R]

/-- A reply that does not look at the program. -/
inductive RehearsedReply (R : Type) where
  | fail (e : QpError)
  /-- These numbers; missing ones are zero. -/
  | answer (y : Array R)
  | ones

/-- The reply to a program of dimension `m`. -/
def RehearsedReply.reply (r : RehearsedReply R) (m : Nat) : Except QpError (Vector R m) :=
  match r with
  | fail e => .error e
  | answer y => .ok (Vector.ofFn fun i ↦ (y[i.val]?).getD 0)
  | ones => .ok (Vector.replicate m 1)

/-- A reply that is given from a certain call on. -/
structure Rehearsal (R : Type) where
  /-- The calls that are answered honestly before. -/
  after : Nat
  reply : RehearsedReply R

/-- The service of a method, with a rehearsal if there is one.  Its state counts the calls. -/
def QpMethod.service (method : QpMethod R) (rehearsal : Option (Rehearsal R)) : QpService Nat R :=
  fun {m} qp calls ↦
    let honest := method.solve qp
    let result := match rehearsal with
      | some r => if calls < r.after then honest else r.reply.reply m
      | none => honest
    (result, calls + 1)

end ExactPenalty
