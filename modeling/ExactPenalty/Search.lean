import ExactPenalty.Search.Backtracking
import ExactPenalty.Search.Bracket

/-!
# Line searches

The search that the options ask for: backtracking, or bracketing for the weak Wolfe conditions.
-/

set_option autoImplicit false

namespace ExactPenalty

variable {σ R : Type} [Scalar R] {n : Nat}

/-- Searches for an acceptable step in the way the options ask for. -/
def lineSearch (ask : Oracle σ R n) (task : SearchTask R n) (o : SearchOptions R) :
    StateM σ (SearchResult R n) :=
  if o.backtracking then backtracking ask task o else weakWolfe ask task o

end ExactPenalty
