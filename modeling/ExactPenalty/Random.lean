import ExactPenalty.Scalar

/-!
# Random directions

The random numbers come from a stream of 64-bit words that is fixed when a run begins, so a run can be
repeated bit for bit.  Which stream belongs to a seed is up to the environment of the run.  The one
that runs have by default is that of the ChaCha cipher with eight rounds, a 64-bit block counter and
stream number zero; its 256-bit key is drawn from the seed by eight outputs of a permuted congruential
generator.

* `Generator` — a stream of words, and how many of them were taken so far.
* `Generator.component` — a number drawn uniformly from the closed interval from −1 to 1.
* `Generator.components` — a vector of them, drawn in the order of its components.
* `Generator.ofSeed` — the generator of a seed that the cipher makes.
-/

set_option autoImplicit false

namespace ExactPenalty

namespace ChaCha

/-! ## The key -/

/-- One step of the congruential generator. -/
def congruentialStep (state : UInt64) : UInt64 :=
  state * 6364136223846793005 + 11634580027462260723

/-- A word turned to the right by fewer than 32 places. -/
def rotateRight (x r : UInt32) : UInt32 := (x >>> r) ||| (x <<< ((32 - r) &&& 31))

/-- A word turned to the left by fewer than 32 places. -/
def rotateLeft (x r : UInt32) : UInt32 := (x <<< r) ||| (x >>> ((32 - r) &&& 31))

/-- The output that belongs to a state of the congruential generator. -/
def permuted (state : UInt64) : UInt32 :=
  rotateRight (((state >>> 18) ^^^ state) >>> 27).toUInt32 (state >>> 59).toUInt32

/-- The first `k` outputs after a state. -/
def keyWords : (k : Nat) → (state : UInt64) → Vector UInt32 k
  | 0, _ => #v[]
  | k + 1, state =>
    let state := congruentialStep state
    ((#v[permuted state] : Vector UInt32 1) ++ keyWords k state).cast (by omega)

/-! ## The cipher -/

/-- The sixteen words of a block. -/
abbrev Block : Type := Vector UInt32 16

/-- Mixes four words of a block. -/
def quarterRound (a b c d : Fin 16) (x : Block) : Block :=
  let half (s₁ s₂ : UInt32) (x : Block) : Block :=
    let x := x.set a (x[a] + x[b])
    let x := x.set d (rotateLeft (x[d] ^^^ x[a]) s₁)
    let x := x.set c (x[c] + x[d])
    x.set b (rotateLeft (x[b] ^^^ x[c]) s₂)
  half 8 7 (half 16 12 x)

/-- One round on the columns and one on the diagonals of the block, read as a square. -/
def doubleRound (x : Block) : Block :=
  let x := quarterRound 3 7 11 15 <| quarterRound 2 6 10 14 <| quarterRound 1 5 9 13 <|
    quarterRound 0 4 8 12 x
  quarterRound 3 4 9 14 <| quarterRound 2 7 8 13 <| quarterRound 1 6 11 12 <|
    quarterRound 0 5 10 15 x

/-- The block of the stream with the given number: constants, key, number and a zero stream, mixed
by eight rounds and added to themselves. -/
def block (key : Vector UInt32 8) (number : UInt64) : Block :=
  let constants : Vector UInt32 4 := #v[0x61707865, 0x3320646e, 0x79622d32, 0x6b206574]
  let counter : Vector UInt32 4 := #v[number.toUInt32, (number >>> 32).toUInt32, 0, 0]
  let start : Block := constants ++ key ++ counter
  let mixed := doubleRound <| doubleRound <| doubleRound <| doubleRound start
  mixed.zipWith (· + ·) start

/-- The 64-bit word at a position of the stream of a key: two consecutive words of a block, the low one
first. -/
def word (key : Vector UInt32 8) (position : Nat) : UInt64 :=
  let words := block key (UInt64.ofNat (position / 8))
  let low := words[2 * (position % 8)]
  let high := words[2 * (position % 8) + 1]
  low.toUInt64 ||| (high.toUInt64 <<< 32)

end ChaCha

/-! ## The generator -/

/-- A position in a stream of random words. -/
structure Generator where
  /-- The 64-bit word at every position. -/
  stream : Nat → UInt64
  /-- The words taken so far. -/
  drawn : Nat

namespace Generator

/-- The generator of a seed, at the beginning of the stream that the cipher makes of it. -/
def ofSeed (seed : UInt64) : Generator where
  stream := ChaCha.word (ChaCha.keyWords 8 seed)
  drawn := 0

/-- The next word. -/
def word (g : Generator) : UInt64 := g.stream g.drawn

/-- The generator after the next word. -/
def advanced (g : Generator) : Generator := { g with drawn := g.drawn + 1 }

variable {R : Type} [Scalar R]

/-- The number between −1 and 1 that the next word stands for.  Its upper 52 bits count steps of
equal length, so that both ends of the interval are reached. -/
def component (g : Generator) : R :=
  let steps : R := (((g.word >>> 12).toNat : Nat) : R)
  steps * Scalar.epsilon * ((1 + 1) / (1 - Scalar.epsilon)) + -1

/-- The next `n` numbers, and the generator after them. -/
def components : (n : Nat) → Generator → Vector R n × Generator
  | 0, g => (#v[], g)
  | n + 1, g =>
    let (v, g) := components n g
    (v.push g.component, g.advanced)

end Generator

end ExactPenalty
