import ExactPenalty.Decimal.Binary

/-!
# Decimal numbers

Three ways to write a double in decimal digits, all from its exact value:

* `Decimal.rounded` — a given number of significant digits, halves to the even neighbour;
* `Decimal.shortest` — the fewest digits that read back as the same double, and the nearest such
  number if there are several;
* the texts made of them: `scientific` with a fixed number of digits after the point and an exponent,
  and `positional`, the shortest digits written out without an exponent.

The infinities are `inf` and `-inf`, and what is not a number is `NaN`.
-/

set_option autoImplicit false

namespace ExactPenalty

/-- The number `coefficient · 10 ^ exponent`. -/
structure Decimal where
  coefficient : Nat
  exponent : Int

namespace Decimal

/-! ## Digits -/

/-- A positive number with `digits` significant digits, at least one. -/
def rounded (digits : Nat) (r : Ratio) : Decimal :=
  let last := r.log10 - (digits : Int) + 1
  let c := (r.divPow10 last).round
  if c < Nat.pow 10 digits then ⟨c, last⟩ else ⟨Nat.pow 10 (digits - 1), last + 1⟩

/-- The decimal as a quotient. -/
def toRatio (d : Decimal) : Ratio := Ratio.divPow10 ⟨d.coefficient, 1⟩ (-d.exponent)

/-- The neighbours of a number among the multiples of `10 ^ last` that read back as the double, the
nearer one first. -/
def readingBack (b : BinaryFraction) (last : Int) : List Decimal :=
  let r := b.toRatio.divPow10 last
  let below := r.floor
  let nearest := r.round
  let other := if nearest = below then below + 1 else below
  [⟨nearest, last⟩, ⟨other, last⟩].filter fun d ↦ b.isNearestTo d.toRatio

/-- The first decimal that reads back, from `digits` significant digits on and for `more` counts of
digits in all. -/
def shortestFrom (b : BinaryFraction) (log10 : Int) : (more digits : Nat) → Decimal
  | 0, digits => rounded digits b.toRatio
  | more + 1, digits =>
    match readingBack b (log10 - (digits : Int) + 1) with
    | d :: _ => d
    | [] => shortestFrom b log10 more (digits + 1)

/-- The decimal with the fewest digits that reads back as a positive double.  Seventeen digits are
always enough. -/
def shortest (b : BinaryFraction) : Decimal := shortestFrom b b.toRatio.log10 16 1

/-- The same number without trailing zeros, of which there are fewer than `limit`. -/
def stripped : (limit : Nat) → Decimal → Decimal
  | 0, d => d
  | limit + 1, d =>
    if d.coefficient ≠ 0 ∧ d.coefficient % 10 = 0 then
      stripped limit ⟨d.coefficient / 10, d.exponent + 1⟩
    else d

/-! ## Texts -/

/-- So many zeros. -/
def zeros (k : Nat) : String := String.ofList (List.replicate k '0')

/-- A digit string with a point after the first digit, if anything follows. -/
def pointed (digits : List Char) : String :=
  match digits with
  | [] => ""
  | [d] => d.toString
  | d :: rest => d.toString ++ "." ++ String.ofList rest

/-- One digit before the point, the others after it, and the exponent of ten. -/
def scientificText (d : Decimal) : String :=
  let digits := (toString d.coefficient).toList
  pointed digits ++ "e" ++ toString (d.exponent + (digits.length : Int) - 1)

/-- All digits in their places, without an exponent. -/
def positionalText (d : Decimal) : String :=
  let digits := (toString d.coefficient).toList
  match d.exponent with
  | .ofNat k => String.ofList digits ++ zeros k
  | .negSucc k =>
    let places := k + 1
    if places < digits.length then
      String.ofList (digits.take (digits.length - places)) ++ "."
        ++ String.ofList (digits.drop (digits.length - places))
    else "0." ++ zeros (places - digits.length) ++ String.ofList digits

end Decimal

/-- The text of a double, where `finite` writes a finite magnitude. -/
def signedText (finite : Float → String) (x : Float) : String :=
  if x.isNaN then "NaN"
  else (if hasMinus x then "-" else "") ++ (if x.isFinite then finite x else "inf")

/-- The digits of a double in scientific notation, with so many of them after the point. -/
def scientific (places : Nat) : Float → String :=
  signedText fun x ↦
    if x == 0 then Decimal.pointed ('0' :: List.replicate places '0') ++ "e0"
    else (Decimal.rounded (places + 1) (BinaryFraction.ofFloat x).toRatio).scientificText

/-- The shortest digits of a double, written out. -/
def positional : Float → String :=
  signedText fun x ↦
    if x == 0 then "0"
    else ((Decimal.shortest (BinaryFraction.ofFloat x)).stripped 20).positionalText

end ExactPenalty
