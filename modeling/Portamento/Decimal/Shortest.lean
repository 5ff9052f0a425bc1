import Portamento.Decimal.Binary

/-!
# The fewest digits that identify a double

Many decimals round to the same double. This module selects one with the fewest digits, and among
those the one nearest to the double's exact value. The search runs over the grids of one, two, …
seventeen significant digits; on each grid only the two neighbours of the exact value can be hits.
-/

namespace Portamento.Decimal

/-- The decimal `digits * 10 ^ exponent`. -/
structure Scientific where
  digits : Nat
  exponent : Int
  deriving DecidableEq, Repr

def Scientific.ratio (d : Scientific) : Ratio := .scale d.digits (.power 10 d.exponent)

/-- Whether a decimal lies among the reals that round to the magnitude: between half way to the
neighbour below and half way to the neighbour above. The two ends belong to it exactly if the
coefficient is even, because a tie between two doubles goes to the even one. -/
def Magnitude.identifiedBy (x : Magnitude) (d : Scientific) : Bool :=
  let quarter := Ratio.power 2 (x.exponent - 2)
  let low := Ratio.scale (4 * x.coefficient - if x.narrowBelow then 1 else 2) quarter
  let high := Ratio.scale (4 * x.coefficient + 2) quarter
  let even := x.coefficient % 2 = 0
  let aboveLow := match d.ratio.order low with
    | .lt => false
    | .eq => even
    | .gt => true
  let belowHigh := match d.ratio.order high with
    | .lt => true
    | .eq => even
    | .gt => false
  aboveLow && belowHigh

/-- How many of the next `fuel` decimal places in front of the first digit hold a zero. -/
def leadingZeros (fuel : Nat) (r : Ratio) : Nat :=
  match fuel with
  | 0 => 0
  | fuel + 1 =>
    if r.lower ≤ 10 * r.upper then 0 else leadingZeros fuel ⟨10 * r.upper, r.lower⟩ + 1

/-- The least power of ten above a positive magnitude. No double has more than 323 zeros between the
point and its first digit. -/
def Magnitude.decade (x : Magnitude) : Int :=
  let r := x.ratio
  let whole := r.upper / r.lower
  if whole = 0 then -(leadingZeros 330 r : Int) else (Nat.toDigits 10 whole).length

/-- The nearest decimal with steps of `10 ^ exponent` that still identifies the magnitude. -/
def Magnitude.onGrid? (x : Magnitude) (tie : Tie) (exponent : Int) : Option Scientific :=
  let step := Ratio.power 10 exponent
  let r := x.ratio
  let below : Scientific := ⟨r.upper * step.lower / (r.lower * step.upper), exponent⟩
  let above : Scientific := ⟨below.digits + 1, exponent⟩
  match x.identifiedBy below, x.identifiedBy above with
  | false, false => none
  | true, false => some below
  | false, true => some above
  | true, true =>
    let middle := Ratio.scale (2 * below.digits + 1) step
    match (Ratio.scale 2 r).order middle with
    | .lt => some below
    | .gt => some above
    | .eq =>
      match tie with
      | .upward => some above
      | .toEven => some (if below.digits % 2 = 0 then below else above)

/-- Moves trailing zeros from the digits into the exponent. -/
def Scientific.stripped (fuel : Nat) (d : Scientific) : Scientific :=
  match fuel with
  | 0 => d
  | fuel + 1 =>
    if d.digits ≠ 0 ∧ d.digits % 10 = 0 then
      Scientific.stripped fuel ⟨d.digits / 10, d.exponent + 1⟩
    else d

/-- The decimal that stands for a positive magnitude: the coarsest grid with a hit. Seventeen digits
always suffice; the last line keeps the function total with the exact value. -/
def Magnitude.shortest (x : Magnitude) (tie : Tie) : Scientific :=
  let decade := x.decade
  let hit := (List.range 17).findSome? fun n => x.onGrid? tie (decade - Int.ofNat (n + 1))
  match hit with
  | some d => d.stripped 20
  | none =>
    if 0 ≤ x.exponent then ⟨x.coefficient * Nat.pow 2 x.exponent.toNat, 0⟩
    else ⟨x.coefficient * Nat.pow 5 (-x.exponent).toNat, x.exponent⟩

end Portamento.Decimal
