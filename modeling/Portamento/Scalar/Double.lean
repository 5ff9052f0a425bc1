import Portamento.Decimal.Binary
import Portamento.Scalar.Basic

/-!
# Doubles as scalars

The program computes with doubles. Core has their four operations, comparisons and roundings; the
remainder and the rounding to nanoseconds are computed here from the exact value of the double.
-/

namespace Portamento

open Decimal

/-- The double that equals `coefficient * 2 ^ exponent`, for a coefficient of at most 53 bits. -/
def assemble (negative : Bool) (x : Magnitude) : Float :=
  let size := Float.scaleB (Float.ofNat x.coefficient) x.exponent
  if negative then -size else size

/-- The remainder of two finite magnitudes; the second is not zero. It is exact: the coefficient
of the result has no more bits than one of the two coefficients. -/
def Decimal.Magnitude.remainder (x y : Magnitude) : Magnitude :=
  let exponent := min x.exponent y.exponent
  let a := x.coefficient * Nat.pow 2 (x.exponent - exponent).toNat
  let b := y.coefficient * Nat.pow 2 (y.exponent - exponent).toNat
  ⟨a % b, exponent⟩

/-- The double nearest to a count. One that fits into a machine word needs no decimal arithmetic. -/
def doubleOfCount (n : Nat) : Float :=
  if n < Nat.pow 2 64 then n.toUInt64.toFloat else Float.ofNat n

/-- The remainder of a truncating division, with the sign of the first number. A number that is not
negative and below the second is its own remainder, and one below twice the second has the
difference as its remainder, which is exact. These cases are tested first because they are those of
a phase that goes round slowly. -/
def doubleRemainder (x y : Float) : Float :=
  if 0.0 ≤ x && x < y then x
  else if y ≤ x && x < y + y then x - y
  else
    match Content.ofFloat x, Content.ofFloat y with
    | .finite negative a, .finite _ b =>
      if b.coefficient = 0 then 0.0 / 0.0 else assemble negative (a.remainder b)
    | .finite _ _, .infinite _ => x
    | _, _ => 0.0 / 0.0

def doubleNanoseconds (x : Float) : Nat :=
  match Content.ofFloat x with
  | .finite false magnitude => (Ratio.scale 1000000000 magnitude.ratio).nearest .toEven
  | _ => 0

/-- Doubles. Counts saturate at the largest that a machine word holds. -/
instance Tonal.instFloat : Tonal Float where
  ofNat := doubleOfCount
  decidableLT := inferInstance
  decidableLE := inferInstance
  isFinite := Float.isFinite
  remainder := doubleRemainder
  floorCount x := x.toUInt64.toNat
  ceilCount x := x.ceil.toUInt64.toNat
  nearestCount x := x.round.toUInt64.toNat
  nanoseconds := doubleNanoseconds
  sin := Float.sin
  turn := Float.ofScientific 6283185307179586 true 15
  sample x := x.toFloat32.toFloat

end Portamento
