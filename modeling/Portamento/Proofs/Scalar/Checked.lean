import Portamento.Proofs.Scalar.Exact

/-!
# Numbers that notice a division by zero

A real can be divided by zero like by any other number, so that no equation between reals says of a
computation that it never does so. Here a quotient by zero is no value, nothing that is computed
from it is one, and nothing compares with it. A computation that comes to the same value on these
numbers as on reals has not divided by zero on its way there.
-/

namespace Portamento

/-- A real, or what a division by zero leaves. -/
inductive Checked where
  | value (x : ℝ)
  | undefined

namespace Checked

/-- An operation on values. -/
def combine (f : ℝ → ℝ → Checked) : Checked → Checked → Checked
  | value x, value y => f x y
  | _, _ => undefined

/-- A comparison of values. -/
def Compares (r : ℝ → ℝ → Prop) : Checked → Checked → Prop
  | value x, value y => r x y
  | _, _ => False

/-- An operation that divides by the second value. -/
noncomputable def divide (f : ℝ → ℝ → ℝ) : Checked → Checked → Checked :=
  combine fun x y => if y = 0 then undefined else value (f x y)

/-- A count made of a value; what is no value counts as zero. -/
def count (f : ℝ → Nat) : Checked → Nat
  | value x => f x
  | undefined => 0

/-- Whether there is a value at all. -/
def isDefined : Checked → Bool
  | value _ => true
  | undefined => false

noncomputable instance instScalar : Scalar Checked where
  ofNat n := value n
  add := combine fun x y => value (x + y)
  sub := combine fun x y => value (x - y)
  mul := combine fun x y => value (x * y)
  div := divide fun x y => x / y
  lt := Compares fun x y => x < y
  le := Compares fun x y => x ≤ y
  decidableLT := Classical.decRel _
  decidableLE := Classical.decRel _
  isFinite := isDefined
  remainder := divide Scalar.remainder
  floorCount := count Scalar.floorCount
  ceilCount := count Scalar.ceilCount
  nearestCount := count Scalar.nearestCount
  nanoseconds := count Scalar.nanoseconds

variable (x y : ℝ)

@[simp] theorem ofNat_eq (n : Nat) : (Scalar.ofNat n : Checked) = value n := rfl

@[simp] theorem value_add : value x + value y = value (x + y) := rfl

@[simp] theorem value_sub : value x - value y = value (x - y) := rfl

@[simp] theorem value_mul : value x * value y = value (x * y) := rfl

@[simp] theorem value_lt : value x < value y ↔ x < y := Iff.rfl

@[simp] theorem value_le : value x ≤ value y ↔ x ≤ y := Iff.rfl

variable {x y}

/-- A quotient is a value if the divisor is not zero. -/
theorem value_div (nonzero : y ≠ 0) : value x / value y = value (x / y) := if_neg nonzero

end Checked

end Portamento
