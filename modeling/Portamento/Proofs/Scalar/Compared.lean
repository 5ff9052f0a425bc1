import Mathlib.Data.Prod.Lex
import Portamento.Proofs.Scalar.Exact
import Portamento.Scalar.Double

/-!
# What is no number

A double may be no number, and is then in no relation to anything, itself included. All others have
a place in one order, from minus infinity to infinity, in which the two zeros share theirs. So the
comparisons of doubles are those of an order as far as numbers are compared, and what rests on
comparisons alone can be said of doubles and of the exact reading at once.
-/

namespace Portamento

/-- Whether a value is a number at all: only such a value equals itself. -/
def Scalar.IsNumber {α : Type} [Scalar α] (x : α) : Prop := x ≤ x

/-- Numbers whose comparisons are those of an order, with values that are no numbers. -/
class Scalar.Compared (α : Type) [Scalar α] : Prop where
  le_of_lt (a b : α) : a < b → a ≤ b
  lt_of_le_of_lt (a b c : α) : a ≤ b → b < c → a < c
  not_lt_of_le (a b : α) : a ≤ b → ¬ b < a
  le_or_lt (a b : α) : IsNumber a → IsNumber b → a ≤ b ∨ b < a
  isNumber_of_lt (a b : α) : a < b → IsNumber a

instance Scalar.instComparedReal : Compared ℝ where
  le_of_lt _ _ := le_of_lt
  lt_of_le_of_lt _ _ _ := lt_of_le_of_lt
  not_lt_of_le _ _ := not_lt_of_ge
  le_or_lt a b _ _ := le_or_gt a b
  isNumber_of_lt a _ _ := le_refl a

namespace Decimal

open Float.Model Float.Model.UnpackedFloat

/-- Where a number stands among all doubles: its kind, and within a kind its exponent and its
mantissa, both turned round below zero. -/
def place? : UnpackedFloat → Option (ℤ ×ₗ ℤ ×ₗ ℤ)
  | .infinity .negative => some (toLex (-2, toLex (0, 0)))
  | .finite .negative mantissa exponent _ => some (toLex (-1, toLex (-exponent, -mantissa)))
  | .zero _ => some (toLex (0, toLex (0, 0)))
  | .finite .positive mantissa exponent _ => some (toLex (1, toLex (exponent, mantissa)))
  | .infinity .positive => some (toLex (2, toLex (0, 0)))
  | .notANumber => none

theorem compare_toLex (kind kind' exponent exponent' mantissa mantissa' : ℤ) :
    compare (toLex (kind, toLex (exponent, mantissa)))
        (toLex (kind', toLex (exponent', mantissa'))) =
      (compare kind kind').then
        ((compare exponent exponent').then (compare mantissa mantissa')) := by
  simp only [Prod.Lex.compare_def, compareLex, compareOn, ofLex_toLex]

theorem compare_neg (a b : ℤ) : compare (-a) (-b) = (compare a b).swap := by
  rcases lt_trichotomy a b with less | rfl | more
  · rw [compare_lt_iff_lt.mpr less, compare_gt_iff_gt.mpr (neg_lt_neg less)]
    rfl
  · simp
  · rw [compare_gt_iff_gt.mpr more, compare_lt_iff_lt.mpr (neg_lt_neg more)]
    rfl

/-- Numbers are compared by their places. -/
theorem compare_eq (a b : UnpackedFloat) :
    a.compare b = (place? a).bind fun p => (place? b).map fun q => compare p q := by
  have natCast (m n : ℕ) : compare m n = compare (m : ℤ) n := by
    simp only [compare, compareOfLessAndEq, Nat.cast_lt, Nat.cast_inj]
  rcases a with ⟨_ | _⟩ | _ | _ | ⟨_ | _, m, e, _⟩ <;>
    rcases b with ⟨_ | _⟩ | _ | _ | ⟨_ | _, m', e', _⟩ <;>
    simp only [UnpackedFloat.compare, place?, Option.bind_some, Option.map_some, compare_toLex,
      compare_neg, natCast, Ordering.swap_then] <;>
    rfl

section Float

variable {a b : Float}

theorem lt_iff_place : a < b ↔ ∃ p q, place? a.toModel.unpack = some p ∧
    place? b.toModel.unpack = some q ∧ p < q := by
  have compared : a < b ↔ a.toModel.unpack.compare b.toModel.unpack = some .lt := by
    show Float.lt a b = true ↔ _
    simp only [Float.lt, decide_eq_true_eq]
    exact beq_iff_eq
  rw [compared, compare_eq]
  simp [Option.bind_eq_some_iff, compare_lt_iff_lt]

theorem le_iff_place : a ≤ b ↔ ∃ p q, place? a.toModel.unpack = some p ∧
    place? b.toModel.unpack = some q ∧ p ≤ q := by
  have compared : a ≤ b ↔
      (a.toModel.unpack.compare b.toModel.unpack).any Ordering.isLE = true := by
    show Float.le a b = true ↔ _
    simp only [Float.le, decide_eq_true_eq]
    rfl
  rw [compared, compare_eq]
  cases place? a.toModel.unpack <;> cases place? b.toModel.unpack <;>
    simp [Ordering.isLE_iff_ne_gt, compare_gt_iff_gt]

end Float

end Decimal

namespace Scalar

open Decimal

theorem isNumber_iff_place {x : Float} :
    IsNumber x ↔ ∃ p, place? x.toModel.unpack = some p := by
  unfold IsNumber
  rw [le_iff_place]
  exact ⟨fun ⟨p, _, found, _⟩ => ⟨p, found⟩, fun ⟨p, found⟩ => ⟨p, p, found, found, le_refl p⟩⟩

instance instComparedFloat : Compared Float where
  le_of_lt a b less := by
    obtain ⟨p, q, at_a, at_b, order⟩ := lt_iff_place.mp less
    exact le_iff_place.mpr ⟨p, q, at_a, at_b, order.le⟩
  lt_of_le_of_lt a b c first second := by
    obtain ⟨p, q, at_a, at_b, order⟩ := le_iff_place.mp first
    obtain ⟨q', r, at_b', at_c, order'⟩ := lt_iff_place.mp second
    obtain rfl : q = q' := Option.some.inj (at_b.symm.trans at_b')
    exact lt_iff_place.mpr ⟨p, r, at_a, at_c, lt_of_le_of_lt order order'⟩
  not_lt_of_le a b first second := by
    obtain ⟨p, q, at_a, at_b, order⟩ := le_iff_place.mp first
    obtain ⟨q', p', at_b', at_a', order'⟩ := lt_iff_place.mp second
    obtain rfl : p = p' := Option.some.inj (at_a.symm.trans at_a')
    obtain rfl : q = q' := Option.some.inj (at_b.symm.trans at_b')
    exact not_lt_of_ge order order'
  le_or_lt a b number number' := by
    obtain ⟨p, at_a⟩ := isNumber_iff_place.mp number
    obtain ⟨q, at_b⟩ := isNumber_iff_place.mp number'
    rcases le_or_gt p q with order | order
    · exact .inl (le_iff_place.mpr ⟨p, q, at_a, at_b, order⟩)
    · exact .inr (lt_iff_place.mpr ⟨q, p, at_b, at_a, order⟩)
  isNumber_of_lt a b less := by
    obtain ⟨p, -, at_a, -⟩ := lt_iff_place.mp less
    exact isNumber_iff_place.mpr ⟨p, at_a⟩

end Scalar

end Portamento
