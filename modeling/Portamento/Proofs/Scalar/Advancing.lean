import Portamento.Proofs.Decimal.Sum

/-!
# Numbers that do not go back

A time to which lengths are added, one after the other, does not go back. That rests on the
comparisons being those of an order, and on one property of addition: what is added without being
negative leaves no less. Doubles have it, although their sums are rounded and may leave the range,
as long as the first time is finite; with minus infinity and infinity together it would fail.
-/

namespace Portamento

namespace Scalar

/-- Numbers that become no less when something is added to them that is not negative, from a finite
one on. -/
class Advancing (α : Type) [Scalar α] : Prop extends Compared α where
  isNumber_of_isFinite (a : α) : isFinite a = true → IsNumber a
  isNumber_of_le (a b : α) : a ≤ b → IsNumber a ∧ IsNumber b
  le_add (low a length : α) : isFinite low = true → low ≤ a → ofNat 0 ≤ length → a ≤ a + length

instance instAdvancingReal : Advancing ℝ where
  isNumber_of_isFinite a _ := le_refl a
  isNumber_of_le a b _ := ⟨le_refl a, le_refl b⟩
  le_add _ a length _ _ positive := by
    rw [ofNat_real, Nat.cast_zero] at positive
    exact le_add_of_nonneg_right positive

open Decimal in
instance instAdvancingFloat : Advancing Float where
  isNumber_of_isFinite a finite := by
    have unpacked : a.toModel.unpack.isFinite = true := finite
    refine le_iff_place.mpr (isBelow_refl fun none => ?_)
    rw [none] at unpacked
    cases unpacked
  isNumber_of_le a b order := by
    obtain ⟨p, q, at_a, at_b, -⟩ := le_iff_place.mp order
    exact ⟨isNumber_iff_place.mpr ⟨p, at_a⟩, isNumber_iff_place.mpr ⟨q, at_b⟩⟩
  le_add _ _ _ := Decimal.le_add

namespace Advancing

variable {α : Type} [Scalar α] [Advancing α] {a b c : α}

theorem le_trans (first : a ≤ b) (second : b ≤ c) : a ≤ c :=
  (Compared.le_or_lt a c (isNumber_of_le a b first).1 (isNumber_of_le b c second).2).resolve_right
    fun less => Compared.not_lt_of_le a b first (Compared.lt_of_le_of_lt b c a second less)

theorem lt_of_lt_of_le (first : a < b) (second : b ≤ c) : a < c :=
  (Compared.le_or_lt c a (isNumber_of_le b c second).2
    (Compared.isNumber_of_lt a b first)).resolve_left
    fun more => Compared.not_lt_of_le b c second (Compared.lt_of_le_of_lt c a b more first)

end Advancing

end Scalar

end Portamento
