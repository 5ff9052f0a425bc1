import Mathlib
import Portamento.Proofs.Scalar.Ordered

/-!
# The numbers read exactly

The reals as the numbers that time and sound are computed with: no operation rounds, and every value
is finite. A theorem about reals says what a definition computes when its arithmetic is exact.
-/

namespace Portamento

section Literals

/-! A definition with a literal in it refers to a proof that the literal is two or more. One
instance serves for all literals, so that no proof is made up for each definition. -/

/-- A comparison of literals that comes out true. -/
class ComesOut (comparison : Bool) : Prop where
  eq_true : comparison = true

-- the comparison is to be evaluated, and not looked up as it is written
instance comesOut : ComesOut (no_index true) := ⟨rfl⟩

instance atLeastTwo_literal (n : Nat) [large : ComesOut (Nat.ble 2 n)] : Nat.AtLeastTwo n :=
  ⟨Nat.le_of_ble_eq_true large.eq_true⟩

end Literals

/-- The whole number nearest to a real, the even one of two. -/
noncomputable def nearestEven (x : ℝ) : ℤ :=
  if Int.fract x = 1 / 2 then (if Even ⌊x⌋ then ⌊x⌋ else ⌊x⌋ + 1) else round x

/-- The whole number next to a real on the side of zero. -/
noncomputable def truncated (x : ℝ) : ℤ := if 0 ≤ x then ⌊x⌋ else ⌈x⌉

noncomputable instance Tonal.instReal : Tonal ℝ where
  ofNat n := n
  decidableLT := inferInstance
  decidableLE := inferInstance
  isFinite _ := true
  remainder x y := x - y * truncated (x / y)
  floorCount x := ⌊x⌋₊
  ceilCount x := ⌈x⌉₊
  nearestCount x := ⌊x + 1 / 2⌋₊
  nanoseconds x := (nearestEven (x * 1000000000)).toNat
  sin := Real.sin
  turn := 2 * Real.pi
  sample x := x

namespace Scalar

@[simp] theorem ofNat_real (n : Nat) : (ofNat n : ℝ) = n := rfl

theorem ratio_real (upper lower : Nat) : (ratio upper lower : ℝ) = upper / lower := rfl

theorem min_real (a b : ℝ) : Scalar.min a b = a ⊓ b := by
  unfold Scalar.min
  split
  · next h => exact (min_eq_left h.le).symm
  · next h =>
    rw [if_pos (le_refl b)]
    exact (min_eq_right (not_lt.mp h)).symm

theorem max_real (a b : ℝ) : Scalar.max a b = a ⊔ b := by
  unfold Scalar.max
  split
  · next h => exact (max_eq_left h.le).symm
  · next h =>
    rw [if_pos (le_refl b)]
    exact (max_eq_right (not_lt.mp h)).symm

/-- A reading of the clock is its nanoseconds in seconds, with nothing lost. -/
theorem ofNanoseconds_real (n : Nat) : (ofNanoseconds n : ℝ) = n / 1000000000 := by
  have parts : ((n / 1000000000 * 1000000000 + n % 1000000000 : Nat) : ℝ) = n := by
    rw [Nat.div_add_mod']
  push_cast at parts
  simp only [ofNanoseconds, ofNat_real, Nat.cast_ofNat]
  linarith

instance instOrderedReal : Ordered ℝ where
  le_trans _ _ _ := le_trans
  lt_trans _ _ _ := lt_trans
  lt_of_le_of_lt _ _ _ := lt_of_le_of_lt
  not_lt_of_le _ _ := not_lt_of_ge
  ofNanoseconds_le m n h := by
    rw [ofNanoseconds_real, ofNanoseconds_real]
    gcongr

instance instAntisymmetricReal : Antisymmetric ℝ where
  eq_of_le_of_le _ _ _ := le_antisymm

end Scalar

end Portamento
