import Portamento.Proofs.Scalar.Exact

/-!
# Exact numbers with a range

The reals are all finite, so that on them no computation is ever refused for leaving the range of
its numbers. Here a value counts as finite up to a limit only. The arithmetic is that of the reals.
-/

namespace Portamento

/-- A real, finite up to a limit. -/
@[ext]
structure Ranged (limit : ℝ) where
  value : ℝ

namespace Ranged

variable {limit : ℝ}

noncomputable instance instScalar : Scalar (Ranged limit) where
  ofNat n := ⟨n⟩
  add x y := ⟨x.value + y.value⟩
  sub x y := ⟨x.value - y.value⟩
  mul x y := ⟨x.value * y.value⟩
  div x y := ⟨x.value / y.value⟩
  lt x y := x.value < y.value
  le x y := x.value ≤ y.value
  decidableLT := Classical.decRel _
  decidableLE := Classical.decRel _
  isFinite x := decide (|x.value| ≤ limit)
  remainder x y := ⟨Scalar.remainder x.value y.value⟩
  floorCount x := Scalar.floorCount x.value
  ceilCount x := Scalar.ceilCount x.value
  nearestCount x := Scalar.nearestCount x.value
  nanoseconds x := Scalar.nanoseconds x.value

variable (x y : Ranged limit)

@[simp] theorem value_ofNat (n : Nat) : (Scalar.ofNat n : Ranged limit).value = n := rfl

@[simp] theorem value_mul : (x * y).value = x.value * y.value := rfl

@[simp] theorem value_div : (x / y).value = x.value / y.value := rfl

theorem lt_iff : x < y ↔ x.value < y.value := Iff.rfl

theorem isFinite_iff : Scalar.isFinite x = true ↔ |x.value| ≤ limit := decide_eq_true_iff

theorem value_power (n : Nat) : (Scalar.power x n).value = x.value ^ n := by
  induction n using Nat.strongRecOn generalizing x with
  | ind n ih =>
    rw [Scalar.power]
    split
    · next zero => simp [zero]
    · next more =>
      have half := ih (n / 2) (by omega) (x * x)
      have square : x.value * x.value = x.value ^ 2 := (sq x.value).symm
      rw [value_mul, square, ← pow_mul] at half
      split
      · next even =>
        rw [half]
        congr 1
        omega
      · next odd =>
        rw [value_mul, half, ← pow_succ]
        congr 1
        omega

theorem value_octaves (n : Int) : (Scalar.octaves n : Ranged limit).value = 2 ^ n := by
  unfold Scalar.octaves
  split
  · next up =>
    obtain ⟨m, rfl⟩ := Int.eq_ofNat_of_zero_le up
    simp [value_power]
  · next down =>
    obtain ⟨m, rfl⟩ : ∃ m : Nat, n = -m := ⟨(-n).toNat, by omega⟩
    simp [value_power]

end Ranged

end Portamento
