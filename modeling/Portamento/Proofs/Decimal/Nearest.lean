import Mathlib
import Portamento.Decimal.Reading
import Portamento.Proofs.Decimal.Double

/-!
# The double nearest to a decimal

A decimal becomes a double by one operation of the model: a product or a quotient of two whole
numbers that is rounded once. So it becomes the double that it rounds to.
-/

namespace Portamento.Decimal

open Float.Model Float.Model.UnpackedFloat

namespace Magnitude

/-- The real that a magnitude is. -/
noncomputable def value (x : Magnitude) : ℝ := x.coefficient * 2 ^ x.exponent

variable {x : Magnitude} {v : ℝ}

/-- A magnitude rounds to itself. -/
theorem rounds_value (x : Magnitude) : x.Rounds x.value := by
  have unit : (0 : ℝ) < 2 ^ x.exponent := by positivity
  have low : x.low < x.value := by
    rw [low, value, zpow_sub_two]
    split_ifs <;> nlinarith
  have high : x.value < x.high := by
    rw [high, value, zpow_sub_two]
    nlinarith
  exact ⟨low.le, high.le, fun _ => ⟨low, high⟩⟩

/-- What rounds to a positive magnitude is within the range of the doubles. -/
theorem Rounds.range (rounds : x.Rounds v) (double : x.IsDouble) (positive : 0 < x.coefficient) :
    2 ^ (-1075 : ℤ) ≤ v ∧ v < 2 ^ (1024 : ℤ) := by
  have unit : (0 : ℝ) < 2 ^ x.exponent := by positivity
  obtain ⟨low, high, -⟩ := rounds.scaled
  rw [le_div_iff₀ unit] at low
  rw [div_le_iff₀ unit] at high
  constructor
  · have least : (2 : ℝ) ^ (-1074 : ℤ) ≤ 2 ^ x.exponent :=
      zpow_le_zpow_right₀ (by norm_num) double.least
    have half : (2 : ℝ) ^ (-1075 : ℤ) = 2 ^ (-1074 : ℤ) / 2 := by
      rw [show (-1075 : ℤ) = -1074 - 1 by norm_num, zpow_sub_one₀ (by norm_num)]
      rfl
    have one : (1 : ℝ) ≤ x.coefficient := by exact_mod_cast positive
    rw [half]
    split_ifs at low <;> nlinarith
  · have greatest : (2 : ℝ) ^ x.exponent ≤ 2 ^ (971 : ℤ) :=
      zpow_le_zpow_right₀ (by norm_num) double.greatest
    have power : (2 : ℝ) ^ (1024 : ℤ) = 2 ^ (971 : ℤ) * 2 ^ 53 := by
      rw [show (1024 : ℤ) = 971 + (53 : ℕ) by norm_num, zpow_add_natCast]
    have bits : (x.coefficient : ℝ) + 1 ≤ 2 ^ 53 := by exact_mod_cast double.bits
    calc v ≤ (x.coefficient + 1 / 2) * 2 ^ x.exponent := high
      _ < (x.coefficient + 1) * 2 ^ x.exponent := by linarith
      _ ≤ 2 ^ 53 * 2 ^ (971 : ℤ) := mul_le_mul bits greatest unit.le (by positivity)
      _ = 2 ^ (1024 : ℤ) := by rw [power, mul_comm]

end Magnitude

section Operations

variable {x : Magnitude}

/-- A mantissa without a rest is exact. -/
theorem accurate_exact (mantissa : Nat) (exponent : ℤ) :
    Accurate mantissa exponent .exact (mantissa * 2 ^ exponent) :=
  mul_div_cancel_right₀ _ (by positivity)

/-- What is left of a division tells how the quotient compares with a half. -/
theorem represents_div (n : Nat) {m : Nat} (some : 0 < m) :
    Represents (.ofMantissaAndAccuracy (n / m) (accuracyOfFraction (n % m) m)) (n / m : ℝ) := by
  have positive : (0 : ℝ) < m := by exact_mod_cast some
  have parts : (n : ℝ) = m * (n / m : ℕ) + (n % m : ℕ) := by
    exact_mod_cast (Nat.div_add_mod n m).symm
  have less : ((n % m : ℕ) : ℝ) < m := by exact_mod_cast Nat.mod_lt n some
  have quotient : (n / m : ℝ) = (n / m : ℕ) + (n % m : ℕ) / m := by
    rw [parts, add_div, mul_div_cancel_left₀ _ positive.ne']
  have small : ((n % m : ℕ) : ℝ) / m < 1 := (div_lt_one positive).mpr less
  unfold accuracyOfFraction
  split
  · next zero =>
    show _ = _
    rw [quotient, zero, Nat.cast_zero, zero_div, add_zero]
    rfl
  · next rest =>
    have rest : (0 : ℝ) < (n % m : ℕ) := by exact_mod_cast Nat.pos_of_ne_zero rest
    have more : (0 : ℝ) < (n % m : ℕ) / m := div_pos rest positive
    rw [quotient]
    cases order : compare (2 * (n % m)) m with
    | lt =>
      have half : (2 * (n % m : ℕ) : ℝ) < m := by exact_mod_cast Nat.compare_eq_lt.mp order
      have half : ((n % m : ℕ) : ℝ) / m < 1 / 2 := by
        rw [div_lt_iff₀ positive]
        linarith
      exact ⟨lt_add_of_pos_right _ more, add_lt_add_right half _⟩
    | eq =>
      have half : (2 * (n % m : ℕ) : ℝ) = m := by exact_mod_cast Nat.compare_eq_eq.mp order
      have half : ((n % m : ℕ) : ℝ) / m = 1 / 2 := by
        rw [div_eq_iff positive.ne']
        linarith
      exact congrArg _ half
    | gt =>
      have half : (m : ℝ) < 2 * (n % m : ℕ) := by exact_mod_cast Nat.compare_eq_gt.mp order
      have half : 1 / 2 < ((n % m : ℕ) : ℝ) / m := by
        rw [lt_div_iff₀ positive]
        linarith
      exact ⟨add_lt_add_right half _, add_lt_add_right small _⟩

/-- A quotient is one mantissa that is rounded, of so many places that none is lost before. -/
theorem exists_accurate_div {m₁ m₂ : Nat} (e₁ e₂ : ℤ) (some₁ : 0 < m₁) (some₂ : 0 < m₂) :
    ∃ mantissa exponent accuracy,
      Accurate mantissa exponent accuracy (m₁ * 2 ^ e₁ / (m₂ * 2 ^ e₂)) ∧
      exponent ≤ Format.binary64.targetExponent (totalExponent mantissa exponent) ∧
      UnpackedFloat.div .binary64 (.finite .positive m₁ e₁ some₁) (.finite .positive m₂ e₂ some₂) =
        roundWithAccuracy .binary64 .positive mantissa exponent accuracy := by
  let t := min (e₁ - e₂)
    (Format.binary64.targetExponent (totalExponent m₁ e₁ - totalExponent m₂ e₂))
  let n := m₁ <<< (e₁ - e₂ - t).toNat
  have scaled : (m₁ * 2 ^ e₁ / (m₂ * 2 ^ e₂) : ℝ) / 2 ^ t = n / m₂ := by
    obtain ⟨k, exponent⟩ : ∃ k : Nat, e₁ - e₂ - t = k :=
      ⟨_, (Int.toNat_of_nonneg (sub_nonneg.mpr (min_le_left _ _))).symm⟩
    have power : (2 : ℝ) ^ e₁ = 2 ^ e₂ * 2 ^ t * 2 ^ k := by
      rw [← zpow_add₀ (by norm_num), ← Magnitude.zpow_add_natCast, ← exponent]
      congr 1
      ring
    simp only [n, exponent, Int.toNat_natCast, Nat.shiftLeft_eq]
    rw [power]
    push_cast
    field_simp
  have accurate : Accurate (n / m₂) t (accuracyOfFraction (n % m₂) m₂)
      (m₁ * 2 ^ e₁ / (m₂ * 2 ^ e₂)) := by
    rw [Accurate, scaled]
    exact represents_div n some₂
  -- the places of the quotient are those of the two numbers, or one more
  have places : totalExponent m₁ e₁ - totalExponent m₂ e₂ ≤ totalExponent (n / m₂) t := by
    have least : (2 : ℝ) ^ (totalExponent m₁ e₁ - 1) ≤ m₁ * 2 ^ e₁ :=
      (accurate_exact m₁ e₁).le some₁.ne'
    have greatest : (m₂ : ℝ) * 2 ^ e₂ < 2 ^ totalExponent m₂ e₂ := (accurate_exact m₂ e₂).lt
    have quotient : (2 : ℝ) ^ (totalExponent m₁ e₁ - 1 - totalExponent m₂ e₂) <
        2 ^ totalExponent (n / m₂) t := by
      rw [zpow_sub₀ (by norm_num)]
      refine lt_of_le_of_lt ?_ accurate.lt
      gcongr
    have order := (zpow_lt_zpow_iff_right₀ (by norm_num)).mp quotient
    omega
  refine ⟨_, t, _, accurate, ?_, rfl⟩
  refine (min_le_right _ _).trans ?_
  rw [Magnitude.targetExponent_binary64, Magnitude.targetExponent_binary64]
  omega

/-- A product of many places is one mantissa that is rounded, and none is lost before. -/
theorem accurate_mul {m₁ m₂ : Nat} (e₁ e₂ : ℤ) (places : 2 ^ 52 ≤ m₁ * m₂) :
    Accurate (m₁ * m₂) (e₁ + e₂) .exact (m₁ * 2 ^ e₁ * (m₂ * 2 ^ e₂)) ∧
      e₁ + e₂ ≤ Format.binary64.targetExponent (totalExponent (m₁ * m₂) (e₁ + e₂)) := by
  have product : (m₁ * 2 ^ e₁ * (m₂ * 2 ^ e₂) : ℝ) = (m₁ * m₂ : ℕ) * 2 ^ (e₁ + e₂) := by
    rw [zpow_add₀ (by norm_num)]
    push_cast
    ring
  constructor
  · rw [product]
    exact accurate_exact (m₁ * m₂) (e₁ + e₂)
  · have some : m₁ * m₂ ≠ 0 := by
      rintro none
      rw [none] at places
      norm_num at places
    have bits := (Nat.le_log2 some).mpr places
    rw [Magnitude.targetExponent_binary64, totalExponent]
    omega

/-- A quotient is rounded to the magnitude that it rounds to. -/
theorem div_finite {m₁ m₂ : Nat} {e₁ e₂ : ℤ} (some₁ : 0 < m₁) (some₂ : 0 < m₂)
    (double : x.IsDouble) (positive : 0 < x.coefficient)
    (rounds : x.Rounds (m₁ * 2 ^ e₁ / (m₂ * 2 ^ e₂))) :
    UnpackedFloat.div .binary64 (.finite .positive m₁ e₁ some₁) (.finite .positive m₂ e₂ some₂) =
      .finite .positive x.coefficient x.exponent positive := by
  obtain ⟨_, _, _, accurate, fine, quotient⟩ := exists_accurate_div e₁ e₂ some₁ some₂
  rw [quotient, accurate.round fine double positive rounds]

/-- A product of many places is rounded to the magnitude that it rounds to. -/
theorem mul_finite {m₁ m₂ : Nat} {e₁ e₂ : ℤ} (some₁ : 0 < m₁) (some₂ : 0 < m₂)
    (places : 2 ^ 52 ≤ m₁ * m₂) (double : x.IsDouble) (positive : 0 < x.coefficient)
    (rounds : x.Rounds (m₁ * 2 ^ e₁ * (m₂ * 2 ^ e₂))) :
    UnpackedFloat.mul .binary64 (.finite .positive m₁ e₁ some₁) (.finite .positive m₂ e₂ some₂) =
      .finite .positive x.coefficient x.exponent positive := by
  obtain ⟨accurate, fine⟩ := accurate_mul e₁ e₂ places
  exact accurate.round fine double positive rounds (.positive * .positive)

/-- A quotient of doubles is the double that it rounds to. -/
theorem div_ofMagnitude {a b : Magnitude} (doubleA : a.IsDouble) (someA : 0 < a.coefficient)
    (doubleB : b.IsDouble) (someB : 0 < b.coefficient) (double : x.IsDouble)
    (positive : 0 < x.coefficient) (rounds : x.Rounds (a.value / b.value)) :
    ofMagnitude false a / ofMagnitude false b = ofMagnitude false x := by
  have model : ofMagnitude false a / ofMagnitude false b =
      .ofModel (.pack (UnpackedFloat.div .binary64 (ofMagnitude false a).toModel.unpack
        (ofMagnitude false b).toModel.unpack)) := rfl
  rw [model, unpack_ofMagnitude doubleA, unpack_ofMagnitude doubleB, Magnitude.unpacked_eq someA,
    Magnitude.unpacked_eq someB, ofMagnitude, Magnitude.unpacked_eq positive]
  exact congrArg _ (congrArg _ (div_finite someA someB double positive rounds))

/-- A product of doubles, one of which is not small, is the double that it rounds to. -/
theorem mul_ofMagnitude {a b : Magnitude} (doubleA : a.IsDouble) (full : 2 ^ 52 ≤ a.coefficient)
    (doubleB : b.IsDouble) (someB : 0 < b.coefficient) (double : x.IsDouble)
    (positive : 0 < x.coefficient) (rounds : x.Rounds (a.value * b.value)) :
    ofMagnitude false a * ofMagnitude false b = ofMagnitude false x := by
  have someA : 0 < a.coefficient := lt_of_lt_of_le (by norm_num) full
  have places : 2 ^ 52 ≤ a.coefficient * b.coefficient :=
    full.trans (Nat.le_mul_of_pos_right _ someB)
  have model : ofMagnitude false a * ofMagnitude false b =
      .ofModel (.pack (UnpackedFloat.mul .binary64 (ofMagnitude false a).toModel.unpack
        (ofMagnitude false b).toModel.unpack)) := rfl
  rw [model, unpack_ofMagnitude doubleA, unpack_ofMagnitude doubleB, Magnitude.unpacked_eq someA,
    Magnitude.unpacked_eq someB, ofMagnitude, Magnitude.unpacked_eq positive]
  exact congrArg _ (congrArg _ (mul_finite someA someB places double positive rounds))

end Operations

/-- A whole number times a power of two, with as many places as a double has. -/
def Magnitude.ofCount (n : Nat) (e : ℤ) : Magnitude :=
  ⟨n * 2 ^ (52 - n.log2), e - (52 - n.log2 : ℕ)⟩

section Count

variable {n : Nat} {e : ℤ}

theorem coefficient_ofCount (some : 0 < n) (bits : n < 2 ^ 53) :
    2 ^ 52 ≤ (Magnitude.ofCount n e).coefficient ∧
      (Magnitude.ofCount n e).coefficient < 2 ^ 53 := by
  have places : n.log2 + (52 - n.log2) = 52 := by
    have := (Nat.log2_lt some.ne').mpr bits
    omega
  have low := Nat.log2_self_le some.ne'
  have high := @Nat.lt_log2_self n
  constructor
  · calc 2 ^ 52 = 2 ^ n.log2 * 2 ^ (52 - n.log2) := by rw [← pow_add, places]
      _ ≤ n * 2 ^ (52 - n.log2) := Nat.mul_le_mul_right _ low
  · calc n * 2 ^ (52 - n.log2) < 2 ^ (n.log2 + 1) * 2 ^ (52 - n.log2) := by gcongr
      _ = 2 ^ 53 := by rw [← pow_add, add_right_comm, places]

theorem isDouble_ofCount (some : 0 < n) (bits : n < 2 ^ 53) (least : -1022 ≤ e)
    (greatest : e ≤ 971) : (Magnitude.ofCount n e).IsDouble := by
  obtain ⟨full, less⟩ := coefficient_ofCount (e := e) some bits
  refine ⟨less, ?_, ?_, .inl full⟩
  · show -1074 ≤ e - (52 - n.log2 : ℕ)
    omega
  · show e - (52 - n.log2 : ℕ) ≤ 971
    omega

theorem value_ofCount : (Magnitude.ofCount n e).value = n * 2 ^ e := by
  have power : (2 : ℝ) ^ e = 2 ^ (e - (52 - n.log2 : ℕ)) * 2 ^ (52 - n.log2) := by
    rw [← Magnitude.zpow_add_natCast, sub_add_cancel]
  rw [power]
  simp only [Magnitude.ofCount, Magnitude.value]
  push_cast
  ring

/-- A whole number of not too many places is itself a double. -/
theorem toFloat_eq (some : 0 < n) (bits : n < 2 ^ 53) :
    n.toUInt64.toFloat = ofMagnitude false (.ofCount n 0) := by
  have word : n.toUInt64.toNat = n := by
    rw [Nat.toUInt64_eq, UInt64.toNat_ofNat']
    omega
  have double := isDouble_ofCount (e := 0) some bits (by norm_num) (by norm_num)
  have positive : 0 < (Magnitude.ofCount n 0).coefficient :=
    lt_of_lt_of_le (by norm_num) (coefficient_ofCount some bits).1
  have top : n.log2 < 53 := (Nat.log2_lt some.ne').mpr bits
  have order : compare (n : ℤ) 0 = .gt := by
    rw [compare_gt_iff_gt]
    exact_mod_cast some
  have target : Format.binary64.targetExponent (totalExponent n 0) = (n.log2 : ℤ) - 52 := by
    rw [Magnitude.targetExponent_binary64, totalExponent]
    omega
  have shift : (0 - ((n.log2 : ℤ) - 52)).toNat = 52 - n.log2 := by omega
  have model : n.toUInt64.toFloat = .ofModel (.pack (roundWithAccuracy .binary64 .positive
      (Magnitude.ofCount n 0).coefficient (Magnitude.ofCount n 0).exponent .exact)) := by
    have unfolded : n.toUInt64.toFloat =
        .ofModel (.pack (UnpackedFloat.normalize .binary64 n.toUInt64.toNat 0 .positive)) := rfl
    rw [unfolded, word]
    simp only [UnpackedFloat.normalize, order, UnpackedFloat.round, Int.toNat_natCast, target,
      decreaseExponent, shift, Nat.shiftLeft_eq, Magnitude.ofCount]
  rw [model, (accurate_exact _ _).round (double.isRounded.targetExponent_eq positive).ge double
    positive (Magnitude.rounds_value _) .positive, ofMagnitude, Magnitude.unpacked_eq positive]
  rfl

/-- The powers of ten that are doubles. -/
theorem exactlyRepresentablePowersOfTen_eq : ∀ k : Fin 23,
    Float.exactlyRepresentablePowersOfTen[k] = ofMagnitude false (.ofCount (5 ^ k.val) k.val) := by
  decide +kernel

/-- A number divided by a power of ten, as the quotient of two doubles. -/
theorem value_div_ofCount (m k : Nat) :
    (Magnitude.ofCount m 0).value / (Magnitude.ofCount (5 ^ k) k).value =
      m * (10 : ℝ) ^ (-k : ℤ) := by
  rw [value_ofCount, value_ofCount, zpow_natCast, zpow_neg, zpow_natCast, zpow_zero, mul_one]
  push_cast
  rw [← mul_pow, div_eq_mul_inv]
  norm_num

/-- A number times a power of ten, as the product of two doubles. -/
theorem value_mul_ofCount (m k : Nat) :
    (Magnitude.ofCount m 0).value * (Magnitude.ofCount (5 ^ k) k).value =
      m * (10 : ℝ) ^ (k : ℤ) := by
  rw [value_ofCount, value_ofCount, zpow_natCast, zpow_natCast, zpow_zero, mul_one]
  push_cast
  rw [← mul_pow]
  norm_num

/-- An integer from its sign and its size. -/
theorem signed_natAbs (e : ℤ) :
    (if decide (e < 0) = true then Int.negOfNat e.natAbs else Int.ofNat e.natAbs) = e := by
  split
  · next negative =>
    have less := of_decide_eq_true negative
    rw [Int.negOfNat_eq, Int.ofNat_eq_natCast]
    omega
  · next natural =>
    have least := of_decide_eq_false (Bool.not_eq_true _ ▸ natural)
    rw [Int.ofNat_eq_natCast]
    omega

/-- The model reads a decimal that is not far out of range as the double that it rounds to. -/
theorem model_ofScientific {x : Magnitude} {m : Nat} {e : ℤ} (some : 0 < m) (double : x.IsDouble)
    (positive : 0 < x.coefficient) (rounds : x.Rounds (m * 10 ^ e)) (small : e ≤ 2 ^ 11)
    (large : -(2 ^ 11 + (m.log2 : ℤ)) ≤ e) :
    Float.ofModel (.ofScientific m e) = ofMagnitude false x := by
  have model : Float.ofModel (.ofScientific m e) =
      .ofModel (.pack (UnpackedFloat.ofScientific .binary64 m e)) := rfl
  rw [model, ofMagnitude, Magnitude.unpacked_eq positive]
  refine congrArg _ (congrArg _ ?_)
  unfold UnpackedFloat.ofScientific
  rw [dif_neg some.ne', if_neg (not_lt.mpr small), if_neg (not_lt.mpr large)]
  split
  · next natural =>
    have places : 2 ^ 52 ≤ m <<< Format.binary64.mantissaBits * 10 ^ e.toNat := by
      have ten : 1 ≤ 10 ^ e.toNat := Nat.one_le_pow _ _ (by norm_num)
      have bits : Format.binary64.mantissaBits = 53 := rfl
      rw [bits, Nat.shiftLeft_eq]
      nlinarith
    refine mul_finite _ _ places double positive ?_
    convert rounds using 1
    obtain ⟨k, rfl⟩ := Int.eq_ofNat_of_zero_le natural
    have bits : Format.binary64.mantissaBits = 53 := rfl
    rw [bits, Nat.shiftLeft_eq]
    push_cast
    rw [Int.toNat_natCast, zpow_neg, zpow_natCast]
    norm_num
    ring
  · next negative =>
    refine div_finite _ _ double positive ?_
    convert rounds using 1
    obtain ⟨k, rfl⟩ := Int.exists_eq_neg_ofNat (not_le.mp negative).le
    push_cast
    rw [neg_neg, Int.toNat_natCast, zpow_neg, zpow_natCast]
    field_simp

/-- A decimal becomes the double that it rounds to, if it is not far out of range. -/
theorem ofScientific_eq {x : Magnitude} {m : Nat} {e : ℤ} (some : 0 < m) (double : x.IsDouble)
    (positive : 0 < x.coefficient) (rounds : x.Rounds (m * 10 ^ e)) (small : e ≤ 2 ^ 11)
    (large : -(2 ^ 11 + (m.log2 : ℤ)) ≤ e) :
    Float.ofScientific m (e < 0) e.natAbs = ofMagnitude false x := by
  unfold Float.ofScientific
  split
  · next few =>
    obtain ⟨bits, few⟩ := few
    -- the number and the power of ten are doubles
    have power := exactlyRepresentablePowersOfTen_eq ⟨e.natAbs, Nat.lt_succ_of_le few⟩
    have bound : 5 ^ e.natAbs < 2 ^ 53 :=
      lt_of_le_of_lt (Nat.pow_le_pow_right (by norm_num) few) (by norm_num)
    have five : 0 < 5 ^ e.natAbs := by positivity
    have full := (coefficient_ofCount (e := 0) some bits).1
    have doubleA := isDouble_ofCount (e := 0) some bits (by norm_num) (by norm_num)
    have doubleB := isDouble_ofCount (e := e.natAbs) five bound (by omega) (by omega)
    have someB : 0 < (Magnitude.ofCount (5 ^ e.natAbs) e.natAbs).coefficient :=
      lt_of_lt_of_le (by norm_num) (coefficient_ofCount five bound).1
    rw [toFloat_eq some bits]
    simp only [Fin.getElem_fin] at power
    rw [power]
    by_cases negative : e < 0
    · have size : -(e.natAbs : ℤ) = e := by omega
      rw [← size, ← value_div_ofCount] at rounds
      rw [if_pos (by simpa using negative)]
      have someA : 0 < (Magnitude.ofCount m 0).coefficient := lt_of_lt_of_le (by norm_num) full
      exact div_ofMagnitude doubleA someA doubleB someB double positive rounds
    · have size : (e.natAbs : ℤ) = e := by omega
      rw [← size, ← value_mul_ofCount] at rounds
      rw [if_neg (by simpa using negative)]
      exact mul_ofMagnitude doubleA full doubleB someB double positive rounds
  · rw [signed_natAbs]
    exact model_ofScientific some double positive rounds small large

end Count

section Decimals

variable {x : Magnitude} {m : Nat} {e : ℤ}

/-- A number of so many digits lies between two powers of ten. -/
theorem length_toDigits (some : 0 < m) :
    m < 10 ^ (Nat.toDigits 10 m).length ∧ 10 ^ ((Nat.toDigits 10 m).length - 1) ≤ m := by
  have digits : 0 < (Nat.toDigits 10 m).length := Nat.length_toDigits_pos
  refine ⟨(Nat.length_toDigits_le_iff (by norm_num) digits).mp le_rfl, ?_⟩
  by_contra less
  rcases Nat.eq_zero_or_pos ((Nat.toDigits 10 m).length - 1) with one | more
  · rw [one] at less
    omega
  · have fewer := (Nat.length_toDigits_le_iff (by norm_num) more).mpr (not_le.mp less)
    omega

/-- The range of the doubles in powers of ten. -/
theorem powers_of_ten : 2 ^ 1024 < 10 ^ 309 ∧ 2 ^ 1075 < 10 ^ 324 := by decide +kernel

/-- What a decimal that rounds to a double has for its first place. -/
theorem place_bounds (some : 0 < m) (double : x.IsDouble) (positive : 0 < x.coefficient)
    (rounds : x.Rounds (m * 10 ^ e)) :
    -324 < e + (Nat.toDigits 10 m).length ∧ e + (Nat.toDigits 10 m).length < 310 := by
  obtain ⟨high, low⟩ := length_toDigits some
  obtain ⟨least, greatest⟩ := rounds.range double positive
  have digits : 0 < (Nat.toDigits 10 m).length := Nat.length_toDigits_pos
  have unit : (0 : ℝ) < 10 ^ e := by positivity
  have ten : (1 : ℝ) < 10 := by norm_num
  constructor
  · have below : (10 : ℝ) ^ (-324 : ℤ) < 10 ^ (e + (Nat.toDigits 10 m).length) := by
      have high : (m : ℝ) < 10 ^ (Nat.toDigits 10 m).length := by exact_mod_cast high
      have range : (2 : ℝ) ^ (1075 : ℤ) < 10 ^ (324 : ℤ) := by exact_mod_cast powers_of_ten.2
      calc (10 : ℝ) ^ (-324 : ℤ) < 2 ^ (-1075 : ℤ) := by
            rw [zpow_neg, zpow_neg]
            exact inv_strictAnti₀ (by positivity) range
        _ ≤ m * 10 ^ e := least
        _ < 10 ^ (Nat.toDigits 10 m).length * 10 ^ e := by gcongr
        _ = 10 ^ (e + (Nat.toDigits 10 m).length) := by
          rw [zpow_add₀ (by norm_num), zpow_natCast, mul_comm]
    exact (zpow_lt_zpow_iff_right₀ ten).mp below
  · have above : (10 : ℝ) ^ (e + ((Nat.toDigits 10 m).length - 1 : ℕ)) < 10 ^ (309 : ℤ) := by
      have low : (10 : ℝ) ^ ((Nat.toDigits 10 m).length - 1) ≤ m := by exact_mod_cast low
      calc (10 : ℝ) ^ (e + ((Nat.toDigits 10 m).length - 1 : ℕ))
          = 10 ^ ((Nat.toDigits 10 m).length - 1) * 10 ^ e := by
            rw [zpow_add₀ (by norm_num), zpow_natCast, mul_comm]
        _ ≤ m * 10 ^ e := by gcongr
        _ < 2 ^ (1024 : ℤ) := greatest
        _ < 10 ^ (309 : ℤ) := by exact_mod_cast powers_of_ten.1
    have places := (zpow_lt_zpow_iff_right₀ ten).mp above
    omega

/-- The double nearest to a decimal is the one that it rounds to. -/
theorem nearestDouble_eq (double : x.IsDouble) (positive : 0 < x.coefficient)
    (rounds : x.Rounds (m * 10 ^ e)) : nearestDouble m e = ofMagnitude false x := by
  have some : 0 < m := by
    have range := (rounds.range double positive).1
    by_contra none
    rw [Nat.eq_zero_of_not_pos none, Nat.cast_zero, zero_mul] at range
    exact absurd range (not_le.mpr (by positivity))
  obtain ⟨high, low⟩ := length_toDigits some
  obtain ⟨least, greatest⟩ := place_bounds some double positive rounds
  have digits : 0 < (Nat.toDigits 10 m).length := Nat.length_toDigits_pos
  have places : (Nat.toDigits 10 m).length - 1 ≤ m.log2 := by
    refine (Nat.le_log2 some.ne').mpr (le_trans ?_ low)
    exact Nat.pow_le_pow_left (by norm_num) _
  unfold nearestDouble
  simp only []
  rw [if_neg (by omega), if_neg (by omega)]
  exact ofScientific_eq some double positive rounds (by omega) (by omega)

/-- Digits of a decimal become the double that it rounds to. -/
theorem nearestDoubleOf_eq {digits : List Char} (few : digits.length ≤ decisiveDigits)
    (double : x.IsDouble) (positive : 0 < x.coefficient)
    (rounds : x.Rounds (digitsValue digits * 10 ^ e)) :
    nearestDoubleOf digits e = ofMagnitude false x := by
  rw [nearestDoubleOf, if_pos few, nearestDouble_eq double positive rounds]

end Decimals

end Portamento.Decimal
