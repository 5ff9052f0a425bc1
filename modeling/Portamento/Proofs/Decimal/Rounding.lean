import Mathlib
import Portamento.Decimal.Binary
import Portamento.Proofs.Scalar.Exact

/-!
# The reals that round to a double

The model of the doubles rounds with a mantissa of as many bits as the operation leaves it, and with
two bits that tell how the rest compares with a half. It is shown here that whatever the operation,
the result is the magnitude among whose reals the exact value lies: those between half way to the
neighbour below and half way to the neighbour above, with the ends if the coefficient is even.
-/

namespace Portamento.Decimal

open Float.Model Float.Model.UnpackedFloat

/-- Whether a real is the one that a mantissa and its two bits tell of. -/
def Represents (em : ExtendedMantissa) (x : ℝ) : Prop :=
  match em.roundBit, em.stickyBit with
  | false, false => x = em.mantissa
  | false, true => em.mantissa < x ∧ x < em.mantissa + 1 / 2
  | true, false => x = em.mantissa + 1 / 2
  | true, true => em.mantissa + 1 / 2 < x ∧ x < em.mantissa + 1

/-- Whether a whole number is the nearest to a real, the even one of two. -/
structure RoundsTo (x : ℝ) (n : Nat) : Prop where
  low : n - 1 / 2 ≤ x
  high : x ≤ n + 1 / 2
  odd : n % 2 = 1 → n - 1 / 2 < x ∧ x < n + 1 / 2

namespace Represents

variable {em : ExtendedMantissa} {x : ℝ}

theorem bounds (represents : Represents em x) : em.mantissa ≤ x ∧ x < em.mantissa + 1 := by
  unfold Represents at represents
  split at represents
  · rw [represents]
    exact ⟨le_rfl, by linarith⟩
  · exact ⟨represents.1.le, by linarith [represents.2]⟩
  · rw [represents]
    exact ⟨by linarith, by linarith⟩
  · exact ⟨by linarith [represents.1], represents.2⟩

/-- A mantissa is rounded to the whole number that is nearest to what it tells of. -/
theorem rounded {n : Nat} (represents : Represents em x) (near : RoundsTo x n) :
    em.roundedMantissa = n := by
  obtain ⟨low, high, odd⟩ := near
  obtain ⟨mantissa, roundBit, stickyBit⟩ := em
  unfold Represents at represents
  unfold ExtendedMantissa.roundedMantissa ExtendedMantissa.accuracy
  cases roundBit <;> cases stickyBit <;>
    simp only [Accuracy.roundToNearestEven] at represents ⊢
  · -- the real is the mantissa
    have below : n < mantissa + 1 :=
      Nat.cast_lt.mp (by push_cast; linarith : (n : ℝ) < (mantissa + 1 : ℕ))
    have above : mantissa < n + 1 :=
      Nat.cast_lt.mp (by push_cast; linarith : (mantissa : ℝ) < (n + 1 : ℕ))
    omega
  · -- it is nearer to the mantissa than to the next one
    have below : n < mantissa + 1 :=
      Nat.cast_lt.mp (by push_cast; linarith : (n : ℝ) < (mantissa + 1 : ℕ))
    have above : mantissa < n + 1 :=
      Nat.cast_lt.mp (by push_cast; linarith : (mantissa : ℝ) < (n + 1 : ℕ))
    omega
  · -- it is half way between the two, and so the number is even
    have below : n < mantissa + 2 :=
      Nat.cast_lt.mp (by push_cast; linarith : (n : ℝ) < (mantissa + 2 : ℕ))
    have above : mantissa < n + 1 :=
      Nat.cast_lt.mp (by push_cast; linarith : (mantissa : ℝ) < (n + 1 : ℕ))
    have even : n % 2 = 0 := by
      by_contra uneven
      obtain ⟨low, high⟩ := odd (by omega)
      have below : n < mantissa + 1 :=
        Nat.cast_lt.mp (by push_cast; linarith : (n : ℝ) < (mantissa + 1 : ℕ))
      have above : mantissa < n :=
        Nat.cast_lt.mp (by linarith : (mantissa : ℝ) < n)
      omega
    omega
  · -- it is nearer to the next one
    have below : n < mantissa + 2 :=
      Nat.cast_lt.mp (by push_cast; linarith : (n : ℝ) < (mantissa + 2 : ℕ))
    have above : mantissa < n :=
      Nat.cast_lt.mp (by linarith : (mantissa : ℝ) < n)
    omega

/-- To drop the last bit of a mantissa is to halve what it tells of. -/
theorem shiftRightOne (represents : Represents em x) : Represents em.shiftRightOne (x / 2) := by
  obtain ⟨mantissa, roundBit, stickyBit⟩ := em
  obtain ⟨half, even | odd⟩ : ∃ half, mantissa = 2 * half ∨ mantissa = 2 * half + 1 :=
    ⟨mantissa / 2, by omega⟩
  · subst even
    have whole : 2 * half / 2 = half := by omega
    have bit : (2 * half % 2 != 0) = false := by simp
    cases roundBit <;> cases stickyBit <;>
      simp only [Represents, ExtendedMantissa.shiftRightOne, whole, bit, Bool.or_self, Bool.or_true,
        Bool.or_false] at represents ⊢ <;> push_cast at represents
    · linarith
    · constructor <;> linarith
    · constructor <;> linarith
    · constructor <;> linarith
  · subst odd
    have whole : (2 * half + 1) / 2 = half := by omega
    have bit : ((2 * half + 1) % 2 != 0) = true := by simp
    cases roundBit <;> cases stickyBit <;>
      simp only [Represents, ExtendedMantissa.shiftRightOne, whole, bit, Bool.or_self, Bool.or_true,
        Bool.or_false] at represents ⊢ <;> push_cast at represents
    · linarith
    · constructor <;> linarith
    · constructor <;> linarith
    · constructor <;> linarith

theorem shiftRight (represents : Represents em x) (n : Nat) :
    Represents (em >>> n) (x / 2 ^ n) := by
  show Represents (n.repeat ExtendedMantissa.shiftRightOne em) _
  induction n with
  | zero => simpa [Nat.repeat] using represents
  | succ n ih =>
    rw [Nat.repeat, pow_succ, ← div_div]
    exact ih.shiftRightOne

end Represents

/-- The magnitudes of the doubles: those of full precision, and those at the smallest exponent. -/
structure Magnitude.IsDouble (x : Magnitude) : Prop where
  bits : x.coefficient < 2 ^ 53
  least : -1074 ≤ x.exponent
  greatest : x.exponent ≤ 971
  full : 2 ^ 52 ≤ x.coefficient ∨ x.exponent = -1074

/-- The magnitudes that the model rounds to: those of the doubles, and their like at exponents that
are too great for a double. -/
structure Magnitude.IsRounded (x : Magnitude) : Prop where
  bits : x.coefficient < 2 ^ 53
  least : -1074 ≤ x.exponent
  full : 2 ^ 52 ≤ x.coefficient ∨ x.exponent = -1074

theorem Magnitude.isDouble_iff {x : Magnitude} :
    x.IsDouble ↔ x.IsRounded ∧ x.exponent ≤ 971 :=
  ⟨fun ⟨bits, least, greatest, full⟩ => ⟨⟨bits, least, full⟩, greatest⟩,
    fun ⟨⟨bits, least, full⟩, greatest⟩ => ⟨bits, least, greatest, full⟩⟩

theorem Magnitude.IsDouble.isRounded {x : Magnitude} (double : x.IsDouble) : x.IsRounded :=
  (isDouble_iff.mp double).1

/-- Half way to the neighbour below. -/
noncomputable def Magnitude.low (x : Magnitude) : ℝ :=
  (4 * x.coefficient - if x.narrowBelow then 1 else 2) * 2 ^ (x.exponent - 2)

/-- Half way to the neighbour above. -/
noncomputable def Magnitude.high (x : Magnitude) : ℝ :=
  (4 * x.coefficient + 2) * 2 ^ (x.exponent - 2)

/-- Whether a real rounds to a magnitude. -/
structure Magnitude.Rounds (x : Magnitude) (v : ℝ) : Prop where
  low : x.low ≤ v
  high : v ≤ x.high
  odd : x.coefficient % 2 = 1 → x.low < v ∧ v < x.high

namespace Magnitude

variable {x : Magnitude} {v : ℝ}

theorem zpow_sub_two (e : ℤ) : (2 : ℝ) ^ (e - 2) = 2 ^ e / 4 := by
  rw [zpow_sub₀ (by norm_num)]
  norm_num

theorem coefficient_of_narrowBelow (narrow : x.narrowBelow = true) :
    x.coefficient = 2 ^ 52 ∧ x.exponent ≠ -1074 := by
  simpa [narrowBelow] using narrow

/-- What rounds to a magnitude, in units of its last place. -/
theorem Rounds.scaled (rounds : x.Rounds v) :
    x.coefficient - (if x.narrowBelow then 1 / 4 else 1 / 2) ≤ v / 2 ^ x.exponent ∧
      v / 2 ^ x.exponent ≤ x.coefficient + 1 / 2 ∧
      (x.coefficient % 2 = 1 → x.coefficient - 1 / 2 < v / 2 ^ x.exponent ∧
        v / 2 ^ x.exponent < x.coefficient + 1 / 2) := by
  have unit : (0 : ℝ) < 2 ^ x.exponent := by positivity
  obtain ⟨low, high, odd⟩ := rounds
  simp only [Magnitude.low, Magnitude.high, zpow_sub_two] at low high odd
  simp only [le_div_iff₀ unit, div_le_iff₀ unit, lt_div_iff₀ unit, div_lt_iff₀ unit]
  split_ifs at low odd ⊢ with narrow
  · refine ⟨by linarith, by linarith, fun uneven => ?_⟩
    rw [(coefficient_of_narrowBelow narrow).1] at uneven
    norm_num at uneven
  · refine ⟨by linarith, by linarith, fun uneven => ?_⟩
    obtain ⟨low, high⟩ := odd uneven
    exact ⟨by linarith, by linarith⟩

/-- In units of its last place, a magnitude is the whole number nearest to what rounds to it. -/
theorem Rounds.roundsTo (rounds : x.Rounds v) : RoundsTo (v / 2 ^ x.exponent) x.coefficient := by
  obtain ⟨low, high, odd⟩ := rounds.scaled
  refine ⟨?_, high, odd⟩
  split_ifs at low <;> linarith

/-- In units of half its last place, a power of two is the whole number nearest to what is rounded
up to it. -/
theorem Rounds.roundsTo_below (rounds : x.Rounds v) (narrow : x.narrowBelow = true)
    (less : v < 2 ^ (x.exponent + 52)) : RoundsTo (v / 2 ^ (x.exponent - 1)) (2 ^ 53) := by
  have unit : (0 : ℝ) < 2 ^ x.exponent := by positivity
  have low := rounds.scaled.1
  have half : (2 : ℝ) ^ (x.exponent - 1) = 2 ^ x.exponent / 2 := by
    rw [zpow_sub₀ (by norm_num)]
    norm_num
  have power : (2 : ℝ) ^ (x.exponent + 52) = 2 ^ x.exponent * 2 ^ 52 := by
    rw [zpow_add₀ (by norm_num)]
    norm_num
  rw [if_pos narrow, (coefficient_of_narrowBelow narrow).1, le_div_iff₀ unit] at low
  rw [power] at less
  push_cast at low
  rw [half]
  constructor
  · rw [le_div_iff₀ (by linarith)]
    push_cast
    linarith
  · rw [div_le_iff₀ (by linarith)]
    push_cast
    linarith
  · intro uneven
    norm_num at uneven

/-- The exponent of a double whose first bit has a given place. -/
theorem targetExponent_binary64 (total : ℤ) :
    Format.binary64.targetExponent total = max (total - 53) (-1074) := rfl

theorem zpow_add_natCast (e : ℤ) (n : Nat) : (2 : ℝ) ^ (e + n) = 2 ^ e * 2 ^ n := by
  rw [zpow_add₀ (by norm_num), zpow_natCast]

theorem lt_of_scaled {e total : ℤ} {n : Nat} {y : ℝ} (big : 2 ^ n < y) (low : y * 2 ^ e ≤ v)
    (less : v < 2 ^ total) : e + n < total := by
  have unit : (0 : ℝ) < 2 ^ e := by positivity
  have power : (2 : ℝ) ^ (e + n) < 2 ^ total := by
    rw [zpow_add_natCast]
    nlinarith
  exact (zpow_lt_zpow_iff_right₀ (by norm_num)).mp power

/-- The exponent at which a real is rounded, if it rounds to a magnitude: the exponent of that, or
the one below if the real is rounded up to a power of two. -/
theorem Rounds.exponent (double : x.IsDouble) (rounds : x.Rounds v) {total : ℤ}
    (less : v < 2 ^ total) (bits : -1074 ≤ total - 53 → 2 ^ (total - 1) ≤ v) :
    max (total - 53) (-1074) = x.exponent ∨ x.narrowBelow = true ∧
      max (total - 53) (-1074) = x.exponent - 1 ∧ v < 2 ^ (x.exponent + 52) := by
  have unit : (0 : ℝ) < 2 ^ x.exponent := by positivity
  obtain ⟨low, high, -⟩ := rounds.scaled
  rw [le_div_iff₀ unit] at low
  rw [div_le_iff₀ unit] at high
  have least := double.least
  -- the real is not too great for the exponent of the magnitude
  have above : max (total - 53) (-1074) ≤ x.exponent := by
    refine max_le ?_ least
    by_contra beyond
    have coefficient : (x.coefficient : ℝ) + 1 ≤ 2 ^ 53 := by exact_mod_cast double.bits
    have under : (2 : ℝ) ^ (total - 1) < 2 ^ (x.exponent + (53 : ℕ)) := by
      rw [zpow_add_natCast]
      calc (2 : ℝ) ^ (total - 1) ≤ v := bits (by omega)
        _ ≤ (x.coefficient + 1 / 2) * 2 ^ x.exponent := high
        _ < 2 ^ x.exponent * 2 ^ 53 := by nlinarith
    have under := (zpow_lt_zpow_iff_right₀ (by norm_num)).mp under
    push_cast at under
    omega
  by_cases subnormal : x.exponent = -1074
  · exact .inl (by omega)
  have full := double.full.resolve_right subnormal
  by_cases narrow : x.narrowBelow = true
  · -- what is up to a quarter less than a power of two has perhaps one place less
    rw [if_pos narrow, (coefficient_of_narrowBelow narrow).1] at low
    have places : x.exponent + (51 : ℕ) < total := lt_of_scaled (by norm_num) low less
    push_cast at places
    rcases eq_or_ne total (x.exponent + 52) with rfl | other
    · exact .inr ⟨narrow, by omega, less⟩
    · exact .inl (by omega)
  · -- any other coefficient of full precision is greater than the least one
    rw [if_neg narrow] at low
    have other : x.coefficient ≠ 2 ^ 52 := by
      intro same
      simp [narrowBelow, same, subnormal] at narrow
    have more : (2 : ℝ) ^ 52 + 1 ≤ x.coefficient := by
      exact_mod_cast (by omega : 2 ^ 52 + 1 ≤ x.coefficient)
    have places : x.exponent + (52 : ℕ) < total := lt_of_scaled (by linarith) low less
    push_cast at places
    exact .inl (by omega)

end Magnitude

/-- Where the exact value of an operation lies, as the model tells of it. -/
def Accurate (mantissa : Nat) (exponent : ℤ) (accuracy : Accuracy) (v : ℝ) : Prop :=
  Represents (.ofMantissaAndAccuracy mantissa accuracy) (v / 2 ^ exponent)

theorem mantissa_ofMantissaAndAccuracy (mantissa : Nat) (accuracy : Accuracy) :
    (ExtendedMantissa.ofMantissaAndAccuracy mantissa accuracy).mantissa = mantissa := by
  unfold ExtendedMantissa.ofMantissaAndAccuracy
  split <;> rfl

section Round

variable {x : Magnitude} {v : ℝ} {mantissa : Nat} {exponent : ℤ} {accuracy : Accuracy}

/-- The exact value lies below the power of two that the places of the mantissa end at. -/
theorem Accurate.lt (accurate : Accurate mantissa exponent accuracy v) :
    v < 2 ^ totalExponent mantissa exponent := by
  have unit : (0 : ℝ) < 2 ^ exponent := by positivity
  have bound := accurate.bounds.2
  rw [mantissa_ofMantissaAndAccuracy, div_lt_iff₀ unit] at bound
  have places : (mantissa : ℝ) + 1 ≤ 2 ^ (mantissa.log2 + 1) := by
    exact_mod_cast Nat.lt_log2_self
  have total : totalExponent mantissa exponent = exponent + (mantissa.log2 + 1 : ℕ) := by
    unfold totalExponent
    push_cast
    ring
  rw [total, Magnitude.zpow_add_natCast]
  nlinarith

/-- If the mantissa is not zero, the exact value is at least the power of two of its first bit. -/
theorem Accurate.le (accurate : Accurate mantissa exponent accuracy v) (some : mantissa ≠ 0) :
    2 ^ (totalExponent mantissa exponent - 1) ≤ v := by
  have unit : (0 : ℝ) < 2 ^ exponent := by positivity
  have bound := accurate.bounds.1
  rw [mantissa_ofMantissaAndAccuracy, le_div_iff₀ unit] at bound
  have places : (2 : ℝ) ^ mantissa.log2 ≤ mantissa := by
    exact_mod_cast Nat.log2_self_le some
  have total : totalExponent mantissa exponent - 1 = exponent + (mantissa.log2 : ℕ) := by
    unfold totalExponent
    ring
  rw [total, Magnitude.zpow_add_natCast]
  nlinarith

/-- The first shift brings a mantissa to the exponent of a double, with what it drops in the two
bits. -/
theorem Accurate.first (accurate : Accurate mantissa exponent accuracy v)
    (fine : exponent ≤ Format.binary64.targetExponent (totalExponent mantissa exponent)) :
    ∃ first, shiftToTargetExponent .binary64 mantissa exponent accuracy =
        (first, Format.binary64.targetExponent (totalExponent mantissa exponent)) ∧
      Represents first
        (v / 2 ^ Format.binary64.targetExponent (totalExponent mantissa exponent)) := by
  obtain ⟨places, same⟩ : ∃ places : Nat,
      Format.binary64.targetExponent (totalExponent mantissa exponent) = exponent + places :=
    ⟨_, by rw [Int.toNat_sub_of_le fine, add_sub_cancel]⟩
  have amount : (exponent + places - exponent : ℤ).toNat = places := by simp
  have represents := accurate.shiftRight places
  rw [div_div, ← Magnitude.zpow_add_natCast] at represents
  simp only [shiftToTargetExponent, shiftToExponent, same, amount]
  exact ⟨_, rfl, represents⟩

/-- The first shift leaves a mantissa that is rounded to the coefficient, or up to a power of two.
-/
theorem Accurate.shifted (accurate : Accurate mantissa exponent accuracy v)
    (fine : exponent ≤ Format.binary64.targetExponent (totalExponent mantissa exponent))
    (double : x.IsDouble) (rounds : x.Rounds v) :
    let (first, e) := shiftToTargetExponent .binary64 mantissa exponent accuracy
    first.roundedMantissa = x.coefficient ∧ e = x.exponent ∨
      x.coefficient = 2 ^ 52 ∧ first.roundedMantissa = 2 ^ 53 ∧ e = x.exponent - 1 := by
  obtain ⟨first, same, represents⟩ := accurate.first fine
  rw [Magnitude.targetExponent_binary64] at fine same represents
  have bits (normal : -1074 ≤ totalExponent mantissa exponent - 53) :
      2 ^ (totalExponent mantissa exponent - 1) ≤ v := by
    refine accurate.le fun none => ?_
    subst none
    simp [totalExponent] at normal fine
    omega
  rw [same]
  rcases rounds.exponent double accurate.lt bits with at_exponent | ⟨narrow, below, less⟩
  · rw [at_exponent] at represents ⊢
    exact .inl ⟨represents.rounded rounds.roundsTo, rfl⟩
  · rw [below] at represents ⊢
    exact .inr ⟨(Magnitude.coefficient_of_narrowBelow narrow).1,
      represents.rounded (rounds.roundsTo_below narrow less), rfl⟩

/-- What has been rounded is at the exponent that the model has for it. -/
theorem Magnitude.IsRounded.targetExponent_eq (is : x.IsRounded) (positive : 0 < x.coefficient) :
    Format.binary64.targetExponent (totalExponent x.coefficient x.exponent) = x.exponent := by
  have some := positive.ne'
  have places : x.coefficient.log2 < 53 := (Nat.log2_lt some).mpr is.bits
  have least := is.least
  rw [Magnitude.targetExponent_binary64, totalExponent]
  rcases is.full with full | subnormal
  · have places' : 52 ≤ x.coefficient.log2 := (Nat.le_log2 some).mpr full
    omega
  · omega

/-- The second shift leaves a mantissa of few enough places as it is. -/
theorem Magnitude.IsRounded.shift (is : x.IsRounded) (positive : 0 < x.coefficient) :
    shiftToTargetExponent .binary64 x.coefficient x.exponent .exact =
      (⟨x.coefficient, false, false⟩, x.exponent) := by
  rw [shiftToTargetExponent, is.targetExponent_eq positive, shiftToExponent, sub_self]
  exact congrArg (Prod.mk _) (add_zero _)

/-- The second shift takes the one place that rounding up may have added. -/
theorem shift_power {e : ℤ} (least : -1074 ≤ e + 1) :
    shiftToTargetExponent .binary64 (2 ^ 53) e .exact = (⟨2 ^ 52, false, false⟩, e + 1) := by
  have log : (2 ^ 53).log2 = 53 := Nat.log2_two_pow
  have target : Format.binary64.targetExponent (totalExponent (2 ^ 53) e) = e + 1 := by
    rw [Magnitude.targetExponent_binary64, totalExponent, log]
    omega
  rw [shiftToTargetExponent, target, shiftToExponent, add_sub_cancel_left]
  rfl

/-- The model rounds to the magnitude that the exact value rounds to. -/
theorem Accurate.round (accurate : Accurate mantissa exponent accuracy v)
    (fine : exponent ≤ Format.binary64.targetExponent (totalExponent mantissa exponent))
    (double : x.IsDouble) (positive : 0 < x.coefficient) (rounds : x.Rounds v) (sign : Sign) :
    roundWithAccuracy .binary64 sign mantissa exponent accuracy =
      .finite sign x.coefficient x.exponent positive := by
  have shifted := accurate.shifted fine double rounds
  unfold roundWithAccuracy
  generalize shiftToTargetExponent .binary64 mantissa exponent accuracy = first at shifted ⊢
  obtain ⟨first, e⟩ := first
  have second : shiftToTargetExponent .binary64 first.roundedMantissa e .exact =
      (⟨x.coefficient, false, false⟩, x.exponent) := by
    rcases shifted with ⟨rounded, rfl⟩ | ⟨power, rounded, rfl⟩
    · rw [rounded, double.isRounded.shift positive]
    · rw [rounded, shift_power (double.least.trans (sub_add_cancel _ _).ge), power, sub_add_cancel]
  simp only [second]
  rw [dif_neg positive.ne']

end Round

end Portamento.Decimal
