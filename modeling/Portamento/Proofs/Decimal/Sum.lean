import Portamento.Proofs.Decimal.Nearest
import Portamento.Proofs.Scalar.Compared

/-!
# Adding to a double

Rounding passes no double on the way: one that is not above an exact value is not above what the
value is rounded to, and one that is not below it stays so too. Hence a double to which something is
added that is not negative becomes no less, whatever the sum is rounded to, and also where it leaves
the range of the doubles.
-/

namespace Portamento.Decimal

open Float.Model Float.Model.UnpackedFloat

/-- A mantissa is rounded to a whole number, and no other lies between that and what the mantissa
tells of. -/
theorem Represents.between {em : ExtendedMantissa} {x : ℝ} (represents : Represents em x)
    (k : Nat) : (k ≤ x → k ≤ em.roundedMantissa) ∧ (x ≤ k → em.roundedMantissa ≤ k) := by
  obtain ⟨low, high⟩ := represents.bounds
  have near : em.mantissa ≤ em.roundedMantissa ∧ (em.roundedMantissa = em.mantissa ∨
      em.roundedMantissa ≤ em.mantissa + 1 ∧ em.mantissa < x) := by
    obtain ⟨mantissa, roundBit, stickyBit⟩ := em
    cases roundBit <;> cases stickyBit <;>
      simp only [Represents, ExtendedMantissa.roundedMantissa, ExtendedMantissa.accuracy,
        Accuracy.roundToNearestEven] at represents ⊢
    · exact ⟨le_rfl, .inl trivial⟩
    · exact ⟨le_rfl, .inl trivial⟩
    · exact ⟨Nat.le_add_right _ _, .inr ⟨by omega, by linarith⟩⟩
    · exact ⟨Nat.le_succ _, .inr ⟨le_rfl, by linarith⟩⟩
  obtain ⟨least, same | ⟨most, more⟩⟩ := near
  · rw [same]
    refine ⟨fun below => ?_, fun above => ?_⟩
    · exact Nat.lt_succ_iff.mp (by exact_mod_cast below.trans_lt high)
    · exact_mod_cast low.trans above
  · refine ⟨fun below => ?_, fun above => ?_⟩
    · exact (Nat.lt_succ_iff.mp (by exact_mod_cast below.trans_lt high)).trans least
    · exact most.trans (by exact_mod_cast more.trans_le above)

namespace Magnitude

variable {x y : Magnitude}

/-- A rounded magnitude at a smaller exponent is less than all that have their full precision at a
greater one. -/
theorem IsRounded.value_lt (is : x.IsRounded) {t : ℤ} (less : x.exponent < t) :
    x.value < 2 ^ 52 * 2 ^ t := by
  have bits : (x.coefficient : ℝ) < 2 ^ 53 := by exact_mod_cast is.bits
  have power : (2 : ℝ) ^ (x.exponent + (1 : ℕ)) ≤ 2 ^ t :=
    zpow_le_zpow_right₀ (by norm_num) (by push_cast; omega)
  rw [zpow_add_natCast, pow_one] at power
  calc x.value < 2 ^ 53 * 2 ^ x.exponent := mul_lt_mul_of_pos_right bits (by positivity)
    _ = 2 ^ 52 * (2 ^ x.exponent * 2) := by ring
    _ ≤ 2 ^ 52 * 2 ^ t := by gcongr

/-- At any smaller exponent the value of a magnitude is a whole number of units. -/
theorem value_eq_mul {t : ℤ} (order : t ≤ x.exponent) : ∃ n : ℕ, x.value = n * 2 ^ t := by
  obtain ⟨places, same⟩ := Int.le.dest order
  refine ⟨x.coefficient * 2 ^ places, ?_⟩
  rw [value, ← same, zpow_add_natCast]
  push_cast
  ring

/-- The exponent and then the coefficient: rounded magnitudes are in the order of these. -/
theorem place_le_of_value_le (is : x.IsRounded) (is' : y.IsRounded) (order : x.value ≤ y.value) :
    toLex (x.exponent, (x.coefficient : ℤ)) ≤ toLex (y.exponent, (y.coefficient : ℤ)) := by
  rw [Prod.Lex.toLex_le_toLex]
  rcases lt_trichotomy x.exponent y.exponent with less | same | more
  · exact .inl less
  · refine .inr ⟨same, ?_⟩
    rw [value, value, same, mul_le_mul_iff_left₀ (by positivity)] at order
    exact Int.ofNat_le.mpr (by exact_mod_cast order)
  · have full : (2 : ℝ) ^ 52 ≤ x.coefficient := by
      have least := is'.least
      exact_mod_cast is.full.resolve_right (by omega)
    have low : (2 : ℝ) ^ 52 * 2 ^ x.exponent ≤ x.value := by
      rw [value]
      gcongr
    exact absurd order (not_le.mpr ((is'.value_lt more).trans_le low))

/-- A rounded magnitude such that no other lies between it and a real. -/
structure Nears (x : Magnitude) (v : ℝ) : Prop where
  isRounded : x.IsRounded
  above : ∀ y : Magnitude, y.IsRounded → y.value ≤ v → y.value ≤ x.value
  below : ∀ y : Magnitude, y.IsRounded → v ≤ y.value → x.value ≤ y.value

end Magnitude

section Round

variable {v : ℝ} {t : ℤ} {n : Nat}

/-- What a rounded mantissa comes to after the second shift. -/
theorem exists_shift (some : 0 < n) (places : n ≤ 2 ^ 53) (least : -1074 ≤ t)
    (full : 2 ^ 52 ≤ n ∨ t = -1074) : ∃ x : Magnitude, x.IsRounded ∧ 0 < x.coefficient ∧
      x.value = n * 2 ^ t ∧
      shiftToTargetExponent .binary64 n t .exact = (⟨x.coefficient, false, false⟩, x.exponent) := by
  rcases places.lt_or_eq with few | rfl
  · have is : Magnitude.IsRounded ⟨n, t⟩ := ⟨few, least, full⟩
    exact ⟨⟨n, t⟩, is, some, rfl, is.shift some⟩
  · have least' : -1074 ≤ t + 1 := by omega
    refine ⟨⟨2 ^ 52, t + 1⟩, ⟨by norm_num, least', .inl le_rfl⟩, by norm_num, ?_,
      shift_power least'⟩
    rw [Magnitude.value, zpow_add_one₀ (by norm_num)]
    push_cast
    ring

/-- In units of its last place, what is next to a real has no rounded magnitude between. -/
theorem nears_of_next {x : Magnitude} (is : x.IsRounded) (value : x.value = n * 2 ^ t)
    (next : ∀ k : ℕ, (k * 2 ^ t ≤ v → k ≤ n) ∧ (v ≤ k * 2 ^ t → n ≤ k))
    (full : 2 ^ 52 * 2 ^ t ≤ v ∨ t = -1074) : x.Nears v := by
  have unit : (0 : ℝ) < 2 ^ t := by positivity
  have low (y : Magnitude) (is' : y.IsRounded) (below : y.exponent < t) :
      y.value < 2 ^ 52 * 2 ^ t ∧ 2 ^ 52 * 2 ^ t ≤ v :=
    have least := is'.least
    ⟨is'.value_lt below, full.resolve_right (by omega)⟩
  refine ⟨is, fun y is' order => ?_, fun y is' order => ?_⟩ <;> rw [value]
  · rcases lt_or_ge y.exponent t with below | above
    · obtain ⟨less, more⟩ := low y is' below
      have enough : 2 ^ 52 ≤ n := (next (2 ^ 52)).1 (by exact_mod_cast more)
      calc y.value ≤ 2 ^ 52 * 2 ^ t := less.le
        _ ≤ n * 2 ^ t := by gcongr; exact_mod_cast enough
    · obtain ⟨k, whole⟩ := Magnitude.value_eq_mul above
      rw [whole] at order ⊢
      gcongr
      exact (next k).1 order
  · rcases lt_or_ge y.exponent t with below | above
    · obtain ⟨less, more⟩ := low y is' below
      exact absurd order (not_le.mpr (less.trans_le more))
    · obtain ⟨k, whole⟩ := Magnitude.value_eq_mul above
      rw [whole] at order ⊢
      gcongr
      exact (next k).2 order

/-- The model rounds to a magnitude that nears the exact value, however it is told of that. -/
theorem exists_roundWithAccuracy {mantissa : Nat} {exponent : ℤ} {accuracy : Accuracy}
    (accurate : Accurate mantissa exponent accuracy v)
    (fine : exponent ≤ Format.binary64.targetExponent (totalExponent mantissa exponent))
    (least : 2 ^ (-1074 : ℤ) ≤ v) (sign : Sign) :
    ∃ (x : Magnitude) (positive : 0 < x.coefficient), x.Nears v ∧
      roundWithAccuracy .binary64 sign mantissa exponent accuracy =
        .finite sign x.coefficient x.exponent positive := by
  obtain ⟨first, shift, represents⟩ := accurate.first fine
  rw [Magnitude.targetExponent_binary64] at fine shift represents
  generalize target : max (totalExponent mantissa exponent - 53) (-1074) = t
    at fine shift represents
  have unit : (0 : ℝ) < 2 ^ t := by positivity
  have next := represents.between
  simp only [le_div_iff₀ unit, div_le_iff₀ unit] at next
  -- the value has as many places in units of the exponent as a double has bits
  have less : v ≤ (2 ^ 53 : ℕ) * 2 ^ t := by
    have bound : (2 : ℝ) ^ totalExponent mantissa exponent ≤ 2 ^ (t + (53 : ℕ)) :=
      zpow_le_zpow_right₀ (by norm_num) (by push_cast; omega)
    rw [Magnitude.zpow_add_natCast] at bound
    push_cast
    linarith [accurate.lt]
  have full : 2 ^ 52 * 2 ^ t ≤ v ∨ t = -1074 := by
    rcases eq_or_ne t (-1074) with subnormal | normal
    · exact .inr subnormal
    · have some : mantissa ≠ 0 := by
        rintro rfl
        simp only [totalExponent, Nat.log2_zero] at target
        omega
      have same : totalExponent mantissa exponent - 1 = t + (52 : ℕ) := by push_cast; omega
      have bound := accurate.le some
      rw [same, Magnitude.zpow_add_natCast, mul_comm] at bound
      exact .inl bound
  have one : ((1 : ℕ) : ℝ) * 2 ^ t ≤ v := by
    rcases full with full | rfl
    · push_cast
      linarith
    · rwa [Nat.cast_one, one_mul]
  have few := (next (2 ^ 53)).2 less
  have enough : 2 ^ 52 ≤ first.roundedMantissa ∨ t = -1074 :=
    full.imp_left fun full => (next (2 ^ 52)).1 (by exact_mod_cast full)
  obtain ⟨x, is, positive, value, second⟩ := exists_shift ((next 1).1 one) few (by omega) enough
  refine ⟨x, positive, nears_of_next is value next full, ?_⟩
  unfold roundWithAccuracy
  simp only [shift, second]
  rw [dif_neg positive.ne']

theorem log2_shiftLeft (some : 0 < n) (k : Nat) : (n <<< k).log2 = n.log2 + k := by
  have low := Nat.log2_self_le some.ne'
  have high := @Nat.lt_log2_self n
  rw [Nat.shiftLeft_eq, Nat.log2_eq_iff (by positivity)]
  constructor
  · rw [pow_add]
    gcongr
  · rw [add_right_comm, pow_add]
    gcongr

/-- A mantissa at a smaller exponent, with as many places more. -/
theorem exists_decreaseExponent {mantissa : Nat} (some : 0 < mantissa) (exponent target : ℤ) :
    ∃ mantissa', decreaseExponent mantissa exponent target = (mantissa', min exponent target) ∧
      0 < mantissa' ∧ (mantissa' : ℝ) * 2 ^ min exponent target = mantissa * 2 ^ exponent ∧
      totalExponent mantissa' (min exponent target) = totalExponent mantissa exponent := by
  obtain ⟨places, drop⟩ : ∃ places : Nat, (exponent - target).toNat = places := ⟨_, rfl⟩
  have split : exponent = min exponent target + places := by omega
  refine ⟨mantissa <<< places, ?_, ?_, ?_, ?_⟩
  · rw [decreaseExponent, drop]
    exact congrArg (Prod.mk _) (by omega)
  · rw [Nat.shiftLeft_eq]
    positivity
  · rw [Nat.shiftLeft_eq, split, Magnitude.zpow_add_natCast, ← split]
    push_cast
    ring
  · rw [totalExponent, totalExponent, log2_shiftLeft some]
    omega

/-- A mantissa is rounded to a magnitude that nears its value, however many places it has. -/
theorem exists_round {mantissa : Nat} {exponent : ℤ} (some : 0 < mantissa)
    (least : -1074 ≤ exponent) (sign : Sign) :
    ∃ (x : Magnitude) (positive : 0 < x.coefficient), x.Nears (mantissa * 2 ^ exponent) ∧
      UnpackedFloat.round .binary64 sign mantissa exponent =
        .finite sign x.coefficient x.exponent positive := by
  obtain ⟨mantissa', decreased, some', value, total⟩ := exists_decreaseExponent some exponent
    (Format.binary64.targetExponent (totalExponent mantissa exponent))
  have least' : -1074 ≤ min exponent
      (Format.binary64.targetExponent (totalExponent mantissa exponent)) :=
    le_min least (le_max_right _ _)
  have smallest : (2 : ℝ) ^ (-1074 : ℤ) ≤ mantissa' * 2 ^ min exponent
      (Format.binary64.targetExponent (totalExponent mantissa exponent)) := by
    have unit : (2 : ℝ) ^ (-1074 : ℤ) ≤ 2 ^ min exponent
        (Format.binary64.targetExponent (totalExponent mantissa exponent)) :=
      zpow_le_zpow_right₀ (by norm_num) least'
    have one : (1 : ℝ) ≤ mantissa' := by exact_mod_cast some'
    exact unit.trans (le_mul_of_one_le_left (by positivity) one)
  unfold UnpackedFloat.round
  simp only [decreased, ← value]
  refine exists_roundWithAccuracy (accurate_exact _ _) ?_ smallest sign
  rw [total]
  exact min_le_right _ _

end Round

/-- What a double is unpacked into. -/
inductive IsUnpacked : UnpackedFloat → Prop where
  | notANumber : IsUnpacked .notANumber
  | infinity (sign : Sign) : IsUnpacked (.infinity sign)
  | zero (sign : Sign) : IsUnpacked (.zero sign)
  | finite (sign : Sign) (x : Magnitude) (double : x.IsDouble) (positive : 0 < x.coefficient) :
      IsUnpacked (.finite sign x.coefficient x.exponent positive)

theorem isUnpacked (value : Float) : IsUnpacked value.toModel.unpack := by
  have same : value.isFinite = value.toModel.unpack.isFinite := rfl
  by_cases finite : value.isFinite = true
  · obtain ⟨negative, x, content⟩ := exists_content_of_isFinite finite
    obtain ⟨double, -, unpacked⟩ := Magnitude.unpack_of_content content
    have is : value.toModel.unpack = x.unpacked (signOf negative) := unpacked
    rw [is]
    unfold Magnitude.unpacked
    split
    · exact .zero _
    · exact .finite _ x double _
  · rw [same] at finite
    cases unpacked : value.toModel.unpack with
    | notANumber => exact .notANumber
    | infinity sign => exact .infinity sign
    | zero | finite => exact absurd (unpacked ▸ rfl) finite

/-- A magnitude that has been rounded is packed, and becomes infinite beyond the range. -/
theorem unpack_pack {x : Magnitude} (is : x.IsRounded) (positive : 0 < x.coefficient)
    (sign : Sign) :
    (Float.Model.pack (.finite sign x.coefficient x.exponent positive)).unpack =
      if x.exponent ≤ 971 then .finite sign x.coefficient x.exponent positive
      else .infinity sign := by
  obtain ⟨negative, rfl⟩ : ∃ negative, signOf negative = sign := by
    cases sign
    · exact ⟨true, rfl⟩
    · exact ⟨false, rfl⟩
  split
  · next within =>
    have double := Magnitude.isDouble_iff.mpr ⟨is, within⟩
    have unpacked := @unpack_ofMagnitude x negative double
    rw [ofMagnitude, Magnitude.unpacked_eq positive] at unpacked
    exact unpacked
  · next beyond =>
    have infinite : UnpackedFloat.pack .binary64
        (.finite (signOf negative) x.coefficient x.exponent positive) =
          packedInfinity .binary64 (signOf negative) := by
      unfold UnpackedFloat.pack
      refine if_pos ?_
      show 2 ^ 11 ≤ (x.exponent + (1023 : ℕ) + (52 : ℕ)).toNat + 1
      omega
    show UnpackedFloat.unpack .binary64 (UnpackedFloat.pack .binary64 _) = _
    rw [infinite]
    cases negative <;> rfl

/-- Whether the place of one number is not behind that of another. -/
def IsBelow (a b : UnpackedFloat) : Prop :=
  ∃ p q, place? a = some p ∧ place? b = some q ∧ p ≤ q

section Sum

variable {x y z : Magnitude} {someX : 0 < x.coefficient} {someY : 0 < y.coefficient}
  {someZ : 0 < z.coefficient}

theorem isBelow_positive (is : x.IsRounded) (is' : z.IsRounded) (order : x.value ≤ z.value) :
    IsBelow (.finite .positive x.coefficient x.exponent someX)
      (.finite .positive z.coefficient z.exponent someZ) :=
  ⟨_, _, rfl, rfl, Prod.Lex.toLex_le_toLex.mpr
    (.inr ⟨rfl, Magnitude.place_le_of_value_le is is' order⟩)⟩

theorem isBelow_negative (is : x.IsRounded) (is' : z.IsRounded) (order : z.value ≤ x.value) :
    IsBelow (.finite .negative x.coefficient x.exponent someX)
      (.finite .negative z.coefficient z.exponent someZ) := by
  refine ⟨_, _, rfl, rfl, Prod.Lex.toLex_le_toLex.mpr (.inr ⟨rfl, ?_⟩)⟩
  have places := Magnitude.place_le_of_value_le is' is order
  rw [Prod.Lex.toLex_le_toLex] at places ⊢
  dsimp only at places ⊢
  omega

section Kinds

variable {a b : UnpackedFloat} {k k' : ℤ} {p q : ℤ ×ₗ ℤ}

/-- Of all numbers a greater kind comes later. -/
theorem isBelow_of_kind (at_a : place? a = some (toLex (k, p)))
    (at_b : place? b = some (toLex (k', q))) (less : k < k') : IsBelow a b :=
  ⟨_, _, at_a, at_b, Prod.Lex.toLex_le_toLex.mpr (.inl less)⟩

theorem not_isBelow_of_kind (at_a : place? a = some (toLex (k, p)))
    (at_b : place? b = some (toLex (k', q))) (more : k' < k) : ¬ IsBelow a b := by
  rintro ⟨_, _, found, found', order⟩
  obtain rfl := Option.some.inj (at_a.symm.trans found)
  obtain rfl := Option.some.inj (at_b.symm.trans found')
  exact not_lt_of_ge order (Prod.Lex.toLex_lt_toLex.mpr (.inl more))

end Kinds

/-- A sum that is not less than a positive double is not packed into less. -/
theorem isBelow_pack_positive (is : x.IsRounded) (is' : z.IsRounded) (order : x.value ≤ z.value) :
    IsBelow (.finite .positive x.coefficient x.exponent someX)
      (Float.Model.pack (.finite .positive z.coefficient z.exponent someZ)).unpack := by
  rw [unpack_pack is']
  split
  · exact isBelow_positive is is' order
  · exact isBelow_of_kind rfl rfl (by norm_num)

/-- What is packed from a positive sum is above all that is negative. -/
theorem isBelow_pack_of_negative (is : z.IsRounded) :
    IsBelow (.finite .negative x.coefficient x.exponent someX)
      (Float.Model.pack (.finite .positive z.coefficient z.exponent someZ)).unpack := by
  rw [unpack_pack is]
  split <;> exact isBelow_of_kind rfl rfl (by norm_num)

/-- A negative sum whose magnitude is not greater than that of a double is in the range. -/
theorem isBelow_pack_negative (double : x.IsDouble) (is : z.IsRounded) (order : z.value ≤ x.value) :
    IsBelow (.finite .negative x.coefficient x.exponent someX)
      (Float.Model.pack (.finite .negative z.coefficient z.exponent someZ)).unpack := by
  have places := Magnitude.place_le_of_value_le is double.isRounded order
  rw [Prod.Lex.toLex_le_toLex] at places
  dsimp only at places
  have greatest := double.greatest
  rw [unpack_pack is, if_pos (by omega)]
  exact isBelow_negative double.isRounded is order

/-- The sum of two positive doubles is rounded to a magnitude that nears it. -/
theorem exists_add (double : x.IsDouble) (someX : 0 < x.coefficient) (double' : y.IsDouble)
    (someY : 0 < y.coefficient) :
    ∃ (z : Magnitude) (someZ : 0 < z.coefficient), z.Nears (x.value + y.value) ∧
      UnpackedFloat.add .binary64 (.finite .positive x.coefficient x.exponent someX)
        (.finite .positive y.coefficient y.exponent someY) =
          .finite .positive z.coefficient z.exponent someZ := by
  obtain ⟨m, decreased, some, value, -⟩ :=
    exists_decreaseExponent someX x.exponent (min x.exponent y.exponent)
  obtain ⟨m', decreased', some', value', -⟩ :=
    exists_decreaseExponent someY y.exponent (min x.exponent y.exponent)
  have least : -1074 ≤ min x.exponent y.exponent := le_min double.least double'.least
  rw [min_eq_right (min_le_left _ _)] at value
  rw [min_eq_right (min_le_right _ _)] at value'
  simp only [UnpackedFloat.add, decreased, decreased', UnpackedFloat.normalize]
  generalize min x.exponent y.exponent = e at *
  have total : x.value + y.value = (m + m' : ℕ) * 2 ^ e := by
    rw [Magnitude.value, Magnitude.value, ← value, ← value']
    push_cast
    ring
  have sum : Sign.positive.apply m + Sign.positive.apply m' = (m + m' : ℕ) :=
    (Nat.cast_add m m').symm
  have order : compare ((m + m' : ℕ) : ℤ) 0 = .gt := compare_gt_iff_gt.mpr (by omega)
  rw [sum, order, total]
  exact exists_round (Nat.add_pos_left some m') least .positive

/-- A finite double is not above its sum with a positive one. -/
theorem isBelow_add (double : x.IsDouble) (double' : y.IsDouble) (sign : Sign) :
    IsBelow (.finite sign x.coefficient x.exponent someX)
      (Float.Model.pack (UnpackedFloat.add .binary64
        (.finite sign x.coefficient x.exponent someX)
        (.finite .positive y.coefficient y.exponent someY))).unpack := by
  cases sign with
  | positive =>
    obtain ⟨z, someZ, nears, rounded⟩ := exists_add double someX double' someY
    rw [rounded]
    have more : 0 ≤ y.value := by
      rw [Magnitude.value]
      positivity
    exact isBelow_pack_positive double.isRounded nears.isRounded
      (nears.above x double.isRounded (le_add_of_nonneg_right more))
  | negative =>
    obtain ⟨m, decreased, some, value, -⟩ :=
      exists_decreaseExponent someX x.exponent (min x.exponent y.exponent)
    obtain ⟨m', decreased', some', -, -⟩ :=
      exists_decreaseExponent someY y.exponent (min x.exponent y.exponent)
    have least : -1074 ≤ min x.exponent y.exponent := le_min double.least double'.least
    rw [min_eq_right (min_le_left _ _)] at value
    simp only [UnpackedFloat.add, decreased, decreased', UnpackedFloat.normalize]
    generalize min x.exponent y.exponent = e at *
    have scaled : x.value = m * 2 ^ e := value.symm
    have sum : Sign.negative.apply m + Sign.positive.apply m' = (m' : ℤ) - m := neg_add_eq_sub _ _
    rw [sum]
    rcases Nat.lt_trichotomy m m' with more | rfl | less
    · have order : compare ((m' : ℤ) - m) 0 = .gt := compare_gt_iff_gt.mpr (by omega)
      have count : ((m' : ℤ) - m).toNat = m' - m := by omega
      obtain ⟨z, someZ, nears, rounded⟩ := exists_round (Nat.sub_pos_of_lt more) least .positive
      rw [order]
      simp only [count, rounded]
      exact isBelow_pack_of_negative nears.isRounded
    · have order : compare ((m : ℤ) - m) 0 = .eq := compare_eq_iff_eq.mpr (sub_self _)
      have zero : place? (Float.Model.pack (.zero .positive)).unpack =
          Option.some (toLex (0, toLex (0, 0))) := rfl
      rw [order]
      exact isBelow_of_kind rfl zero (by norm_num)
    · have order : compare ((m' : ℤ) - m) 0 = .lt := compare_lt_iff_lt.mpr (by omega)
      have count : (-((m' : ℤ) - m)).toNat = m - m' := by omega
      obtain ⟨z, someZ, nears, rounded⟩ := exists_round (Nat.sub_pos_of_lt less) least .negative
      rw [order]
      simp only [count, rounded]
      refine isBelow_pack_negative double nears.isRounded (nears.below x double.isRounded ?_)
      rw [scaled]
      gcongr
      exact Nat.sub_le m m'

/-- Numbers that are unpacked and packed again stay the same. -/
theorem unpack_pack_of_isUnpacked {a : UnpackedFloat} (is : IsUnpacked a) :
    (Float.Model.pack a).unpack = a := by
  cases is with
  | notANumber => rfl
  | infinity sign | zero sign => cases sign <;> rfl
  | finite sign x double positive => rw [unpack_pack double.isRounded, if_pos double.greatest]

theorem isBelow_refl {a : UnpackedFloat} (number : a ≠ .notANumber) : IsBelow a a := by
  cases a with
  | notANumber => exact absurd rfl number
  | infinity sign | zero sign => cases sign <;> exact ⟨_, _, rfl, rfl, le_refl _⟩
  | finite sign => cases sign <;> exact ⟨_, _, rfl, rfl, le_refl _⟩

/-- What is not negative is plus infinity, a zero or a positive double. -/
theorem IsUnpacked.cases_of_zero_below {a : UnpackedFloat} (is : IsUnpacked a)
    (positive : IsBelow (.zero .positive) a) : a = .infinity .positive ∨ (∃ sign, a = .zero sign) ∨
      ∃ (x : Magnitude) (someX : 0 < x.coefficient), x.IsDouble ∧
        a = .finite .positive x.coefficient x.exponent someX := by
  cases is with
  | notANumber =>
    obtain ⟨_, _, -, none, -⟩ := positive
    cases none
  | infinity sign =>
    cases sign with
    | negative => exact absurd positive (not_isBelow_of_kind rfl rfl (by norm_num))
    | positive => exact .inl rfl
  | zero sign => exact .inr (.inl ⟨sign, rfl⟩)
  | finite sign x double someX =>
    cases sign with
    | negative => exact absurd positive (not_isBelow_of_kind rfl rfl (by norm_num))
    | positive => exact .inr (.inr ⟨x, someX, double, rfl⟩)

/-- What needs no rounding is packed without loss. -/
theorem IsBelow.pack {a b : UnpackedFloat} (order : IsBelow a b) (is : IsUnpacked b) :
    IsBelow a (Float.Model.pack b).unpack := by
  rwa [unpack_pack_of_isUnpacked is]

theorem isBelow_infinity {a : UnpackedFloat} (number : a ≠ .notANumber) :
    IsBelow a (.infinity .positive) := by
  cases a with
  | notANumber => exact absurd rfl number
  | infinity sign =>
    cases sign with
    | negative => exact isBelow_of_kind rfl rfl (by norm_num)
    | positive => exact isBelow_refl number
  | zero sign => exact isBelow_of_kind rfl rfl (by norm_num)
  | finite sign => cases sign <;> exact isBelow_of_kind rfl rfl (by norm_num)

/-- A number that is not minus infinity is not above its sum with one that is not negative. -/
theorem isBelow_pack_add {a b : UnpackedFloat} (is : IsUnpacked a) (is' : IsUnpacked b)
    (number : a ≠ .notANumber) (bounded : a ≠ .infinity .negative)
    (positive : IsBelow (.zero .positive) b) :
    IsBelow a (Float.Model.pack (UnpackedFloat.add .binary64 a b)).unpack := by
  rcases is'.cases_of_zero_below positive with rfl | ⟨sign', rfl⟩ | ⟨y, someY, double', rfl⟩
  · have sum : UnpackedFloat.add .binary64 a (.infinity .positive) = .infinity .positive := by
      cases is with
      | notANumber => exact absurd rfl number
      | infinity sign =>
        cases sign with
        | negative => exact absurd rfl bounded
        | positive => rfl
      | zero | finite => rfl
    rw [sum]
    exact (isBelow_infinity number).pack (.infinity .positive)
  · cases is with
    | notANumber => exact absurd rfl number
    | infinity sign => exact (isBelow_refl number).pack (.infinity sign)
    | zero sign => cases sign <;> cases sign' <;> exact ⟨_, _, rfl, rfl, le_refl _⟩
    | finite sign x double someX => exact (isBelow_refl number).pack (.finite sign x double someX)
  · cases is with
    | notANumber => exact absurd rfl number
    | infinity sign => exact (isBelow_refl number).pack (.infinity sign)
    | zero sign => exact (isBelow_of_kind rfl rfl one_pos).pack (.finite .positive y double' someY)
    | finite sign x double someX => exact isBelow_add double double' sign

/-- Nothing finite is minus infinity or less. -/
theorem not_isBelow_infinity {a : UnpackedFloat} (finite : a.isFinite = true) :
    ¬ IsBelow a (.infinity .negative) := by
  cases a with
  | notANumber | infinity => cases finite
  | zero sign => exact not_isBelow_of_kind rfl rfl (by norm_num)
  | finite sign => cases sign <;> exact not_isBelow_of_kind rfl rfl (by norm_num)

/-- A double that is not below a finite one does not become less by adding what is not negative. -/
theorem le_add {low value length : Float} (finite : low.isFinite = true) (above : low ≤ value)
    (positive : Scalar.ofNat 0 ≤ length) : value ≤ value + length := by
  have order : IsBelow low.toModel.unpack value.toModel.unpack := le_iff_place.mp above
  have zero : IsBelow (.zero .positive) length.toModel.unpack := le_iff_place.mp positive
  refine le_iff_place.mpr (isBelow_pack_add (isUnpacked value) (isUnpacked length) ?_ ?_ zero)
  · intro none
    rw [none] at order
    obtain ⟨_, _, -, found, -⟩ := order
    cases found
  · intro infinite
    rw [infinite] at order
    exact not_isBelow_infinity finite order

end Sum

end Portamento.Decimal
