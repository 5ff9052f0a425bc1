import Portamento.Proofs.Scalar.Advancing

/-!
# Positive doubles

A positive double is a magnitude, or infinity. What the operations make of two magnitudes is the
exact result, rounded; it is infinite only if the exact result leaves the range of the doubles, and
no double lies between it and the exact result. That is enough to bound what is computed in several
steps, by doubles that the exact results are compared with.
-/

namespace Portamento.Decimal

open Float.Model Float.Model.UnpackedFloat

/-- The real that a finite double is; zero for all others. -/
noncomputable def valueOf (a : Float) : ℝ :=
  match a.toModel.unpack with
  | .finite sign mantissa exponent _ => sign.apply mantissa * 2 ^ exponent
  | _ => 0

/-- A double is a positive magnitude. -/
structure Holds (a : Float) (x : Magnitude) : Prop where
  double : x.IsDouble
  positive : 0 < x.coefficient
  unpacks : a.toModel.unpack = .finite .positive x.coefficient x.exponent positive

/-- A double is plus infinity. -/
def IsInfinite (a : Float) : Prop := a.toModel.unpack = .infinity .positive

/-- A double is what a positive real is rounded to. -/
def IsRounding (a : Float) (v : ℝ) : Prop :=
  ∃ (x : Magnitude) (positive : 0 < x.coefficient), x.Nears v ∧ a.toModel.unpack =
    (Float.Model.pack (.finite .positive x.coefficient x.exponent positive)).unpack

namespace Magnitude

variable {x : Magnitude}

theorem value_pos (positive : 0 < x.coefficient) : 0 < x.value := by
  rw [value]
  positivity

theorem IsDouble.le_value (double : x.IsDouble) (positive : 0 < x.coefficient) :
    2 ^ (-1074 : ℤ) ≤ x.value := by
  have unit : (2 : ℝ) ^ (-1074 : ℤ) ≤ 2 ^ x.exponent :=
    zpow_le_zpow_right₀ (by norm_num) double.least
  have one : (1 : ℝ) ≤ x.coefficient := by exact_mod_cast positive
  exact unit.trans (le_mul_of_one_le_left (by positivity) one)

/-- A double is less than the first power of two that is out of range. -/
theorem IsDouble.value_lt (double : x.IsDouble) : x.value < 2 ^ (1024 : ℤ) := by
  have less := double.isRounded.value_lt (Int.lt_add_one_of_le double.greatest)
  have power : (2 : ℝ) ^ (1024 : ℤ) = 2 ^ 52 * 2 ^ (971 + 1 : ℤ) := by
    rw [mul_comm, ← zpow_add_natCast]
    norm_num
  rwa [power]

/-- What is rounded to less than that power of two is a double. -/
theorem IsRounded.isDouble (is : x.IsRounded) (less : x.value < 2 ^ (1024 : ℤ)) : x.IsDouble := by
  refine isDouble_iff.mpr ⟨is, ?_⟩
  by_contra beyond
  have full : (2 : ℝ) ^ 52 ≤ x.coefficient := by exact_mod_cast is.full.resolve_right (by omega)
  have power : (2 : ℝ) ^ (972 : ℤ) ≤ 2 ^ x.exponent :=
    zpow_le_zpow_right₀ (by norm_num) (by omega)
  refine absurd less (not_lt.mpr ?_)
  calc (2 : ℝ) ^ (1024 : ℤ) = 2 ^ 52 * 2 ^ (972 : ℤ) := by
        rw [mul_comm, ← zpow_add_natCast]
        norm_num
    _ ≤ x.value := mul_le_mul full power (by positivity) (by positivity)

/-- A magnitude that is not among the smallest has all its places. -/
theorem IsRounded.full_of_le (is : x.IsRounded) (least : 2 ^ (-1021 : ℤ) ≤ x.value) :
    2 ^ 52 ≤ x.coefficient := by
  refine is.full.resolve_right fun subnormal => absurd least (not_le.mpr ?_)
  have bits : (x.coefficient : ℝ) < 2 ^ 53 := by exact_mod_cast is.bits
  have power : (2 : ℝ) ^ (-1021 : ℤ) = 2 ^ (-1074 : ℤ) * 2 ^ 53 := by
    rw [← zpow_add_natCast]
    norm_num
  rw [value, subnormal, power, mul_comm]
  exact mul_lt_mul_of_pos_left bits (by positivity)

theorem isRounded_ofCount {n : Nat} {e : ℤ} (some : 0 < n) (bits : n < 2 ^ 53) (least : -1022 ≤ e) :
    (ofCount n e).IsRounded := by
  obtain ⟨full, less⟩ := coefficient_ofCount (e := e) some bits
  refine ⟨less, ?_, .inl full⟩
  show -1074 ≤ e - (52 - n.log2 : ℕ)
  omega

theorem value_ofCount_lt {n places : ℕ} {e : ℤ} (few : n < 2 ^ places) (range : e + places ≤ 1024) :
    (ofCount n e).value < 2 ^ (1024 : ℤ) := by
  have few : (n : ℝ) < 2 ^ places := by exact_mod_cast few
  rw [value_ofCount]
  calc (n : ℝ) * 2 ^ e < 2 ^ places * 2 ^ e := by gcongr
    _ = 2 ^ (e + places : ℤ) := by rw [zpow_add_natCast, mul_comm]
    _ ≤ 2 ^ (1024 : ℤ) := zpow_le_zpow_right₀ (by norm_num) range

end Magnitude

section Kinds

variable {a b : Float} {x y : Magnitude} {v w : ℝ}

theorem Holds.isFinite (holds : Holds a x) : Scalar.isFinite a = true := by
  show a.toModel.unpack.isFinite = true
  rw [holds.unpacks]
  rfl

theorem IsInfinite.isFinite_eq_false (infinite : IsInfinite a) : Scalar.isFinite a = false := by
  show a.toModel.unpack.isFinite = false
  rw [infinite]
  rfl

theorem Holds.not_isInfinite (holds : Holds a x) : ¬ IsInfinite a :=
  fun infinite => nomatch holds.unpacks.symm.trans infinite

theorem Holds.valueOf_eq (holds : Holds a x) : valueOf a = x.value := by
  rw [valueOf, holds.unpacks]
  rfl

theorem Holds.congr (holds : Holds a x) (same : b.toModel.unpack = a.toModel.unpack) : Holds b x :=
  ⟨holds.double, holds.positive, same.trans holds.unpacks⟩

theorem pos_congr (positive : Scalar.ofNat 0 < a) (same : b.toModel.unpack = a.toModel.unpack) :
    Scalar.ofNat 0 < b := by
  rw [lt_iff_place] at positive ⊢
  rwa [same]

theorem zero_unpacks : (Scalar.ofNat 0 : Float).toModel.unpack = .zero .positive := rfl

/-- What is above zero is a magnitude or infinity. -/
theorem pos_iff : Scalar.ofNat 0 < a ↔ IsInfinite a ∨ ∃ x, Holds a x := by
  rw [lt_iff_place, zero_unpacks]
  constructor
  · rintro ⟨p, q, at_zero, at_a, less⟩
    have below : IsBelow (.zero .positive) a.toModel.unpack := ⟨p, q, at_zero, at_a, less.le⟩
    rcases (isUnpacked a).cases_of_zero_below below with
      infinite | ⟨sign, zero⟩ | ⟨x, some, double, is⟩
    · exact .inl infinite
    · rw [zero] at at_a
      cases at_zero
      cases at_a
      exact absurd less (lt_irrefl _)
    · exact .inr ⟨x, double, some, is⟩
  · rintro (infinite | ⟨x, holds⟩)
    · rw [infinite]
      exact ⟨_, _, rfl, rfl, by decide⟩
    · rw [holds.unpacks]
      exact ⟨_, _, rfl, rfl, Prod.Lex.toLex_lt_toLex.mpr (.inl one_pos)⟩

/-- What a real is rounded to is infinite or a magnitude that nears it. -/
theorem IsRounding.cases (is : IsRounding a v) : IsInfinite a ∨ ∃ x, Holds a x ∧ x.Nears v := by
  obtain ⟨x, some, nears, unpacks⟩ := is
  rw [unpack_pack nears.isRounded] at unpacks
  split at unpacks
  · next within =>
    exact .inr ⟨x, ⟨Magnitude.isDouble_iff.mpr ⟨nears.isRounded, within⟩, some, unpacks⟩, nears⟩
  · exact .inl unpacks

theorem IsRounding.pos (is : IsRounding a v) : Scalar.ofNat 0 < a :=
  pos_iff.mpr (is.cases.imp_right fun ⟨x, holds, _⟩ => ⟨x, holds⟩)

/-- What a real is rounded to is not above a double that the real is not above. -/
theorem IsRounding.holds_of_le (is : IsRounding a v) (rounded : y.IsRounded) (order : v ≤ y.value)
    (range : y.value < 2 ^ (1024 : ℤ)) : ∃ x, Holds a x ∧ x.value ≤ y.value := by
  obtain ⟨x, some, nears, unpacks⟩ := is
  have below := nears.below y rounded order
  have double := nears.isRounded.isDouble (below.trans_lt range)
  rw [unpack_pack nears.isRounded, if_pos double.greatest] at unpacks
  exact ⟨x, ⟨double, some, unpacks⟩, below⟩

theorem Holds.isRounding (holds : Holds a x) : IsRounding a x.value := by
  refine ⟨x, holds.positive, ⟨holds.double.isRounded, fun _ _ => id, fun _ _ => id⟩, ?_⟩
  rw [unpack_pack holds.double.isRounded, if_pos holds.double.greatest, holds.unpacks]

/-- What is out of range is rounded to infinity. -/
theorem IsRounding.isInfinite_of_le (is : IsRounding a v) (beyond : 2 ^ (1024 : ℤ) ≤ v) :
    IsInfinite a := by
  rcases is.cases with infinite | ⟨x, holds, nears⟩
  · exact infinite
  · have power : (Magnitude.ofCount 1 1024).value = 2 ^ (1024 : ℤ) := by
      rw [value_ofCount, Nat.cast_one, one_mul]
    have above := nears.above (.ofCount 1 1024)
      (Magnitude.isRounded_ofCount one_pos (by norm_num) (by norm_num)) (power.trans_le beyond)
    rw [power] at above
    exact absurd holds.double.value_lt (not_lt.mpr above)

end Kinds

section Operations

variable {a b : Float} {x y : Magnitude}

theorem unpack_div (a b : Float) : (a / b).toModel.unpack = (Float.Model.pack
    (UnpackedFloat.div .binary64 a.toModel.unpack b.toModel.unpack)).unpack := rfl

theorem unpack_mul (a b : Float) : (a * b).toModel.unpack = (Float.Model.pack
    (UnpackedFloat.mul .binary64 a.toModel.unpack b.toModel.unpack)).unpack := rfl

theorem unpack_add (a b : Float) : (a + b).toModel.unpack = (Float.Model.pack
    (UnpackedFloat.add .binary64 a.toModel.unpack b.toModel.unpack)).unpack := rfl

theorem unpack_sub (a b : Float) : (a - b).toModel.unpack = (Float.Model.pack
    (UnpackedFloat.sub .binary64 a.toModel.unpack b.toModel.unpack)).unpack := rfl

/-- A quotient that is not too small is rounded. -/
theorem Holds.div (left : Holds a x) (right : Holds b y)
    (least : 2 ^ (-1074 : ℤ) ≤ x.value / y.value) : IsRounding (a / b) (x.value / y.value) := by
  obtain ⟨_, _, _, accurate, fine, quotient⟩ :=
    exists_accurate_div x.exponent y.exponent left.positive right.positive
  obtain ⟨z, some, nears, rounded⟩ := exists_roundWithAccuracy accurate fine least .positive
  exact ⟨z, some, nears, by rw [unpack_div, left.unpacks, right.unpacks, quotient, rounded]⟩

/-- A product that is not too small is rounded, if one factor has all its places. -/
theorem Holds.mul (left : Holds a x) (right : Holds b y) (full : 2 ^ 52 ≤ x.coefficient)
    (least : 2 ^ (-1074 : ℤ) ≤ x.value * y.value) : IsRounding (a * b) (x.value * y.value) := by
  have places : 2 ^ 52 ≤ x.coefficient * y.coefficient :=
    full.trans (Nat.le_mul_of_pos_right _ right.positive)
  obtain ⟨accurate, fine⟩ := accurate_mul x.exponent y.exponent places
  obtain ⟨z, some, nears, rounded⟩ := exists_roundWithAccuracy accurate fine least
    (.positive * .positive)
  refine ⟨z, some, nears, ?_⟩
  rw [unpack_mul, left.unpacks, right.unpacks]
  exact congrArg (fun r => (Float.Model.pack r).unpack) rounded

theorem Holds.add (left : Holds a x) (right : Holds b y) :
    IsRounding (a + b) (x.value + y.value) := by
  obtain ⟨z, some, nears, sum⟩ :=
    exists_add left.double left.positive right.double right.positive
  exact ⟨z, some, nears, by rw [unpack_add, left.unpacks, right.unpacks, sum]⟩

theorem IsInfinite.div (left : IsInfinite a) (right : Holds b y) : IsInfinite (a / b) := by
  rw [IsInfinite, unpack_div, left, right.unpacks]
  exact unpack_pack_of_isUnpacked (.infinity .positive)

theorem IsInfinite.mul (left : IsInfinite a) (right : Holds b y) : IsInfinite (a * b) := by
  rw [IsInfinite, unpack_mul, left, right.unpacks]
  exact unpack_pack_of_isUnpacked (.infinity .positive)

/-- A sum of positive doubles is infinite if one of them is. -/
theorem isInfinite_add (left : Scalar.ofNat 0 < a) (right : Scalar.ofNat 0 < b)
    (infinite : IsInfinite a ∨ IsInfinite b) : IsInfinite (a + b) := by
  rw [IsInfinite, unpack_add]
  rcases pos_iff.mp left with left | ⟨x, left⟩ <;> rcases pos_iff.mp right with right | ⟨y, right⟩
  · rw [left, right]
    exact unpack_pack_of_isUnpacked (.infinity .positive)
  · rw [left, right.unpacks]
    exact unpack_pack_of_isUnpacked (.infinity .positive)
  · rw [left.unpacks, right]
    exact unpack_pack_of_isUnpacked (.infinity .positive)
  · rcases infinite with is | is
    · exact absurd is left.not_isInfinite
    · exact absurd is right.not_isInfinite

theorem add_pos (left : Scalar.ofNat 0 < a) (right : Scalar.ofNat 0 < b) :
    Scalar.ofNat 0 < a + b := by
  rcases pos_iff.mp left with infinite | ⟨x, holds⟩
  · exact pos_iff.mpr (.inl (isInfinite_add left right (.inl infinite)))
  · rcases pos_iff.mp right with infinite | ⟨y, holds'⟩
    · exact pos_iff.mpr (.inl (isInfinite_add left right (.inr infinite)))
    · exact (holds.add holds').pos

/-- To add a positive double to zero, or to take zero from it, changes nothing. -/
theorem unpack_zero_add (positive : Scalar.ofNat 0 < a) :
    (Scalar.ofNat 0 + a).toModel.unpack = a.toModel.unpack ∧
      (a - Scalar.ofNat 0).toModel.unpack = a.toModel.unpack := by
  rw [unpack_add, unpack_sub, zero_unpacks]
  rcases pos_iff.mp positive with infinite | ⟨x, holds⟩
  · rw [infinite]
    exact ⟨unpack_pack_of_isUnpacked (.infinity .positive),
      unpack_pack_of_isUnpacked (.infinity .positive)⟩
  · have is : IsUnpacked (.finite .positive x.coefficient x.exponent holds.positive) :=
      .finite .positive x holds.double holds.positive
    rw [holds.unpacks]
    exact ⟨unpack_pack_of_isUnpacked is, unpack_pack_of_isUnpacked is⟩

end Operations

section Counts

variable {n : Nat}

theorem value_ofCount_zero : (Magnitude.ofCount n 0).value = n := by
  rw [value_ofCount, zpow_zero, mul_one]

/-- A count of not too many places is exact. -/
theorem holds_ofNat (some : 0 < n) (bits : n < 2 ^ 53) :
    Holds (Scalar.ofNat n) (.ofCount n 0) := by
  have double := isDouble_ofCount (e := 0) some bits (by norm_num) (by norm_num)
  have positive : 0 < (Magnitude.ofCount n 0).coefficient :=
    lt_of_lt_of_le (by norm_num) (coefficient_ofCount (e := 0) some bits).1
  have word : (Scalar.ofNat n : Float) = n.toUInt64.toFloat :=
    if_pos (bits.trans (by norm_num : 2 ^ 53 < 2 ^ 64))
  refine ⟨double, positive, ?_⟩
  rw [word, toFloat_eq some bits, unpack_ofMagnitude double, Magnitude.unpacked_eq positive]
  rfl

/-- The model makes a double of a whole number by a product. -/
theorem ofScientific_zero (some : 0 < n) : ∃ (many : 0 < n <<< 53) (one : 0 < 10 ^ 0),
    UnpackedFloat.ofScientific .binary64 n 0 = UnpackedFloat.mul .binary64
      (.finite .positive (n <<< 53) (-53) many) (.finite .positive (10 ^ 0) 0 one) := by
  have many : 0 < n <<< 53 := by
    rw [Nat.shiftLeft_eq]
    positivity
  have small : (0 : ℤ) ≤ 2 ^ 11 := by norm_num
  have large : -(2 ^ 11 + (n.log2 : ℤ)) ≤ 0 := by omega
  refine ⟨many, by norm_num, ?_⟩
  unfold UnpackedFloat.ofScientific
  rw [dif_neg some.ne', if_neg (not_lt.mpr small), if_neg (not_lt.mpr large),
    if_pos (le_refl (0 : ℤ))]
  rfl

/-- A word is rounded to the number of its places. -/
theorem isRounding_word (some : 0 < n) (word : n < 2 ^ 64) :
    IsRounding n.toUInt64.toFloat n := by
  have same : n.toUInt64.toNat = n := by
    rw [Nat.toUInt64_eq, UInt64.toNat_ofNat']
    exact Nat.mod_eq_of_lt word
  have least : (-1074 : ℤ) ≤ 0 := by norm_num
  obtain ⟨x, positive, nears, rounded⟩ := exists_round some least .positive
  rw [zpow_zero, mul_one] at nears
  have order : compare (n : ℤ) 0 = .gt := compare_gt_iff_gt.mpr (by omega)
  have unfolded : n.toUInt64.toFloat.toModel.unpack = (Float.Model.pack
      (UnpackedFloat.normalize .binary64 n.toUInt64.toNat 0 .positive)).unpack := rfl
  refine ⟨x, positive, nears, ?_⟩
  rw [unfolded, same, ← rounded]
  simp only [UnpackedFloat.normalize, order, Int.toNat_natCast]

/-- A whole number that is too long for a word is read as a decimal, which is a product of two
counts; the product has places enough. -/
theorem isRounding_ofScientific (long : 2 ^ 64 ≤ n) :
    IsRounding (Float.ofScientific n false 0) n := by
  have some : 0 < n := (by norm_num : 0 < 2 ^ 64).trans_le long
  have many : ¬ (n < 2 ^ 53 ∧ 0 ≤ 22) := fun few =>
    absurd (few.1.trans (by norm_num)) (not_lt.mpr long)
  have least : (2 : ℝ) ^ (-1074 : ℤ) ≤ n := by
    have one : (1 : ℝ) ≤ n := by exact_mod_cast some
    exact (zpow_le_one_of_nonpos₀ (by norm_num) (by norm_num)).trans one
  have value : ((n <<< 53 : ℕ) : ℝ) * 2 ^ (-53 : ℤ) * ((10 ^ 0 : ℕ) * 2 ^ (0 : ℤ)) = n := by
    rw [Nat.shiftLeft_eq]
    push_cast
    rw [zpow_neg, mul_assoc, mul_assoc]
    norm_num
  have places : 2 ^ 52 ≤ n <<< 53 * 10 ^ 0 := by
    rw [Nat.shiftLeft_eq]
    omega
  obtain ⟨accurate, fine⟩ := accurate_mul (-53) 0 places
  rw [value] at accurate
  obtain ⟨x, positive, nears, rounded⟩ := exists_roundWithAccuracy accurate fine least
    (.positive * .positive)
  refine ⟨x, positive, nears, ?_⟩
  rw [Float.ofScientific, dif_neg many]
  show (Float.Model.pack (UnpackedFloat.ofScientific .binary64 n 0)).unpack = _
  obtain ⟨_, _, product⟩ := ofScientific_zero some
  rw [product]
  exact congrArg (fun r => (Float.Model.pack r).unpack) rounded

/-- A count of any length is rounded. -/
theorem isRounding_ofNat (some : 0 < n) : IsRounding (Scalar.ofNat n) n := by
  by_cases word : n < 2 ^ 64
  · have is : (Scalar.ofNat n : Float) = n.toUInt64.toFloat := if_pos word
    rw [is]
    exact isRounding_word some word
  · have is : (Scalar.ofNat n : Float) = Float.ofScientific n false 0 := if_neg word
    rw [is]
    exact isRounding_ofScientific (not_lt.mp word)

end Counts

end Portamento.Decimal
