import Portamento.Decimal.Shortest
import Portamento.Proofs.Decimal.Nearest

/-!
# The shortest decimal stands for its double

Whatever decimal is selected for a double rounds to it: one that is found on a grid has been tested,
and the search falls back on the exact value. Nor does it have more digits than a reader looks at.
-/

namespace Portamento.Decimal

/-- The real that a fraction is. -/
noncomputable def Ratio.value (r : Ratio) : ℝ := r.upper / r.lower

/-- The real that a decimal is. -/
noncomputable def Scientific.value (d : Scientific) : ℝ := d.digits * 10 ^ d.exponent

namespace Ratio

theorem lower_power {base : Nat} (some : 0 < base) (e : ℤ) : 0 < (power base e).lower :=
  Nat.pow_pos some

theorem value_power {base : Nat} (some : 0 < base) (e : ℤ) :
    (power base e).value = (base : ℝ) ^ e := by
  have nonzero : (base : ℝ) ≠ 0 := by positivity
  rcases Int.le_total 0 e with natural | negative
  · obtain ⟨k, rfl⟩ := Int.eq_ofNat_of_zero_le natural
    simp [power, value]
  · obtain ⟨k, rfl⟩ := Int.exists_eq_neg_ofNat negative
    simp [power, value]

theorem value_scale (n : Nat) (r : Ratio) : (scale n r).value = n * r.value := by
  simp only [scale, value]
  push_cast
  ring

section Order

variable {a b : Ratio} (someA : 0 < a.lower) (someB : 0 < b.lower)

include someA someB

/-- Fractions are in the order of the reals that they are. -/
theorem order_eq_lt : a.order b = .lt ↔ a.value < b.value := by
  have positiveA : (0 : ℝ) < a.lower := by exact_mod_cast someA
  have positiveB : (0 : ℝ) < b.lower := by exact_mod_cast someB
  rw [order, Nat.compare_eq_lt, value, value, div_lt_div_iff₀ positiveA positiveB]
  norm_cast

theorem order_eq_eq : a.order b = .eq ↔ a.value = b.value := by
  have positiveA : (a.lower : ℝ) ≠ 0 := by exact_mod_cast someA.ne'
  have positiveB : (b.lower : ℝ) ≠ 0 := by exact_mod_cast someB.ne'
  rw [order, Nat.compare_eq_eq, value, value, div_eq_div_iff positiveA positiveB]
  norm_cast

theorem order_eq_gt : a.order b = .gt ↔ b.value < a.value := by
  have positiveA : (0 : ℝ) < a.lower := by exact_mod_cast someA
  have positiveB : (0 : ℝ) < b.lower := by exact_mod_cast someB
  rw [order, Nat.compare_eq_gt, value, value, div_lt_div_iff₀ positiveB positiveA]
  norm_cast

end Order

end Ratio

namespace Magnitude

variable {x : Magnitude}

theorem value_ratio (x : Magnitude) : x.ratio.value = x.value := by
  rw [ratio, Ratio.value_scale, Ratio.value_power (by norm_num), value]
  norm_cast

/-- A decimal that passes the test rounds to the magnitude. -/
theorem rounds_of_identifiedBy (positive : 0 < x.coefficient) {d : Scientific}
    (identified : x.identifiedBy d = true) : x.Rounds d.value := by
  have lower (n : Nat) : 0 < (Ratio.scale n (.power 2 (x.exponent - 2))).lower :=
    Ratio.lower_power (by norm_num) _
  have lowerD : 0 < d.ratio.lower := Ratio.lower_power (by norm_num) _
  have low : (Ratio.scale (4 * x.coefficient - if x.narrowBelow then 1 else 2)
      (.power 2 (x.exponent - 2))).value = x.low := by
    rw [Ratio.value_scale, Ratio.value_power (by norm_num), Magnitude.low, Nat.cast_sub]
    · split_ifs <;> norm_num
    · split_ifs <;> omega
  have high : (Ratio.scale (4 * x.coefficient + 2) (.power 2 (x.exponent - 2))).value = x.high := by
    rw [Ratio.value_scale, Ratio.value_power (by norm_num), Magnitude.high]
    norm_num
  have decimal : d.ratio.value = d.value := by
    rw [Scientific.ratio, Ratio.value_scale, Ratio.value_power (by norm_num), Scientific.value]
    norm_cast
  simp only [identifiedBy, Bool.and_eq_true] at identified
  obtain ⟨above, below⟩ := identified
  have first : x.low ≤ d.value ∧ (x.coefficient % 2 = 1 → x.low < d.value) := by
    rw [← low, ← decimal]
    split at above
    · cases above
    · next same =>
      have same := (Ratio.order_eq_eq lowerD (lower _)).mp same
      have even := of_decide_eq_true above
      exact ⟨same.ge, fun odd => by omega⟩
    · next more =>
      have more := (Ratio.order_eq_gt lowerD (lower _)).mp more
      exact ⟨more.le, fun _ => more⟩
  have second : d.value ≤ x.high ∧ (x.coefficient % 2 = 1 → d.value < x.high) := by
    rw [← high, ← decimal]
    split at below
    · next less =>
      have less := (Ratio.order_eq_lt lowerD (lower _)).mp less
      exact ⟨less.le, fun _ => less⟩
    · next same =>
      have same := (Ratio.order_eq_eq lowerD (lower _)).mp same
      have even := of_decide_eq_true below
      exact ⟨same.le, fun odd => by omega⟩
    · cases below
  exact ⟨first.1, second.1, fun odd => ⟨first.2 odd, second.2 odd⟩⟩

/-- What is found on a grid passes the test. -/
theorem identifiedBy_of_onGrid? {tie : Tie} {e : ℤ} {d : Scientific}
    (found : x.onGrid? tie e = some d) : x.identifiedBy d = true ∧ d.exponent = e ∧
      d.digits ≤ x.ratio.upper * (Ratio.power 10 e).lower /
        (x.ratio.lower * (Ratio.power 10 e).upper) + 1 := by
  unfold onGrid? at found
  simp only [] at found
  split at found
  · cases found
  · next below _ =>
    cases found
    exact ⟨below, rfl, Nat.le_succ _⟩
  · next _ above =>
    cases found
    exact ⟨above, rfl, le_rfl⟩
  · next below above =>
    split at found
    · cases found
      exact ⟨below, rfl, Nat.le_succ _⟩
    · cases found
      exact ⟨above, rfl, le_rfl⟩
    · split at found
      · cases found
        exact ⟨above, rfl, le_rfl⟩
      · split at found
        · cases found
          exact ⟨below, rfl, Nat.le_succ _⟩
        · cases found
          exact ⟨above, rfl, le_rfl⟩

end Magnitude

/-- So many zeros in front of the first digit mean that many powers of ten. -/
theorem mul_leadingZeros_lt (fuel : Nat) {r : Ratio} (small : r.upper < r.lower) :
    r.upper * 10 ^ leadingZeros fuel r < r.lower := by
  induction fuel generalizing r with
  | zero => simpa [leadingZeros] using small
  | succ fuel ih =>
    unfold leadingZeros
    split
    · simpa using small
    · next more =>
      have shifted := ih (r := ⟨10 * r.upper, r.lower⟩) (by dsimp only; omega)
      rw [pow_succ]
      dsimp only at shifted
      linarith

namespace Magnitude

variable {x : Magnitude}

theorem lower_ratio (x : Magnitude) : 0 < x.ratio.lower := Ratio.lower_power (by norm_num) _

/-- The decade of a magnitude is beyond it. -/
theorem value_lt_decade (x : Magnitude) : x.value < 10 ^ x.decade := by
  have lower : (0 : ℝ) < x.ratio.lower := by exact_mod_cast x.lower_ratio
  rw [← value_ratio, Ratio.value, div_lt_iff₀ lower]
  unfold decade
  simp only []
  split
  · next small =>
    have less : x.ratio.upper < x.ratio.lower := (Nat.div_eq_zero_iff_lt x.lower_ratio).mp small
    have zeros : (x.ratio.upper * 10 ^ leadingZeros 330 x.ratio : ℝ) < x.ratio.lower := by
      exact_mod_cast mul_leadingZeros_lt 330 less
    rw [zpow_neg, zpow_natCast, inv_mul_eq_div, lt_div_iff₀ (by positivity)]
    exact zeros
  · next large =>
    have digits := (length_toDigits (Nat.pos_of_ne_zero large)).1
    have whole := (Nat.div_lt_iff_lt_mul x.lower_ratio).mp digits
    rw [zpow_natCast]
    exact_mod_cast whole

/-- What is found on one of the first grids has few digits. -/
theorem digits_le_of_onGrid? {tie : Tie} {n : Nat} {d : Scientific} (few : n < 17)
    (found : x.onGrid? tie (x.decade - Int.ofNat (n + 1)) = some d) : d.digits ≤ 10 ^ 17 := by
  obtain ⟨-, -, bound⟩ := identifiedBy_of_onGrid? found
  let e : ℤ := x.decade - (n + 1 : ℕ)
  have lower : 0 < (Ratio.power 10 e).lower := Ratio.lower_power (by norm_num) e
  have upper : 0 < (Ratio.power 10 e).upper := Nat.pow_pos (by norm_num)
  have lowerX : (0 : ℝ) < x.ratio.lower := by exact_mod_cast x.lower_ratio
  have lowerE : (0 : ℝ) < (Ratio.power 10 e).lower := by exact_mod_cast lower
  have step : ((Ratio.power 10 e).upper / (Ratio.power 10 e).lower : ℝ) = 10 ^ e := by
    exact_mod_cast Ratio.value_power (by norm_num : 0 < 10) e
  have less : x.ratio.upper * (Ratio.power 10 e).lower /
      (x.ratio.lower * (Ratio.power 10 e).upper) < 10 ^ (n + 1) := by
    rw [Nat.div_lt_iff_lt_mul (Nat.mul_pos x.lower_ratio upper)]
    have value := x.value_lt_decade
    have decade : x.decade = e + (n + 1 : ℕ) := by omega
    rw [decade, zpow_add₀ (by norm_num), zpow_natCast, ← step, ← value_ratio, Ratio.value,
      div_mul_eq_mul_div, div_lt_div_iff₀ lowerX lowerE] at value
    have value : x.ratio.upper * (Ratio.power 10 e).lower <
        (Ratio.power 10 e).upper * 10 ^ (n + 1) * x.ratio.lower := by exact_mod_cast value
    linarith
  calc d.digits ≤ _ := bound
    _ ≤ 10 ^ (n + 1) := less
    _ ≤ 10 ^ 17 := Nat.pow_le_pow_right (by norm_num) few

end Magnitude

/-- To strip zeros changes nothing of the value, and adds no digit. -/
theorem Scientific.stripped_spec (fuel : Nat) (d : Scientific) :
    (d.stripped fuel).value = d.value ∧ (d.stripped fuel).digits ≤ d.digits := by
  induction fuel generalizing d with
  | zero => exact ⟨rfl, le_rfl⟩
  | succ fuel ih =>
    unfold stripped
    split
    · next zero =>
      obtain ⟨value, digits⟩ := ih ⟨d.digits / 10, d.exponent + 1⟩
      have ten : d.digits = 10 * (d.digits / 10) := by omega
      refine ⟨value.trans ?_, digits.trans (Nat.div_le_self _ _)⟩
      simp only [Scientific.value]
      rw [zpow_add_one₀ (by norm_num)]
      conv_rhs => rw [ten]
      push_cast
      ring
    · exact ⟨rfl, le_rfl⟩

/-- A product of a bounded number and a bounded power. -/
theorem mul_pow_lt {n limit base k greatest bound : Nat} (number : n < limit) (some : 0 < base)
    (power : k ≤ greatest) (product : limit * base ^ greatest < bound) : n * base ^ k < bound :=
  lt_of_le_of_lt (Nat.mul_le_mul number.le (Nat.pow_le_pow_right some power)) product

/-- So many digits of a number are looked at even if four zeros stand in front of them. -/
def surelySeen : Nat := decisiveDigits - 4

/-- More than the digits of an exact value come to. -/
theorem powers_lt : 2 ^ 53 * 2 ^ 971 < 10 ^ surelySeen ∧ 2 ^ 53 * 5 ^ 1074 < 10 ^ surelySeen ∧
    10 ^ 17 < 10 ^ surelySeen := by
  decide +kernel

/-- A whole magnitude as a decimal. -/
theorem value_of_whole {x : Magnitude} {k : Nat} (exponent : x.exponent = k) :
    Scientific.value ⟨x.coefficient * 2 ^ k, 0⟩ = x.value := by
  simp only [Scientific.value, Magnitude.value, exponent]
  push_cast
  rw [zpow_zero, mul_one, zpow_natCast]

/-- A magnitude with binary places as a decimal with as many places. -/
theorem value_of_fraction {x : Magnitude} {k : Nat} (exponent : x.exponent = -k) :
    Scientific.value ⟨x.coefficient * 5 ^ k, x.exponent⟩ = x.value := by
  have ten : (10 : ℝ) ^ k = 5 ^ k * 2 ^ k := by
    rw [← mul_pow]
    norm_num
  simp only [Scientific.value, Magnitude.value, exponent]
  push_cast
  rw [zpow_neg, zpow_neg, zpow_natCast, zpow_natCast, ten]
  field_simp

/-- The decimal that stands for a double rounds to it, and has no more digits than are looked at. -/
theorem Magnitude.shortest_spec {x : Magnitude} (double : x.IsDouble) (positive : 0 < x.coefficient)
    (tie : Tie) : x.Rounds (x.shortest tie).value ∧ (x.shortest tie).digits < 10 ^ surelySeen := by
  have bounds := powers_lt
  generalize 10 ^ surelySeen = most at bounds ⊢
  obtain ⟨even, odd, grid⟩ := bounds
  unfold shortest
  simp only []
  split
  · next d found =>
    obtain ⟨n, member, hit⟩ := List.exists_of_findSome?_eq_some found
    obtain ⟨value, digits⟩ := d.stripped_spec 20
    have few := digits_le_of_onGrid? (List.mem_range.mp member) hit
    rw [value]
    refine ⟨rounds_of_identifiedBy positive (identifiedBy_of_onGrid? hit).1, ?_⟩
    exact lt_of_le_of_lt (digits.trans few) grid
  · obtain ⟨bits, least, greatest, -⟩ := double
    split
    · next natural =>
      obtain ⟨k, exponent⟩ := Int.eq_ofNat_of_zero_le natural
      have size : x.exponent.toNat = k := by omega
      have bound : k ≤ 971 := by omega
      have few := mul_pow_lt bits (by norm_num : 0 < 2) bound even
      rw [Nat.pow_eq, size]
      exact ⟨value_of_whole exponent ▸ x.rounds_value, few⟩
    · next negative =>
      obtain ⟨k, exponent⟩ := Int.exists_eq_neg_ofNat (not_le.mp negative).le
      have size : (-x.exponent).toNat = k := by omega
      have bound : k ≤ 1074 := by omega
      have few := mul_pow_lt bits (by norm_num : 0 < 5) bound odd
      rw [Nat.pow_eq, size]
      exact ⟨value_of_fraction exponent ▸ x.rounds_value, few⟩

end Portamento.Decimal
