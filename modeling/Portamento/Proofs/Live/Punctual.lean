import Mathlib
import Portamento.Proofs.Live.Passes
import Portamento.Proofs.Live.Schedule

/-!
# How late a live loop is

Sleepers are woken at whole milliseconds, and so a loop that is never kept waiting still begins a
pass up to a millisecond after the time that it has waited for. It is no later than that, however
short the passes are, for the delay does not add up: a pass that is begun late is followed by one
that is waited for from its own time on.
-/

namespace Portamento

theorem nearestEven_le (x : ℝ) : (nearestEven x : ℝ) ≤ x + 1 / 2 := by
  unfold nearestEven
  split
  · next half =>
    have parts := Int.floor_add_fract x
    rw [half] at parts
    split
    · linarith
    · push_cast
      linarith
  · have near := (abs_le.mp (abs_sub_round x)).1
    linarith

/-- A whole number of nanoseconds is not rounded. -/
theorem Scalar.nanoseconds_div (n : Nat) :
    Scalar.nanoseconds ((n : ℝ) / 1000000000) = n := by
  have eq : Scalar.nanoseconds ((n : ℝ) / 1000000000) =
      (nearestEven ((n : ℝ) / 1000000000 * 1000000000)).toNat := rfl
  have whole : ¬ Int.fract (n : ℝ) = 1 / 2 := by norm_num
  rw [eq, div_mul_cancel₀ _ (by norm_num), nearestEven, if_neg whole, round_natCast,
    Int.toNat_natCast]

namespace LiveLoop

/-- A count of nanoseconds is rounded by half a nanosecond at most. -/
theorem nanoseconds_le {x : ℝ} (nonneg : 0 ≤ x) :
    (Scalar.nanoseconds x : ℝ) ≤ x * 1000000000 + 1 / 2 := by
  have rounded := nearestEven_le (x * 1000000000)
  have eq : Scalar.nanoseconds x = (nearestEven (x * 1000000000)).toNat := rfl
  rw [eq]
  rcases Int.le_total 0 (nearestEven (x * 1000000000)) with whole | below
  · have same : (((nearestEven (x * 1000000000)).toNat : ℤ) : ℝ) =
        nearestEven (x * 1000000000) := by rw [Int.toNat_of_nonneg whole]
    rw [Int.cast_natCast] at same
    rwa [same]
  · rw [Int.toNat_of_nonpos below, Nat.cast_zero]
    linarith

theorem wakeInstant_bounds (deadline : Nat) :
    deadline ≤ wakeInstant deadline ∧ wakeInstant deadline ≤ deadline + 999999 := by
  unfold wakeInstant wakeGrain
  omega

/-- A pass is begun before anything has been heard, or less than a millisecond after the time that
the loop has waited for. -/
def InTime (now : ℝ) (loop : LiveLoop ℝ) (pass : Nat) : Prop :=
  now = 0 ∨ 0 < pass ∧ now < loop.passStart pass - loop.plan.ahead + 1 / 1000

/-- What the clock has to do with a loop that has never been kept waiting, at an instant. -/
def Prompt (instant : Nat) (loop : LiveLoop ℝ) : Prop :=
  match loop.phase with
  | .fresh => instant = 0
  | .checking target closing => closing = false →
    target = loop.passStart loop.passes - loop.plan.ahead ∧ 0 < loop.passes ∧
      loop.InTime (instant / 1000000000) loop.passes
  | .resting wake target closing => instant ≤ wake ∧ (closing = false →
    target = loop.passStart loop.passes - loop.plan.ahead ∧ 0 < loop.passes ∧
      (wake : ℝ) / 1000000000 < target + 1 / 1000)
  | .entering => loop.InTime (instant / 1000000000) loop.passes
  | .laying _ => loop.InTime (instant / 1000000000) loop.passes
  | .ended _ => True

variable {instant : Nat} {loop next : LiveLoop ℝ} {device after : Device ℝ}

theorem Prompt.ofPlan (plan : LivePlan ℝ) : Prompt 0 (ofPlan plan) := rfl

/-- A pass that is begun in time leaves time for the next one. -/
theorem InTime.succ {now : ℝ} {pass : Nat} (proper : loop.plan.Proper)
    (inTime : loop.InTime now pass) : loop.InTime now (pass + 1) := by
  rcases inTime with first | ⟨-, soon⟩
  · exact .inl first
  · have order := passStart_mono proper (Nat.le_succ pass)
    exact .inr ⟨pass.succ_pos, by linarith⟩

/-- Whoever goes to sleep before a time is woken less than a millisecond after it. -/
theorem wake_lt {target : ℝ} (early : ¬ target - instant / 1000000000 ≤ (tolerance : ℝ)) :
    (wakeInstant (instant + Scalar.nanoseconds
      (Scalar.min (target - instant / 1000000000) longestRest)) : ℝ) / 1000000000 <
        target + 1 / 1000 := by
  have remaining : 0 ≤ target - instant / 1000000000 := by
    rw [tolerance_real] at early
    linarith
  have rest : (0 : ℝ) ≤ longestRest := by
    rw [longestRest, Scalar.ratio_real]
    positivity
  rw [Scalar.min_real]
  have shortest := min_le_left (target - instant / 1000000000) (longestRest : ℝ)
  have rounded := nanoseconds_le (le_min remaining rest)
  have woken : ((wakeInstant (instant + Scalar.nanoseconds
      (min (target - instant / 1000000000) longestRest)) : ℕ) : ℝ) ≤
        instant + Scalar.nanoseconds (min (target - instant / 1000000000) longestRest) +
          999999 := by
    exact_mod_cast (wakeInstant_bounds _).2
  rw [div_lt_iff₀ (by norm_num)]
  linarith

/-- Every step of a loop that has never been kept waiting finds it in time, and leaves it so. -/
theorem Step.prompt (proper : loop.plan.Proper) (step : Step instant loop device next after)
    (clock : device.now instant = instant / 1000000000) (prompt : loop.Prompt instant) :
    next.Prompt instant := by
  unfold Prompt at prompt
  cases step with
  | opens fresh =>
    simp only [fresh] at prompt
    rcases loop.begin_eq_or (device.now instant) with eq | eq <;> rw [eq]
    · trivial
    · refine .inl ?_
      simp [prompt]
  | looks target closing checking =>
    simp only [checking] at prompt
    rw [check, clock]
    dsimp only
    split
    · rcases loop.arrive_eq_or closing with ⟨eq, -⟩ | ⟨eq, another⟩ <;> rw [eq]
      · trivial
      · exact (prompt another).2.2
    · next early =>
      refine ⟨(Nat.le_add_right _ _).trans (wakeInstant_bounds _).1, fun another => ?_⟩
      obtain ⟨same, several, -⟩ := prompt another
      exact ⟨same, several, wake_lt early⟩
  | quits => trivial
  | turnsBack => trivial
  | wakes wake target closing resting due =>
    simp only [resting] at prompt
    obtain ⟨slept, awaits⟩ := prompt
    intro another
    obtain ⟨same, several, soon⟩ := awaits another
    -- nobody has let the loop sleep for longer than it was going to
    obtain rfl : wake = instant := Nat.le_antisymm due slept
    rw [same] at soon
    exact ⟨same, several, .inr ⟨several, soon⟩⟩
  | enters entering =>
    simp only [entering] at prompt
    exact prompt
  | completes laying =>
    simp only [laying] at prompt
    unfold passLaid Prompt
    dsimp only
    cases loop.plan.looping with
    | false => exact fun another => nomatch another
    | true => exact fun _ => ⟨rfl, loop.passes.succ_pos, InTime.succ proper prompt⟩
  | lays event later laying =>
    simp only [laying] at prompt
    exact prompt
  | fails => trivial

/-- When time passes, but not so much that the loop could have taken a step meanwhile, it is still
in time. -/
theorem Prompt.advance {later : Nat} (prompt : loop.Prompt instant) (order : instant ≤ later)
    (waits : ∀ earlier, instant ≤ earlier → earlier < later → loop.step? earlier device = none) :
    loop.Prompt later := by
  rcases order.eq_or_lt with rfl | passes
  · exact prompt
  · have last := waits (later - 1) (by omega) (by omega)
    unfold step? at last
    unfold Prompt at prompt ⊢
    split at last
    · cases last
    · cases last
    · next wake target closing resting =>
      simp only [resting] at prompt ⊢
      split at last
      · cases last
      · split at last
        · cases last
        · next asleep => exact ⟨by omega, prompt.2⟩
    · split at last <;> cases last
    · cases last
    · split at last <;> cases last
    · next ended => simp only [ended]

end LiveLoop

end Portamento
