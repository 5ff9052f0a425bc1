import Mathlib
import Portamento.Proofs.Live.Step
import Portamento.Proofs.Scalar.Exact

/-!
# When a live loop takes the device

A loop that repeats waits before each pass but the first until the clock comes near the beginning of
the pass; a loop that does not repeat lays one pass and waits for its end. `Scheduled` says of every
phase what the clock and the count of passes have to do with it; every step keeps it, and so does
the clock as it goes on.
-/

namespace Portamento.LiveLoop

/-- A loop whose pass has any length opens with a pass. -/
theorem begin_of_pos {loop : LiveLoop ℝ} (long : 0 < loop.passLength) (now : ℝ) :
    loop.begin now = { loop with origin := now + loop.plan.leadIn, phase := .entering } :=
  if_neg (by simpa using long)

/-- The earliest reading of the clock at which a pass may be begun. -/
noncomputable def earliest (loop : LiveLoop ℝ) (pass : Nat) : ℝ :=
  loop.passStart pass - loop.plan.ahead - 1 / 1000000

/-- The time that a waiting loop waits for: that of the next pass or, behind the only pass, its
end. -/
def Awaits (loop : LiveLoop ℝ) (target : ℝ) (closing : Bool) : Prop :=
  closing = !loop.plan.looping ∧
    (loop.plan.looping = true → target = loop.passStart loop.passes - loop.plan.ahead) ∧
    (loop.plan.looping = false → loop.passes = 1)

/-- What the clock and the count of passes have to do with the phase of a loop. -/
def Scheduled (now : ℝ) (loop : LiveLoop ℝ) : Prop :=
  match loop.phase with
  | .fresh => loop.passes = 0
  | .checking target closing => loop.Awaits target closing
  | .resting _ target closing => loop.Awaits target closing
  | .entering => loop.passes = 0 ∨ loop.plan.looping = true ∧ loop.earliest loop.passes ≤ now
  | .laying _ => loop.passes = 0 ∨ loop.plan.looping = true
  | .ended (.ok passes) => passes = loop.passes ∧ (loop.passes ≤ 1 ∨ loop.plan.looping = true)
  | .ended (.error _) => loop.passes = 0 ∨ loop.plan.looping = true

theorem tolerance_real : (tolerance : ℝ) = 1 / 1000000 := by
  simp [tolerance, Scalar.ratio_real]

variable {now : ℝ} {loop next : LiveLoop ℝ}

/-- A loop on schedule stays on it as the clock goes on. -/
theorem Scheduled.mono {later : ℝ} (scheduled : Scheduled now loop) (order : now ≤ later) :
    Scheduled later loop := by
  cases phase : loop.phase with
  | entering =>
    simp only [Scheduled, phase] at scheduled ⊢
    rcases scheduled with first | ⟨looping, due⟩
    · exact .inl first
    · exact .inr ⟨looping, due.trans order⟩
  | ended outcome => cases outcome <;> simpa only [Scheduled, phase] using scheduled
  | _ => simpa only [Scheduled, phase] using scheduled

theorem Awaits.passes_le {target : ℝ} {closing : Bool} (awaits : loop.Awaits target closing) :
    loop.passes ≤ 1 ∨ loop.plan.looping = true := by
  cases looping : loop.plan.looping with
  | true => exact .inr rfl
  | false => exact .inl (awaits.2.2 looping).le

theorem Awaits.arrive {target : ℝ} {closing : Bool} (awaits : loop.Awaits target closing)
    (reached : target - now ≤ tolerance) : Scheduled now (loop.arrive closing) := by
  have few := awaits.passes_le
  obtain ⟨closes, near, -⟩ := awaits
  cases looping : loop.plan.looping with
  | false =>
    rw [looping] at closes
    subst closes
    exact ⟨rfl, few⟩
  | true =>
    rw [looping] at closes
    subst closes
    refine .inr ⟨looping, ?_⟩
    rw [near looping, tolerance_real] at reached
    have bound : loop.passStart loop.passes - loop.plan.ahead - 1 / 1000000 ≤ now := by linarith
    exact bound

/-- A loop that does not repeat has at most one pass, complete or not. -/
theorem Scheduled.begun_le (scheduled : Scheduled now loop) (single : loop.plan.looping = false) :
    (loop.passes + if loop.isMidPass then 1 else 0) ≤ 1 := by
  cases phase : loop.phase with
  | ended outcome =>
    cases outcome <;> simp_all [Scheduled, isMidPass]
  | _ => simp_all [Scheduled, Awaits, isMidPass]

/-- A step keeps the schedule. The first one needs a pass that has a length; a loop without one
returns at once. -/
theorem Step.scheduled {instant : Nat} {device after : Device ℝ}
    (step : Step instant loop device next after)
    (scheduled : Scheduled (device.now instant) loop) :
    Scheduled (after.now instant) next := by
  unfold Scheduled at scheduled
  cases step with
  | opens fresh =>
    rw [fresh] at scheduled
    rcases loop.begin_eq_or (device.now instant) with eq | eq <;> rw [eq]
    · exact ⟨scheduled.symm, .inl (scheduled.trans_le (Nat.zero_le 1))⟩
    · exact .inl scheduled
  | looks target closing checking =>
    simp only [checking] at scheduled
    unfold check
    dsimp only
    split
    · next reached => exact scheduled.arrive reached
    · exact scheduled
  | quits wake target closing resting =>
    simp only [resting] at scheduled
    exact ⟨rfl, scheduled.passes_le⟩
  | turnsBack entering =>
    simp only [entering] at scheduled
    refine ⟨rfl, ?_⟩
    rcases scheduled with first | ⟨looping, -⟩
    · exact .inl (first.trans_le (Nat.zero_le 1))
    · exact .inr looping
  | wakes wake target closing resting =>
    simp only [resting] at scheduled
    exact scheduled
  | enters entering =>
    simp only [entering] at scheduled
    exact scheduled.imp_right And.left
  | completes laying =>
    simp only [laying] at scheduled
    unfold passLaid Scheduled
    dsimp only
    cases looping : loop.plan.looping with
    | false =>
      simp only [looping, Bool.false_eq_true, or_false] at scheduled
      refine ⟨?_, fun h => ?_, fun _ => ?_⟩
      · simp [looping]
      · simp only [looping, Bool.false_eq_true] at h
      · simp [scheduled]
    | true =>
      refine ⟨?_, fun _ => rfl, fun h => ?_⟩
      · simp [looping]
      · simp only [looping, Bool.true_eq_false] at h
  | lays event later laying =>
    simp only [laying] at scheduled
    exact scheduled
  | fails event later fault laying =>
    simp only [laying] at scheduled
    exact scheduled

/-- A loop whose pass has a length returns with a count only when it has been told to stop, or
behind its only pass. -/
theorem Step.told_or_single {instant : Nat} {device after : Device ℝ}
    (step : Step instant loop device next after)
    (scheduled : Scheduled (device.now instant) loop) (long : 0 < loop.passLength) {passes : Nat}
    (ended : next.phase = .ended (.ok passes)) :
    next.cancelled = true ∨ next.plan.looping = false ∧ next.passes = 1 := by
  unfold Scheduled at scheduled
  cases step with
  | opens =>
    rw [begin_of_pos long] at ended
    cases ended
  | looks target closing checking =>
    simp only [checking] at scheduled
    obtain ⟨closes, -, only⟩ := scheduled
    unfold check at ended ⊢
    dsimp only at ended ⊢
    split at ended
    · next reached =>
      rw [if_pos reached]
      rcases loop.arrive_eq_or closing with ⟨eq, rfl⟩ | ⟨eq, -⟩
      · have single : loop.plan.looping = false := by simpa using closes
        rw [eq]
        exact .inr ⟨single, only single⟩
      · rw [eq] at ended
        cases ended
    · cases ended
  | quits _ _ _ _ told => exact .inl told
  | turnsBack _ told => exact .inl told
  | completes =>
    unfold passLaid at ended
    dsimp only at ended
    split at ended <;> cases ended
  | _ => cases ended

end Portamento.LiveLoop
