import Mathlib
import Portamento.Proofs.Live.Passes
import Portamento.Proofs.Live.Schedule

/-!
# How a live loop returns by itself

A loop that repeats returns only if it is told to, or if it breaks off. One that does not repeat
waits for the end of its only pass, and returns when the clock has come so near to it that the
difference counts for nothing.
-/

namespace Portamento.LiveLoop

/-- The time that a loop waits for behind its only pass. -/
def ClosesAt (loop : LiveLoop ℝ) (target : ℝ) (closing : Bool) : Prop :=
  closing = true → loop.plan.looping = false ∧ target = loop.passStart loop.passes

/-- What the clock has to do with a loop that is about to return, or has returned without having
been told to. -/
def Closes (now : ℝ) (loop : LiveLoop ℝ) : Prop :=
  match loop.phase with
  | .checking target closing => loop.ClosesAt target closing
  | .resting _ target closing => loop.ClosesAt target closing
  | .ended (.ok _) => loop.cancelled = false →
    loop.plan.looping = false ∧ loop.passStart loop.passes - 1 / 1000000 ≤ now
  | _ => True

variable {now : ℝ} {loop next : LiveLoop ℝ}

theorem Closes.ofPlan (plan : LivePlan ℝ) : Closes now (ofPlan plan) := trivial

theorem Closes.mono {later : ℝ} (closes : Closes now loop) (order : now ≤ later) :
    Closes later loop := by
  cases phase : loop.phase with
  | ended outcome =>
    cases outcome with
    | ok passes =>
      simp only [Closes, phase] at closes ⊢
      exact fun free => ⟨(closes free).1, (closes free).2.trans order⟩
    | error fault => simp only [Closes, phase]
  | checking target closing => simpa only [Closes, phase] using closes
  | resting wake target closing => simpa only [Closes, phase] using closes
  | _ => simp only [Closes, phase]

/-- A loop that has been told to stop may return at any time. -/
theorem Closes.cancel (closes : Closes now loop) : Closes now loop.cancel := by
  have same : loop.cancel.phase = loop.phase := rfl
  unfold Closes
  rw [same]
  cases phase : loop.phase with
  | ended outcome =>
    cases outcome with
    | ok passes => exact fun free => nomatch free
    | error fault => trivial
  | checking target closing =>
    simp only [Closes, phase] at closes
    exact closes
  | resting wake target closing =>
    simp only [Closes, phase] at closes
    exact closes
  | _ => trivial

/-- When the time that a loop waits for has come, it returns or begins another pass. -/
theorem ClosesAt.arrive {target : ℝ} {closing : Bool} (closes : loop.ClosesAt target closing)
    (reached : target - now ≤ tolerance) : Closes now (loop.arrive closing) := by
  rcases loop.arrive_eq_or closing with ⟨eq, ends⟩ | ⟨eq, -⟩
  · obtain ⟨single, rfl⟩ := closes ends
    rw [tolerance_real] at reached
    rw [eq]
    refine fun _ => ⟨single, ?_⟩
    show loop.passStart loop.passes - 1 / 1000000 ≤ now
    linarith
  · rw [eq]
    trivial

/-- Every step of a loop with a pass that has a length keeps it so. -/
theorem Step.closes {instant : Nat} {device after : Device ℝ} (proper : loop.plan.Proper)
    (step : Step instant loop device next after) (closes : Closes (device.now instant) loop) :
    Closes (after.now instant) next := by
  unfold Closes at closes
  cases step with
  | opens fresh =>
    rw [begin_of_pos proper.long]
    trivial
  | looks target closing checking =>
    simp only [checking] at closes
    unfold check
    dsimp only
    split
    · next reached => exact closes.arrive reached
    · exact closes
  | quits wake target closing resting told =>
    intro free
    rw [show loop.leave.cancelled = loop.cancelled from rfl, told] at free
    cases free
  | turnsBack entering told =>
    intro free
    rw [show loop.leave.cancelled = loop.cancelled from rfl, told] at free
    cases free
  | wakes wake target closing resting =>
    simp only [resting] at closes
    exact closes
  | completes laying =>
    unfold passLaid Closes
    dsimp only
    cases looping : loop.plan.looping with
    | true =>
      intro ends
      cases ends
    | false => exact fun _ => ⟨looping, (loop.passStart_succ loop.passes).symm⟩
  | enters | lays | fails => trivial

end Portamento.LiveLoop
