import Portamento.Proofs.Scalar.Exact
import Portamento.Proofs.Sound.Time

/-!
# The gain of a tone

A tone plays an event if it begins with the event and has its envelope, up to an end that a cut may
have moved forward. Its gain is never above the amplitude of the event, and there is none while the
tone does not sound.
-/

namespace Portamento

/-- The gain never rises above the amplitude. -/
theorem Envelope.gainAt_le (e : Envelope ℝ) (amplitude : 0 ≤ e.amplitude) (t : ℝ) :
    e.gainAt t ≤ e.amplitude := by
  unfold Envelope.gainAt
  split
  · simpa using amplitude
  · next inside =>
    obtain ⟨begun, running⟩ := not_or.mp inside
    split
    · next rising =>
      have elapsed : 0 ≤ t - e.start := by linarith [not_lt.mp begun]
      have part : t - e.start < e.attack := by
        simp only [Envelope.attackEnd] at rising
        linarith
      rw [div_le_iff₀ (elapsed.trans_lt part)]
      gcongr
    · split
      · next falling =>
        have remaining : 0 < e.finish - t := by linarith [not_le.mp running]
        have part : e.finish - t < e.release := by
          simp only [Envelope.releaseStart] at falling
          linarith
        rw [div_le_iff₀ (remaining.trans part)]
        gcongr
      · exact le_refl _

/-- Before its start and from its end on an envelope is silent. -/
theorem Envelope.gainAt_eq_zero {e : Envelope ℝ} {t : ℝ} (outside : t < e.start ∨ e.finish ≤ t) :
    e.gainAt t = 0 := by
  simp only [Envelope.gainAt, if_pos outside, Scalar.ofNat_real, Nat.cast_zero]

namespace Tone

/-- What makes a tone the tone of an event. -/
structure Plays (tone : Tone ℝ) (event : Event ℝ) : Prop where
  path_eq : tone.path = event.path
  start_eq : tone.start = event.start
  finish_le : tone.finish ≤ event.finish
  envelope_eq : tone.envelope = some { event.envelope with finish := tone.finish }

variable {tone : Tone ℝ} {event : Event ℝ}

/-- A tone that has been cut off plays the same event. -/
theorem Plays.cutAt (plays : tone.Plays event) (t : ℝ) : (tone.cutAt t).Plays event := by
  refine ⟨by simp [plays.path_eq], by simp [plays.start_eq], ?_, ?_⟩
  · unfold Tone.cutAt
    split
    · next beyond => exact beyond.le.trans plays.finish_le
    · exact plays.finish_le
  · unfold Tone.cutAt
    split
    · next beyond =>
      have order : tone.finish ⊓ t = t := min_eq_right beyond.le
      simp [plays.envelope_eq, Scalar.min_real, order]
    · exact plays.envelope_eq

theorem finish_cutAt_le (tone : Tone ℝ) (t : ℝ) : (tone.cutAt t).finish ≤ t := by
  unfold Tone.cutAt
  split
  · exact le_refl t
  · next past => exact not_lt.mp past

theorem finish_cutAt_le_finish (tone : Tone ℝ) (t : ℝ) : (tone.cutAt t).finish ≤ tone.finish := by
  unfold Tone.cutAt
  split
  · next beyond => exact beyond.le
  · exact le_refl _

theorem isSoundingAt_iff {t : ℝ} : tone.isSoundingAt t = true ↔ tone.start ≤ t ∧ t < tone.finish :=
  decide_eq_true_iff

theorem Plays.gainAt_le (plays : tone.Plays event)
    (shaped : event.envelope.amplitude = event.amplitude) (amplitude : 0 ≤ event.amplitude)
    (t : ℝ) : tone.gainAt t ≤ event.amplitude := by
  rw [← shaped] at amplitude ⊢
  simp only [gainAt, plays.envelope_eq]
  exact Envelope.gainAt_le { event.envelope with finish := tone.finish } amplitude t

theorem Plays.gainAt_eq_zero (plays : tone.Plays event)
    (shaped : event.envelope.start = event.start) {t : ℝ} (silent : tone.isSoundingAt t = false) :
    tone.gainAt t = 0 := by
  simp only [gainAt, plays.envelope_eq]
  refine Envelope.gainAt_eq_zero ?_
  by_contra inside
  obtain ⟨begun, running⟩ := not_or.mp inside
  have sounding : tone.isSoundingAt t = true := by
    rw [isSoundingAt_iff, plays.start_eq, ← shaped]
    exact ⟨not_lt.mp begun, not_le.mp running⟩
  rw [silent] at sounding
  cases sounding

end Tone

end Portamento
