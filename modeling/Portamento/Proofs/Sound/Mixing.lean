import Portamento.Proofs.Sound.Gain
import Portamento.Proofs.Sound.Playing

/-!
# What mixing adds to a frame

To mix a tone in, a renderer works out the first frame and the last one, both within the buffer, and
goes from the one to the other with a phase that it carries along. So it need not ask of any frame
whether the tone sounds there. The frames that it meets are the ones that lie within the tone all
the same, and at each of them the phase is, but for whole turns, what the frequencies at the frames
before come to.

Of the sine nothing is used, so that any function may stand in its place.
-/

namespace Portamento

/-- The reals, with some function in the place of the sine. -/
@[reducible] noncomputable def Tonal.withSine (sine : ℝ → ℝ) : Tonal ℝ :=
  { Tonal.instReal with sin := sine }

namespace Mixing

section Loop

variable {α : Type} [Tonal α] (tone : Tone α) (rate : Nat)

/-- The phase of a tone so many frames behind one at which it has the given phase. -/
def phaseAfter : Nat → Nat → α → α
  | 0, _, phase => phase
  | count + 1, frame, phase =>
    phaseAfter count (frame + 1)
      (nextPhase tone rate (Scalar.ofNat frame / Scalar.ofNat rate) phase)

/-- The phase of a tone at a frame. It is zero at the first frame that is not before the tone. -/
def phaseAt (frame : Nat) : α :=
  let first := Scalar.ceilCount (tone.start * Scalar.ofNat rate)
  phaseAfter tone rate (frame - first) first (Scalar.ofNat 0)

/-- The loop adds something to the frames that it goes through, each with the phase at that frame,
and nothing to the others. -/
theorem getElem?_addFrom (count frame : Nat) (phase : α) (samples : Array α) (f : Nat) :
    (addFrom tone rate count frame phase samples)[f]? =
      if frame ≤ f ∧ f < frame + count then
        samples[f]?.map fun x => Tonal.sample (x + Tonal.sample
          (Tonal.sin (phaseAfter tone rate (f - frame) frame phase) *
            tone.gainAt (Scalar.ofNat f / Scalar.ofNat rate)))
      else samples[f]? := by
  induction count generalizing frame phase samples with
  | zero =>
    have outside : ¬ (frame ≤ f ∧ f < frame + 0) := by omega
    rw [if_neg outside, addFrom]
  | succ count ih =>
    rw [addFrom, ih, Array.getElem?_modify]
    rcases Nat.lt_trichotomy f frame with before | rfl | behind
    · have outside : ¬ (frame ≤ f ∧ f < frame + (count + 1)) := by omega
      have outside' : ¬ (frame + 1 ≤ f ∧ f < frame + 1 + count) := by omega
      rw [if_neg outside, if_neg outside', if_neg before.ne']
    · have inside : f ≤ f ∧ f < f + (count + 1) := by omega
      have outside : ¬ (f + 1 ≤ f ∧ f < f + 1 + count) := by omega
      rw [if_pos inside, if_neg outside, if_pos rfl, Nat.sub_self]
      rfl
    · have same : (frame + 1 ≤ f ∧ f < frame + 1 + count) ↔
          (frame ≤ f ∧ f < frame + (count + 1)) := by omega
      have step : f - frame = f - (frame + 1) + 1 := by omega
      simp only [same, if_neg behind.ne, step, phaseAfter]

end Loop

/-! ## The phase -/

section Phase

variable (tone : Tone ℝ) (rate : Nat)

/-- From frame to frame the phase gains what the frequency comes to, but for whole turns. -/
theorem exists_phaseAfter_eq (count frame : Nat) (phase : ℝ) : ∃ turns : ℤ,
    phaseAfter tone rate count frame phase = phase +
      ∑ i ∈ Finset.range count,
        Tonal.turn * tone.path.frequencyAt ((frame + i : ℕ) / rate) / rate +
      turns * Tonal.turn := by
  induction count generalizing frame phase with
  | zero => exact ⟨0, by simp [phaseAfter]⟩
  | succ count ih =>
    let gain (g : ℕ) : ℝ := Tonal.turn * tone.path.frequencyAt (g / rate) / rate
    let whole := truncated ((phase + gain frame) / Tonal.turn)
    have next : nextPhase tone rate (Scalar.ofNat frame / Scalar.ofNat rate) phase =
        phase + gain frame - Tonal.turn * whole := rfl
    obtain ⟨turns, later⟩ := ih (frame + 1) (phase + gain frame - Tonal.turn * whole)
    refine ⟨turns - whole, ?_⟩
    rw [phaseAfter, next, later, Finset.sum_range_succ']
    simp only [Nat.add_zero, Nat.add_assoc, Nat.add_comm 1, Int.cast_sub, gain]
    ring

end Phase

/-! ## The frames of a tone -/

section Frames

variable {rate : Nat} (positive : 0 < rate)
include positive

/-- The frames from the first at or after a time on are those whose times are not before it. -/
theorem frameAt_le_iff (t : ℝ) {f size : Nat} (inside : f < size) :
    frameAt t rate size ≤ f ↔ t ≤ f / rate := by
  have moving : (0 : ℝ) < rate := Nat.cast_pos.mpr positive
  rw [le_div_iff₀ moving, ← Nat.ceil_le, frameAt, min_le_iff]
  exact or_iff_left (Nat.not_le.mpr inside)

theorem lt_frameAt_iff (t : ℝ) {f size : Nat} (inside : f < size) :
    f < frameAt t rate size ↔ f / rate < t := by
  rw [← Nat.not_le, frameAt_le_iff positive t inside, not_le]

/-- At a frame at which a tone sounds, the phase is what the frequencies at the frames before it
come to, as far as the tone sounds there, but for whole turns. -/
theorem exists_phaseAt_eq (tone : Tone ℝ) {f : Nat} (sounding : tone.isSoundingAt (f / rate)) :
    ∃ turns : ℤ, phaseAt tone rate f =
      ∑ g ∈ (Finset.range f).filter fun g : ℕ => tone.isSoundingAt (g / rate),
        Tonal.turn * tone.path.frequencyAt (g / rate) / rate + turns * Tonal.turn := by
  have moving : (0 : ℝ) < rate := Nat.cast_pos.mpr positive
  obtain ⟨begun, running⟩ := Tone.isSoundingAt_iff.mp sounding
  let first := ⌈tone.start * rate⌉₊
  -- the frames before this one at which the tone sounds are those from its first one on
  have earlier : (Finset.range f).filter (fun g : ℕ => tone.isSoundingAt (g / rate)) =
      Finset.Ico first f := by
    ext g
    rw [Finset.mem_filter, Finset.mem_range, Finset.mem_Ico, Tone.isSoundingAt_iff,
      Nat.ceil_le, ← le_div_iff₀ moving, and_comm]
    refine and_congr_left fun before => and_iff_left ?_
    have order : (g : ℝ) / rate ≤ f / rate := by gcongr
    exact order.trans_lt running
  obtain ⟨turns, phase⟩ := exists_phaseAfter_eq tone rate (f - first) first 0
  refine ⟨turns, ?_⟩
  rw [earlier, Finset.sum_Ico_eq_sum_range, ← zero_add (Finset.sum _ _), ← phase]
  exact congrArg (phaseAfter tone rate _ _) Nat.cast_zero

end Frames

/-! ## Mixing -/

section Mix

variable (sine : ℝ → ℝ) {rate : Nat} (positive : 0 < rate)

/-- What a tone adds to a frame at which it sounds. -/
noncomputable def contribution (sine : ℝ → ℝ) (rate f : Nat) (tone : Tone ℝ) : ℝ :=
  sine (phaseAt tone rate f) * tone.gainAt (f / rate)

/-- The phase takes nothing from the sine. -/
theorem phaseAfter_withSine (tone : Tone ℝ) (rate count frame : Nat) (phase : ℝ) :
    @phaseAfter ℝ (.withSine sine) tone rate count frame phase =
      phaseAfter tone rate count frame phase := by
  induction count generalizing frame phase with
  | zero => rfl
  | succ count ih => exact ih _ _

include positive

/-- Mixed in, a tone adds its contribution to the frames at which it sounds. -/
theorem getElem?_addTone (samples : Array ℝ) (tone : Tone ℝ) (f : Nat) :
    (@addTone ℝ (.withSine sine) rate samples tone)[f]? = samples[f]?.map fun x =>
      if tone.isSoundingAt (f / rate) then x + contribution sine rate f tone else x := by
  let first := frameAt tone.start rate samples.size
  let last := frameAt tone.finish rate samples.size
  have loop : @addTone ℝ (.withSine sine) rate samples tone =
      @addFrom ℝ (.withSine sine) tone rate (last - first) first (Scalar.ofNat 0) samples := rfl
  rw [loop, @getElem?_addFrom ℝ (.withSine sine), phaseAfter_withSine]
  rcases Nat.lt_or_ge f samples.size with inside | outside
  · have within : first ≤ f ∧ f < first + (last - first) ↔ tone.isSoundingAt (f / rate) = true := by
      rw [Tone.isSoundingAt_iff, ← frameAt_le_iff positive tone.start inside,
        ← lt_frameAt_iff positive tone.finish inside]
      omega
    rw [Array.getElem?_eq_getElem inside]
    simp only [within, Option.map_some]
    split
    · next sounding =>
      -- the buffer does not end before the tone, for the frame is in it
      have unclamped : first = ⌈tone.start * rate⌉₊ := by
        have begun := (within.mpr sounding).1
        rcases Nat.le_total ⌈tone.start * rate⌉₊ samples.size with reached | beyond
        · exact min_eq_left reached
        · have clamped : first = samples.size := min_eq_right beyond
          omega
      rw [unclamped]
      rfl
    · rfl
  · have none : samples[f]? = none := Array.getElem?_eq_none outside
    rw [none]
    exact ite_self _

/-- Mixed in one after the other, tones add up. -/
theorem getElem?_foldl_addTone (tones : List (Tone ℝ)) (samples : Array ℝ) (f : Nat) :
    (tones.foldl (@addTone ℝ (.withSine sine) rate) samples)[f]? = samples[f]?.map fun x =>
      x + ((tones.filter fun tone => tone.isSoundingAt (f / rate)).map
        (contribution sine rate f)).sum := by
  induction tones generalizing samples with
  | nil => simp
  | cons tone later ih =>
    rw [List.foldl_cons, ih, getElem?_addTone sine positive, Option.map_map, List.filter_cons]
    congr 1
    funext x
    rw [Function.comp_apply]
    split
    · rw [List.map_cons, List.sum_cons, add_assoc]
    · rfl

/-- A frame of what is rendered is the sum of what the tones that sound there contribute. -/
theorem getElem?_render (list : ToneList ℝ) (seconds : ℝ) {f : Nat}
    (inside : f < framesFor seconds rate) :
    (@render ℝ (.withSine sine) list seconds rate).samples[f]? =
      some ((list.soundingAt (f / rate)).map (contribution sine rate f)).sum := by
  have silent : (@Buffer.silent ℝ (.withSine sine) (framesFor seconds rate) rate).samples[f]? =
      some 0 := by
    have small : f < (Array.replicate (framesFor seconds rate) (0 : ℝ)).size := by
      rwa [Array.size_replicate]
    have zeros : @Buffer.silent ℝ (.withSine sine) (framesFor seconds rate) rate =
        ⟨rate, Array.replicate (framesFor seconds rate) 0⟩ := by
      simp only [Buffer.silent, Scalar.ofNat_real, Nat.cast_zero]
    rw [zeros, Array.getElem?_eq_getElem small, Array.getElem_replicate]
  have mixed : (@render ℝ (.withSine sine) list seconds rate).samples =
      list.tones.foldl (@addTone ℝ (.withSine sine) rate)
        (@Buffer.silent ℝ (.withSine sine) (framesFor seconds rate) rate).samples := rfl
  rw [mixed, getElem?_foldl_addTone sine positive, silent, Option.map_some, zero_add,
    ToneList.soundingAt_eq_filter]

end Mix

end Mixing

end Portamento
