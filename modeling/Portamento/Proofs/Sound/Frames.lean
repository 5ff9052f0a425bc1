import Portamento.Proofs.Sound.Mixing
import Portamento.Proofs.Timeline.Notes

/-!
# How a rendered pass is covered

A buffer that holds a pass has a frame for each sample period of the pass, up to half a period at
the end. Each of its frames falls to the slot of one chord: it gets what the notes of that chord
contribute, and nothing at all if the chord is a rest.
-/

namespace Portamento.Mixing

section Length

variable {seconds : ℝ} {rate : Nat}

/-- Every frame of a buffer begins within the time that the buffer covers. -/
theorem frame_lt_of_framesFor (positive : 0 < rate) (long : 0 ≤ seconds) {f : Nat}
    (inside : f < framesFor seconds rate) : f / rate < seconds := by
  have moving : (0 : ℝ) < rate := Nat.cast_pos.mpr positive
  rw [framesFor_eq_floor rate long] at inside
  have next : ((f + 1 : ℕ) : ℝ) ≤ seconds * rate + 1 / 2 :=
    (Nat.le_floor_iff (by positivity)).mp inside
  rw [div_lt_iff₀ moving]
  push_cast at next
  linarith

/-- A buffer is half a sample period longer or shorter at most than the time that it covers. -/
theorem abs_framesFor_sub_le (positive : 0 < rate) (long : 0 ≤ seconds) :
    |(framesFor seconds rate : ℝ) / rate - seconds| ≤ 1 / (2 * rate) := by
  have moving : (0 : ℝ) < rate := Nat.cast_pos.mpr positive
  have low : (framesFor seconds rate : ℝ) ≤ seconds * rate + 1 / 2 := by
    rw [framesFor_eq_floor rate long]
    exact Nat.floor_le (by positivity)
  have high : seconds * rate + 1 / 2 < framesFor seconds rate + 1 := by
    rw [framesFor_eq_floor rate long]
    exact Nat.lt_floor_add_one _
  have apart : |(framesFor seconds rate : ℝ) - seconds * rate| ≤ 1 / 2 := by
    rw [abs_le]
    constructor <;> linarith
  calc |(framesFor seconds rate : ℝ) / rate - seconds|
      = |(framesFor seconds rate : ℝ) - seconds * rate| / rate := by
        rw [← abs_of_pos moving, ← abs_div, sub_div, abs_of_pos moving,
          mul_div_cancel_right₀ seconds moving.ne']
    _ ≤ 1 / 2 / rate := by gcongr
    _ = 1 / (2 * rate) := div_div _ _ _

end Length

/-- What it is for mixing to meet each frame of each tone, and to meet it once. -/
structure MixesEachFrame (sine : ℝ → ℝ) (rate : Nat) : Prop where
  size_eq : ∀ (samples : Array ℝ) (tone : Tone ℝ),
    (@addTone ℝ (.withSine sine) rate samples tone).size = samples.size
  /-- A frame within the tone gets its sine at the phase that it has there, at its gain. -/
  inside : ∀ (samples : Array ℝ) (tone : Tone ℝ) (f : Nat) (x : ℝ), samples[f]? = some x →
    tone.start ≤ f / rate ∧ f / rate < tone.finish →
    (@addTone ℝ (.withSine sine) rate samples tone)[f]? =
      some (x + sine (phaseAt tone rate f) * tone.gainAt (f / rate))
  /-- A frame outside of the tone stays as it is. -/
  outside : ∀ (samples : Array ℝ) (tone : Tone ℝ) (f : Nat),
    ¬ (tone.start ≤ f / rate ∧ f / rate < tone.finish) →
    (@addTone ℝ (.withSine sine) rate samples tone)[f]? = samples[f]?
  /-- The phase is that of the earlier frames of the tone together, but for whole turns. -/
  phase : ∀ (tone : Tone ℝ) (f : Nat), tone.start ≤ f / rate ∧ f / rate < tone.finish →
    ∃ turns : ℤ, phaseAt tone rate f =
      ∑ g ∈ (Finset.range f).filter fun g : ℕ => tone.isSoundingAt (g / rate),
        2 * Real.pi * tone.path.frequencyAt (g / rate) / rate + turns * (2 * Real.pi)
  /-- A buffer is the sum of what its tones contribute. -/
  sum : ∀ (list : ToneList ℝ) (seconds : ℝ) (f : Nat), f < framesFor seconds rate →
    (@render ℝ (.withSine sine) list seconds rate).samples[f]? =
      some ((list.soundingAt (f / rate)).map fun tone =>
        sine (phaseAt tone rate f) * tone.gainAt (f / rate)).sum

theorem mixesEachFrame (sine : ℝ → ℝ) {rate : Nat} (positive : 0 < rate) :
    MixesEachFrame sine rate where
  size_eq samples tone := @size_addFrom ℝ (.withSine sine) ..
  inside samples tone f x found within := by
    rw [getElem?_addTone sine positive, found, Option.map_some,
      if_pos (Tone.isSoundingAt_iff.mpr within)]
    rfl
  outside samples tone f beyond := by
    have silent : tone.isSoundingAt (f / rate) = false := decide_eq_false beyond
    simp [getElem?_addTone sine positive, silent]
  phase tone f within := exists_phaseAt_eq positive tone (Tone.isSoundingAt_iff.mpr within)
  sum list seconds f inside := getElem?_render sine positive list seconds inside

/-- What it is for a buffer to hold a pass whose tones are those of a list. -/
structure HoldsPass (sine : ℝ → ℝ) (rate : Nat) (pass : Timeline ℝ) (list : ToneList ℝ)
    (buffer : Buffer ℝ) : Prop where
  /-- A frame of the buffer is a frame of one slot and of no other. The notes of that slot are what
  sounds there, and the frame is the sum of their contributions; it is silent in a rest. -/
  frame : ∀ f, f < buffer.frames → ∃ slot : Slot ℝ, pass.slots[slot.index]? = some slot ∧
    (∀ (k : Nat) (other : Slot ℝ), pass.slots[k]? = some other →
      (frameAt other.start rate buffer.frames ≤ f ∧ f < frameAt other.finish rate buffer.frames ↔
        k = slot.index)) ∧
    List.Forall₂ Tone.Voices (list.soundingAt (f / rate)) (pass.eventsOf slot.index) ∧
    buffer.samples[f]? = some ((list.soundingAt (f / rate)).map fun tone =>
      sine (phaseAt tone rate f) * tone.gainAt (f / rate)).sum ∧
    (slot.isRest = true → buffer.samples[f]? = some 0)
  length : |buffer.seconds - pass.duration| ≤ 1 / (2 * rate)

/-- The frames of a slot are those whose times lie in it. -/
theorem mem_frames_iff {rate : Nat} (positive : 0 < rate) (slot : Slot ℝ) {f size : Nat}
    (inside : f < size) : frameAt slot.start rate size ≤ f ∧ f < frameAt slot.finish rate size ↔
      slot.start ≤ f / rate ∧ f / rate < slot.finish := by
  rw [frameAt_le_iff positive slot.start inside, lt_frameAt_iff positive slot.finish inside]

/-- A frame of a pass is a frame of one slot, whose notes are what sounds there. -/
theorem exists_slot_of_frame {rate : Nat} (positive : 0 < rate) {text : List Char} {tempo : ℝ}
    {score : Score ℝ} (reads : Score.read text tempo = .ok score) (shape : EnvelopeShape ℝ)
    {pass : Timeline ℝ} (laid : pass = .ofScore shape score 0) {list : ToneList ℝ}
    (voiced : List.Forall₂ Tone.Voices list.tones pass.events) {f : Nat}
    (inside : f < framesFor score.totalSeconds rate) :
    ∃ slot : Slot ℝ, pass.slots[slot.index]? = some slot ∧
      (∀ (k : Nat) (other : Slot ℝ), pass.slots[k]? = some other →
        (other.start ≤ f / rate ∧ f / rate < other.finish ↔ k = slot.index)) ∧
      List.Forall₂ Tone.Voices (list.soundingAt (f / rate)) (pass.eventsOf slot.index) ∧
      (slot.isRest = true ↔ pass.eventsOf slot.index = []) := by
  have lasting := Score.seconds_nonneg reads
  have finish : pass.finish = score.totalSeconds := by
    rw [← Timeline.duration_ofScore shape score 0, ← laid, Timeline.duration, laid]
    exact (sub_zero _).symm
  have running : (f / rate : ℝ) < pass.finish := by
    rw [finish]
    exact frame_lt_of_framesFor positive (Score.totalSeconds_nonneg reads) inside
  have begun : (0 : ℝ) ≤ f / rate := by positivity
  subst laid
  obtain ⟨slot, found, sounding, rest⟩ := Timeline.exists_slotAt? reads shape begun running
  obtain ⟨at_index, unique⟩ :=
    Timeline.contains_iff_of_slotAt? shape rfl (by simpa using lasting) found
  refine ⟨slot, at_index, unique, ?_, rest⟩
  rw [← sounding]
  exact ToneList.voices_soundingAt voiced _

/-- The tones of a pass of a score, and the buffer that they are rendered into if memory has room
for its frames. -/
theorem exists_tones (sine : ℝ → ℝ) {rate : Nat} (positive : 0 < rate) (shape : EnvelopeShape ℝ)
    (score : Score ℝ) :
    ∃ list, ToneList.empty.emitAll (Timeline.ofScore shape score 0) = .ok list ∧
      List.Forall₂ Tone.Voices list.tones (Timeline.ofScore shape score 0).events ∧
      (framesFor score.totalSeconds rate < unreachableFrames →
        @renderPass ℝ (.withSine sine) shape score rate =
          .ok (@render ℝ (.withSine sine) list score.totalSeconds rate)) := by
  refine ⟨_, ToneList.emitAll_eq _ _, @ToneList.voices_foldl_add ℝ .empty [] .nil _, fun fits => ?_⟩
  have start : (Scalar.ofNat 0 : ℝ) = 0 := Nat.cast_zero
  rw [@renderPass_eq ℝ (.withSine sine), start]
  exact @render?_of_fits ℝ (.withSine sine) _ _ _ positive fits

/-- Every frame is rendered once: mixing meets each frame of each tone, and the frames of a pass
fall to its chords, each to one. -/
theorem every_frame_is_rendered_once (sine : ℝ → ℝ) {rate : Nat} (positive : 0 < rate)
    {text : List Char} {tempo : ℝ} {score : Score ℝ} (reads : Score.read text tempo = .ok score)
    (shape : EnvelopeShape ℝ) : MixesEachFrame sine rate ∧
    ∃ list, ToneList.empty.emitAll (Timeline.ofScore shape score 0) = .ok list ∧
      HoldsPass sine rate (Timeline.ofScore shape score 0) list
        (@render ℝ (.withSine sine) list score.totalSeconds rate) ∧
      (framesFor score.totalSeconds rate < unreachableFrames →
        @renderPass ℝ (.withSine sine) shape score rate =
          .ok (@render ℝ (.withSine sine) list score.totalSeconds rate)) := by
  obtain ⟨list, emits, voiced, passes⟩ := exists_tones sine positive shape score
  have frames : (@render ℝ (.withSine sine) list score.totalSeconds rate).frames =
      framesFor score.totalSeconds rate := @frames_render ℝ (.withSine sine) ..
  refine ⟨mixesEachFrame sine positive, list, emits, ⟨fun f inside => ?frame, ?length⟩, passes⟩
  case frame =>
    have small : f < framesFor score.totalSeconds rate := frames ▸ inside
    obtain ⟨slot, found, unique, sounds, rest⟩ :=
      exists_slot_of_frame positive reads shape rfl voiced small
    have sum := getElem?_render sine positive list score.totalSeconds small
    refine ⟨slot, found, fun k other at_k => ?_, sounds, sum, fun silent => ?_⟩
    · rw [mem_frames_iff positive other inside]
      exact unique k other at_k
    · rw [rest.mp silent, List.forall₂_nil_right_iff] at sounds
      rw [sum, sounds]
      rfl
  case length =>
    rw [Timeline.duration_ofScore, Buffer.seconds, frames]
    exact abs_framesFor_sub_le positive (Score.totalSeconds_nonneg reads)

/-- A glide and a rest, rendered with the usual sine at eight frames a second. -/
theorem every_frame_is_rendered_once_glide :
    Score.read Timeline.glideThenRest (60 : ℝ) = .ok Timeline.glideScore ∧
    MixesEachFrame Real.sin 8 ∧
    ∃ list, ToneList.empty.emitAll (Timeline.ofScore .usual Timeline.glideScore 0) = .ok list ∧
      HoldsPass Real.sin 8 (Timeline.ofScore .usual Timeline.glideScore 0) list
        (render list Timeline.glideScore.totalSeconds 8) := by
  have positive : 0 < 8 := by decide
  obtain ⟨mixes, list, emits, holds, -⟩ :=
    every_frame_is_rendered_once Real.sin positive Timeline.read_glideScore .usual
  exact ⟨Timeline.read_glideScore, mixes, list, emits, holds⟩

end Portamento.Mixing
