import Portamento.Proofs.Scalar.Exact
import Portamento.Proofs.Sound.Request
import Portamento.Proofs.Timeline.Slots

/-!
# What is played at a time

A device plays a buffer from a time on, once or round and round: a time and a place in the buffer
belong together if the time lies a whole number of lengths and that place behind the start. A device
that has taken the events of a pass plays at each time the tones of those events that sound then. A
pass that is rendered lasts as long as its score if that is a whole number of frames.
-/

namespace Portamento

/-- Division with remainder: what is left is less than the divisor, and has been left after taking
the divisor away a whole number of times. -/
theorem Scalar.remainder_eq_iff {x y r : ℝ} (dividend : 0 ≤ x) (divisor : 0 < y) :
    Scalar.remainder x y = r ↔ 0 ≤ r ∧ r < y ∧ ∃ times : ℕ, x = times * y + r := by
  have positive : 0 ≤ x / y := div_nonneg dividend divisor.le
  have remainder : Scalar.remainder x y = y * Int.fract (x / y) := by
    have taken : Scalar.remainder x y = x - y * truncated (x / y) := rfl
    rw [taken, truncated, if_pos positive, Int.fract, mul_sub, mul_div_cancel₀ x divisor.ne']
  rw [remainder]
  constructor
  · rintro rfl
    refine ⟨mul_nonneg divisor.le (Int.fract_nonneg _), ?_, ⌊x / y⌋₊, ?_⟩
    · exact mul_lt_of_lt_one_right divisor (Int.fract_lt_one _)
    · rw [natCast_floor_eq_intCast_floor positive, mul_comm _ y, ← mul_add, Int.floor_add_fract,
        mul_div_cancel₀ x divisor.ne']
  · rintro ⟨inside, within, times, rfl⟩
    have quotient : (times * y + r) / y = times + r / y := by
      rw [add_div, mul_div_cancel_right₀ _ divisor.ne']
    have part : Int.fract (r / y) = r / y :=
      Int.fract_eq_self.mpr ⟨div_nonneg inside divisor.le, (div_lt_one divisor).mpr within⟩
    rw [quotient, Int.fract_natCast_add, part, mul_div_cancel₀ r divisor.ne']

theorem Buffer.frames_repeated {α : Type} (buffer : Buffer α) (passes : Nat) :
    (buffer.repeated passes).frames = passes * buffer.frames := Array.size_ofFn

namespace BufferPlayback

variable {playback : BufferPlayback ℝ} {t position : ℝ}

/-- The place that is heard at a time is how far the time lies beyond a whole number of lengths
behind the start; no length if the buffer is played once. -/
theorem positionAt?_eq_some_iff (long : 0 < playback.buffer.seconds) :
    playback.positionAt? t = some position ↔
      0 ≤ position ∧ position < playback.buffer.seconds ∧
        ∃ pass : ℕ, (playback.looping = true ∨ pass = 0) ∧
          t - playback.start = pass * playback.buffer.seconds + position := by
  generalize length : playback.buffer.seconds = seconds at long ⊢
  have measured : ¬ seconds ≤ 0 := not_le.mpr long
  simp only [positionAt?, length, Scalar.ofNat_real, Nat.cast_zero, measured, or_false]
  split
  · next early =>
    -- before the start there is no place
    refine ⟨(fun found => nomatch found), ?_⟩
    rintro ⟨inside, -, pass, -, elapsed⟩
    have passed : (0 : ℝ) ≤ pass * seconds := by positivity
    linarith
  · next begun =>
    split
    · next looping =>
      simp only [Option.some.injEq, looping, true_or, true_and,
        Scalar.remainder_eq_iff (not_lt.mp begun) long]
    · next once =>
      have single : playback.looping = false := by simpa using once
      simp only [single, Bool.false_eq_true, false_or, exists_eq_left, Nat.cast_zero, zero_mul,
        zero_add]
      split
      · next within =>
        rw [Option.some.injEq]
        refine ⟨?_, fun found => found.2.2⟩
        rintro rfl
        exact ⟨not_lt.mp begun, within, rfl⟩
      · next past =>
        refine ⟨(fun found => nomatch found), ?_⟩
        rintro ⟨-, within, rfl⟩
        exact absurd within past

end BufferPlayback

namespace Mixing

section Size

variable {α : Type} [Tonal α] (tone : Tone α) (rate : Nat)

theorem size_addFrom (count frame : Nat) (phase : α) (samples : Array α) :
    (addFrom tone rate count frame phase samples).size = samples.size := by
  induction count generalizing frame phase samples with
  | zero => rfl
  | succ count ih =>
    rw [addFrom, ih]
    exact Array.size_modify

/-- To mix a tone in makes no sample more or less. -/
theorem frames_render (list : ToneList α) (seconds : α) :
    (render list seconds rate).frames = framesFor seconds rate := by
  have mixed (tones : List (Tone α)) (samples : Array α) :
      (tones.foldl (addTone rate) samples).size = samples.size := by
    induction tones generalizing samples with
    | nil => rfl
    | cons tone later ih =>
      rw [List.foldl_cons, ih]
      exact size_addFrom tone rate ..
  exact (mixed list.tones _).trans Array.size_replicate

/-- A pass is rendered from the tones of its events. -/
theorem renderPass_eq (shape : EnvelopeShape α) (score : Score α) :
    renderPass shape score rate = render?
      ((Timeline.ofScore shape score (Scalar.ofNat 0)).events.foldl ToneList.add .empty)
      score.totalSeconds rate := by
  rw [renderPass, ToneList.emitAll_eq]
  rfl

/-- Rendering answers with a buffer if there is a rate and memory for its frames. -/
theorem render?_of_fits (list : ToneList α) {seconds : α} {rate : Nat} (moving : 0 < rate)
    (fits : framesFor seconds rate < unreachableFrames) :
    render? list seconds rate = .ok (render list seconds rate) := by
  rw [render?, if_neg moving.ne', if_neg (Nat.not_le.mpr fits)]

end Size

variable {seconds : ℝ} {rate frames : ℕ}

/-- A length of time is covered by the nearest whole number of frames, the greater of two. -/
theorem framesFor_eq_floor (rate : ℕ) (positive : 0 ≤ seconds) :
    framesFor seconds rate = ⌊seconds * rate + 1 / 2⌋₊ := by
  have length : Scalar.max seconds (Scalar.ofNat 0) = seconds := by
    rw [Scalar.max_real]
    exact max_eq_left (by simpa using positive)
  rw [framesFor, length]
  rfl

/-- A whole number of frames is covered by so many. -/
theorem framesFor_of_whole (positive : 0 ≤ seconds) (whole : seconds * rate = frames) :
    framesFor seconds rate = frames := by
  rw [framesFor_eq_floor rate positive, whole, Nat.floor_eq_iff (by positivity)]
  constructor <;> norm_num

/-- A rendered pass has the rate that it was rendered at, and lasts as long as the score if that is
a whole number of frames. -/
theorem seconds_of_renderPass {shape : EnvelopeShape ℝ} {score : Score ℝ} {pass : Buffer ℝ}
    (rendered : renderPass shape score rate = .ok pass) (positive : 0 ≤ score.totalSeconds)
    (whole : score.totalSeconds * rate = frames) :
    pass.rate = rate ∧ pass.seconds = score.totalSeconds := by
  rw [renderPass_eq, render?] at rendered
  split_ifs at rendered with still beyond
  cases rendered
  have moving : (rate : ℝ) ≠ 0 := Nat.cast_ne_zero.mpr still
  refine ⟨rfl, ?_⟩
  rw [Buffer.seconds, frames_render, framesFor_of_whole positive whole]
  simp only [Scalar.ofNat_real, ← whole]
  exact mul_div_cancel_right₀ score.totalSeconds moving

/-- A pass is rendered if there is a rate and memory for its frames. -/
theorem exists_renderPass (shape : EnvelopeShape ℝ) {score : Score ℝ}
    (positive : 0 ≤ score.totalSeconds) (whole : score.totalSeconds * rate = frames)
    (moving : 0 < rate) (fits : frames < unreachableFrames) :
    ∃ pass, renderPass shape score rate = .ok pass := by
  rw [← framesFor_of_whole positive whole] at fits
  rw [renderPass_eq]
  exact ⟨_, render?_of_fits _ moving fits⟩

end Mixing

/-- What makes a tone the tone of an event, from the beginning of the event to its end. -/
structure Tone.Voices {α : Type} (tone : Tone α) (event : Event α) : Prop where
  path_eq : tone.path = event.path
  start_eq : tone.start = event.start
  finish_eq : tone.finish = event.finish
  envelope_eq : tone.envelope = some event.envelope

namespace ToneList

/-- A list to which events are added holds their tones behind the others. -/
theorem voices_foldl_add {α : Type} {list : ToneList α} {before : List (Event α)}
    (voiced : List.Forall₂ Tone.Voices list.tones before) (events : List (Event α)) :
    List.Forall₂ Tone.Voices (events.foldl add list).tones (before ++ events) := by
  induction events generalizing list before with
  | nil => simpa only [List.foldl_nil, List.append_nil] using voiced
  | cons event later ih =>
    have added : List.Forall₂ Tone.Voices (list.add event).tones (before ++ [event]) := by
      rw [tones_add]
      exact List.rel_append voiced (.cons ⟨rfl, rfl, rfl, rfl⟩ .nil)
    simpa only [List.foldl_cons, List.append_assoc, List.singleton_append] using ih added

/-- The tones that sound are those of the events that sound. -/
theorem voices_soundingAt {α : Type} [Scalar α] {list : ToneList α} {events : List (Event α)}
    (voiced : List.Forall₂ Tone.Voices list.tones events) (t : α) :
    List.Forall₂ Tone.Voices (list.soundingAt t)
      (events.filter fun event => event.isSoundingAt t) := by
  rw [soundingAt_eq_filter]
  refine List.rel_filter (fun tone event voices => ?_) voiced
  have same : tone.isSoundingAt t = event.isSoundingAt t := by
    rw [Tone.isSoundingAt, Event.isSoundingAt, voices.start_eq, voices.finish_eq]
  exact Bool.eq_iff_iff.mp same

end ToneList

end Portamento
