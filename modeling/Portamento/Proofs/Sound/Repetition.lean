import Portamento.Proofs.Sound.Playing

/-!
# Going round and repeating

A buffer that goes round and round sounds like one that has been repeated often enough and is
played once. The place in the buffer and the number of passes that are behind it are found apart,
the one as what a division leaves and the other as its whole part, and under different conditions;
together they come to the time since the start all the same. A count of passes has no bound here.
-/

namespace Portamento

namespace Buffer

section Repeated

variable {α : Type} (buffer : Buffer α) {passes i : Nat}

/-- A sample of a buffer that has been repeated is one of the buffer, as far behind the beginning of
a pass. -/
theorem getElem?_repeated (inside : i < passes * buffer.frames) :
    (buffer.repeated passes).samples[i]? = buffer.samples[i % buffer.frames]? := by
  have within : i % buffer.frames < buffer.samples.size := mod_size_lt ⟨i, inside⟩
  have small : i < (buffer.repeated passes).samples.size :=
    inside.trans_eq (buffer.frames_repeated passes).symm
  rw [Array.getElem?_eq_getElem small, Array.getElem?_eq_getElem within]
  exact congrArg some (Array.getElem_ofFn ..)

end Repeated

theorem seconds_pos {buffer : Buffer ℝ} (filled : 0 < buffer.frames) (moving : 0 < buffer.rate) :
    0 < buffer.seconds :=
  div_pos (Nat.cast_pos.mpr filled) (Nat.cast_pos.mpr moving)

theorem seconds_repeated (buffer : Buffer ℝ) (passes : Nat) :
    (buffer.repeated passes).seconds = passes * buffer.seconds := by
  simp only [seconds, frames_repeated, Scalar.ofNat_real, Nat.cast_mul]
  exact mul_div_assoc _ _ _

end Buffer

namespace BufferPlayback

/-- The sample that is heard at a time, the one whose time the place in the buffer lies in. -/
def heardAt? {α : Type} [Tonal α] (playback : BufferPlayback α) (t : α) : Option α :=
  (playback.positionAt? t).bind fun position =>
    playback.buffer.samples[Scalar.floorCount
      (position * Scalar.ofNat playback.buffer.rate)]?

section Elapsed

variable {playback : BufferPlayback ℝ} {t position : ℝ} (long : 0 < playback.buffer.seconds)
include long

variable (playback) in
/-- Any time since the start is some whole passes and a part of one. -/
theorem exists_elapsed_eq (begun : playback.start ≤ t) : ∃ (pass : ℕ) (position : ℝ),
    0 ≤ position ∧ position < playback.buffer.seconds ∧
      t - playback.start = pass * playback.buffer.seconds + position := by
  obtain ⟨inside, within, pass, elapsed⟩ :=
    (Scalar.remainder_eq_iff (sub_nonneg.mpr begun) long).mp rfl
  exact ⟨pass, _, inside, within, elapsed⟩

/-- The passes that are counted are those whole ones, but one at most if the buffer is played
once. -/
theorem passesAt_of_elapsed {pass : ℕ} (inside : 0 ≤ position)
    (within : position < playback.buffer.seconds)
    (elapsed : t - playback.start = pass * playback.buffer.seconds + position) :
    playback.passesAt t = if playback.looping then pass else min pass 1 := by
  have quotient : Scalar.floorCount ((t - playback.start) / playback.buffer.seconds) = pass := by
    show ⌊(t - playback.start) / playback.buffer.seconds⌋₊ = pass
    rw [elapsed, add_comm, add_div, mul_div_cancel_right₀ _ long.ne',
      Nat.floor_add_natCast (div_nonneg inside long.le),
      Nat.floor_eq_zero.mpr ((div_lt_one long).mpr within), Nat.zero_add]
  have measured : ¬ playback.buffer.seconds ≤ 0 := not_le.mpr long
  simp only [passesAt, quotient, Scalar.ofNat_real, Nat.cast_zero, measured, or_false]
  split
  · next early =>
    -- at the start the quotient is not looked at, and would be zero
    have none : pass = 0 := by
      by_contra several
      have one : (1 : ℝ) ≤ pass := Nat.one_le_cast.mpr (Nat.one_le_iff_ne_zero.mpr several)
      have whole := mul_le_mul_of_nonneg_right one long.le
      linarith
    simp [none]
  · rfl

theorem positionAt?_of_elapsed {pass : ℕ} (inside : 0 ≤ position)
    (within : position < playback.buffer.seconds) (repeats : playback.looping = true ∨ pass = 0)
    (elapsed : t - playback.start = pass * playback.buffer.seconds + position) :
    playback.positionAt? t = some position :=
  (positionAt?_eq_some_iff long).mpr ⟨inside, within, pass, repeats, elapsed⟩

theorem positionAt?_of_lt (early : t < playback.start) : playback.positionAt? t = none := by
  refine Option.eq_none_iff_forall_ne_some.mpr fun position found => ?_
  obtain ⟨inside, -, pass, -, elapsed⟩ := (positionAt?_eq_some_iff long).mp found
  have passed : 0 ≤ pass * playback.buffer.seconds := by positivity
  linarith

end Elapsed

/-- Played once, a buffer is heard as it stands. -/
theorem heardAt?_once {buffer : Buffer ℝ} {start t : ℝ} (begun : start ≤ t)
    (running : t - start < buffer.seconds) :
    heardAt? ⟨buffer, start, false⟩ t = buffer.samples[⌊(t - start) * buffer.rate⌋₊]? := by
  have long : 0 < buffer.seconds := (sub_nonneg.mpr begun).trans_lt running
  have place : positionAt? ⟨buffer, start, false⟩ t = some (t - start) :=
    positionAt?_of_elapsed long (sub_nonneg.mpr begun) running (.inr rfl) (by simp)
  rw [heardAt?, place]
  rfl

/-- Played round and round, a buffer is heard as it stands so many times over. -/
theorem heardAt?_looping {buffer : Buffer ℝ} (filled : 0 < buffer.frames) (moving : 0 < buffer.rate)
    {start t : ℝ} (begun : start ≤ t) :
    heardAt? ⟨buffer, start, true⟩ t =
      buffer.samples[⌊(t - start) * buffer.rate⌋₊ % buffer.frames]? := by
  let playback : BufferPlayback ℝ := ⟨buffer, start, true⟩
  have long := Buffer.seconds_pos filled moving
  have rate : (0 : ℝ) < buffer.rate := Nat.cast_pos.mpr moving
  have frames : buffer.seconds * buffer.rate = buffer.frames := div_mul_cancel₀ _ rate.ne'
  obtain ⟨pass, position, inside, within, elapsed⟩ :=
    playback.exists_elapsed_eq long begun
  have place : playback.positionAt? t = _ :=
    positionAt?_of_elapsed long inside within (.inl rfl) elapsed
  have frame : ⌊position * buffer.rate⌋₊ < buffer.frames := by
    rw [Nat.floor_lt (mul_nonneg inside rate.le), ← frames]
    exact mul_lt_mul_of_pos_right within rate
  have total : ⌊(t - start) * buffer.rate⌋₊ =
      ⌊position * buffer.rate⌋₊ + pass * buffer.frames := by
    have sum : (t - start) * buffer.rate =
        position * buffer.rate + (pass * buffer.frames : ℕ) := by
      rw [show t - start = _ from elapsed, Nat.cast_mul, ← frames]
      ring
    rw [sum, Nat.floor_add_natCast (mul_nonneg inside rate.le)]
  rw [total, Nat.add_mul_mod_self_right, Nat.mod_eq_of_lt frame, heardAt?, place]
  rfl

/-- How a buffer is passed through that goes round and round. -/
structure GoesRound (playback : BufferPlayback ℝ) : Prop where
  before : ∀ t < playback.start, playback.positionAt? t = none ∧ playback.passesAt t = 0
  /-- The time since the start is that of the passes that are counted and of the place in the one
  that is played. -/
  since : ∀ t, playback.start ≤ t → ∃ position, playback.positionAt? t = some position ∧
    0 ≤ position ∧ position < playback.buffer.frames / playback.buffer.rate ∧
    t - playback.start =
      playback.passesAt t * (playback.buffer.frames / playback.buffer.rate) + position

/-- How a buffer is passed through that is played once. -/
structure RunsOut (playback : BufferPlayback ℝ) : Prop where
  before : ∀ t < playback.start, playback.positionAt? t = none ∧ playback.passesAt t = 0
  during : ∀ t, 0 ≤ t - playback.start →
    t - playback.start < playback.buffer.frames / playback.buffer.rate →
      playback.positionAt? t = some (t - playback.start) ∧ playback.passesAt t = 0
  after : ∀ t, playback.buffer.frames / playback.buffer.rate ≤ t - playback.start →
    playback.positionAt? t = none ∧ playback.passesAt t = 1

section Passes

variable {playback : BufferPlayback ℝ} {t : ℝ} (long : 0 < playback.buffer.seconds)
include long

theorem silent_of_lt (early : t < playback.start) :
    playback.positionAt? t = none ∧ playback.passesAt t = 0 :=
  ⟨positionAt?_of_lt long early, if_pos (.inl early.le)⟩

theorem goesRound (looping : playback.looping = true) : playback.GoesRound := by
  refine ⟨fun t early => silent_of_lt long early, fun t begun => ?_⟩
  obtain ⟨pass, position, inside, within, elapsed⟩ := playback.exists_elapsed_eq long begun
  have count := passesAt_of_elapsed long inside within elapsed
  rw [if_pos looping] at count
  exact ⟨position, positionAt?_of_elapsed long inside within (.inl looping) elapsed, inside, within,
    count ▸ elapsed⟩

theorem runsOut (once : playback.looping = false) : playback.RunsOut := by
  have single : ¬ playback.looping = true := by simp [once]
  refine ⟨fun t early => silent_of_lt long early, fun t begun running => ?_, fun t past => ?_⟩
  · have elapsed : t - playback.start =
        (0 : ℕ) * playback.buffer.seconds + (t - playback.start) := by simp
    have count := passesAt_of_elapsed long begun running elapsed
    rw [if_neg single] at count
    exact ⟨positionAt?_of_elapsed long begun running (.inr rfl) elapsed, count⟩
  · have past : playback.buffer.seconds ≤ t - playback.start := past
    have begun : playback.start ≤ t := sub_nonneg.mp (long.le.trans past)
    obtain ⟨pass, position, inside, within, elapsed⟩ := playback.exists_elapsed_eq long begun
    have several : 1 ≤ pass := by
      by_contra few
      rw [Nat.not_le, Nat.lt_one_iff] at few
      rw [few, Nat.cast_zero, zero_mul, zero_add] at elapsed
      linarith
    have count := passesAt_of_elapsed long inside within elapsed
    rw [if_neg single, min_eq_right several] at count
    refine ⟨Option.eq_none_iff_forall_ne_some.mpr fun place found => ?_, count⟩
    obtain ⟨-, short, other, repeats, total⟩ := (positionAt?_eq_some_iff long).mp found
    rw [repeats.resolve_left single, Nat.cast_zero, zero_mul, zero_add] at total
    linarith

end Passes

end BufferPlayback

namespace Buffer

open BufferPlayback

/-- What it is for a buffer that goes round and round from a time on to be the buffer over and over
again. -/
structure Recurs (buffer : Buffer ℝ) (start : ℝ) : Prop where
  looping : GoesRound ⟨buffer, start, true⟩
  once : RunsOut ⟨buffer, start, false⟩
  /-- At the time of each sample of so many repetitions that sample is heard, from the buffer that
  goes round as from the repetitions that are played once. -/
  samples : ∀ passes i : ℕ, i < passes * buffer.frames →
    ∃ sample, (buffer.repeated passes).samples[i]? = some sample ∧
      heardAt? ⟨buffer, start, true⟩ (start + i / buffer.rate) = some sample ∧
      heardAt? ⟨buffer.repeated passes, start, false⟩ (start + i / buffer.rate) = some sample
  /-- So it is at the times between the samples. -/
  alike : ∀ (passes : ℕ) (t : ℝ), start ≤ t →
    t - start < passes * (buffer.frames / buffer.rate) →
      heardAt? ⟨buffer, start, true⟩ t = heardAt? ⟨buffer.repeated passes, start, false⟩ t

section Recurs

variable {buffer : Buffer ℝ} (filled : 0 < buffer.frames) (moving : 0 < buffer.rate)
include filled moving

/-- While the repetitions last, they are heard as the buffer is that goes round. -/
theorem heardAt?_repeated {start t : ℝ} {passes : ℕ} (begun : start ≤ t)
    (running : t - start < passes * buffer.seconds) :
    heardAt? ⟨buffer.repeated passes, start, false⟩ t = heardAt? ⟨buffer, start, true⟩ t := by
  have rate : (0 : ℝ) < buffer.rate := Nat.cast_pos.mpr moving
  have frame : ⌊(t - start) * buffer.rate⌋₊ < passes * buffer.frames := by
    have frames : buffer.seconds * buffer.rate = buffer.frames := div_mul_cancel₀ _ rate.ne'
    rw [Nat.floor_lt (mul_nonneg (sub_nonneg.mpr begun) rate.le), Nat.cast_mul, ← frames,
      ← mul_assoc]
    exact mul_lt_mul_of_pos_right running rate
  rw [← buffer.seconds_repeated] at running
  rw [heardAt?_once begun running, heardAt?_looping filled moving begun]
  exact buffer.getElem?_repeated frame

/-- Going round and round is being repeated without an end: nothing is left out where a pass ends
and the next one begins, and nothing is heard twice. -/
theorem looping_is_repeating (start : ℝ) : buffer.Recurs start := by
  have long := seconds_pos filled moving
  have rate : (0 : ℝ) < buffer.rate := Nat.cast_pos.mpr moving
  refine ⟨goesRound long rfl, runsOut long rfl, fun passes i inside => ?_,
    fun passes t begun running => (heardAt?_repeated filled moving begun running).symm⟩
  have begun : start ≤ start + i / buffer.rate := le_add_of_nonneg_right (by positivity)
  have elapsed : start + i / buffer.rate - start = i / buffer.rate := add_sub_cancel_left _ _
  have running : start + i / buffer.rate - start < passes * buffer.seconds := by
    have total : passes * buffer.seconds = (passes * buffer.frames : ℕ) / buffer.rate := by
      rw [Nat.cast_mul]
      exact (mul_div_assoc _ _ _).symm
    rw [elapsed, total]
    exact div_lt_div_of_pos_right (Nat.cast_lt.mpr inside) rate
  have small : i < (buffer.repeated passes).samples.size :=
    inside.trans_eq (buffer.frames_repeated passes).symm
  have found := Array.getElem?_eq_getElem small
  have heard : heardAt? ⟨buffer.repeated passes, start, false⟩ (start + i / buffer.rate) =
      (buffer.repeated passes).samples[i]? := by
    have frame : ⌊(i / buffer.rate * buffer.rate : ℝ)⌋₊ = i := by
      rw [div_mul_cancel₀ _ rate.ne', Nat.floor_natCast]
    have lasting := running.trans_eq (buffer.seconds_repeated passes).symm
    rw [heardAt?_once begun lasting, elapsed]
    exact congrArg ((buffer.repeated passes).samples[·]?) frame
  rw [found] at heard
  exact ⟨_, found, (heardAt?_repeated filled moving begun running).symm.trans heard, heard⟩

end Recurs

/-- Three samples at two a second, from a quarter of a second before the clock's zero on. -/
theorem looping_is_repeating_three : 0 < (⟨2, #[1, 0, -1]⟩ : Buffer ℝ).frames ∧
    0 < (⟨2, #[1, 0, -1]⟩ : Buffer ℝ).rate ∧
    (⟨2, #[1, 0, -1]⟩ : Buffer ℝ).Recurs (-1 / 4) := by
  have filled : 0 < (⟨2, #[1, 0, -1]⟩ : Buffer ℝ).frames := Nat.succ_pos 2
  exact ⟨filled, Nat.two_pos, looping_is_repeating filled Nat.two_pos (-1 / 4)⟩

end Buffer

end Portamento
