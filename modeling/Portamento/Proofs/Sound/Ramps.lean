import Mathlib.Logic.Relation
import Portamento.Proofs.Sound.Bookkeeping
import Portamento.Proofs.Sound.Gain
import Portamento.Proofs.Transport.Final

/-!
# Where the ramps of a tone lie

A note rises, holds and falls within its time: fitting shrinks the two ramps until they find room.
Moved in time they stay where they are in the note. A cancellation moves the end of a tone that is
sounding forward, and the end of its envelope with it, but leaves the ramps as long as they were. If
it falls less than their length behind the start, the fall begins before the rise has ended, and
perhaps before the tone has begun. Nothing else brings that about.
-/

namespace Portamento

/-- Both ramps lie within the time of the envelope, first the rise and then the fall. -/
structure Envelope.IsTrapezoid (e : Envelope ℝ) : Prop where
  rises : e.start ≤ e.attackEnd
  holds : e.attackEnd ≤ e.releaseStart
  falls : e.releaseStart ≤ e.finish

namespace EnvelopeShape

variable (shape : EnvelopeShape ℝ) {length : ℝ}

/-- The ramps of a shape that has been asked for are not negative. -/
theorem ofRamps_nonneg (attack release : ℝ) :
    0 ≤ (ofRamps attack release).attack ∧ 0 ≤ (ofRamps attack release).release := by
  simp [ofRamps, Scalar.max_real]

theorem scale_nonneg (positive : 0 ≤ length) : 0 ≤ shape.scale length := by
  unfold scale
  dsimp only
  split
  · next short =>
    have ramps : (0 : ℝ) < shape.attack + shape.release := by simpa using short.2
    exact div_nonneg positive ramps.le
  · simp

/-- Scaled down, the ramps find room. -/
theorem mul_scale_le (positive : 0 ≤ length) :
    (shape.attack + shape.release) * shape.scale length ≤ length := by
  unfold scale
  dsimp only
  split
  · next short =>
    have ramps : (0 : ℝ) < shape.attack + shape.release := by simpa using short.2
    rw [mul_div_cancel₀ _ ramps.ne']
  · next long =>
    simp only [Scalar.ofNat_real, Nat.cast_one, mul_one, Nat.cast_zero, not_and_or, not_lt]
      at long ⊢
    rcases long with room | none
    · exact room
    · exact none.trans positive

/-- Both ramps are shrunk by one factor, that of the length of the note. -/
theorem fit_eq (amplitude : ℝ) {start finish : ℝ} (order : start ≤ finish) :
    shape.fit amplitude start finish =
      ⟨amplitude, start, finish, shape.attack * shape.scale (finish - start),
        shape.release * shape.scale (finish - start)⟩ := by
  have whole : Scalar.max (finish - start) (Scalar.ofNat 0) = finish - start := by
    rw [Scalar.max_real]
    exact max_eq_left (by simpa using order)
  simp only [fit, whole]

/-- The envelope of a note has both its ramps within the note. -/
theorem isTrapezoid_fit (attack release amplitude : ℝ) {start finish : ℝ} (order : start ≤ finish) :
    ((ofRamps attack release).fit amplitude start finish).IsTrapezoid := by
  obtain ⟨rise, fall⟩ := ofRamps_nonneg attack release
  have positive : 0 ≤ finish - start := sub_nonneg.mpr order
  have factor := (ofRamps attack release).scale_nonneg positive
  have room := (ofRamps attack release).mul_scale_le positive
  have rises := mul_nonneg rise factor
  have falls := mul_nonneg fall factor
  rw [fit_eq _ amplitude order]
  constructor <;> simp only [Envelope.attackEnd, Envelope.releaseStart] <;> linarith

end EnvelopeShape

/-- The notes of a text that has been laid out have both ramps within their time. -/
theorem Timeline.isTrapezoid_of_mem {text : List Char} {tempo : ℝ} {score : Score ℝ}
    (reads : Score.read text tempo = .ok score) {attack release offset : ℝ} {event : Event ℝ}
    (member : event ∈ (ofScore (.ofRamps attack release) score offset).events) :
    event.envelope.IsTrapezoid := by
  obtain ⟨k, chord, found, inside⟩ := mem_lay.mp member
  obtain ⟨-, start, finish, -, envelope⟩ := mem_events inside
  have long := (Score.seconds_pos reads).2 chord (List.mem_of_getElem? found)
  rw [envelope]
  refine EnvelopeShape.isTrapezoid_fit attack release _ ?_
  rw [start, finish]
  exact le_add_of_nonneg_right long.le

/-- A device that timelines are handed to, at an instant, with the readings of its clock at which
everything that was scheduled has been cancelled. -/
structure Usage where
  instant : Nat
  device : Device ℝ
  cuts : List ℝ

namespace Usage

/-- A device on which nothing has happened. -/
def opened (rate rendererRate : Nat) (limits : DeviceLimits) (instant : Nat) : Usage :=
  ⟨instant, .withRenderer rate rendererRate limits, []⟩

/-- The reading of the device's clock. -/
noncomputable def now (u : Usage) : ℝ := u.device.now u.instant

/-- The tones on the device. -/
def tones (u : Usage) : List (Tone ℝ) := u.device.tones.tones

/-- After the events have been handed over, up to the first that the device refuses. -/
noncomputable def handed (u : Usage) (events : List (Event ℝ)) : Usage :=
  { u with device := (Device.emitEach events u.device).1 }

/-- After everything that is scheduled has been cancelled. -/
noncomputable def cut (u : Usage) : Usage :=
  { u with device := u.device.cancelScheduled u.instant, cuts := u.cuts ++ [u.now] }

/-- What is done with the device. A timeline is that of a text, from any time on and with ramps of
any length. -/
inductive Move : Usage → Usage → Prop where
  | advance (u : Usage) (nanoseconds : Nat) : Move u { u with instant := u.instant + nanoseconds }
  | suspend (u : Usage) : Move u { u with device := u.device.suspend u.instant }
  | resume (u : Usage) : Move u { u with device := u.device.resume u.instant }
  | limit (u : Usage) (limits : DeviceLimits) : Move u { u with device := u.device.limited limits }
  | emit (u : Usage) (text : List Char) (tempo : ℝ) (score : Score ℝ)
      (reads : Score.read text tempo = .ok score) (attack release offset : ℝ) :
      Move u (u.handed (Timeline.ofScore (.ofRamps attack release) score offset).events)
  | cancel (u : Usage) : Move u u.cut

/-- Any number of moves, in any order. -/
abbrev Run : Usage → Usage → Prop := Relation.ReflTransGen Move

/-- Every tone plays a note whose ramps lie within it, to its end or to a cut. -/
def IsTrimmed (u : Usage) : Prop :=
  ∀ tone ∈ u.tones, ∃ event : Event ℝ, event.IsScheduled ∧ event.envelope.IsTrapezoid ∧
    tone.Plays event ∧ (tone.finish = event.finish ∨ tone.finish ∈ u.cuts)

variable {u v : Usage}

/-- With the tone of one event more. -/
theorem IsTrimmed.taken (trimmed : u.IsTrimmed) {event : Event ℝ} (scheduled : event.IsScheduled)
    (trapezoid : event.envelope.IsTrapezoid) :
    IsTrimmed { u with device := u.device.taken event } := by
  intro tone member
  rw [tones, Device.taken, ToneList.tones_add] at member
  rcases List.mem_append.mp member with old | new
  · exact trimmed tone old
  · obtain rfl := List.mem_singleton.mp new
    refine ⟨event, scheduled, trapezoid, ⟨rfl, rfl, le_refl _, ?_⟩, .inl rfl⟩
    simp only [← scheduled.envelope_eq.2]

/-- With the tones of a timeline more, or of the front of one. -/
theorem IsTrimmed.handed (trimmed : u.IsTrimmed) (events : List (Event ℝ))
    (shaped : ∀ event ∈ events, event.IsScheduled ∧ event.envelope.IsTrapezoid) :
    (u.handed events).IsTrimmed := by
  induction events generalizing u with
  | nil => exact trimmed
  | cons event later ih =>
    obtain ⟨scheduled, trapezoid⟩ := shaped event List.mem_cons_self
    cases refusal : u.device.refusal? with
    | none =>
      have next := ih (trimmed.taken scheduled trapezoid) fun other member =>
        shaped other (List.mem_cons_of_mem _ member)
      simp only [Usage.handed, Device.emitEach, Device.emit_of_no_refusal refusal] at next ⊢
      exact next
    | some fault =>
      simp only [Usage.handed, Device.emitEach, Device.emit_of_refusal refusal]
      exact trimmed

/-- A cut leaves the tones that have begun, and notes where those end that were still sounding. -/
theorem IsTrimmed.cut (trimmed : u.IsTrimmed) : u.cut.IsTrimmed := by
  intro tone member
  obtain ⟨old, before, -, rfl⟩ := ToneList.mem_cancelAfter.mp member
  obtain ⟨event, scheduled, trapezoid, plays, finish⟩ := trimmed old before
  refine ⟨event, scheduled, trapezoid, plays.cutAt _, ?_⟩
  unfold Tone.cutAt
  split
  · exact .inr (List.mem_append_right _ (List.mem_singleton_self _))
  · exact finish.imp_right fun cut => List.mem_append_left _ cut

theorem IsTrimmed.move (trimmed : u.IsTrimmed) (move : Move u v) : v.IsTrimmed := by
  cases move with
  | advance | suspend | resume | limit => exact trimmed
  | emit text tempo score reads attack release offset =>
    exact trimmed.handed _ fun event member =>
      ⟨⟨_, .ofScore _ score offset, member⟩, Timeline.isTrapezoid_of_mem reads member⟩
  | cancel => exact trimmed.cut

theorem IsTrimmed.run (trimmed : u.IsTrimmed) (run : Run u v) : v.IsTrimmed := by
  induction run with
  | refl => exact trimmed
  | tail _ move ih => exact ih.move move

/-- The envelope of a tone, with the only reason for which its ramps do not lie within it. -/
structure IsHemmed (u : Usage) (tone : Tone ℝ) (envelope : Envelope ℝ) : Prop where
  envelope_eq : tone.envelope = some envelope
  start_eq : envelope.start = tone.start
  finish_eq : envelope.finish = tone.finish
  attack_nonneg : 0 ≤ envelope.attack
  release_nonneg : 0 ≤ envelope.release
  /-- The tone has been cut before its two ramps would have found room. -/
  overlap_iff : ¬ envelope.IsTrapezoid ↔
    tone.finish ∈ u.cuts ∧ tone.finish < tone.start + envelope.attack + envelope.release

/-- However timelines are handed to a device and cancelled again: the ramps of a tone lie within it,
the rise before the fall, unless a cancellation has ended it less than their length behind its
start. -/
theorem ramps_inside_unless_cut_short (rate rendererRate : Nat) (limits : DeviceLimits)
    (instant : Nat) (u : Usage) (run : Run (opened rate rendererRate limits instant) u)
    (tone : Tone ℝ) (member : tone ∈ u.tones) : ∃ envelope, u.IsHemmed tone envelope := by
  have fresh : (opened rate rendererRate limits instant).IsTrimmed :=
    fun _ none => absurd none List.not_mem_nil
  obtain ⟨event, scheduled, ⟨rises, holds, falls⟩, plays, finish⟩ := fresh.run run tone member
  obtain ⟨start, whole⟩ := scheduled.envelope_eq
  simp only [Envelope.attackEnd, Envelope.releaseStart] at rises holds falls
  have attack : 0 ≤ event.envelope.attack := by linarith
  have release : 0 ≤ event.envelope.release := by linarith
  refine ⟨_, plays.envelope_eq, start.trans plays.start_eq.symm, rfl, attack, release, ?_⟩
  have short : ¬ Envelope.IsTrapezoid { event.envelope with finish := tone.finish } ↔
      tone.finish < tone.start + event.envelope.attack + event.envelope.release := by
    rw [plays.start_eq, ← start, ← not_le]
    refine not_congr ⟨?_, fun room => ⟨?_, ?_, ?_⟩⟩
    · rintro ⟨-, room, -⟩
      simp only [Envelope.attackEnd, Envelope.releaseStart] at room
      linarith
    all_goals
      simp only [Envelope.attackEnd, Envelope.releaseStart]
      linarith
  rw [short]
  refine ⟨fun overlap => ⟨finish.resolve_left fun uncut => ?_, overlap⟩, And.right⟩
  -- a tone that has not been cut has room for both ramps
  rw [uncut, plays.start_eq, ← start, ← whole] at overlap
  linarith

section OneNote

/-! A note of a second, cancelled two milliseconds behind its start. -/

/-- Ramps of five milliseconds. -/
noncomputable def oneNoteShape : EnvelopeShape ℝ := .ofRamps (1 / 200) (1 / 200)

/-- A running device that has been handed the note. -/
noncomputable def oneNoteHanded : Usage :=
  { opened 8 8 ⟨none, none⟩ 0 with
    device := (Device.withRenderer 8 8 ⟨none, none⟩).resume 0 }.handed
    (Timeline.ofScore oneNoteShape World.oneNoteScore 0).events

/-- The device when the note has been cancelled. -/
noncomputable def oneNoteCut : Usage := { oneNoteHanded with instant := 0 + 2000000 }.cut

theorem run_oneNoteCut : Run (opened 8 8 ⟨none, none⟩ 0) oneNoteCut :=
  (((Relation.ReflTransGen.single (.resume _)).tail
    (.emit _ ['a'] 60 World.oneNoteScore World.read_oneNoteScore (1 / 200) (1 / 200) 0)).tail
    (.advance _ 2000000)).tail (.cancel _)

/-- The ramps of the note. -/
theorem fit_oneNoteShape :
    oneNoteShape.fit ((1 : ℕ) / (1 : ℕ)) 0 (0 + 1) = ⟨1, 0, 0 + 1, 1 / 200, 1 / 200⟩ := by
  have scale : oneNoteShape.scale (Scalar.max (0 + 1 - 0) (Scalar.ofNat 0)) = 1 := by
    norm_num [EnvelopeShape.scale, oneNoteShape, EnvelopeShape.ofRamps, Scalar.max_real]
  simp only [EnvelopeShape.fit, scale, mul_one]
  norm_num [oneNoteShape, EnvelopeShape.ofRamps, Scalar.max_real]

theorem tones_oneNoteHanded : ∃ path, oneNoteHanded.tones =
    [⟨0, path, 0, 0 + 1, some ⟨1, 0, 0 + 1, 1 / 200, 1 / 200⟩⟩] := by
  rw [← fit_oneNoteShape]
  exact ⟨_, rfl⟩

/-- The envelope that the cancellation leaves: the ramps are as long as they were, and either is
longer than the tone. -/
noncomputable def oneNoteStub : Envelope ℝ := ⟨1, 0, 1 / 500, 1 / 200, 1 / 200⟩

theorem exists_tone_oneNoteCut : ∃ tone ∈ oneNoteCut.tones, tone.envelope = some oneNoteStub := by
  have now : oneNoteHanded.device.now (0 + 2000000) = 1 / 500 := by
    show (Scalar.ofNanoseconds (0 + (0 + 2000000 - 0)) : ℝ) = 1 / 500
    rw [Scalar.ofNanoseconds_real]
    norm_num
  obtain ⟨path, handed⟩ := tones_oneNoteHanded
  have cut := oneNoteHanded.device.tones.tones_cancelAfter (1 / 500)
  rw [show oneNoteHanded.device.tones.tones = _ from handed] at cut
  have left : oneNoteCut.tones = [⟨0, path, 0, 1 / 500, some oneNoteStub⟩] := by
    show (oneNoteHanded.device.tones.cancelAfter (oneNoteHanded.device.now (0 + 2000000))).tones = _
    rw [now, cut]
    norm_num [Tone.cutAt, Scalar.min_real, oneNoteStub]
  exact ⟨_, left ▸ List.mem_singleton_self _, rfl⟩

/-- The ramps of a tone on a device need not lie within its envelope. -/
theorem ramps_overlap_after_early_cut : ∃ u, Run (opened 8 8 ⟨none, none⟩ 0) u ∧ ∃ tone ∈ u.tones,
    ∃ envelope, tone.envelope = some envelope ∧ ¬ envelope.IsTrapezoid := by
  obtain ⟨tone, member, stub⟩ := exists_tone_oneNoteCut
  refine ⟨oneNoteCut, run_oneNoteCut, tone, member, _, stub, fun inside => ?_⟩
  have room := inside.holds
  norm_num [oneNoteStub, Envelope.attackEnd, Envelope.releaseStart] at room

/-- The law at that tone. -/
theorem ramps_inside_unless_cut_short_oneNote : ∃ (u : Usage) (tone : Tone ℝ),
    Run (opened 8 8 ⟨none, none⟩ 0) u ∧ tone ∈ u.tones ∧
      ∃ envelope, u.IsHemmed tone envelope := by
  obtain ⟨tone, member, -⟩ := exists_tone_oneNoteCut
  exact ⟨oneNoteCut, tone, run_oneNoteCut, member,
    ramps_inside_unless_cut_short 8 8 ⟨none, none⟩ 0 _ run_oneNoteCut tone member⟩

end OneNote

end Usage

end Portamento
