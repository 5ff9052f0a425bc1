import Portamento.Proofs.Live.Sounding
import Portamento.Proofs.Sound.Gain
import Portamento.Proofs.Transport.Cache
import Portamento.Proofs.Transport.Idle

/-!
# Rendered and live playback agree

A session that plays a rendered pass has the device go round in a buffer; a live session lays pass
after pass on it, each moved in time by itself. The lead-in is added to the clock in both, but in
different places, and the place in the buffer is what is left of a division.

`rendered_and_live_agree` says that the two come to the same: if both begin at one reading of the
clock, then at every time by which the live loop has laid the passes that have begun, the tones that
sound are the notes of the slot that the place in the buffer lies in, each as loud and as high as
the note is at that place.
-/

namespace Portamento

/-- A tone is at a time what an event of a pass is at a place in that pass. -/
structure Tone.Echoes (tone : Tone ℝ) (event : Event ℝ) (t position : ℝ) : Prop where
  voices : tone.Voices (event.shifted (t - position))
  frequency_eq : tone.path.frequencyAt t = event.path.frequencyAt position
  gain_eq : tone.gainAt t = event.envelope.gainAt position

theorem Tone.Voices.echoes {tone : Tone ℝ} {event : Event ℝ} {t position : ℝ}
    (voices : tone.Voices (event.shifted (t - position))) : tone.Echoes event t position := by
  have moved : position + (t - position) = t := add_sub_cancel position t
  refine ⟨voices, ?_, ?_⟩
  · have frequency := event.path.frequencyAt_shifted (t - position) position
    rw [moved] at frequency
    rw [voices.path_eq]
    exact frequency
  · have gain := event.envelope.gainAt_shifted (t - position) position
    rw [moved] at gain
    rw [Tone.gainAt, voices.envelope_eq]
    exact gain

/-- What the tones on one device and a pass that is played from a buffer on another have in common
at a time. -/
structure Agreement (pass : Timeline ℝ) (playback : BufferPlayback ℝ) (list : ToneList ℝ) (t : ℝ) :
    Prop where
  /-- The place in the buffer lies in a slot of the pass. -/
  covered : ∀ position, playback.positionAt? t = some position →
    ∃ slot, pass.slotAt? position = some slot
  /-- The tones that sound are those of the chord of that slot, one for each of its notes, each with
  the frequency and the gain that the note has there. -/
  together : ∀ position slot, playback.positionAt? t = some position →
    pass.slotAt? position = some slot →
      List.Forall₂ (fun tone event => tone.Echoes event t position)
        (list.soundingAt t) (pass.eventsOf slot.index)
  /-- Nothing sounds exactly when the buffer is silent or the slot is a rest. -/
  silent : list.soundingAt t = [] ↔ playback.positionAt? t = none ∨
    ∃ position slot, playback.positionAt? t = some position ∧
      pass.slotAt? position = some slot ∧ slot.isRest = true

/-- To agree it is enough that the slot of every place in the buffer is found with its notes, and
that nothing sounds where there is no place. -/
theorem Agreement.of_places {pass : Timeline ℝ} {playback : BufferPlayback ℝ} {list : ToneList ℝ}
    {t : ℝ} (heard : ∀ position, playback.positionAt? t = some position → ∃ slot,
      pass.slotAt? position = some slot ∧
      List.Forall₂ (fun tone event => tone.Echoes event t position) (list.soundingAt t)
        (pass.eventsOf slot.index) ∧
      (slot.isRest = true ↔ pass.eventsOf slot.index = []))
    (quiet : playback.positionAt? t = none → list.soundingAt t = []) :
    Agreement pass playback list t := by
  refine ⟨fun position found => ?_, fun position slot found at_place => ?_, ?_⟩
  · obtain ⟨slot, at_place, -⟩ := heard position found
    exact ⟨slot, at_place⟩
  · obtain ⟨slot', at_place', echoes, -⟩ := heard position found
    rw [at_place] at at_place'
    cases at_place'
    exact echoes
  · cases found : playback.positionAt? t with
    | none => exact iff_of_true (quiet found) (.inl rfl)
    | some position =>
      obtain ⟨slot, at_place, echoes, rest⟩ := heard position found
      rw [← List.length_eq_zero_iff, echoes.length_eq, List.length_eq_zero_iff, ← rest]
      constructor
      · exact fun isRest => .inr ⟨position, slot, rfl, at_place, isRest⟩
      · rintro (none | ⟨position', slot', same, at_place', isRest⟩)
        · cases none
        · cases same
          rw [at_place] at at_place'
          cases at_place'
          exact isRest

/-- A loop that lays the pass of a score agrees with a buffer that plays the score from the time on
at which the loop has its first pass begin, as long as the loop keeps up with the clock. -/
theorem Scene.agreement {text : List Char} {tempo : ℝ} {score : Score ℝ}
    (reads : Score.read text tempo = .ok score) {shape : EnvelopeShape ℝ} {plan : LivePlan ℝ}
    (pass : plan.pass = Timeline.ofScore shape score (Scalar.ofNat 0)) {before : Device ℝ}
    (silent : before.tones = .empty) {instant : Nat} {s : Scene ℝ}
    (run : Run (launch plan before instant) s) {clock t : ℝ} (opening : s.opening = some clock)
    (done : s.HasLaidBy t) {playback : BufferPlayback ℝ}
    (length : playback.buffer.seconds = score.totalSeconds)
    (start : playback.start = clock + plan.leadIn) (looping : playback.looping = plan.looping) :
    Agreement plan.pass playback s.device.tones t := by
  obtain ⟨laid, starts, long⟩ := LivePlan.laid_ofScore reads shape pass
  have duration : playback.buffer.seconds = plan.pass.duration := by
    rw [length, pass, Timeline.duration_ofScore]
  have finish : plan.pass.finish = plan.pass.duration := by
    rw [Timeline.duration, starts, sub_zero]
  have place (position : ℝ) : playback.positionAt? t = some position ↔
      0 ≤ position ∧ position < plan.pass.duration ∧ ∃ k : ℕ, (plan.looping = true ∨ k = 0) ∧
        t - (clock + plan.leadIn) = k * plan.pass.duration + position := by
    rw [← duration, ← start, ← looping]
    exact playback.positionAt?_eq_some_iff (duration ▸ long)
  refine .of_places (fun position found => ?_) fun nowhere => ?_
  · obtain ⟨inside, within, k, repeats, elapsed⟩ := (place position).mp found
    have voiced := voices_within laid starts long run opening silent done repeats inside within
      elapsed
    obtain ⟨slot, at_place, sounding, rest⟩ : ∃ slot, plan.pass.slotAt? position = some slot ∧
        plan.pass.soundingAt position = plan.pass.eventsOf slot.index ∧
        (slot.isRest = true ↔ plan.pass.eventsOf slot.index = []) := by
      rw [← finish] at within
      rw [pass] at within ⊢
      exact Timeline.exists_slotAt? reads shape (by simpa using inside) within
    rw [sounding] at voiced
    exact ⟨slot, at_place, voiced.imp fun _ _ voices => voices.echoes, rest⟩
  · refine soundingAt_eq_nil laid starts long run opening silent done
      fun k position repeats inside within elapsed => ?_
    rw [(place position).mpr ⟨inside, within, k, repeats, elapsed⟩] at nowhere
    cases nowhere

namespace Transport

/-- A transport that has kept no pass renders the one that it is to play. If that succeeds at the
rate of the device, the device plays it from a lead-in behind the present reading of the clock. -/
theorem startRendered_of_unrendered (t : Transport ℝ) (none : t.cache.bind ReadScore.pass = none)
    (instant : Nat) (device : Device ℝ) (score : Score ℝ) :
    ((∃ fault, (t.startRendered instant device score).2 = .error fault) ∧
      ∀ pass, Mixing.renderPass t.shape score device.rendererRate = .ok pass →
        pass.rate ≠ device.rate) ∨
    ∃ pass after, Mixing.renderPass t.shape score device.rendererRate = .ok pass ∧
      (t.startRendered instant device score).2 = .ok () ∧
      (t.startRendered instant device score).1.device = some after ∧
      after.buffer = some ⟨pass, device.now instant + t.settings.leadIn, t.settings.looping⟩ := by
  cases rendered : Mixing.renderPass t.shape score device.rendererRate with
  | error fault =>
    refine .inl ⟨⟨.sound fault, ?_⟩, fun pass found => nomatch found⟩
    simp only [startRendered, renderedPass, none, rendered]
  | ok pass =>
    by_cases rate : pass.rate = device.rate
    · let after : Device ℝ := { device.resume instant with
        buffer := some ⟨pass, device.now instant + t.settings.leadIn, t.settings.looping⟩ }
      refine .inr ⟨pass, after, rfl, ?_⟩
      have same : pass.rate = (device.resume instant).rate := rate
      simp only [startRendered, renderedPass, none, rendered, Device.play, if_pos same,
        Device.now_resume]
      exact ⟨trivial, rfl, rfl⟩
    · refine .inl ⟨?_, fun other found => ?_⟩
      · have different : ¬ pass.rate = (device.resume instant).rate := rate
        simp only [startRendered, renderedPass, none, rendered, Device.play, if_neg different]
        exact ⟨_, rfl⟩
      · cases found
        exact rate

/-- What the first start of a new transport comes to, in the given mode. -/
def firstStart {α : Type} [Tonal α] (mode : PlaybackMode) (settings : Settings α)
    (shape : EnvelopeShape α) (text : List Char) (device : Device α) (instant : Nat) :
    Transport α × Except (TransportFault α) Unit :=
  (newShaped { settings with mode } shape text device).start instant

end Transport

/-- What comes of a text that is played on one device as a rendered pass, and on another by a live
loop. -/
structure Concord (settings : Settings ℝ) (shape : EnvelopeShape ℝ) (text : List Char)
    (score : Score ℝ) (canvas stage : Device ℝ) (instant instant' : Nat) : Prop where
  /-- Rendered playback begins if the renderer works at the rate of the device and the frames of the
  pass can be held in memory. -/
  rendered_starts : 0 < canvas.rate → canvas.rendererRate = canvas.rate →
    score.totalSeconds * canvas.rate < Mixing.unreachableFrames →
    (Transport.firstStart .rendered settings shape text canvas instant).2 = .ok ()
  live_starts : (Transport.firstStart .live settings shape text stage instant').2 = .ok ()
  /-- If both have begun, and the loop takes its first step at the reading of the clock at which the
  rendered playback was begun, they agree at all times by which the loop has laid what has begun. -/
  agree : (Transport.firstStart .rendered settings shape text canvas instant).2 = .ok () →
    ∃ painted playback staged loop,
      (Transport.firstStart .rendered settings shape text canvas instant).1.device = some painted ∧
      painted.buffer = some playback ∧
      (Transport.firstStart .live settings shape text stage instant').1.device = some staged ∧
      (Transport.firstStart .live settings shape text stage instant').1.loops = [loop] ∧
      ∀ s, Scene.Run ⟨instant', staged, loop, none, [], []⟩ s →
        s.opening = some (canvas.now instant) → ∀ t, s.HasLaidBy t →
          Agreement (Timeline.ofScore shape score (Scalar.ofNat 0)) playback s.device.tones t

/-- Whatever is played, with whatever envelopes and lead-in, repeated or once: rendered and live
playback agree if a pass lasts a whole number of frames. -/
theorem rendered_and_live_agree (settings : Settings ℝ) (shape : EnvelopeShape ℝ)
    (text : List Char) (score : Score ℝ) (reads : Score.read text settings.tempo = .ok score)
    (canvas stage : Device ℝ) (silent : stage.tones = .empty) (frames : ℕ)
    (whole : score.totalSeconds * canvas.rendererRate = frames) (instant instant' : Nat) :
    Concord settings shape text score canvas stage instant instant' := by
  let painting : Settings ℝ := { settings with mode := .rendered }
  let acting : Settings ℝ := { settings with mode := .live }
  have renders : Transport.firstStart .rendered settings shape text canvas instant =
      Transport.startRendered { Transport.prepared painting text canvas score with shape } instant
        canvas score := Transport.startAnew_newShaped instant shape canvas reads
  have acts : Transport.firstStart .live settings shape text stage instant' =
      (Transport.startLive { Transport.prepared acting text stage score with shape } instant' score,
        .ok ()) := Transport.startAnew_newShaped instant' shape stage reads
  have positive := Score.totalSeconds_nonneg reads
  have outcome := Transport.startRendered_of_unrendered
    { Transport.prepared painting text canvas score with shape } rfl instant canvas score
  rw [← renders] at outcome
  refine ⟨fun moving same fits => ?_, by rw [acts], fun begun => ?_⟩
  · rcases outcome with ⟨-, refused⟩ | ⟨pass, after, -, begun, -⟩
    · rw [← same, whole, Nat.cast_lt] at fits
      obtain ⟨pass, rendered⟩ := Mixing.exists_renderPass shape positive whole (same ▸ moving) fits
      obtain ⟨rate, -⟩ := Mixing.seconds_of_renderPass rendered positive whole
      exact absurd (rate.trans same) (refused pass rendered)
    · exact begun
  · rcases outcome with ⟨⟨fault, failed⟩, -⟩ | ⟨pass, after, rendered, -, held, plays⟩
    · rw [begun] at failed
      cases failed
    · obtain ⟨-, length⟩ := Mixing.seconds_of_renderPass rendered positive whole
      have quiet : (stage.resume instant').tones = .empty := silent
      refine ⟨after, _, stage.resume instant', .ofPlan (Transport.livePlan
        { Transport.prepared acting text stage score with shape } score), held, plays, ?_, ?_,
        fun s run opening t done =>
          Scene.agreement reads rfl quiet run opening done length rfl rfl⟩
      · rw [acts]
        rfl
      · rw [acts]
        rfl

section Trio

/-! A chord of two notes, a rest and a note, repeated after a second of silence. -/

open World

/-- A chord of two notes, a rest and a note. -/
def trio : List Char := duo ++ [',', '-', ',', 'a']

noncomputable def trioScore : Score ℝ :=
  ⟨60, [⟨duo, 1, [duoStage.map Note.hertz]⟩, ⟨['-'], 1, []⟩, ⟨['a'], 1, [[440]]⟩]⟩

theorem read_trioScore : Score.read trio (60 : ℝ) = .ok trioScore := by
  have beat : Chord.Lasts (60 : ℝ) none 1 :=
    Chord.lasts_iff.mpr (by simp [chordSeconds, beatSeconds])
  have token : TokenText [[.rest]] none ['-'] :=
    .beat _ (.plain _ (.single _ _ (.bare _ (.single _ _ .rest))))
  have rest : Chord.read ['-'] (60 : ℝ) = .ok ⟨['-'], 1, []⟩ :=
    Chord.read_eq_ok_iff_means.mpr ⟨rfl, [[.rest]], none, token, ⟨by decide, .inl (by decide)⟩,
      beat, fun _ => rfl, fun pitched => absurd pitched (by decide)⟩
  exact Score.read_eq_ok.mpr ⟨rfl, by norm_num, [duo, ['-'], ['a']], rfl, by simp, rfl,
    .cons (read_duo beat) (.cons rest (.cons read_oneNote .nil))⟩

theorem totalSeconds_trioScore : trioScore.totalSeconds = 3 := by
  norm_num [Score.totalSeconds, trioScore, Scalar.sum]

/-- The notes of that score that sound in its three chords. -/
theorem length_soundingAt_trio {shape : EnvelopeShape ℝ} {position : ℝ} :
    ((Timeline.ofScore shape trioScore (Scalar.ofNat 0)).soundingAt position).length =
      (if 0 ≤ position ∧ position < 1 then 2 else 0) +
        if 2 ≤ position ∧ position < 3 then 1 else 0 := by
  obtain ⟨first, second, last, events, start, start', start'', finish, finish', finish''⟩ :
      ∃ first second last, (Timeline.ofScore shape trioScore (Scalar.ofNat 0)).events =
        [first, second, last] ∧ first.start = 0 ∧ second.start = 0 ∧ last.start = 2 ∧
        first.finish = 1 ∧ second.finish = 1 ∧ last.finish = 3 := by
    refine ⟨_, _, _, rfl, ?_, ?_, ?_, ?_, ?_, ?_⟩
    all_goals norm_num
  simp only [Timeline.soundingAt, events, List.filter_cons, Event.isSoundingAt, start, start',
    start'', finish, finish', finish'']
  split_ifs <;> simp_all

/-- What the live loop of that text is asked to play. -/
noncomputable def trioPlan : LivePlan ℝ where
  pass := .ofScore duoSettings.shape trioScore (Scalar.ofNat 0)
  leadIn := 1
  looping := true
  ahead := duoSettings.ahead

/-- The device of that loop, when the session has been begun. -/
noncomputable def trioStage : Device ℝ := (Device.new 44100).resume 0

/-- A scene in which the loop has laid two passes, with the tones in three places of the second. -/
theorem exists_scene_trio : ∃ s, Scene.Run (.launch trioPlan trioStage 0) s ∧
    s.opening = some (trioStage.now 0) ∧ s.HasLaidBy (13 / 2) ∧
    (s.device.tones.soundingAt (9 / 2)).length = 2 ∧
    s.device.tones.soundingAt (11 / 2) = [] ∧
    (s.device.tones.soundingAt (13 / 2)).length = 1 := by
  obtain ⟨laid, starts, long⟩ := LivePlan.laid_ofScore read_trioScore duoSettings.shape
    (rfl : trioPlan.pass = _)
  obtain ⟨s, run, opening, done⟩ := Scene.exists_hasLaidBy starts long rfl trioStage 0 (13 / 2)
  -- the first pass begins at 1, the second one at 4
  have clock : trioStage.now 0 + trioPlan.leadIn = 1 := by
    have now : trioStage.now 0 = Scalar.ofNanoseconds 0 := rfl
    rw [now, Scalar.ofNanoseconds_real]
    simp [trioPlan]
  have duration : trioPlan.pass.duration = 3 :=
    (Timeline.duration_ofScore ..).trans totalSeconds_trioScore
  have count {t position : ℝ} (inside : 0 ≤ position) (early : position ≤ 5 / 2)
      (elapsed : t = 4 + position) : (s.device.tones.soundingAt t).length =
        (if 0 ≤ position ∧ position < 1 then 2 else 0) +
          if 2 ≤ position ∧ position < 3 then 1 else 0 := by
    have passed : t - (trioStage.now 0 + trioPlan.leadIn) =
        (1 : ℕ) * trioPlan.pass.duration + position := by
      rw [clock, duration, elapsed, Nat.cast_one]
      ring
    rw [Scene.length_soundingAt laid starts long run opening rfl (done.of_le (by linarith))
      (.inl rfl) inside (by linarith) passed]
    exact length_soundingAt_trio
  refine ⟨s, run, opening, done, ?_, ?_, ?_⟩
  · have chord : (9 / 2 : ℝ) = 4 + 1 / 2 := by norm_num
    exact (count (by norm_num) (by norm_num) chord).trans (by norm_num)
  · have rest : (11 / 2 : ℝ) = 4 + 3 / 2 := by norm_num
    exact List.length_eq_zero_iff.mp ((count (by norm_num) (by norm_num) rest).trans (by norm_num))
  · have note : (13 / 2 : ℝ) = 4 + 5 / 2 := by norm_num
    exact (count (by norm_num) (by norm_num) note).trans (by norm_num)

/-- The law in three places of the second pass: in the chord, the rest and the note. -/
theorem rendered_and_live_agree_trio :
    Score.read trio duoSettings.tempo = .ok trioScore ∧
    (Device.new 44100 : Device ℝ).tones = .empty ∧
    trioScore.totalSeconds * (Device.new 8 : Device ℝ).rendererRate = (24 : ℕ) ∧
    ∃ painted playback s,
      (Transport.firstStart .rendered duoSettings duoSettings.shape trio (.new 8) 0).1.device =
        some painted ∧ painted.buffer = some playback ∧
      (Transport.firstStart .live duoSettings duoSettings.shape trio (.new 44100) 0).1.device =
        some trioStage ∧ Scene.Run (.launch trioPlan trioStage 0) s ∧
      (s.device.tones.soundingAt (9 / 2)).length = 2 ∧
      s.device.tones.soundingAt (11 / 2) = [] ∧
      (s.device.tones.soundingAt (13 / 2)).length = 1 ∧
      ∀ t ≤ 13 / 2, Agreement trioPlan.pass playback s.device.tones t := by
  have rate : (Device.new 8 : Device ℝ).rendererRate = 8 := rfl
  have whole : trioScore.totalSeconds * (Device.new 8 : Device ℝ).rendererRate = (24 : ℕ) := by
    rw [totalSeconds_trioScore, rate]
    norm_num
  have fits : trioScore.totalSeconds * (Device.new 8 : Device ℝ).rate <
      Mixing.unreachableFrames := by
    refine whole.trans_lt ?_
    rw [Nat.cast_lt]
    decide
  have law := rendered_and_live_agree duoSettings duoSettings.shape trio trioScore read_trioScore
    (.new 8) (.new 44100) rfl 24 whole 0 0
  obtain ⟨painted, playback, staged, loop, paints, plays, held, alone, agree⟩ :=
    law.agree (law.rendered_starts (by decide) rfl fits)
  have acts : Transport.firstStart .live duoSettings duoSettings.shape trio (.new 44100) 0 = _ :=
    Transport.startAnew_newShaped 0 duoSettings.shape (.new 44100) read_trioScore
  rw [acts] at held alone
  obtain rfl : trioStage = staged := Option.some.inj held
  obtain rfl : LiveLoop.ofPlan trioPlan = loop := (List.cons.inj alone).1
  obtain ⟨s, run, opening, done, chord, rest, note⟩ := exists_scene_trio
  refine ⟨read_trioScore, rfl, whole, painted, playback, s, paints, plays, ?_, run, chord, rest,
    note, fun t early => agree s run opening t (done.of_le early)⟩
  rw [acts]
  rfl

end Trio

end Portamento
