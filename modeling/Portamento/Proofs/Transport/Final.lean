import Portamento.Proofs.Live.Passes
import Portamento.Proofs.Live.Schedule
import Portamento.Proofs.Transport.Orderly

/-!
# Stopping is final

A session is ended in two parts: its loop is told to stop, and later the device is silenced. In
between the loop may go on, even through the rest of a pass. What `stop_is_final` says begins with
the second part. It rests on the order of the two: a loop that looks at its mark while it holds the
device either finds it set, or has laid its pass before the device is silenced.
-/

namespace Portamento

variable {α : Type} [Tonal α]

namespace World

/-- What stays so of a loop whose session has been silenced when the clock read `time`. -/
structure Silenced (i : Nat) (time : α) (laid : List (Mark α)) (w : World α) : Prop where
  begun : i < w.transport.loops.length
  retired : ∀ loop, w.transport.loops[i]? = some loop →
    loop.cancelled = true ∧ loop.holdsDevice = false
  laid_eq : w.marksOf i = laid
  time_le : time ≤ w.now
  ended : ∀ tone mark, w.Owned tone mark → mark.loop = i → ¬ time < tone.finish

variable {w after : World α} {i : Nat} {time : α} {laid : List (Mark α)}

/-- A loop that is retired stays so, for nobody takes back what it has been told. -/
theorem Silenced.retired_of_effect (silenced : Silenced i time laid w) (effect : Effect w after)
    (loop : LiveLoop α) (at_i : after.transport.loops[i]? = some loop) :
    loop.cancelled = true ∧ loop.holdsDevice = false := by
  cases effect with
  | keeps _ _ loops =>
    rw [loops] at at_i
    exact silenced.retired loop at_i
  | steps j before next numbered step _ loops =>
    rw [loops] at at_i
    rcases Transport.loop_of_set at_i with ⟨rfl, rfl⟩ | ⟨-, old⟩
    · obtain ⟨told, free⟩ := silenced.retired before numbered
      exact ⟨step.cancelled_eq.trans told, (step.retires told free).1⟩
    · exact silenced.retired loop old
  | tells _ _ _ loops =>
    obtain ⟨before, numbered, ⟨-, rfl⟩ | ⟨-, rfl⟩⟩ := Transport.loop_of_revoked loops at_i
    · exact ⟨rfl, (silenced.retired before numbered).2⟩
    · exact silenced.retired _ numbered
  | cuts _ _ loops =>
    rw [loops] at at_i
    exact silenced.retired loop at_i
  | begins _ _ _ _ loops =>
    rw [loops, List.getElem?_append_left silenced.begun] at at_i
    exact silenced.retired loop at_i

/-- The loop that lays something in a step is not the silenced one. -/
theorem Silenced.ne_of_holdsDevice (silenced : Silenced i time laid w) {j : Nat}
    {loop : LiveLoop α} (numbered : w.transport.loops[j]? = some loop)
    (holds : loop.holdsDevice = true) : j ≠ i := by
  rintro rfl
  rw [(silenced.retired loop numbered).2] at holds
  cases holds

theorem Silenced.laid_eq_of_effect (silenced : Silenced i time laid w) (effect : Effect w after) :
    after.marksOf i = laid := by
  cases effect with
  | keeps _ _ _ marks => exact (congrFun (marksOf_congr marks) i).trans silenced.laid_eq
  | steps j loop next numbered step _ _ marks =>
    rw [marksOf_of_step marks, silenced.laid_eq]
    rcases step.granted_or_not with ⟨nothing, -⟩ | ⟨event, -, -, holds⟩
    · rw [nothing, List.map_nil, ite_self, List.append_nil]
    · rw [if_neg (silenced.ne_of_holdsDevice numbered holds), List.append_nil]
  | tells _ _ _ _ marks => exact (congrFun (marksOf_congr marks) i).trans silenced.laid_eq
  | cuts _ _ _ marks => exact (congrFun (marksOf_congr marks) i).trans silenced.laid_eq
  | begins _ _ _ _ _ marks => exact (congrFun (marksOf_congr marks) i).trans silenced.laid_eq

section

variable [Scalar.Ordered α]

theorem Silenced.ended_of_effect (orderly : Orderly w) (silenced : Silenced i time laid w)
    (effect : Effect w after) (tone : Tone α) (mark : Mark α) (owned : after.Owned tone mark)
    (of_i : mark.loop = i) : ¬ time < tone.finish := by
  cases effect with
  | keeps tones _ _ marks =>
    rw [owned_congr tones marks] at owned
    exact silenced.ended tone mark owned of_i
  | steps j loop next numbered step _ _ marks =>
    rcases orderly.owned_of_step step marks owned with old | ⟨event, -, holds, -, rfl⟩
    · exact silenced.ended tone mark old of_i
    · exact absurd of_i (silenced.ne_of_holdsDevice numbered holds)
  | tells device _ _ _ marks =>
    rw [owned_congr (by rw [device]) marks] at owned
    exact silenced.ended tone mark owned of_i
  | cuts device _ _ marks =>
    obtain ⟨old, before, rfl⟩ := owned_of_cut (tones_of_cut device) marks owned
    have past := silenced.ended old mark before of_i
    unfold Tone.cutAt
    split
    · next beyond =>
      exact absurd (Scalar.Ordered.lt_of_le_of_lt _ _ _ silenced.time_le beyond) past
    · exact past
  | begins _ _ device _ _ marks =>
    rw [owned_congr (tones_of_resume device) marks] at owned
    exact silenced.ended tone mark owned of_i

/-- A silenced loop stays silenced. -/
theorem Silenced.effect (orderly : Orderly w) (silenced : Silenced i time laid w)
    (effect : Effect w after) : Silenced i time laid after where
  begun := Nat.lt_of_lt_of_le silenced.begun effect.length_le
  retired := silenced.retired_of_effect effect
  laid_eq := silenced.laid_eq_of_effect effect
  time_le := Scalar.Ordered.le_trans _ _ _ silenced.time_le effect.now_le
  ended := silenced.ended_of_effect orderly effect

/-- The cut silences the loop of the session. -/
theorem Silenced.of_cut {errand : Errand} (poised : Poised w) (orderly : Orderly w)
    (pending : w.errand = some errand) (silences : errand.silences = true)
    (free : w.transport.IsFree) (current : w.transport.current? = some i) :
    Silenced i w.now (w.marksOf i) (w.carriedOut errand) := by
  obtain ⟨device, loops, -⟩ := poised.carriedOut_eq pending silences
  have now : (w.carriedOut errand).now = w.now := now_of_cut device rfl
  refine ⟨?_, ?_, rfl, ?_, ?_⟩
  · rw [loops]
    exact Nat.lt_of_succ_le (orderly.current_last i current).le
  · rw [loops]
    exact fun loop numbered => ⟨poised.told errand pending silences i current loop numbered,
      free loop (List.mem_of_getElem? numbered)⟩
  · rw [now]
    exact w.now_le_now
  · intro tone mark owned _
    obtain ⟨old, -, rfl⟩ := owned_of_cut (tones_of_cut device) rfl owned
    have irreflexive := Scalar.Ordered.not_lt_of_le _ _ w.now_le_now
    unfold Tone.cutAt
    split
    · exact irreflexive
    · next past => exact past

/-- What holds in every world `later` than `w`, when the session of `w` has been silenced. -/
structure Final (w later : World α) : Prop where
  /-- The loop of that session creates no further tone. -/
  obedient : ∀ i, w.transport.current? = some i → later.marksOf i = w.marksOf i
  /-- It has been told to stop, and does not hold the device. -/
  retired : ∀ i, w.transport.current? = some i → ∀ loop, later.transport.loops[i]? = some loop →
    loop.cancelled = true ∧ loop.holdsDevice = false
  /-- Every tone on the device belongs to some loop. -/
  owned : ∀ tone ∈ later.tones, ∃ mark, later.Owned tone mark
  /-- None of the tones of that loop sounds at the time of the silencing or from then on. -/
  ended : ∀ i, w.transport.current? = some i → ∀ tone mark, later.Owned tone mark →
    mark.loop = i → ∀ time, w.now ≤ time → tone.isSoundingAt time = false
  /-- Until another session is begun, the device has no buffer and no tone that is still to begin.
  -/
  quiet : later.transport.session = none →
    later.device.buffer = none ∧ later.device.pending later.instant = 0
  /-- Only the loop of the session, if there is one, has not been told to stop. -/
  alone : ∀ i loop, later.transport.loops[i]? = some loop → loop.cancelled = false →
    later.transport.current? = some i

theorem pending_eq_zero {device : Device α} {instant : Nat}
    (begun : ∀ tone ∈ device.tones.tones, tone.start ≤ device.now instant) :
    device.pending instant = 0 := by
  rw [Device.pending, ToneList.after, ToneList.select_eq_filter, List.length_eq_zero_iff,
    List.filter_eq_nil_iff]
  intro tone member
  simpa using Scalar.Ordered.not_lt_of_le _ _ (begun tone member)

/-- To be silenced is final, for a session that has been begun in whatever way, with whatever
sessions before it, and with its loop wherever it stands: not begun, asleep, between two passes, or
told to stop in the middle of one. -/
theorem stop_is_final (settings : Settings α) (text : List Char) (rate rendererRate : Nat)
    (limits : DeviceLimits) (unavailable instant : Nat) (w : World α)
    (reached : Run (launch settings text rate rendererRate limits unavailable instant) w)
    (errand : Errand) (pending : w.errand = some errand) (silences : errand.silences = true)
    (free : w.transport.IsFree) :
    (w.carriedOut errand).transport.session = none ∧
      ∀ later, Run (w.carriedOut errand) later → Final w later := by
  obtain ⟨poised, orderly⟩ := reached.carries (.launch ..) (Orderly.launch ..)
    fun _ _ orderly _ effect => orderly.effect effect
  obtain ⟨-, -, ended⟩ := poised.carriedOut_eq pending silences
  refine ⟨ended, fun later run => ?_⟩
  have cut : Move w (w.carriedOut errand) := .carryOut errand pending free
  obtain ⟨-, orderly', silenced⟩ := run.carries (poised.move cut)
    (P := fun u => Orderly u ∧
      ∀ i, w.transport.current? = some i → Silenced i w.now (w.marksOf i) u)
    ⟨orderly.effect (cut.effect poised), fun i current =>
      .of_cut poised orderly pending silences free current⟩
    fun u v both _ effect => ⟨both.1.effect effect, fun i current =>
      (both.2 i current).effect both.1 effect⟩
  refine ⟨fun i current => (silenced i current).laid_eq,
    fun i current => (silenced i current).retired, fun tone => orderly'.exists_owned,
    fun i current tone mark owned of_i time late => ?_, fun idle => ?_,
    fun i loop numbered free => ?_⟩
  · have past := (silenced i current).ended tone mark owned of_i
    refine decide_eq_false fun sounding => past ?_
    exact Scalar.Ordered.lt_of_le_of_lt _ _ _ late sounding.2
  · obtain ⟨buffer, begun⟩ := orderly'.quiet idle
    exact ⟨buffer, pending_eq_zero begun⟩
  · refine Classical.byContradiction fun other => ?_
    rw [(orderly'.retired i loop numbered other).1] at free
    cases free

end

section OneNote

/-! A session with one note, whose loop has just laid that note. -/

/-- Settings under which a text is played by a live loop, a beat a second. -/
noncomputable def liveSettings : Settings ℝ := { Settings.usual with tempo := 60, mode := .live }

/-- A note that is read as it stands. -/
theorem read_oneNote : Chord.read ['a'] (60 : ℝ) = .ok ⟨['a'], 1, [[440]]⟩ := by
  have length : splitLength ['a'] = .ok (['a'], none) := rfl
  have stages : Stage.readAll ['a'] = .ok [[.pitch .a none none]] := by
    unfold Stage.readAll Stage.ungroup
    rfl
  have beat : chordSeconds none (60 : ℝ) = 1 := by simp [chordSeconds, beatSeconds]
  have frequency : (Note.pitch .a none none).frequency = .ok (some (440 : ℝ)) := by
    simp [Note.frequency, Note.pitchFrequency, spell, Spelling.frequency, Letter.natural,
      PitchClass.frequency, PitchClass.centihertz, Scalar.ratio_real, Scalar.octaves,
      referenceOctave, Scalar.power, Scalar.isFinite]
    norm_num
    rfl
  have frequencies : Stage.frequencies [.pitch .a none none] = .ok [(440 : ℝ)] := by
    simp only [Stage.frequencies, List.mapM_cons, List.mapM_nil, frequency]
    rfl
  simp only [Chord.read, length, stages, beat, bind, Except.bind]
  simp [Stage.checkEven, Stage.uneven?, frequencies, Note.isRest, bind, Except.bind, pure,
    Except.pure]

/-- A score of one note. -/
noncomputable def oneNoteScore : Score ℝ := ⟨60, [⟨['a'], 1, [[440]]⟩]⟩

theorem read_oneNoteScore : Score.read ['a'] (60 : ℝ) = .ok oneNoteScore := by
  have tokens : Token.ofText ['a'] = (.ok [['a']] : Except (ScoreFault ℝ) _) := rfl
  simp [Score.read, Scalar.isFinite, tokens, Score.readChords, read_oneNote, oneNoteScore, bind,
    Except.bind, Except.map, pure, Except.pure]

/-- A world in which that text is about to be played. -/
noncomputable def oneNoteLaunch : World ℝ := launch liveSettings ['a'] 44100 44100 ⟨none, none⟩ 0 0

/-- The transport when the session has been begun. -/
noncomputable def oneNotePlaying : Transport ℝ :=
  { oneNoteLaunch.transport with
    source := { oneNoteLaunch.transport.source with requests := 1 }
    device := some oneNoteLaunch.device
    cache := some ⟨['a'], 60, oneNoteScore, none⟩ }.startLive 0 oneNoteScore

theorem startAnew_oneNote : oneNoteLaunch.transport.startAnew 0 = (oneNotePlaying, .ok ()) := by
  let acquired : Transport ℝ :=
    { oneNoteLaunch.transport with
      source := { oneNoteLaunch.transport.source with requests := 1 }
      device := some oneNoteLaunch.device }
  have acquires : oneNoteLaunch.transport.acquire = (acquired, .ok oneNoteLaunch.device) := rfl
  have read : Score.read acquired.text acquired.settings.tempo = .ok oneNoteScore :=
    read_oneNoteScore
  have resolves : acquired.resolve =
      ({ acquired with cache := some ⟨['a'], 60, oneNoteScore, none⟩ }, .ok oneNoteScore) := by
    simp only [Transport.resolve, read]
    rfl
  simp only [Transport.startAnew, acquires, resolves]
  rfl

/-- The loop when it has opened. -/
noncomputable def oneNoteReady : LiveLoop ℝ :=
  { LiveLoop.ofPlan (oneNoteLaunch.transport.livePlan oneNoteScore) with
    origin := oneNotePlaying.heldDevice.now 0 + liveSettings.leadIn
    phase := .entering }

/-- The only note of the first pass. -/
noncomputable def oneNoteEvent : Event ℝ :=
  (oneNoteReady.passEvents 0).head (List.cons_ne_nil _ _)

/-- The world when the loop has laid that note, and has still to complete the pass. -/
noncomputable def oneNoteLaid : World ℝ where
  instant := 0
  transport :=
    { oneNotePlaying with
      device := some (oneNotePlaying.heldDevice.taken oneNoteEvent)
      loops := [{ oneNoteReady with phase := .laying [] }] }
  errand := none
  marks := [⟨0, 0, oneNoteEvent⟩]

theorem run_oneNoteLaid : Run oneNoteLaunch oneNoteLaid := by
  let fresh := LiveLoop.ofPlan (oneNoteLaunch.transport.livePlan oneNoteScore)
  let laying : LiveLoop ℝ := { oneNoteReady with phase := .laying [oneNoteEvent] }
  have begins : fresh.begin (oneNotePlaying.heldDevice.now 0) = oneNoteReady :=
    LiveLoop.begin_of_pos (LivePlan.laid_ofScore read_oneNoteScore _ rfl).2.2 _
  have starts : Move oneNoteLaunch { oneNoteLaunch with errand := some .beginning } :=
    .takeUp _ _ rfl (.start rfl)
  have opened : Move { oneNoteLaunch with errand := some .beginning }
      ⟨0, oneNotePlaying, none, []⟩ := by
    have move : Move { oneNoteLaunch with errand := some .beginning } _ :=
      .carryOut .beginning rfl fun _ member => absurd member List.not_mem_nil
    have next : (oneNoteLaunch.transport.carryOut 0 .beginning).1 = oneNotePlaying :=
      congrArg Prod.fst startAnew_oneNote
    rw [← next]
    exact move
  have takes : fresh.step? 0 oneNotePlaying.heldDevice =
      some (oneNoteReady, oneNotePlaying.heldDevice) := by
    rw [← begins]
    rfl
  have opens : Move ⟨0, oneNotePlaying, none, []⟩
      ⟨0, { oneNotePlaying with loops := [oneNoteReady] }, none, []⟩ :=
    .step 0 fresh oneNoteReady oneNotePlaying.heldDevice oneNotePlaying.heldDevice rfl rfl takes
  have enters : Move ⟨0, { oneNotePlaying with loops := [oneNoteReady] }, none, []⟩
      ⟨0, { oneNotePlaying with loops := [laying] }, none, []⟩ :=
    .step 0 oneNoteReady laying oneNotePlaying.heldDevice oneNotePlaying.heldDevice rfl rfl rfl
  have lays : Move ⟨0, { oneNotePlaying with loops := [laying] }, none, []⟩ oneNoteLaid :=
    .step 0 laying { oneNoteReady with phase := .laying [] } oneNotePlaying.heldDevice
      (oneNotePlaying.heldDevice.taken oneNoteEvent) rfl rfl rfl
  exact ((((Relation.ReflTransGen.single starts).tail opened).tail opens).tail enters).tail lays

/-- The law at a session that is ended while its loop is in the middle of a pass. -/
theorem stop_is_final_oneNote : ∃ w : World ℝ, Run oneNoteLaunch w ∧
    w.errand = some .stopping ∧ Errand.stopping.silences = true ∧ w.transport.IsFree ∧
    w.marks.length = 1 ∧ (w.carriedOut .stopping).transport.session = none ∧
      ∀ later, Run (w.carriedOut .stopping) later → Final w later := by
  let told : LiveLoop ℝ := { oneNoteReady with phase := .laying [], cancelled := true }
  have stops : Move oneNoteLaid { oneNoteLaid with
      transport := oneNoteLaid.transport.revoke, errand := some .stopping } :=
    .takeUp _ _ rfl (.stop rfl)
  have completes : Move { oneNoteLaid with
      transport := oneNoteLaid.transport.revoke, errand := some .stopping } _ :=
    .step 0 told told.passLaid (oneNotePlaying.heldDevice.taken oneNoteEvent)
      (oneNotePlaying.heldDevice.taken oneNoteEvent) rfl rfl rfl
  have run := (run_oneNoteLaid.tail stops).tail completes
  have free : Transport.IsFree (stepped { oneNoteLaid with
      transport := oneNoteLaid.transport.revoke, errand := some .stopping } 0 told told.passLaid
      (oneNotePlaying.heldDevice.taken oneNoteEvent)
      (oneNotePlaying.heldDevice.taken oneNoteEvent)).transport := by
    intro loop member
    rw [List.mem_singleton.mp member]
    rfl
  exact ⟨_, run, rfl, rfl, free, rfl,
    stop_is_final liveSettings ['a'] 44100 44100 ⟨none, none⟩ 0 0 _ run .stopping rfl rfl free⟩

end OneNote

end World

end Portamento
