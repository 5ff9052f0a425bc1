import Portamento.Proofs.Live.Closing
import Portamento.Proofs.Score.Documented
import Portamento.Proofs.Transport.Coherence
import Portamento.Proofs.Transport.Harmony

/-!
# What is still to come while the transport is idle

A transport is idle when it has no session, and also when the loop of its session has returned and
nobody has asked for the result yet. Without a session the device is silent. A loop that has
returned by itself leaves no more than what the clock is too near to for the loop to wait for it.
But a loop that breaks off in the middle of a pass returns with whatever it has laid, and that is
played on, until the result is asked for: then the device is silenced.
-/

namespace Portamento

namespace Timeline

/-- Every note of chords that last some time begins before it ends. -/
theorem start_lt_finish {shape : EnvelopeShape ℝ} {score : Score ℝ} {offset : ℝ}
    (long : ∀ chord ∈ score.chords, 0 < chord.seconds) {event : Event ℝ}
    (member : event ∈ (ofScore shape score offset).events) : event.start < event.finish := by
  obtain ⟨k, chord, found, inside⟩ := mem_lay.mp member
  obtain ⟨-, start, finish, -⟩ := mem_events inside
  rw [start, finish]
  exact lt_add_of_pos_right _ (long chord (List.mem_of_getElem? found))

end Timeline

namespace Transport

variable {α : Type}

/-- To mark a session as paused or not changes nothing of what is played in it. -/
theorem current?_setPaused (t : Transport α) (paused : Bool) :
    (t.setPaused paused).current? = t.current? := by
  simp only [current?, setPaused]
  rcases t.session with _ | ⟨_ | loop, looping, paused⟩ <;> rfl

end Transport

namespace World

section Told

variable {α : Type} [Tonal α]

/-- Nobody tells the loop of the session to stop but an operation that is about to end the session.
-/
def ToldByErrand (w : World α) : Prop :=
  ∀ i, w.transport.current? = some i → ∀ loop, w.transport.loops[i]? = some loop →
    loop.cancelled = true → ∃ errand, w.errand = some errand ∧ errand.silences = true

variable {w after : World α}

omit [Tonal α] in
/-- With an errand that is not to silence the device, the loop of the session is free to go on. -/
theorem ToldByErrand.free (told : w.ToldByErrand) {errand : Errand}
    (pending : w.errand = some errand) (gentle : errand.silences = false) {i : Nat}
    (current : w.transport.current? = some i) {loop : LiveLoop α}
    (numbered : w.transport.loops[i]? = some loop) : loop.cancelled = false := by
  rw [Bool.eq_false_iff]
  intro cancelled
  obtain ⟨errand', pending', silences⟩ := told i current loop numbered cancelled
  rw [pending] at pending'
  cases pending'
  rw [gentle] at silences
  cases silences

/-- A session that is begun anew has a loop that nobody has told anything, or none. -/
theorem free_of_beginsAnew {t next : Transport α} {instant : Nat}
    {result : Except (TransportFault α) Unit} (begins : t.BeginsAnew instant (next, result))
    (idle : t.session = none) {i : Nat} (current : next.current? = some i) {loop : LiveLoop α}
    (numbered : next.loops[i]? = some loop) : loop.cancelled = false := by
  have silent := Transport.current?_of_idle idle
  cases begins with
  | bare =>
    rw [show t.current? = some i from current] at silent
    cases silent
  | failed =>
    rw [show t.current? = some i from current] at silent
    cases silent
  | rendered => cases current
  | live =>
    cases current
    rcases Transport.loop_of_concat numbered with old | ⟨-, rfl⟩
    · exact absurd (List.getElem?_eq_some_iff.mp old).1 (lt_irrefl _)
    · rfl

theorem ToldByErrand.move (told : w.ToldByErrand) (poised : Poised w) (move : Move w after) :
    after.ToldByErrand := by
  intro i current loop numbered cancelled
  cases move with
  | advance => exact told i current loop numbered cancelled
  | limit => exact told i current loop numbered cancelled
  | step j before next device after held found taken =>
    rcases Transport.loop_of_set numbered with ⟨rfl, rfl⟩ | ⟨-, old⟩
    · rw [(LiveLoop.step_of_step? taken).cancelled_eq] at cancelled
      exact told _ current before found cancelled
    · exact told i current loop old cancelled
  | edit transport idle edits =>
    obtain ⟨text, tempo, cache, rfl, -⟩ := edits.eq
    exact told i current loop numbered cancelled
  | takeUp transport errand idle takes =>
    obtain ⟨loops, logged, rfl, -, revoked, -⟩ := takes.eq
    refine ⟨errand, rfl, ?_⟩
    by_contra gentle
    -- nobody has told the loop anything before, for there was no errand
    have same : loops[i]? = w.transport.loops[i]? := by
      rw [revoked i, if_neg fun both => gentle both.1]
    obtain ⟨errand', pending, -⟩ := told i current loop (same ▸ numbered) cancelled
    rw [idle] at pending
    cases pending
  | carryOut errand pending free =>
    cases silences : errand.silences with
    | true =>
      have ended := (poised.carriedOut_eq pending silences).2.2
      rw [Transport.current?_of_idle ended] at current
      cases current
    | false =>
      have free : loop.cancelled = false := by
        cases errand with
        | pausing =>
          refine told.free pending silences ?_ numbered
          rw [← Transport.current?_setPaused _ true]
          exact current
        | resuming =>
          refine told.free pending silences ?_ numbered
          rw [← Transport.current?_setPaused _ false]
          exact current
        | beginning =>
          exact free_of_beginsAnew (w.transport.startAnew_spec w.instant)
            ((poised.session .beginning pending).mp rfl) current numbered
        | _ => cases silences
      rw [free] at cancelled
      cases cancelled

end Told

/-- What the clock has to do with the loops, and with the tones of those that are not played any
more. -/
structure Settled (w : World ℝ) : Prop where
  closes : ∀ (i : Nat) (loop : LiveLoop ℝ), w.transport.loops[i]? = some loop → loop.Closes w.now
  begun : ∀ tone mark, w.Owned tone mark → w.transport.current? ≠ some mark.loop →
    tone.start ≤ w.now

variable {w after : World ℝ} {settings : Settings ℝ}

theorem Settled.launch (settings : Settings ℝ) (text : List Char) (rate rendererRate : Nat)
    (limits : DeviceLimits) (unavailable instant : Nat) :
    Settled (launch settings text rate rendererRate limits unavailable instant) where
  closes _ _ found := nomatch found
  begun _ _ owned := nomatch owned.1

section Effect

variable (settled : Settled w) (orderly : Orderly w) (effect : Effect w after)

include settled effect

theorem Settled.closes_of_effect
    (proper : ∀ (i : Nat) loop, w.transport.loops[i]? = some loop → loop.plan.Proper) (i : Nat)
    (loop : LiveLoop ℝ) (at_i : after.transport.loops[i]? = some loop) :
    loop.Closes after.now := by
  have later := effect.now_le
  cases effect with
  | keeps _ _ loops =>
    rw [loops] at at_i
    exact (settled.closes i loop at_i).mono later
  | steps j before next numbered step instant loops =>
    rw [loops] at at_i
    rcases Transport.loop_of_set at_i with ⟨rfl, rfl⟩ | ⟨-, old⟩
    · have closes := step.closes (proper _ before numbered) (settled.closes _ before numbered)
      rwa [World.now, instant]
    · exact (settled.closes i loop old).mono later
  | tells _ _ _ loops =>
    obtain ⟨before, numbered, ⟨-, rfl⟩ | ⟨-, rfl⟩⟩ := Transport.loop_of_revoked loops at_i
    · exact ((settled.closes i before numbered).mono later).cancel
    · exact (settled.closes i _ numbered).mono later
  | cuts _ _ loops =>
    rw [loops] at at_i
    exact (settled.closes i loop at_i).mono later
  | begins _ _ _ _ loops =>
    rw [loops] at at_i
    rcases Transport.loop_of_concat at_i with old | ⟨-, rfl⟩
    · exact (settled.closes i loop old).mono later
    · exact .ofPlan _

include orderly

theorem Settled.begun_of_effect (tone : Tone ℝ) (mark : Mark ℝ) (owned : after.Owned tone mark)
    (other : after.transport.current? ≠ some mark.loop) : tone.start ≤ after.now := by
  cases effect with
  | keeps tones now _ marks same =>
    rw [owned_congr tones marks] at owned
    rw [same] at other
    exact (settled.begun tone mark owned other).trans now
  | steps i loop next numbered step instant _ marks session =>
    rw [Transport.current?_congr session] at other
    rw [now_of_step step instant]
    rcases orderly.owned_of_step step marks owned with old | ⟨event, -, holds, -, rfl⟩
    · exact settled.begun tone mark old other
    · exact absurd (orderly.current_of_holdsDevice numbered holds) other
  | tells device instant _ _ marks session =>
    rw [owned_congr (by rw [device]) marks] at owned
    rw [Transport.current?_congr session] at other
    simp only [World.now, device, instant]
    exact settled.begun tone mark owned other
  | cuts device instant =>
    -- a cut leaves no tone that is still to begin
    obtain ⟨member, -⟩ := owned
    rw [World.tones, tones_of_cut device] at member
    obtain ⟨old, -, begun, rfl⟩ := ToneList.mem_cancelAfter.mp member
    rw [Tone.cutAt_start, now_of_cut device instant]
    exact begun
  | begins _ _ device instant _ marks idle =>
    rw [owned_congr (tones_of_resume device) marks] at owned
    rw [now_of_resume device instant]
    exact settled.begun tone mark owned (by simp [Transport.current?_of_idle idle])

end Effect

/-- Every effect keeps it so. -/
theorem Settled.effect (settled : Settled w) (orderly : Orderly w)
    (proper : ∀ (i : Nat) loop, w.transport.loops[i]? = some loop → loop.plan.Proper)
    (effect : Effect w after) : Settled after where
  closes := settled.closes_of_effect effect proper
  begun := settled.begun_of_effect orderly effect

/-- The notes that a loop lays begin before they end. -/
theorem Provenance.start_lt_finish (provenance : Provenance settings w) {i : Nat}
    {loop : LiveLoop ℝ} (numbered : w.transport.loops[i]? = some loop) {pass : Nat}
    {event : Event ℝ} (member : event ∈ loop.passEvents pass) : event.start < event.finish := by
  obtain ⟨-, score, ⟨text, tempo, reads⟩, laid⟩ :=
    provenance.planned loop (List.mem_of_getElem? numbered)
  obtain ⟨before, inside, rfl⟩ := List.mem_map.mp member
  rw [laid] at inside
  exact add_lt_add_left (Timeline.start_lt_finish (Score.seconds_pos reads).2 inside) _

/-- Why a tone of the session's loop can be still to come while the transport is idle. -/
inductive Leftover (w : World ℝ) (loop : LiveLoop ℝ) (tone : Tone ℝ) : Prop where
  /-- The loop has broken off in the middle of a pass. -/
  | brokeOff (fault : SoundFault) (ended : loop.phase = .ended (.error fault)) :
      Leftover w loop tone
  /-- The loop has laid its only pass, and the clock is too near to the end of it. -/
  | near (single : loop.plan.looping = false) (close : tone.start < w.now + 1 / 1000000) :
      Leftover w loop tone
  /-- An operation that has been taken up is about to silence the device. -/
  | ending (errand : Errand) (pending : w.errand = some errand)
      (silences : errand.silences = true) : Leftover w loop tone

/-- What the device does while the transport is idle. -/
structure AtRest (w : World ℝ) : Prop where
  buffer : ∀ device, w.transport.device = some device → device.buffer = none
  ahead : ∀ device, w.transport.device = some device → ∀ tone ∈ device.tones.tones,
    device.now w.instant < tone.start → ∃ mark loop, w.Owned tone mark ∧
      w.transport.current? = some mark.loop ∧ w.transport.loops[mark.loop]? = some loop ∧
      Leftover w loop tone

/-- A transport is idle without a session, or with one whose loop has returned. -/
theorem session_of_idle {α : Type} {t : Transport α} (idle : t.state = .idle) : t.session = none ∨
    ∃ i looping paused loop outcome, t.session = some ⟨.live i, looping, paused⟩ ∧
      t.loops[i]? = some loop ∧ loop.phase = .ended outcome := by
  unfold Transport.state at idle
  split at idle
  · next none => exact .inl none
  · next session begun =>
    split at idle
    · next finished =>
      obtain ⟨_ | i, looping, paused⟩ := session
      · simp [Transport.isFinished, Transport.sessionLoop?, begun] at finished
      · simp only [Transport.isFinished, Transport.sessionLoop?, begun] at finished
        split at finished
        · next loop numbered =>
          unfold LiveLoop.isFinished at finished
          split at finished
          · next outcome ended =>
            exact .inr ⟨i, looping, paused, loop, outcome, begun, numbered, ended⟩
          · cases finished
        · cases finished
    · split at idle <;> cases idle

/-- A tone of a loop that has returned by itself, and did not break off, begins no later than the
clock's tolerance allows. -/
theorem Settled.leftover (settled : Settled w) (harmony : Harmony w)
    (provenance : Provenance settings w) (leadIn : 0 ≤ settings.leadIn) (told : w.ToldByErrand)
    {tone : Tone ℝ} {mark : Mark ℝ} (owned : w.Owned tone mark)
    (current : w.transport.current? = some mark.loop) {loop : LiveLoop ℝ}
    (numbered : w.transport.loops[mark.loop]? = some loop) {outcome : Except SoundFault Nat}
    (ended : loop.phase = .ended outcome) : Leftover w loop tone := by
  cases outcome with
  | error fault => exact .brokeOff fault ended
  | ok passes =>
    cases cancelled : loop.cancelled with
    | true =>
      obtain ⟨errand, pending, silences⟩ := told mark.loop current loop numbered cancelled
      exact .ending errand pending silences
    | false =>
      have closes := settled.closes mark.loop loop numbered
      simp only [LiveLoop.Closes, ended] at closes
      obtain ⟨single, near⟩ := closes cancelled
      -- the loop has laid whole passes, and so the tone is one of them
      have whole := (harmony.recorded mark.loop loop numbered).whole
        (by simp only [LiveLoop.isMidPass, ended])
      have listed : (mark.pass, mark.event) ∈ loop.passesUpTo loop.passes := by
        rw [← whole]
        exact List.mem_map_of_mem
          (List.mem_filter.mpr ⟨List.mem_of_getElem? owned.2, beq_self_eq_true mark.loop⟩)
      obtain ⟨pass, before, event, member, same⟩ : ∃ pass < loop.passes,
          ∃ event ∈ loop.passEvents pass, (pass, event) = (mark.pass, mark.event) := by
        simpa [LiveLoop.passesUpTo, List.mem_flatMap] using listed
      obtain ⟨rfl, rfl⟩ := Prod.mk.inj same
      have proper := provenance.proper leadIn numbered
      refine .near single ?_
      calc tone.start
          = mark.event.start := (harmony.plays tone mark owned).start_eq
        _ < mark.event.finish := provenance.start_lt_finish numbered member
        _ ≤ loop.passStart (mark.pass + 1) := (LiveLoop.passEvents_inside proper member).2
        _ ≤ loop.passStart loop.passes := LiveLoop.passStart_mono proper before
        _ ≤ w.now + 1 / 1000000 := by linarith

/-- In whatever way operations, steps and refusals have followed each other: while the transport is
idle, the device plays no buffer, and no tone is still to come but those of a loop that has broken
off, that the clock is too near to, or that are about to be silenced. -/
theorem idle_is_silent_unless_broken_off (settings : Settings ℝ) (leadIn : 0 ≤ settings.leadIn)
    (text : List Char) (rate rendererRate : Nat) (limits : DeviceLimits)
    (unavailable instant : Nat) (w : World ℝ)
    (reached : Run (launch settings text rate rendererRate limits unavailable instant) w)
    (idle : w.transport.state = .idle) : AtRest w := by
  obtain ⟨-, poised, told, orderly, attuned, provenance, harmony, settled⟩ :=
    reached.carries (.launch ..)
      (P := fun u => Poised u ∧ u.ToldByErrand ∧ Orderly u ∧ u.transport.IsAttuned ∧
        Provenance settings u ∧ Harmony u ∧ Settled u)
      ⟨.launch .., fun _ current => (nomatch current), .launch .., fun _ begun => (nomatch begun),
        .launch .., .launch .., .launch ..⟩
      fun u v before move effect =>
        have ⟨poised, told, orderly, attuned, provenance, harmony, settled⟩ := before
        have proper := fun _ _ numbered => provenance.proper leadIn numbered
        ⟨poised.move move, told.move poised move, orderly.effect effect,
          attuned_of_move poised orderly attuned move, provenance.move move effect,
          harmony.effect orderly proper effect, settled.effect orderly proper effect⟩
  have found (device : Device ℝ) (held : w.transport.device = some device) : w.device = device :=
    Transport.heldDevice_eq held
  rcases session_of_idle idle with
    ended | ⟨i, looping, paused, loop, outcome, begun, numbered, ended⟩
  · obtain ⟨silent, past⟩ := orderly.quiet ended
    refine ⟨fun device held => found device held ▸ silent, fun device held tone member ahead => ?_⟩
    rw [World.tones, World.now, found device held] at past
    exact absurd ahead (past tone member).not_gt
  · have current : w.transport.current? = some i := by simp only [Transport.current?, begun]
    constructor
    case buffer =>
      intro device held
      obtain ⟨device', held', played⟩ := attuned _ begun
      rw [held] at held'
      cases held'
      exact played.buffer_eq
    case ahead =>
      intro device held tone member ahead
      have inside : tone ∈ w.tones := by
        rw [World.tones, found device held]
        exact member
      obtain ⟨mark, owned⟩ := orderly.exists_owned inside
      have ours : mark.loop = i := by
        by_contra other
        have past := settled.begun tone mark owned (by rw [current]; simpa using Ne.symm other)
        rw [World.now, found device held] at past
        exact absurd ahead past.not_gt
      subst ours
      exact ⟨mark, loop, owned, current, numbered,
        settled.leftover harmony provenance leadIn told owned current numbered ended⟩

section Duo

/-! A chord of two notes, on a device that takes only one of them. -/

/-- Settings under which a text is played by a live loop, after a second of silence. -/
noncomputable def duoSettings : Settings ℝ := { liveSettings with leadIn := 1 }

/-- The text of a chord of two notes. -/
def duo : List Char := ['(', 'a', ',', 'c', ')']

/-- The only stage of that chord. -/
def duoStage : List Note := [.pitch .a none none, .pitch .c none none]

theorem read_duo {seconds : ℝ} (lasts : Chord.Lasts (60 : ℝ) none seconds) :
    Chord.read duo (60 : ℝ) = .ok ⟨duo, seconds, [duoStage.map Note.hertz]⟩ := by
  have token : TokenText [duoStage] none duo :=
    .beat _ (.plain _ (.single _ _ (.listed ['a', ',', 'c']
      (notesText_pair .a .c (.inr rfl) (.inr rfl)))))
  have playable : Playable ℝ [duoStage] := by
    refine ⟨by decide, .inr ?_⟩
    simp only [duoStage, List.forall_mem_cons, List.not_mem_nil, false_implies, implies_true,
      and_true, isPlayable_usual]
  exact Chord.read_eq_ok_iff_means.mpr ⟨rfl, [duoStage], none, token, playable, lasts,
    fun rest => absurd rest (by decide), fun _ => rfl⟩

noncomputable def duoScore : Score ℝ :=
  ⟨60, [⟨duo, chordSeconds none 60, [duoStage.map Note.hertz]⟩]⟩

theorem read_duoScore : Score.read duo (60 : ℝ) = .ok duoScore :=
  Score.read_eq_ok.mpr ⟨rfl, by norm_num, [duo], rfl, by simp, rfl,
    .cons (read_duo (Chord.lasts_iff.mpr rfl)) .nil⟩

noncomputable def duoLaunch : World ℝ := launch duoSettings duo 44100 44100 ⟨some 1, none⟩ 0 0

/-- The transport when the session has been begun. -/
noncomputable def duoPlaying : Transport ℝ :=
  (Transport.prepared duoSettings duo duoLaunch.device duoScore).startLive 0 duoScore

/-- The loop when it has opened. -/
noncomputable def duoReady : LiveLoop ℝ :=
  { LiveLoop.ofPlan (duoLaunch.transport.livePlan duoScore) with
    origin := duoPlaying.heldDevice.now 0 + duoSettings.leadIn
    phase := .entering }

/-- The first note of the chord. -/
noncomputable def duoEvent : Event ℝ := (duoReady.passEvents 0).head (List.cons_ne_nil _ _)

/-- The device when it has taken the first note and refused the second. -/
noncomputable def duoRefused : Device ℝ := (duoPlaying.heldDevice.taken duoEvent).refused

/-- The world when the loop has broken off. -/
noncomputable def duoBroken : World ℝ where
  instant := 0
  transport :=
    { duoPlaying with
      device := some duoRefused
      loops := [{ duoReady with phase := .ended (.error (.deviceUnavailable "output lost")) }] }
  errand := none
  marks := [⟨0, 0, duoEvent⟩]

theorem run_duoBroken : Run duoLaunch duoBroken := by
  let fresh := LiveLoop.ofPlan (duoLaunch.transport.livePlan duoScore)
  have begins : fresh.begin (duoPlaying.heldDevice.now 0) = duoReady :=
    LiveLoop.begin_of_pos (LivePlan.laid_ofScore read_duoScore _ rfl).2.2 _
  obtain ⟨second, events⟩ : ∃ second, duoReady.passEvents 0 = [duoEvent, second] := ⟨_, rfl⟩
  have starts : Move duoLaunch { duoLaunch with errand := some .beginning } :=
    .takeUp _ _ rfl (.start rfl)
  have opened : Move { duoLaunch with errand := some .beginning } ⟨0, duoPlaying, none, []⟩ := by
    have move : Move { duoLaunch with errand := some .beginning } _ :=
      .carryOut .beginning rfl fun _ member => absurd member List.not_mem_nil
    have next : (duoLaunch.transport.carryOut 0 .beginning).1 = duoPlaying :=
      congrArg Prod.fst (Transport.startAnew_new 0 duoLaunch.device rfl read_duoScore)
    rw [← next]
    exact move
  -- the loop opens, takes the device, lays the first note and is refused the second
  let entered : LiveLoop ℝ := { duoReady with phase := .laying [duoEvent, second] }
  let waiting : LiveLoop ℝ := { duoReady with phase := .laying [second] }
  let taken : Device ℝ := duoPlaying.heldDevice.taken duoEvent
  have opens : Move ⟨0, duoPlaying, none, []⟩
      ⟨0, { duoPlaying with loops := [duoReady] }, none, []⟩ := by
    have takes : fresh.step? 0 duoPlaying.heldDevice = some (duoReady, duoPlaying.heldDevice) := by
      rw [← begins]
      rfl
    exact .step 0 fresh duoReady duoPlaying.heldDevice duoPlaying.heldDevice rfl rfl takes
  have enters : Move ⟨0, { duoPlaying with loops := [duoReady] }, none, []⟩
      ⟨0, { duoPlaying with loops := [entered] }, none, []⟩ := by
    have takes : duoReady.step? 0 duoPlaying.heldDevice =
        some (entered, duoPlaying.heldDevice) := by
      simp only [entered, ← events]
      rfl
    exact .step 0 duoReady entered duoPlaying.heldDevice duoPlaying.heldDevice rfl rfl takes
  have lays : Move ⟨0, { duoPlaying with loops := [entered] }, none, []⟩
      ⟨0, { duoPlaying with device := some taken, loops := [waiting] }, none,
        [⟨0, 0, duoEvent⟩]⟩ :=
    .step 0 entered waiting duoPlaying.heldDevice taken rfl rfl rfl
  have breaks : Move ⟨0, { duoPlaying with device := some taken, loops := [waiting] }, none,
      [⟨0, 0, duoEvent⟩]⟩ duoBroken :=
    .step 0 waiting { duoReady with phase := .ended (.error (.deviceUnavailable "output lost")) }
      taken duoRefused rfl rfl rfl
  exact (((((Relation.ReflTransGen.single starts).tail opened).tail opens).tail enters).tail
    lays).tail breaks

/-- The law when a loop has broken off between two notes of one chord. -/
theorem idle_is_silent_unless_broken_off_duo : 0 ≤ duoSettings.leadIn ∧ Run duoLaunch duoBroken ∧
    duoBroken.transport.state = .idle ∧ AtRest duoBroken := by
  have leadIn : 0 ≤ duoSettings.leadIn := zero_le_one
  exact ⟨leadIn, run_duoBroken, rfl, idle_is_silent_unless_broken_off duoSettings leadIn duo 44100
    44100 ⟨some 1, none⟩ 0 0 duoBroken run_duoBroken rfl⟩

/-- The transport is idle, no operation is under way, and yet the first note of a chord whose second
note has been refused is still to come. -/
theorem idle_with_a_note_to_come : Run duoLaunch duoBroken ∧ duoBroken.errand = none ∧
    duoBroken.transport.state = .idle ∧ ∃ device, duoBroken.transport.device = some device ∧
      ∃ tone ∈ device.tones.tones, device.now duoBroken.instant < tone.start := by
  refine ⟨run_duoBroken, rfl, rfl, duoRefused, rfl, ⟨0, duoEvent.path, duoEvent.start,
    duoEvent.finish, some duoEvent.envelope⟩, List.mem_singleton.mpr rfl, ?_⟩
  have now : duoRefused.now 0 = (Scalar.ofNanoseconds 0 : ℝ) := rfl
  have start : duoEvent.start =
      (0 : ℕ) + ((Scalar.ofNanoseconds 0 : ℝ) + 1 + (0 : ℕ) * duoReady.passLength) := rfl
  show duoRefused.now 0 < duoEvent.start
  rw [now, start, Scalar.ofNanoseconds_real]
  norm_num

end Duo

end World

end Portamento
