import Portamento.Proofs.Transport.Final

/-!
# The session and its device

A session is played on a device that is held: its clock runs unless the session is paused, and its
buffer is the one that the session was begun with, or none for a live loop. A loop changes neither
clock nor buffer, and so each operation has to see to its own part only. Without a session the order
between loops, device and session keeps the device quiet.
-/

namespace Portamento

variable {α : Type}

namespace Session

/-- The buffer that the device is to play for a session. -/
def buffer? (session : Session α) : Option (BufferPlayback α) :=
  match session.playback with
  | .rendered pass startedAt => some ⟨pass, startedAt, session.looping⟩
  | .live _ => none

/-- Whether a device does what a session asks of it. -/
structure IsPlayedOn (session : Session α) (device : Device α) : Prop where
  clock_eq : device.clock.isRunning = !session.paused
  buffer_eq : device.buffer = session.buffer?

end Session

namespace Transport

/-- The session, if there is one, is played on the device that is held. -/
def IsAttuned (t : Transport α) : Prop :=
  ∀ session, t.session = some session → ∃ device, t.device = some device ∧
    session.IsPlayedOn device

variable {t : Transport α}

/-- Session and clock are changed together. -/
theorem IsAttuned.setPaused (attuned : t.IsAttuned) (change : Device α → Device α) (paused : Bool)
    (clock : ∀ device, (change device).clock.isRunning = !paused)
    (buffer : ∀ device, (change device).buffer = device.buffer) :
    ((t.onDevice change).setPaused paused).IsAttuned := by
  intro session begun
  obtain ⟨before, found, rfl⟩ := Option.map_eq_some_iff.mp begun
  obtain ⟨device, held, played⟩ := attuned before found
  exact ⟨change device, congrArg (Option.map change) held, clock device,
    (buffer device).trans played.buffer_eq⟩

variable [Tonal α]

/-- A session is begun on a device that has been silent. -/
theorem BeginsAnew.isAttuned {next : Transport α} {instant : Nat}
    {result : Except (TransportFault α) Unit} (begins : t.BeginsAnew instant (next, result))
    (idle : t.session = none)
    (silent : t.heldDevice.buffer = none) : next.IsAttuned := by
  intro session begun
  cases begins with
  | bare =>
    rw [show t.session = some session from begun] at idle
    cases idle
  | failed =>
    rw [show t.session = some session from begun] at idle
    cases idle
  | rendered source same kept keeps resolves device tones now renderer runs pass startedAt found
      plays =>
    cases begun
    exact ⟨device, rfl, runs, plays⟩
  | live =>
    cases begun
    exact ⟨t.heldDevice.resume instant, rfl, t.heldDevice.clock.isRunning_resume instant, silent⟩

end Transport

namespace World

variable [Tonal α] {w after : World α}

/-- Every move keeps the device in tune with the session. -/
theorem attuned_of_move (poised : Poised w) (orderly : Orderly w)
    (attuned : w.transport.IsAttuned) (move : Move w after) : after.transport.IsAttuned := by
  cases move with
  | advance => exact attuned
  | limit limits =>
    intro session begun
    obtain ⟨device, held, clock, buffer⟩ := attuned session begun
    exact ⟨_, congrArg (Option.map _) held, clock, buffer⟩
  | step i loop next device after held numbered taken =>
    obtain ⟨clock, buffer⟩ := (LiveLoop.step_of_step? taken).device_frame
    intro session begun
    obtain ⟨found, same, clock', buffer'⟩ := attuned session begun
    obtain rfl : device = found := Option.some.inj (held.symm.trans same)
    exact ⟨after, rfl, by rw [clock, clock'], by rw [buffer, buffer']⟩
  | edit transport idle edits =>
    obtain ⟨text, tempo, cache, rfl, -⟩ := edits.eq
    exact attuned
  | takeUp transport errand idle takes =>
    obtain ⟨loops, logged, rfl, -⟩ := takes.eq
    exact attuned
  | carryOut errand pending free =>
    cases silences : errand.silences with
    | true =>
      intro session begun
      rw [(poised.carriedOut_eq pending silences).2.2] at begun
      cases begun
    | false =>
      cases errand with
      | pausing =>
        exact attuned.setPaused (fun device => device.suspend w.instant) true
          (fun device => device.clock.isRunning_suspend w.instant) fun _ => rfl
      | resuming =>
        exact attuned.setPaused (fun device => device.resume w.instant) false
          (fun device => device.clock.isRunning_resume w.instant) fun _ => rfl
      | beginning =>
        have idle := (poised.session .beginning pending).mp rfl
        exact (w.transport.startAnew_spec w.instant).isAttuned idle (orderly.quiet idle).1
      | _ => cases silences

/-- How state and session of the transport agree with the device that it holds. -/
structure Coherent (w : World α) : Prop where
  playing : w.transport.state = .playing →
    ∃ device, w.transport.device = some device ∧ device.clock.isRunning = true
  paused : w.transport.state = .paused →
    ∃ device, w.transport.device = some device ∧ device.clock.isRunning = false
  rendered : ∀ pass startedAt looping paused,
    w.transport.session = some ⟨.rendered pass startedAt, looping, paused⟩ →
      ∃ device, w.transport.device = some device ∧
        device.buffer = some ⟨pass, startedAt, looping⟩
  live : ∀ loop looping paused, w.transport.session = some ⟨.live loop, looping, paused⟩ →
    ∃ device, w.transport.device = some device ∧ device.buffer = none
  /-- Without a session nothing is played, and nothing is still to come. -/
  quiet : w.transport.session = none → ∀ device, w.transport.device = some device →
    device.buffer = none ∧ ∀ tone ∈ device.tones.tones, ¬ device.now w.instant < tone.start

omit [Tonal α] in
/-- A state other than idle is that of a session. -/
theorem exists_session_of_state {t : Transport α} (busy : t.state ≠ .idle) : ∃ session,
    t.session = some session ∧ t.state = if session.paused then .paused else .playing := by
  unfold Transport.state at busy ⊢
  cases found : t.session with
  | none => simp [found] at busy
  | some session =>
    refine ⟨session, rfl, ?_⟩
    simp only [found] at busy ⊢
    split
    · next finished => simp [finished] at busy
    · rfl

/-- In whatever way the operations of the transport and the steps of its loops have followed each
other, between two operations and between the parts of one: the device is in the state that the
session asks for. -/
theorem session_device_coherence [Scalar.Ordered α] (settings : Settings α) (text : List Char)
    (rate rendererRate : Nat) (limits : DeviceLimits) (unavailable instant : Nat) (w : World α)
    (reached : Run (launch settings text rate rendererRate limits unavailable instant) w) :
    Coherent w := by
  obtain ⟨-, -, orderly, attuned⟩ := reached.carries (.launch ..)
    (P := fun u => Poised u ∧ Orderly u ∧ u.transport.IsAttuned)
    ⟨.launch .., .launch .., fun _ begun => nomatch begun⟩
    fun u v both move effect => ⟨both.1.move move, both.2.1.effect effect,
      attuned_of_move both.1 both.2.1 both.2.2 move⟩
  constructor
  case playing =>
    intro state
    obtain ⟨session, begun, eq⟩ := exists_session_of_state (t := w.transport) (by simp [state])
    obtain ⟨device, held, clock, -⟩ := attuned session begun
    have playing : session.paused = false := by simpa [state] using eq
    exact ⟨device, held, by rw [clock, playing]; rfl⟩
  case paused =>
    intro state
    obtain ⟨session, begun, eq⟩ := exists_session_of_state (t := w.transport) (by simp [state])
    obtain ⟨device, held, clock, -⟩ := attuned session begun
    have paused : session.paused = true := by simpa [state] using eq
    exact ⟨device, held, by rw [clock, paused]; rfl⟩
  case rendered =>
    intro pass startedAt looping paused begun
    obtain ⟨device, held, -, buffer⟩ := attuned _ begun
    exact ⟨device, held, buffer⟩
  case live =>
    intro loop looping paused begun
    obtain ⟨device, held, -, buffer⟩ := attuned _ begun
    exact ⟨device, held, buffer⟩
  case quiet => exact orderly.silent

/-- A live session that has been paused behind its first pass. -/
theorem session_device_coherence_oneNote : ∃ w : World ℝ, Run oneNoteLaunch w ∧
    w.transport.state = .paused ∧ w.marks.length = 1 ∧ Coherent w := by
  let laid : LiveLoop ℝ := { oneNoteReady with phase := .laying [] }
  let device : Device ℝ := oneNotePlaying.heldDevice.taken oneNoteEvent
  let waiting : World ℝ := oneNoteLaid.stepped 0 laid laid.passLaid device device
  have completes : Move oneNoteLaid waiting := .step 0 laid laid.passLaid device device rfl rfl rfl
  have pauses : Move waiting { waiting with errand := some .pausing } :=
    .takeUp _ _ rfl (.pause rfl)
  have free : waiting.transport.IsFree := by
    intro loop member
    rw [List.mem_singleton.mp member]
    rfl
  have holds : Move { waiting with errand := some .pausing } _ := .carryOut .pausing rfl free
  have run := ((run_oneNoteLaid.tail completes).tail pauses).tail holds
  exact ⟨_, run, rfl, rfl,
    session_device_coherence liveSettings ['a'] 44100 44100 ⟨none, none⟩ 0 0 _ run⟩

end World

end Portamento
