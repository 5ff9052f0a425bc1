import Portamento.Proofs.Transport.World

/-!
# What a move changes

A move of a world has one of five effects on what is played. It leaves all of it as it is, apart
from the time and from what the device will refuse; a loop takes a step; the loop of the session is
told to stop; the session ends and its sound is cut off; or a session with a new loop begins. That
an errand which cuts the sound off meets only loops that have been told to stop, and none that holds
the device, is what `Poised` is for: it says of a world between the two parts of an operation how
far the operation has come.
-/

namespace Portamento

variable {α : Type} [Tonal α]

namespace Transport

variable {t after : Transport α}

omit [Tonal α] in
theorem heldDevice_eq {device : Device α} (held : t.device = some device) :
    t.heldDevice = device := by
  simp only [heldDevice, held, Option.getD_some]

/-- Another text or tempo, or a score that has been read, is all that an edit changes. -/
theorem Edits.eq (edits : t.Edits after) : ∃ text tempo cache,
    after = { t with text, settings := { t.settings with tempo }, cache } ∧
      t.Keeps cache := by
  cases edits with
  | setText text => exact ⟨text, _, _, rfl, .same⟩
  | setTempo tempo => exact ⟨_, tempo, _, rfl, .same⟩
  | resolve =>
    obtain ⟨cache, eq, kept, -⟩ := t.resolve_eq
    exact ⟨_, _, cache, eq, kept⟩
  | timeline =>
    obtain ⟨cache, eq, kept, -⟩ := t.resolve_eq
    exact ⟨_, _, cache, eq, kept⟩

omit [Tonal α] in
theorem session_of_state (busy : t.state ≠ .idle) : t.session ≠ none := by
  intro idle
  exact busy (by simp only [state, idle])

omit [Tonal α] in
/-- The first part of an operation tells the loop of the session to stop, if the errand is to
silence the device, and logs something at most. -/
theorem TakesUp.eq {errand : Errand} (takes : t.TakesUp after errand) : ∃ loops logged,
    after = { t with loops, logged } ∧ loops.length = t.loops.length ∧
      (∀ i, loops[i]? = if errand.silences = true ∧ t.current? = some i
        then t.loops[i]?.map LiveLoop.cancel else t.loops[i]?) ∧
      (errand = .beginning ↔ t.session = none) := by
  cases takes with
  | pause playing =>
    have session := session_of_state (t := t) (by rw [playing]; decide)
    exact ⟨t.loops, t.logged, rfl, rfl, fun i => by simp [Errand.silences], by simp [session]⟩
  | resume paused =>
    have session := session_of_state (t := t) (by rw [paused]; decide)
    exact ⟨t.loops, t.logged, rfl, rfl, fun i => by simp [Errand.silences], by simp [session]⟩
  | stop session =>
    obtain ⟨loops, eq, length, revoked⟩ :=
      (if t.isFinished then t.log .uncollected else t).revoke_eq
    rw [eq]
    have present := Option.isSome_iff_ne_none.mp session
    refine ⟨loops, (if t.isFinished then t.log .uncollected else t).logged, ?_, ?_, ?_, ?_⟩
    · split <;> rfl
    · rw [length]
      split <;> rfl
    · intro i
      rw [revoked i]
      simp only [Errand.silences, true_and]
      split <;> rfl
    · simp [present]
  | poll outcome returned =>
    obtain ⟨loops, eq, length, revoked⟩ := t.revoke_eq
    have present : t.session ≠ none := by
      intro idle
      simp [sessionLoop?, idle] at returned
    refine ⟨loops, t.logged, eq, length, fun i => ?_, by simp [present]⟩
    rw [revoked i]
    simp only [Errand.silences, true_and]
  | restart session =>
    obtain ⟨loops, eq, length, revoked⟩ := t.revoke_eq
    have present := Option.isSome_iff_ne_none.mp session
    refine ⟨loops, t.logged, eq, length, fun i => ?_, by simp [present]⟩
    rw [revoked i]
    simp only [Errand.silences, true_and]
  | start idle =>
    exact ⟨t.loops, t.logged, rfl, rfl, fun i => by simp [Errand.silences], by simp [idle]⟩

end Transport

namespace World

/-- How far an operation has come. -/
structure Poised (w : World α) : Prop where
  /-- A session is played on a device that has been had. -/
  held : w.transport.session ≠ none → ∃ device, w.transport.device = some device
  /-- There is no session exactly when one is about to be begun. -/
  session : ∀ errand, w.errand = some errand →
    (errand = .beginning ↔ w.transport.session = none)
  /-- The loop of a session that is about to be ended has been told to stop. -/
  told : ∀ errand, w.errand = some errand → errand.silences = true →
    ∀ i, w.transport.current? = some i → ∀ loop, w.transport.loops[i]? = some loop →
      loop.cancelled = true

/-- What a move can change of what is played. -/
inductive Effect (w after : World α) : Prop where
  /-- Nothing, apart from the time and from a rendered pass that is begun. -/
  | keeps (tones : after.device.tones = w.device.tones) (now : w.now ≤ after.now)
      (loops : after.transport.loops = w.transport.loops) (marks : after.marks = w.marks)
      (current : after.transport.current? = w.transport.current?)
      (quiet : after.transport.session = none →
        w.transport.session = none ∧ after.device.buffer = w.device.buffer)
  | steps (i : Nat) (loop next : LiveLoop α) (numbered : w.transport.loops[i]? = some loop)
      (step : loop.Step w.instant w.device next after.device)
      (instant : after.instant = w.instant)
      (loops : after.transport.loops = w.transport.loops.set i next)
      (marks : after.marks = w.marks ++ (loop.granted w.device).map (⟨i, loop.passes, ·⟩))
      (session : after.transport.session = w.transport.session)
  | tells (device : after.device = w.device) (instant : after.instant = w.instant)
      (length : after.transport.loops.length = w.transport.loops.length)
      (loops : ∀ i, after.transport.loops[i]? = if w.transport.current? = some i
        then w.transport.loops[i]?.map LiveLoop.cancel else w.transport.loops[i]?)
      (marks : after.marks = w.marks)
      (session : after.transport.session = w.transport.session)
  | cuts (device : after.device = w.device.stopBuffer.cancelScheduled w.instant)
      (instant : after.instant = w.instant) (loops : after.transport.loops = w.transport.loops)
      (marks : after.marks = w.marks) (session : after.transport.session = none)
      (told : ∀ i, w.transport.current? = some i → ∀ loop, w.transport.loops[i]? = some loop →
        loop.cancelled = true)
      (free : w.transport.IsFree)
  | begins (score : Score α) (known : w.transport.Knows score)
      (device : after.device = w.device.resume w.instant) (instant : after.instant = w.instant)
      (loops : after.transport.loops =
        w.transport.loops ++ [.ofPlan (w.transport.livePlan score)])
      (marks : after.marks = w.marks) (idle : w.transport.session = none)
      (current : after.transport.current? = some w.transport.loops.length)

variable {w after : World α}

/-! The clock and the tones after a step, after a cut, and when the clock goes on. -/

theorem now_of_step {loop next : LiveLoop α}
    (step : loop.Step w.instant w.device next after.device)
    (instant : after.instant = w.instant) : after.now = w.now := by
  simp only [World.now, Device.now, instant, step.device_frame.1]

theorem now_of_cut (device : after.device = w.device.stopBuffer.cancelScheduled w.instant)
    (instant : after.instant = w.instant) : after.now = w.now := by
  simp only [World.now, device, instant]
  rfl

theorem tones_of_cut (device : after.device = w.device.stopBuffer.cancelScheduled w.instant) :
    after.device.tones = w.device.tones.cancelAfter w.now := by
  rw [device]
  rfl

theorem now_of_resume (device : after.device = w.device.resume w.instant)
    (instant : after.instant = w.instant) : after.now = w.now := by
  have same := w.device.now_resume w.instant
  simp only [World.now, device, instant, same]

omit [Tonal α] in
theorem tones_of_resume (device : after.device = w.device.resume w.instant) :
    after.device.tones = w.device.tones := by
  rw [device]
  rfl

omit [Tonal α] in
/-- Between two operations only the device is to be looked at. -/
theorem Poised.of_idle (idle : w.errand = none)
    (held : w.transport.session ≠ none → ∃ device, w.transport.device = some device) :
    Poised w where
  held
  session _ pending := by
    rw [idle] at pending
    cases pending
  told _ pending := by
    rw [idle] at pending
    cases pending

theorem Poised.launch (settings : Settings α) (text : List Char) (rate rendererRate : Nat)
    (limits : DeviceLimits) (unavailable instant : Nat) :
    Poised (launch settings text rate rendererRate limits unavailable instant) :=
  .of_idle rfl fun session => absurd rfl session

/-- A session that a transport has begun anew is played on a device that it has got. -/
theorem held_of_beginsAnew {t next : Transport α} {instant : Nat}
    {result : Except (TransportFault α) Unit} (begins : t.BeginsAnew instant (next, result))
    (held : t.session ≠ none → ∃ device, t.device = some device) :
    next.session ≠ none → ∃ device, next.device = some device := by
  cases begins with
  | bare => exact held
  | failed source same cache keeps device => exact fun _ => ⟨device, rfl⟩
  | rendered source same kept keeps resolves device => exact fun _ => ⟨device, rfl⟩
  | live => exact fun _ => ⟨t.heldDevice.resume instant, rfl⟩

/-- Between the two parts of an operation the loop of the session may go on, but nobody takes back
what it has been told. -/
theorem Poised.move (poised : Poised w) (move : Move w after) : Poised after := by
  cases move with
  | advance => exact ⟨poised.held, poised.session, poised.told⟩
  | limit limits =>
    refine ⟨fun session => ?_, poised.session, poised.told⟩
    obtain ⟨device, held⟩ := poised.held session
    exact ⟨_, congrArg (Option.map _) held⟩
  | step i loop next device after held numbered taken =>
    refine ⟨fun _ => ⟨after, rfl⟩, poised.session, fun errand pending silences j current => ?_⟩
    intro found at_j
    have told := poised.told errand pending silences j current
    rcases Transport.loop_of_set at_j with ⟨rfl, rfl⟩ | ⟨-, old⟩
    · rw [(LiveLoop.step_of_step? taken).cancelled_eq]
      exact told loop numbered
    · exact told found old
  | edit transport idle edits =>
    obtain ⟨text, tempo, cache, rfl, -⟩ := edits.eq
    exact ⟨poised.held, poised.session, poised.told⟩
  | takeUp transport errand idle takes =>
    obtain ⟨loops, logged, rfl, -, revoked, begins⟩ := takes.eq
    refine ⟨poised.held, fun _ pending => ?_, fun _ pending silences i current loop found => ?_⟩
    · cases pending
      exact begins
    · cases pending
      have both : errand.silences = true ∧ w.transport.current? = some i := ⟨silences, current⟩
      simp only [revoked i, if_pos both] at found
      obtain ⟨before, -, rfl⟩ := Option.map_eq_some_iff.mp found
      rfl
  | carryOut errand pending free =>
    cases errand with
    | pausing =>
      refine .of_idle rfl fun session => ?_
      obtain ⟨device, held⟩ := poised.held fun idle => session (congrArg (Option.map _) idle)
      exact ⟨_, congrArg (Option.map _) held⟩
    | resuming =>
      refine .of_idle rfl fun session => ?_
      obtain ⟨device, held⟩ := poised.held fun idle => session (congrArg (Option.map _) idle)
      exact ⟨_, congrArg (Option.map _) held⟩
    | stopping => exact .of_idle rfl fun session => absurd rfl session
    | collecting outcome =>
      cases outcome <;> exact .of_idle rfl fun session => absurd rfl session
    | restarting =>
      refine ⟨fun session => absurd rfl session, fun _ pending => ?_, fun _ pending silences => ?_⟩
      · cases pending
        exact ⟨fun _ => rfl, fun _ => rfl⟩
      · cases pending
        cases silences
    | beginning =>
      exact .of_idle rfl
        (held_of_beginsAnew (w.transport.startAnew_spec w.instant) poised.held)

section Effect

variable [Scalar.Ordered α]

theorem now_le_now (w : World α) : w.now ≤ w.now := w.device.now_le (Nat.le_refl _)

/-- The clock never goes back. -/
theorem Effect.now_le (effect : Effect w after) : w.now ≤ after.now := by
  cases effect with
  | keeps _ now => exact now
  | steps _ _ _ _ step instant =>
    rw [now_of_step step instant]
    exact w.now_le_now
  | tells device instant =>
    simp only [World.now, device, instant]
    exact w.now_le_now
  | cuts device instant =>
    rw [now_of_cut device instant]
    exact w.now_le_now
  | begins _ _ device instant =>
    rw [now_of_resume device instant]
    exact w.now_le_now

omit [Scalar.Ordered α] in
/-- No loop is forgotten. -/
theorem Effect.length_le (effect : Effect w after) :
    w.transport.loops.length ≤ after.transport.loops.length := by
  cases effect with
  | keeps _ _ loops => simp [loops]
  | steps _ _ _ _ _ _ loops => simp [loops]
  | tells _ _ length => simp [length]
  | cuts _ _ loops => simp [loops]
  | begins _ _ _ _ loops => simp [loops]

/-- What an errand of a session does when it only suspends or resumes the clock. -/
theorem Effect.of_clock (change : Device α → Device α) (paused : Bool) (logged : Log α)
    (session : w.transport.session ≠ none) (poised : Poised w)
    (tones : ∀ device, (change device).tones = device.tones)
    (now : ∀ device, (change device).now w.instant = device.now w.instant) :
    Effect w { w with
      errand := none
      transport := { (w.transport.onDevice change).setPaused paused with logged } } := by
  obtain ⟨device, held⟩ := poised.held session
  have before : w.device = device := Transport.heldDevice_eq held
  have changed : Transport.heldDevice
      { (w.transport.onDevice change).setPaused paused with logged } = change device :=
    Transport.heldDevice_eq (congrArg (Option.map change) held)
  have current : Transport.current?
      { (w.transport.onDevice change).setPaused paused with logged } = w.transport.current? := by
    simp only [Transport.current?, Transport.setPaused, Transport.onDevice]
    rcases w.transport.session with _ | ⟨_ | loop, looping, paused⟩ <;> rfl
  refine .keeps ?_ ?_ rfl rfl current fun idle => absurd (Option.map_eq_none_iff.mp idle) session
  · rw [before]
    simp only [World.device, changed, tones]
  · have same := now device
    simp only [World.now, before]
    simp only [World.device, changed, same]
    exact device.now_le (Nat.le_refl _)

omit [Scalar.Ordered α] in
/-- An errand that is to silence the device does so, whatever else it does. -/
theorem Poised.carriedOut_eq {errand : Errand} (poised : Poised w)
    (pending : w.errand = some errand) (silences : errand.silences = true) :
    (w.carriedOut errand).device = w.device.stopBuffer.cancelScheduled w.instant ∧
      (w.carriedOut errand).transport.loops = w.transport.loops ∧
      (w.carriedOut errand).transport.session = none := by
  have session : w.transport.session ≠ none := by
    intro idle
    rw [(poised.session errand pending).mpr idle] at silences
    cases silences
  obtain ⟨device, held⟩ := poised.held session
  have before : w.device = device := Transport.heldDevice_eq held
  have cut : (w.transport.silence w.instant).heldDevice =
      device.stopBuffer.cancelScheduled w.instant :=
    Transport.heldDevice_eq (congrArg (Option.map _) held)
  rw [before]
  cases errand with
  | stopping => exact ⟨cut, rfl, rfl⟩
  | collecting outcome => cases outcome <;> exact ⟨cut, rfl, rfl⟩
  | restarting => exact ⟨cut, rfl, rfl⟩
  | _ => cases silences

/-- What beginning anew does. -/
theorem Effect.of_beginsAnew {next : Transport α} {result : Except (TransportFault α) Unit}
    (begins : w.transport.BeginsAnew w.instant (next, result))
    (idle : w.transport.session = none) :
    Effect w { w with errand := none, transport := next } := by
  have silent := Transport.current?_of_idle idle
  cases begins with
  | bare source same =>
    have device : Transport.heldDevice { w.transport with source } = w.device := by
      simp only [Transport.heldDevice, same, World.device]
    refine .keeps ?_ ?_ rfl rfl rfl fun ended => ⟨ended, ?_⟩
    · simp only [World.device, device]
    · simp only [World.now, World.device, device]
      exact w.now_le_now
    · simp only [World.device, device]
  | failed source same cache keeps device like =>
    refine .keeps like.tones_eq ?_ rfl rfl rfl fun ended => ⟨ended, like.buffer_eq⟩
    have now : w.now = device.now w.instant := like.now_eq.symm
    rw [now]
    exact device.now_le (Nat.le_refl _)
  | rendered source same kept keeps resolves device tones now =>
    refine .keeps tones ?_ rfl rfl silent.symm fun ended => ?_
    · have now : w.now = device.now w.instant := now.symm
      rw [now]
      exact device.now_le (Nat.le_refl _)
    · cases ended
  | live source same kept keeps =>
    exact .begins kept.score (keeps.knows kept rfl) rfl rfl rfl rfl idle rfl

theorem Move.effect (poised : Poised w) (move : Move w after) : Effect w after := by
  cases move with
  | advance nanoseconds =>
    exact .keeps rfl (w.device.now_le (Nat.le_add_right _ _)) rfl rfl rfl fun ended => ⟨ended, rfl⟩
  | limit limits =>
    have device : Transport.heldDevice (w.transport.limited limits) = w.device.limited limits :=
      w.transport.heldDevice_limited limits
    refine .keeps ?_ ?_ rfl rfl rfl fun ended => ⟨ended, ?_⟩
    · simp only [World.device, device]
      rfl
    · simp only [World.now, World.device, device]
      exact w.now_le_now
    · simp only [World.device, device]
      rfl
  | step i loop next device after held numbered taken =>
    have before : w.device = device := Transport.heldDevice_eq held
    subst before
    exact .steps i loop next numbered (LiveLoop.step_of_step? taken) rfl rfl rfl rfl
  | edit transport idle edits =>
    obtain ⟨text, tempo, cache, rfl, -⟩ := edits.eq
    exact .keeps rfl w.now_le_now rfl rfl rfl fun ended => ⟨ended, rfl⟩
  | takeUp transport errand idle takes =>
    obtain ⟨loops, logged, rfl, length, revoked, -⟩ := takes.eq
    cases silences : errand.silences with
    | true =>
      simp only [silences, true_and] at revoked
      exact .tells rfl rfl length revoked rfl rfl
    | false =>
      simp only [silences, Bool.false_eq_true, false_and, if_false] at revoked
      exact .keeps rfl w.now_le_now (List.ext_getElem? revoked) rfl rfl fun ended => ⟨ended, rfl⟩
  | carryOut errand pending free =>
    have session := poised.session errand pending
    cases silences : errand.silences with
    | true =>
      obtain ⟨device, loops, ended⟩ := poised.carriedOut_eq pending silences
      exact .cuts device rfl loops rfl ended (poised.told errand pending silences) free
    | false =>
      cases errand with
      | pausing =>
        exact .of_clock (fun device => device.suspend w.instant) true _ (by simpa using session)
          poised (fun _ => rfl) fun device => device.now_suspend w.instant
      | resuming =>
        exact .of_clock (fun device => device.resume w.instant) false _ (by simpa using session)
          poised (fun _ => rfl) fun device => device.now_resume w.instant
      | beginning =>
        exact .of_beginsAnew (w.transport.startAnew_spec w.instant) (session.mp rfl)
      | _ => cases silences

/-- What holds in a world and withstands every move holds after every run. -/
theorem Run.carries {P : World α → Prop} (run : Run w after) (poised : Poised w) (base : P w)
    (step : ∀ u v, P u → Move u v → Effect u v → P v) : Poised after ∧ P after := by
  induction run with
  | refl => exact ⟨poised, base⟩
  | tail _ move ih => exact ⟨ih.1.move move, step _ _ ih.2 move (move.effect ih.1)⟩

end Effect

end World

end Portamento
