import Portamento.Proofs.Transport.Cache

/-!
# Beginning anew, said without the cache

Whether a session can be begun, and what is then played, depends on the text and the tempo, on the
settings, and on the device: not on what has been kept from earlier beginnings. `startAnew` is
worked out here for a transport that keeps only what is genuine.
-/

namespace Portamento

/-- What beginning anew makes of the device, the loops, the session and the log, with its result. -/
structure Beginning (α : Type) where
  device : Device α
  loops : List (LiveLoop α)
  session : Option (Session α)
  logged : Log α
  result : Except (TransportFault α) Unit

namespace Transport

variable {α : Type}

/-- Whether a device is held, or is to be had. -/
def IsEquipped (t : Transport α) : Prop :=
  t.device.isSome = true ∨ t.source.unavailable ≤ t.source.requests

/-- The source when a session has been begun: it is asked only if no device is held. -/
def asksSource (t : Transport α) : DeviceSource α :=
  match t.device with
  | some _ => t.source
  | none => { t.source with requests := t.source.requests + 1 }

theorem device_asksSource (t : Transport α) : t.asksSource.device = t.source.device := by
  unfold asksSource
  split <;> rfl

theorem acquire_of_equipped {t : Transport α} (equipped : t.IsEquipped) :
    t.acquire = ({ t with source := t.asksSource, device := some t.heldDevice },
      .ok t.heldDevice) := by
  unfold acquire asksSource heldDevice
  cases held : t.device with
  | some device =>
    obtain ⟨settings, shape, text, source, _, cache, session, loops, logged⟩ := t
    cases held
    rfl
  | none =>
    have ready : t.source.unavailable ≤ t.source.requests := by
      simpa [IsEquipped, held] using equipped
    simp only [DeviceSource.acquire, if_neg (Nat.not_le.mpr (Nat.lt_succ_of_le ready))]
    rfl

theorem acquire_of_not_equipped {t : Transport α} (bare : ¬ t.IsEquipped) :
    t.device = none ∧
      t.acquire = ({ t with source := t.asksSource }, .error (.deviceUnavailable "no output")) := by
  obtain ⟨absent, early⟩ := not_or.mp bare
  have held : t.device = none := by simpa using absent
  refine ⟨held, ?_⟩
  unfold acquire asksSource
  simp only [held, DeviceSource.acquire, if_pos (Nat.succ_le_of_lt (Nat.not_le.mp early))]

variable [Tonal α] (t : Transport α) (instant : Nat)

/-- A beginning that fails leaves the device as it is, or with its clock resumed. -/
def notBegun (device : Device α) (fault : TransportFault α) : Beginning α :=
  ⟨device, t.loops, t.session, t.logged, .error fault⟩

/-- What beginning anew comes to on a device, if one is to be had. -/
def beginning : Beginning α :=
  match Score.read t.text t.settings.tempo with
  | .error fault => t.notBegun t.heldDevice (.score fault)
  | .ok score =>
    let settings := t.settings
    let logged := t.logged.add
      (.started score.chords.length score.totalSeconds settings.mode settings.looping)
    let device := t.heldDevice.resume instant
    match settings.mode with
    | .live =>
      ⟨device, t.loops ++ [.ofPlan (t.livePlan score)],
        some ⟨.live t.loops.length, settings.looping, false⟩, logged, .ok ()⟩
    | .rendered =>
      match Mixing.renderPass t.shape score t.heldDevice.rendererRate with
      | .error fault => t.notBegun t.heldDevice (.sound fault)
      | .ok pass =>
        let startedAt := device.now instant + settings.leadIn
        match device.play pass startedAt settings.looping with
        | .error fault => t.notBegun device (.sound fault)
        | .ok device =>
          ⟨device, t.loops, some ⟨.rendered pass startedAt, settings.looping, false⟩, logged,
            .ok ()⟩

/-- The transport when it has begun anew on a device, with what it has come to keep. -/
def begun (cache : Option (ReadScore α)) : Transport α :=
  let b := t.beginning instant
  { t with
    source := t.asksSource
    device := some b.device
    cache
    session := b.session
    loops := b.loops
    logged := b.logged }

variable {t}

/-- A kept pass is the one that would be rendered. -/
theorem renderedPass_of_genuine {kept : ReadScore α} {device : Device α}
    (genuine : kept.IsGenuine t.shape device.rendererRate) :
    renderedPass { t with cache := some kept } device kept.score =
      match Mixing.renderPass t.shape kept.score device.rendererRate with
      | .error fault => ({ t with cache := some kept }, .error fault)
      | .ok pass => ({ t with cache := some { kept with pass := some pass } }, .ok pass) := by
  unfold renderedPass
  cases found : kept.pass with
  | none =>
    simp only [Option.bind_some, found]
    cases Mixing.renderPass t.shape kept.score device.rendererRate <;> rfl
  | some pass =>
    simp only [Option.bind_some, found, genuine.pass_eq pass found]
    rw [← found]

/-- A rendered session, when the device has been had and the score has been read. -/
theorem IsGenuine.startRendered_eq (genuine : t.IsGenuine) (instant : Nat) {kept : ReadScore α}
    (keeps : t.Keeps (some kept)) (reads : Score.read t.text t.settings.tempo = .ok kept.score)
    (mode : t.settings.mode = .rendered) : ∃ cache, t.Keeps cache ∧
      startRendered { t with
        source := t.asksSource, device := some t.heldDevice, cache := some kept } instant
          t.heldDevice kept.score = (t.begun instant cache, (t.beginning instant).result) := by
  have renders := renderedPass_of_genuine
    (t := { t with source := t.asksSource, device := some t.heldDevice })
    (genuine.keeps keeps kept rfl)
  simp only [startRendered, renders, begun, beginning, reads, mode]
  cases rendering : Mixing.renderPass t.shape kept.score t.heldDevice.rendererRate with
  | error fault => exact ⟨some kept, keeps, rfl⟩
  | ok pass =>
    refine ⟨_, .rendered kept keeps pass rendering, ?_⟩
    dsimp only
    cases (t.heldDevice.resume instant).play pass
      ((t.heldDevice.resume instant).now instant + t.settings.leadIn) t.settings.looping with
    | error fault => rfl
    | ok device => simp only [begin, mode]; rfl

section Genuine

variable [Scalar.Antisymmetric α] (genuine : t.IsGenuine)

include genuine

/-- What is read anew is the text, and what is kept of it is genuine. -/
theorem IsGenuine.resolve_eq : ∃ cache, t.resolve =
      ({ t with cache }, Score.read t.text t.settings.tempo) ∧ t.Keeps cache ∧
    ∀ score, Score.read t.text t.settings.tempo = .ok score →
      ∃ kept, cache = some kept ∧ kept.score = score := by
  obtain ⟨cache, eq, keeps, present⟩ := Transport.resolve_eq t
  have answer := genuine.resolve_snd
  rw [answer] at present
  exact ⟨cache, Prod.ext eq answer, keeps, present⟩

/-- What beginning anew comes to, if a device is to be had. -/
theorem IsGenuine.startAnew_eq (instant : Nat) (equipped : t.IsEquipped) : ∃ cache, t.Keeps cache ∧
    t.startAnew instant = (t.begun instant cache, (t.beginning instant).result) := by
  let acquired : Transport α := { t with source := t.asksSource, device := some t.heldDevice }
  have genuine' : acquired.IsGenuine := genuine
  obtain ⟨cache, resolves, keeps, present⟩ := genuine'.resolve_eq
  simp only [startAnew, acquire_of_equipped equipped]
  rw [resolves]
  cases reads : Score.read t.text t.settings.tempo with
  | error fault =>
    refine ⟨cache, keeps.of_held, ?_⟩
    simp only [acquired, begun, beginning, reads]
    rfl
  | ok score =>
    obtain ⟨kept, rfl, rfl⟩ := present score reads
    cases mode : t.settings.mode with
    | rendered =>
      simp only [acquired, mode]
      exact genuine.startRendered_eq instant keeps.of_held reads mode
    | live =>
      refine ⟨some kept, keeps.of_held, ?_⟩
      simp only [acquired, begun, beginning, reads, mode, startLive, begin, onDevice, log]
      rfl

end Genuine

/-- If no device is to be had, nothing changes but that it has been asked for. -/
theorem startAnew_of_not_equipped (bare : ¬ t.IsEquipped) (instant : Nat) :
    t.startAnew instant =
      ({ t with source := t.asksSource }, .error (.sound (.deviceUnavailable "no output"))) := by
  simp only [startAnew, (acquire_of_not_equipped bare).2]

/-- To render a pass and to play it asks for no device. -/
theorem source_startRendered (t : Transport α) (instant : Nat) (device : Device α)
    (score : Score α) : (t.startRendered instant device score).1.source = t.source := by
  unfold startRendered renderedPass
  cases t.cache.bind ReadScore.pass with
  | some pass =>
    dsimp only
    split <;> rfl
  | none =>
    dsimp only
    cases Mixing.renderPass t.shape score device.rendererRate with
    | error fault => rfl
    | ok pass =>
      dsimp only
      split <;> rfl

/-- A beginning asks for a device if none is held, and once only. -/
theorem source_startAnew (t : Transport α) (instant : Nat) :
    (t.startAnew instant).1.source = t.asksSource := by
  by_cases equipped : t.IsEquipped
  · simp only [startAnew, acquire_of_equipped equipped]
    obtain ⟨cache, eq, -⟩ :=
      Transport.resolve_eq { t with source := t.asksSource, device := some t.heldDevice }
    split
    · next resolved fault failed =>
      rw [failed] at eq
      rw [show resolved = _ from eq]
    · next resolved score read =>
      rw [read] at eq
      rw [show resolved = _ from eq]
      split
      · exact source_startRendered _ instant t.heldDevice score
      · rfl
  · rw [startAnew_of_not_equipped equipped]

/-- Whether nothing stands in the way of a session: a device is to be had, the text reads as a
score, and a pass that is to be rendered can be, and at the rate of the device. -/
def CanPlay (t : Transport α) : Prop :=
  t.IsEquipped ∧ ∃ score, Score.read t.text t.settings.tempo = .ok score ∧
    (t.settings.mode = .rendered → ∃ pass,
      Mixing.renderPass t.shape score t.heldDevice.rendererRate = .ok pass ∧
        pass.rate = t.heldDevice.rate)

/-- Whether passes are rendered at a rate that is not the one of the device. -/
def IsMistuned (t : Transport α) : Prop :=
  t.settings.mode = .rendered ∧ t.heldDevice.rendererRate ≠ t.heldDevice.rate

/-- A session of the current text at the current tempo, begun from the top. -/
inductive PlaysFromTop (t : Transport α) (instant : Nat) (next : Transport α) : Prop where
  /-- A new loop, which has done nothing yet, is to lay the passes of the score on a clock that
  runs: each from the first chord on, behind the lead-in, once or over and over. -/
  | live (score : Score α) (reads : Score.read t.text t.settings.tempo = .ok score)
      (mode : t.settings.mode = .live)
      (device : next.device = some (t.heldDevice.resume instant))
      (runs : (t.heldDevice.resume instant).clock.isRunning = true)
      (loop : LiveLoop α) (loops : next.loops = t.loops ++ [loop])
      (plan : loop.plan =
        { pass := Timeline.ofScore t.shape score (Scalar.ofNat 0)
          leadIn := t.settings.leadIn
          looping := t.settings.looping
          ahead := t.settings.ahead })
      (unbegun : loop.passes = 0 ∧ loop.phase = .fresh ∧ loop.cancelled = false)
      (session : next.session = some ⟨.live t.loops.length, t.settings.looping, false⟩) :
      PlaysFromTop t instant next
  /-- The clock runs, and the pass is played a lead-in behind what it reads. -/
  | rendered (score : Score α) (reads : Score.read t.text t.settings.tempo = .ok score)
      (mode : t.settings.mode = .rendered) (pass : Buffer α)
      (renders : Mixing.renderPass t.shape score t.heldDevice.rendererRate = .ok pass)
      (startedAt : α) (starts : startedAt = t.heldDevice.now instant + t.settings.leadIn)
      (device : next.device = some { t.heldDevice.resume instant with
        buffer := some ⟨pass, startedAt, t.settings.looping⟩ })
      (runs : (t.heldDevice.resume instant).clock.isRunning = true)
      (loops : next.loops = t.loops)
      (session : next.session = some ⟨.rendered pass startedAt, t.settings.looping, false⟩) :
      PlaysFromTop t instant next

theorem rate_of_renderPass {shape : EnvelopeShape α} {score : Score α} {rate : Nat}
    {pass : Buffer α} (renders : Mixing.renderPass shape score rate = .ok pass) :
    pass.rate = rate := by
  simp only [Mixing.renderPass, bind, Except.bind] at renders
  split at renders
  · cases renders
  · unfold Mixing.render? at renders
    split at renders
    · cases renders
    · split at renders <;> cases renders
      rfl

theorem CanPlay.not_isMistuned (can : t.CanPlay) : ¬ t.IsMistuned := by
  rintro ⟨mode, apart⟩
  obtain ⟨-, score, -, playable⟩ := can
  obtain ⟨pass, renders, rate⟩ := playable mode
  exact apart ((rate_of_renderPass renders).symm.trans rate)

/-- A beginning that fails does nothing, unless it is the device that does not take the pass. -/
theorem beginning_of_error {instant : Nat} {fault : TransportFault α}
    (fails : (t.beginning instant).result = .error fault) :
    t.beginning instant = t.notBegun t.heldDevice fault ∨
      t.IsMistuned ∧ t.beginning instant = t.notBegun (t.heldDevice.resume instant) fault := by
  unfold beginning at fails ⊢
  split at fails
  · cases fails
    exact .inl rfl
  · next score reads =>
    dsimp only at fails ⊢
    split at fails
    · cases fails
    · next mode =>
      split at fails
      · cases fails
        exact .inl rfl
      · next pass renders =>
        split at fails
        · next refusal =>
          cases fails
          refine .inr ⟨⟨mode, fun same => ?_⟩, rfl⟩
          have fits : pass.rate = (t.heldDevice.resume instant).rate :=
            (rate_of_renderPass renders).trans same
          rw [Device.play, if_pos fits] at refusal
          cases refusal
        · cases fails

/-- A beginning that nothing stands in the way of plays from the top. -/
theorem CanPlay.beginning_eq (can : t.CanPlay) (instant : Nat) (cache : Option (ReadScore α)) :
    (t.beginning instant).result = .ok () ∧ t.PlaysFromTop instant (t.begun instant cache) := by
  obtain ⟨-, score, reads, playable⟩ := can
  have runs := t.heldDevice.clock.isRunning_resume instant
  cases mode : t.settings.mode with
  | live =>
    refine ⟨?_, .live score reads mode ?_ runs (.ofPlan (t.livePlan score)) ?_ rfl ⟨rfl, rfl, rfl⟩
      ?_⟩ <;> simp only [begun, beginning, reads, mode]
  | rendered =>
    obtain ⟨pass, renders, rate⟩ := playable mode
    have fits : pass.rate = (t.heldDevice.resume instant).rate := rate
    refine ⟨?_, .rendered score reads mode pass renders _ rfl ?_ runs ?_ ?_⟩ <;>
      simp only [begun, beginning, reads, mode, renders, Device.play, if_pos fits,
        t.heldDevice.now_resume instant]

end Transport

namespace World

variable {α : Type} [Tonal α] {w after : World α}

omit [Tonal α] in
theorem asksSource_of_held {t : Transport α} (held : t.device.isSome = true) :
    t.asksSource = t.source := by
  obtain ⟨device, found⟩ := Option.isSome_iff_exists.mp held
  simp only [Transport.asksSource, found]

theorem isSome_of_beginsAnew {t : Transport α} {instant : Nat}
    {result : Transport α × Except (TransportFault α) Unit} (begins : t.BeginsAnew instant result)
    (held : t.device.isSome = true) : result.1.device.isSome = true := by
  cases begins with
  | bare => exact held
  | _ => rfl

/-- A device that has been got is kept, and no other is ever asked for. -/
theorem Move.source_eq (move : Move w after) (held : w.transport.device.isSome = true) :
    after.transport.device.isSome = true ∧ after.transport.source = w.transport.source := by
  cases move with
  | advance => exact ⟨held, rfl⟩
  | limit limits => exact ⟨Option.isSome_map.trans held, w.transport.source_limited limits held⟩
  | step => exact ⟨rfl, rfl⟩
  | edit transport idle edits =>
    obtain ⟨text, tempo, cache, rfl, -⟩ := edits.eq
    exact ⟨held, rfl⟩
  | takeUp transport errand idle takes =>
    obtain ⟨loops, logged, rfl, -⟩ := takes.eq
    exact ⟨held, rfl⟩
  | carryOut errand =>
    have changed (change : Device α → Device α) :
        (w.transport.device.map change).isSome = true := by
      rwa [Option.isSome_map]
    cases errand with
    | pausing => exact ⟨changed _, rfl⟩
    | resuming => exact ⟨changed _, rfl⟩
    | stopping => exact ⟨changed _, rfl⟩
    | collecting outcome => cases outcome <;> exact ⟨changed _, rfl⟩
    | restarting => exact ⟨changed _, rfl⟩
    | beginning =>
      refine ⟨?_, (w.transport.source_startAnew w.instant).trans (asksSource_of_held held)⟩
      exact isSome_of_beginsAnew (w.transport.startAnew_spec w.instant) held

omit [Tonal α] in
theorem rate_play {device next : Device α} {pass : Buffer α} {start : α} {looping : Bool}
    (plays : device.play pass start looping = .ok next) : next.rate = device.rate := by
  unfold Device.play at plays
  split at plays <;> cases plays
  rfl

/-- A beginning leaves the rate of the device alone. -/
theorem rate_beginning (t : Transport α) (instant : Nat) :
    (t.beginning instant).device.rate = t.heldDevice.rate := by
  unfold Transport.beginning
  split
  · rfl
  · dsimp only
    split
    · rfl
    · split
      · rfl
      · split
        · rfl
        · next plays =>
          have same := rate_play plays
          exact same

/-- A device is never tuned. -/
theorem Move.isMistuned [Scalar.Antisymmetric α] (move : Move w after)
    (genuine : w.transport.IsGenuine) (mistuned : w.transport.IsMistuned) :
    after.transport.IsMistuned := by
  suffices frame : after.transport.settings.mode = w.transport.settings.mode ∧
      after.device.rate = w.device.rate by
    obtain ⟨mode, apart⟩ := mistuned
    refine ⟨frame.1.trans mode, ?_⟩
    rwa [show after.transport.heldDevice.rendererRate = _ from move.rendererRate_eq,
      show after.transport.heldDevice.rate = _ from frame.2]
  cases move with
  | advance => exact ⟨rfl, rfl⟩
  | limit limits =>
    simp only [World.device, w.transport.heldDevice_limited limits]
    exact ⟨rfl, rfl⟩
  | step i loop next device after held numbered taken =>
    have before : w.device = device := Transport.heldDevice_eq held
    rw [before]
    exact ⟨rfl, (LiveLoop.step_of_step? taken).rate_eq⟩
  | edit transport idle edits =>
    obtain ⟨text, tempo, cache, rfl, -⟩ := edits.eq
    exact ⟨rfl, rfl⟩
  | takeUp transport errand idle takes =>
    obtain ⟨loops, logged, rfl, -⟩ := takes.eq
    exact ⟨rfl, rfl⟩
  | carryOut errand =>
    have cut := Transport.read_map Device.rate
      (fun device => device.stopBuffer.cancelScheduled w.instant) (fun _ => rfl)
      w.transport.device w.transport.source.device
    cases errand with
    | pausing =>
      exact ⟨rfl, Transport.read_map Device.rate (fun device => device.suspend w.instant)
        (fun _ => rfl) _ _⟩
    | resuming =>
      exact ⟨rfl, Transport.read_map Device.rate (fun device => device.resume w.instant)
        (fun _ => rfl) _ _⟩
    | stopping => exact ⟨rfl, cut⟩
    | collecting outcome => cases outcome <;> exact ⟨rfl, cut⟩
    | restarting => exact ⟨rfl, cut⟩
    | beginning =>
      by_cases equipped : w.transport.IsEquipped
      · obtain ⟨cache, -, begins⟩ := genuine.startAnew_eq w.instant equipped
        simp only [carriedOut, Transport.carryOut, begins]
        exact ⟨rfl, rate_beginning w.transport w.instant⟩
      · have next : (w.carriedOut .beginning).transport =
            { w.transport with source := w.transport.asksSource } :=
          congrArg Prod.fst (Transport.startAnew_of_not_equipped equipped w.instant)
        refine ⟨by rw [next], ?_⟩
        simp only [World.device, next, Transport.heldDevice, Transport.device_asksSource]

/-- So it is along a whole run. -/
theorem Run.source_eq (run : Run w after) (held : w.transport.device.isSome = true) :
    after.transport.device.isSome = true ∧ after.transport.source = w.transport.source := by
  induction run with
  | refl => exact ⟨held, rfl⟩
  | tail _ move ih =>
    obtain ⟨still, same⟩ := move.source_eq ih.1
    exact ⟨still, same.trans ih.2⟩

theorem isMistuned_of_run [Scalar.Antisymmetric α] (run : Run w after)
    (genuine : w.transport.IsGenuine) (mistuned : w.transport.IsMistuned) :
    after.transport.IsMistuned := by
  suffices both : after.transport.IsGenuine ∧ after.transport.IsMistuned from both.2
  induction run with
  | refl => exact ⟨genuine, mistuned⟩
  | tail _ move ih => exact ⟨genuine_of_move ih.1 move, move.isMistuned ih.1 ih.2⟩

/-- The first loop is begun when a device has been got. -/
theorem Move.held_of_loops (move : Move w after) (unbegun : w.transport.loops = [])
    (begun : after.transport.loops ≠ []) : after.transport.device.isSome = true := by
  cases move with
  | advance => exact absurd unbegun begun
  | limit => exact absurd unbegun begun
  | step => rfl
  | edit transport idle edits =>
    obtain ⟨text, tempo, cache, rfl, -⟩ := edits.eq
    exact absurd unbegun begun
  | takeUp transport errand idle takes =>
    obtain ⟨loops, logged, rfl, length, -⟩ := takes.eq
    rw [unbegun] at length
    exact absurd (List.length_eq_zero_iff.mp length) begun
  | carryOut errand =>
    cases errand with
    | collecting outcome => cases outcome <;> exact absurd unbegun begun
    | beginning =>
      have begins := w.transport.startAnew_spec w.instant
      simp only [carriedOut, Transport.carryOut] at begun ⊢
      generalize w.transport.startAnew w.instant = result at begins begun
      cases begins with
      | bare => exact absurd unbegun begun
      | _ => rfl
    | _ => exact absurd unbegun begun

/-- Where a loop has been begun, there is a device. -/
theorem held_of_run {settings : Settings α} {text : List Char} {rate rendererRate : Nat}
    {limits : DeviceLimits} {unavailable instant : Nat}
    (reached : Run (launch settings text rate rendererRate limits unavailable instant) w)
    (begun : w.transport.loops ≠ []) : w.transport.device.isSome = true := by
  induction reached with
  | refl => exact absurd rfl begun
  | @tail before after _ move ih =>
    by_cases unbegun : before.transport.loops = []
    · exact move.held_of_loops unbegun begun
    · exact (move.source_eq (ih unbegun)).1

end World

end Portamento
