import Portamento.Proofs.Transport.Alike
import Portamento.Proofs.Transport.Final

/-!
# A start that fails

A start ends the session before, gets hold of a device, reads the text and renders what is to be
rendered. Where it fails, what it has got by then is kept, and that is all: the transport is as if
it had been stopped. So it makes no difference to the next start, either, if that can succeed; for a
device that does not take the passes that are rendered for it, which would leave its clock running,
never comes to take one.
-/

namespace Portamento

variable {α : Type} [Tonal α]

namespace Transport

variable (t : Transport α) (instant : Nat)

theorem start_of_paused (paused : t.state = .paused) :
    t.start instant = (t.resume instant, .ok ()) := by
  simp only [start, paused]

theorem start_of_unpaused (unpaused : t.state ≠ .paused) :
    t.start instant = (t.teardown instant).startAnew instant := by
  unfold start
  split
  · next paused => exact absurd paused unpaused
  · rfl

/-- Without a session there is nothing to be ended. -/
theorem teardown_of_idle (idle : t.session = none) : t.teardown instant = t := by
  unfold teardown
  split
  · rfl
  · next begun =>
    rw [idle] at begun
    cases begun

theorem start_of_idle (idle : t.session = none) : t.start instant = t.startAnew instant := by
  rw [start_of_unpaused t instant (by rw [t.state_of_idle idle]; decide), t.teardown_of_idle _ idle]

/-- To end the session touches nothing but session, loops and device. -/
theorem teardown_eq_with : ∃ device loops,
    t.teardown instant = { t with device, loops, session := none } ∧
      device.isSome = t.device.isSome := by
  unfold teardown
  split
  · next idle =>
    obtain ⟨settings, shape, text, source, device, cache, _, loops, logged⟩ := t
    cases idle
    exact ⟨device, loops, rfl, rfl⟩
  · obtain ⟨loops, eq, -⟩ := t.revoke_eq
    rw [eq]
    exact ⟨_, loops, rfl, Option.isSome_map⟩

omit [Tonal α] in
theorem revoke_log (notice : Notice α) :
    (t.log notice).revoke = { t.revoke with logged := t.logged.add notice } := by
  obtain ⟨settings, shape, text, source, device, cache, session, loops, logged⟩ := t
  rcases session with _ | ⟨_ | loop, looping, paused⟩ <;> rfl

omit [Tonal α] in
theorem asksSource_congr {u : Transport α} (source : u.source = t.source)
    (held : u.device.isSome = t.device.isSome) : u.asksSource = t.asksSource := by
  unfold asksSource
  rw [source]
  cases first : u.device <;> cases second : t.device <;> simp_all

/-- To stop is to end the session, and to log that. -/
theorem stop_eq_teardown : ∃ logged, t.stop instant = { t.teardown instant with logged } := by
  unfold stop
  split
  · next idle => exact ⟨t.logged, by rw [t.teardown_of_idle instant idle]⟩
  · next session begun =>
    have present : t.session.isSome = true := by rw [begun]; rfl
    cases t.isFinished with
    | false => exact ⟨_, rfl⟩
    | true =>
      have warned : (t.log .uncollected).session.isSome = true := present
      simp only [if_true, teardown_eq _ _ warned, teardown_eq _ _ present, revoke_log]
      exact ⟨_, rfl⟩

/-- What a beginning that fails does. -/
theorem IsGenuine.startAnew_of_error [Scalar.Antisymmetric α] {t : Transport α} {instant : Nat}
    (genuine : t.IsGenuine) {fault : TransportFault α}
    (fails : (t.startAnew instant).2 = .error fault) : ∃ cache device, t.Keeps cache ∧
      (t.startAnew instant).1 = { t with source := t.asksSource, cache, device } ∧
      (device = t.device ∨ device = some t.heldDevice ∨
        t.IsMistuned ∧ device = some (t.heldDevice.resume instant)) := by
  by_cases equipped : t.IsEquipped
  · obtain ⟨cache, keeps, begins⟩ := genuine.startAnew_eq instant equipped
    rw [begins] at fails ⊢
    rcases beginning_of_error fails with eq | ⟨mistuned, eq⟩
    · refine ⟨cache, some t.heldDevice, keeps, ?_, .inr (.inl rfl)⟩
      simp only [begun, eq, notBegun]
    · refine ⟨cache, some (t.heldDevice.resume instant), keeps, ?_, .inr (.inr ⟨mistuned, rfl⟩)⟩
      simp only [begun, eq, notBegun]
  · rw [startAnew_of_not_equipped equipped]
    exact ⟨t.cache, t.device, .same, rfl, .inl rfl⟩

end Transport

namespace World

variable {w v f s : World α} {act : Act α} {answer : Answer α}

/-- The world when the session has been ended, and another is about to be begun. -/
def tornDown (w : World α) : World α :=
  { w with transport := w.transport.teardown w.instant, errand := some .beginning }

/-- The world after a start. -/
def started (w : World α) : World α :=
  { w with transport := (w.transport.start w.instant).1 }

/-- A start that resumes nothing ends the session before first. -/
theorem run_tornDown (idle : w.errand = none) (free : w.transport.IsFree)
    (unpaused : w.transport.state ≠ .paused) : Run w w.tornDown := by
  cases session : w.transport.session with
  | none =>
    rw [tornDown, w.transport.teardown_of_idle w.instant session]
    exact .single (.takeUp _ _ idle (.start session))
  | some found =>
    have begun : w.transport.session.isSome = true := by rw [session]; rfl
    have first : Move w { w with transport := w.transport.revoke, errand := some .restarting } :=
      .takeUp _ _ idle (.restart begun unpaused)
    have second : Move { w with transport := w.transport.revoke, errand := some .restarting } _ :=
      .carryOut .restarting rfl free.revoke
    rw [tornDown, Transport.teardown_eq _ _ begun]
    exact (Relation.ReflTransGen.single first).tail second

/-- Two worlds that differ in what is kept and logged, and in whether a device has been got. -/
def Resembles (f s : World α) : Prop :=
  ∃ source device cache logged,
    s = { f with transport := { f.transport with source, device, cache, logged } } ∧
      device.getD source.device = f.transport.heldDevice ∧
      (device = f.transport.device ∨ f.transport.loops = [])

/-- Two such worlds without a session and without an operation under way. -/
structure Beside (f s : World α) : Prop where
  same : Resembles f s
  idle : f.errand = none
  ended : f.transport.session = none
  genuine : f.transport.IsGenuine
  genuine' : s.transport.IsGenuine

omit [Tonal α] in
/-- Without a session an operation that is not a start does nothing. -/
theorem exists_asked_of_idle {operation : Operation} (other : operation ≠ .start) :
    ∃ answer, ∀ t : Transport α, t.session = none → t.asked operation = (t, none, answer) := by
  refine ⟨match operation with | .poll => .unreturned | _ => .nothing, fun t ended => ?_⟩
  have state := t.state_of_idle ended
  have loop : t.sessionLoop? = none := by simp only [Transport.sessionLoop?, ended]
  cases operation with
  | start => exact absurd rfl other
  | _ => simp only [Transport.asked, state, ended, loop, Option.bind_none]

/-- Until a session is begun, every act does the same to two such worlds, and answers the same. -/
theorem Beside.lockstep [Scalar.Antisymmetric α] (beside : Beside f s) (other : act ≠ .ask .start)
    (acts : f.act? act = some (v, answer)) : ∃ u, s.act? act = some (u, answer) ∧ Beside v u := by
  obtain ⟨same, idle, ended, genuine, genuine'⟩ := beside
  suffices matched : ∃ u, s.act? act = some (u, answer) ∧ Resembles v u ∧ v.errand = none ∧
      v.transport.session = none by
    obtain ⟨u, acts', same', idle', ended'⟩ := matched
    exact ⟨u, acts', same', idle', ended', genuine_of_act genuine acts,
      genuine_of_act genuine' acts'⟩
  obtain ⟨source, device, cache, logged, rfl, held, apart⟩ := same
  cases act with
  | advance nanoseconds =>
    cases acts
    exact ⟨_, rfl, ⟨source, device, cache, logged, rfl, held, apart⟩, idle, ended⟩
  | limit limits =>
    cases acts
    have held' := Transport.heldDevice_limited
      { f.transport with source, device, cache, logged } limits
    rw [show Transport.heldDevice { f.transport with source, device, cache, logged } =
      f.transport.heldDevice from held, ← f.transport.heldDevice_limited limits] at held'
    refine ⟨_, rfl, ⟨_, _, cache, logged, rfl, held', ?_⟩, idle, ended⟩
    exact apart.imp_left fun same => congrArg (Option.map fun d => d.limited limits) same
  | step i =>
    obtain ⟨found, loop, next, after, got, numbered, taken, rfl, rfl⟩ := act?_step.mp acts
    rcases apart with rfl | unbegun
    · exact ⟨_, act?_step.mpr ⟨found, loop, next, after, got, numbered, taken, rfl, rfl⟩,
        ⟨source, some after, cache, logged.addAll (loop.words next), rfl, rfl, .inl rfl⟩, idle,
        ended⟩
    · rw [unbegun] at numbered
      cases numbered
  | edit edit =>
    obtain ⟨-, rfl, rfl⟩ := act?_edit.mp acts
    obtain ⟨cache', edited⟩ := Transport.edited_congr genuine genuine' edit
    obtain ⟨text, tempo, kept, eq, -⟩ := (Transport.edits_edited (t := f.transport) edit).eq
    rw [eq] at edited ⊢
    exact ⟨_, act?_edit.mpr ⟨idle, rfl, by rw [edited]⟩,
      ⟨source, device, cache', logged, by rw [edited], held, apart⟩, idle, ended⟩
  | ask operation =>
    obtain ⟨-, next, errand, asks, rfl⟩ := act?_ask.mp acts
    have unstarted : operation ≠ .start := fun start => other (congrArg Act.ask start)
    obtain ⟨answer', nothing⟩ := exists_asked_of_idle (α := α) unstarted
    cases asks.symm.trans (nothing f.transport ended)
    exact ⟨_, act?_ask.mpr ⟨idle, _, _, nothing _ ended, rfl⟩,
      ⟨source, device, cache, logged, rfl, held, apart⟩, rfl, ended⟩
  | goOn =>
    obtain ⟨errand, pending, -⟩ := act?_goOn.mp acts
    rw [idle] at pending
    cases pending

/-- So does every script that asks for no start. -/
theorem Beside.follow [Scalar.Antisymmetric α] (beside : Beside f s) {acts : List (Act α)}
    (other : .ask .start ∉ acts) {history : History α}
    (follows : f.follow? acts = some (v, history)) :
    ∃ u, s.follow? acts = some (u, history) ∧ Beside v u := by
  induction acts generalizing f s history with
  | nil =>
    cases follows
    exact ⟨s, rfl, beside⟩
  | cons act acts ih =>
    obtain ⟨next, answer, rest, done, later, rfl⟩ := follow?_cons.mp follows
    obtain ⟨next', done', beside'⟩ :=
      beside.lockstep (fun start => other (start ▸ List.mem_cons_self)) done
    obtain ⟨u, later', beside''⟩ :=
      ih beside' (fun member => other (List.mem_cons_of_mem _ member)) later
    exact ⟨u, follow?_cons.mpr ⟨next', answer, rest, done', later', rfl⟩, beside''⟩

/-- When a session is begun that can be played, the two worlds become alike. -/
theorem Beside.started [Scalar.Antisymmetric α] (beside : Beside f s) (can : f.transport.CanPlay)
    (equipped : s.transport.IsEquipped) :
    (s.transport.start s.instant).2 = .ok () ∧ Alike f.started s.started := by
  obtain ⟨⟨source, device, cache, logged, rfl, held, -⟩, -, ended, genuine, genuine'⟩ := beside
  obtain ⟨cache₁, keeps₁, begins₁⟩ := genuine.startAnew_eq f.instant can.1
  obtain ⟨cache₂, keeps₂, begins₂⟩ := genuine'.startAnew_eq f.instant equipped
  obtain ⟨logged', begun⟩ := f.transport.beginning_congr f.instant held cache logged
  have renderer₁ := (f.transport.startAnew_spec f.instant).rendererRate_eq
  have renderer₂ := (Transport.startAnew_spec
    { f.transport with source, device, cache, logged } f.instant).rendererRate_eq
  rw [begins₁] at renderer₁
  rw [begins₂] at renderer₂
  have starts₁ := (f.transport.start_of_idle f.instant ended).trans begins₁
  have starts₂ := (Transport.start_of_idle
    { f.transport with source, device, cache, logged } f.instant ended).trans begins₂
  constructor
  · rw [starts₂, begun]
    exact (can.beginning_eq f.instant cache₁).1
  · simp only [World.started, starts₁, starts₂]
    exact ⟨.begun f held cache logged cache₁ cache₂, genuine.of_keeps keeps₁ rfl renderer₁,
      genuine'.of_keeps keeps₂ rfl renderer₂⟩

/-- What a failing start leaves, when the session of a transport has been ended before. -/
structure LeavesClean (before : Transport α) (torn next : World α) : Prop where
  session : next.transport.session = none
  state : next.transport.state = .idle
  buffer : ∀ device, next.transport.device = some device → device.buffer = none
  ahead : ∀ device, next.transport.device = some device → ∀ tone ∈ device.tones.tones,
    ¬ device.now next.instant < tone.start
  text_eq : next.transport.text = before.text
  settings_eq : next.transport.settings = before.settings
  shape_eq : next.transport.shape = before.shape
  /-- A device may have been got, or its clock resumed, and something may have been read or
  rendered. -/
  only : ∃ cache device, torn.transport.Keeps cache ∧
    next = { torn with
      errand := none
      transport := { torn.transport with source := torn.transport.asksSource, cache, device } } ∧
    (device = torn.transport.device ∨ device = some torn.transport.heldDevice ∨
      device = some (torn.transport.heldDevice.resume torn.instant))

/-- What a world in which a start has failed, some time later, has in common with one in which the
session had been stopped instead. -/
structure Recovers (stopped : World α) (acts : List (Act α)) (later : World α)
    (history : History α) : Prop where
  ready : later.errand = none ∧ later.transport.session = none
  starts : (later.transport.start later.instant).2 = .ok ()
  plays : later.transport.PlaysFromTop later.instant later.started.transport
  /-- If a device is to be had there, too, a start succeeds and is indistinguishable. -/
  alike : ∃ other, stopped.follow? acts = some (other, history) ∧
    (other.transport.IsEquipped →
      (other.transport.start other.instant).2 = .ok () ∧ Agree later.started other.started)

/-- A start that fails, when the session of a transport has been ended before. -/
structure Setback (before : Transport α) (torn stopped : World α) : Prop where
  clean : LeavesClean before torn (torn.carriedOut .beginning)
  /-- Once nothing stands in the way any more. -/
  recovers : ∀ acts later history, .ask .start ∉ acts →
    (torn.carriedOut .beginning).follow? acts = some (later, history) →
      later.transport.CanPlay → Recovers stopped acts later history

section Setback

variable [Scalar.Ordered α] [Scalar.Antisymmetric α] {torn : World α} {fault : TransportFault α}

omit [Scalar.Ordered α] in
/-- The world after a beginning that fails. -/
theorem carriedOut_of_error (genuine : torn.transport.IsGenuine)
    (fails : (torn.transport.startAnew torn.instant).2 = .error fault) :
    ∃ cache device, torn.transport.Keeps cache ∧
      torn.carriedOut .beginning = { torn with
        errand := none
        transport :=
          { torn.transport with source := torn.transport.asksSource, cache, device } } ∧
      (device = torn.transport.device ∨ device = some torn.transport.heldDevice ∨
        torn.transport.IsMistuned ∧
          device = some (torn.transport.heldDevice.resume torn.instant)) := by
  obtain ⟨cache, device, keeps, eq, origin⟩ := genuine.startAnew_of_error fails
  exact ⟨cache, device, keeps, by simp only [carriedOut, Transport.carryOut, eq], origin⟩

/-- A beginning that fails leaves the world as clean as it has found it. -/
theorem LeavesClean.of_error (genuine : torn.transport.IsGenuine) (orderly : Orderly torn)
    (poised : Poised torn) (pending : torn.errand = some .beginning)
    (fails : (torn.transport.startAnew torn.instant).2 = .error fault) {before : Transport α}
    (text : torn.transport.text = before.text)
    (settings : torn.transport.settings = before.settings)
    (shape : torn.transport.shape = before.shape) :
    LeavesClean before torn (torn.carriedOut .beginning) := by
  have ended : torn.transport.session = none := (poised.session .beginning pending).mp rfl
  have move : Move torn (torn.carriedOut .beginning) :=
    .carryOut .beginning pending (orderly.isFree_of_idle ended)
  have after := orderly.effect (move.effect poised)
  obtain ⟨cache, device, keeps, next, origin⟩ := carriedOut_of_error genuine fails
  rw [next] at after ⊢
  exact {
    session := ended
    state := Transport.state_of_idle _ ended
    buffer := fun device held => (after.silent ended device held).1
    ahead := fun device held => (after.silent ended device held).2
    text_eq := text
    settings_eq := settings
    shape_eq := shape
    only := ⟨cache, device, keeps, rfl, origin.imp_right (Or.imp_right And.right)⟩ }

omit [Scalar.Ordered α] in
/-- A world in which a beginning has failed, and the same world with the session ended instead. -/
theorem Beside.of_error (genuine : torn.transport.IsGenuine)
    (genuine' : (torn.carriedOut .beginning).transport.IsGenuine)
    (ended : torn.transport.session = none)
    (fails : (torn.transport.startAnew torn.instant).2 = .error fault)
    (held : torn.transport.loops ≠ [] → torn.transport.device.isSome = true)
    (tuned : ¬ torn.transport.IsMistuned) (logged : Log α) :
    Beside (torn.carriedOut .beginning)
      { torn with errand := none, transport := { torn.transport with logged } } := by
  obtain ⟨cache, device, -, next, origin⟩ := carriedOut_of_error genuine fails
  obtain ⟨same, apart⟩ : torn.transport.heldDevice =
        device.getD torn.transport.asksSource.device ∧
      (torn.transport.device = device ∨ torn.transport.loops = []) := by
    rcases origin with rfl | rfl | ⟨mistuned, -⟩
    · exact ⟨by rw [torn.transport.device_asksSource]; rfl, .inl rfl⟩
    · refine ⟨rfl, ?_⟩
      cases got : torn.transport.device with
      | some found => exact .inl (congrArg some (Transport.heldDevice_eq got).symm)
      | none =>
        refine .inr (Classical.byContradiction fun begun => ?_)
        have isSome := held begun
        rw [got] at isSome
        cases isSome
    · exact absurd mistuned tuned
  refine ⟨⟨torn.transport.source, torn.transport.device, torn.transport.cache, logged, ?_⟩, ?_, ?_,
    genuine', genuine⟩
  · rw [next]
    exact ⟨rfl, same, apart⟩
  · rw [next]
  · rw [next]
    exact ended

omit [Scalar.Ordered α] in
/-- A beginning that fails makes no difference to one that succeeds later. -/
theorem Recovers.of_error (genuine : torn.transport.IsGenuine) (orderly : Orderly torn)
    (poised : Poised torn) (pending : torn.errand = some .beginning)
    (fails : (torn.transport.startAnew torn.instant).2 = .error fault)
    (held : torn.transport.loops ≠ [] → torn.transport.device.isSome = true) (logged : Log α)
    {acts : List (Act α)} {later : World α} {history : History α} (other : .ask .start ∉ acts)
    (follows : (torn.carriedOut .beginning).follow? acts = some (later, history))
    (can : later.transport.CanPlay) :
    Recovers { torn with errand := none, transport := { torn.transport with logged } } acts later
      history := by
  have ended : torn.transport.session = none := (poised.session .beginning pending).mp rfl
  have move : Move torn (torn.carriedOut .beginning) :=
    .carryOut .beginning pending (orderly.isFree_of_idle ended)
  have genuine' := genuine_of_move genuine move
  -- a device that does not take the passes never comes to take one
  have tuned : ¬ torn.transport.IsMistuned := fun mistuned =>
    can.not_isMistuned (isMistuned_of_run (run_of_follow follows) genuine'
      (move.isMistuned genuine mistuned))
  obtain ⟨s, follows', beside⟩ :=
    (Beside.of_error genuine genuine' ended fails held tuned logged).follow other follows
  obtain ⟨cache, -, begins⟩ := beside.genuine.startAnew_eq later.instant can.1
  have starts := (later.transport.start_of_idle later.instant beside.ended).trans begins
  obtain ⟨begun, plays⟩ := can.beginning_eq later.instant cache
  refine ⟨⟨beside.idle, beside.ended⟩, ?_, ?_, s, follows', fun equipped => ?_⟩
  · rw [starts, begun]
  · simp only [started, starts]
    exact plays
  · obtain ⟨begun', alike⟩ := beside.started can equipped
    exact ⟨begun', alike.agree⟩

/-- Both, in a world that has been reached. -/
theorem Setback.of_error {settings : Settings α} {text : List Char} {rate rendererRate : Nat}
    {limits : DeviceLimits} {unavailable instant : Nat}
    (reached : Run (launch settings text rate rendererRate limits unavailable instant) torn)
    (pending : torn.errand = some .beginning)
    (fails : (torn.transport.startAnew torn.instant).2 = .error fault) {before : Transport α}
    (same : torn.transport.text = before.text ∧ torn.transport.settings = before.settings ∧
      torn.transport.shape = before.shape) (logged : Log α) :
    Setback before torn
      { torn with errand := none, transport := { torn.transport with logged } } := by
  obtain ⟨poised, orderly⟩ := reached.carries (.launch ..) (Orderly.launch ..)
    fun _ _ orderly _ effect => orderly.effect effect
  have genuine := genuine_of_run reached
  exact ⟨.of_error genuine orderly poised pending fails same.1 same.2.1 same.2.2,
    fun acts later history other follows can => .of_error genuine orderly poised pending fails
      (held_of_run reached) logged other follows can⟩

end Setback

/-- What is to be said of a start. -/
structure StartLaw (w : World α) : Prop where
  paused : w.transport.state = .paused → (w.transport.start w.instant).2 = .ok ()
  /-- The source is asked at most once, and only if no device is held. -/
  asks : (w.transport.start w.instant).1.source =
    if w.transport.state = .paused then w.transport.source else w.transport.asksSource
  /-- Once it has given a device, it is never asked again. -/
  asks_no_more : w.transport.device.isSome = true → ∀ v, Run w v →
    v.transport.device.isSome = true ∧ v.transport.source = w.transport.source
  at_once : ∀ fault, w.errand = none → w.transport.IsFree →
    (w.transport.start w.instant).2 = .error fault →
      w.tornDown.carriedOut .beginning = w.started ∧
        Setback w.transport w.tornDown { w with transport := w.transport.stop w.instant }
  /-- The beginning may have been put off until a loop had let go of the device. -/
  put_off : ∀ fault, w.errand = some .beginning →
    (w.transport.startAnew w.instant).2 = .error fault →
      Setback w.transport w { w with errand := none }

/-- In whatever state of playback: a start that fails leaves a clean and idle transport, and nothing
of it is to be noticed once a start succeeds. -/
theorem failed_start_is_clean [Scalar.Ordered α] [Scalar.Antisymmetric α] (settings : Settings α)
    (text : List Char) (rate rendererRate : Nat) (limits : DeviceLimits)
    (unavailable instant : Nat) (w : World α)
    (reached : Run (launch settings text rate rendererRate limits unavailable instant) w) :
    StartLaw w := by
  constructor
  case paused => exact fun paused => by rw [Transport.start_of_paused _ _ paused]
  case asks =>
    split
    · next paused =>
      rw [Transport.start_of_paused _ _ paused, Transport.resume_eq _ _ paused]
      rfl
    · next unpaused =>
      obtain ⟨device, loops, torn, held⟩ := w.transport.teardown_eq_with w.instant
      rw [Transport.start_of_unpaused _ _ unpaused, Transport.source_startAnew, torn]
      exact Transport.asksSource_congr w.transport rfl held
  case asks_no_more => exact fun held v run => run.source_eq held
  case put_off =>
    exact fun fault pending fails =>
      .of_error reached pending fails ⟨rfl, rfl, rfl⟩ w.transport.logged
  case at_once =>
    intro fault idle free fails
    have unpaused : w.transport.state ≠ .paused := by
      intro paused
      rw [Transport.start_of_paused _ _ paused] at fails
      cases fails
    obtain ⟨device, loops, torn, -⟩ := w.transport.teardown_eq_with w.instant
    obtain ⟨logged, stop⟩ := w.transport.stop_eq_teardown w.instant
    rw [Transport.start_of_unpaused _ _ unpaused] at fails
    constructor
    · simp only [started, Transport.start_of_unpaused _ _ unpaused, idle]
      rfl
    · have stopped : { w with transport := w.transport.stop w.instant } = { w.tornDown with
          errand := none
          transport := { w.tornDown.transport with logged } } := by
        simp only [stop, tornDown, idle]
      rw [stopped]
      exact .of_error (reached.trans (run_tornDown idle free unpaused)) rfl fails
        (by rw [tornDown, torn]; exact ⟨rfl, rfl, rfl⟩) logged

section OneNote

/-- A world in which a text is played that has been spoilt since: the loop has laid its first pass,
which is sounding. -/
noncomputable def spoiltPlaying : World ℝ where
  instant := 0
  transport :=
    { oneNoteLaid.transport with
      text := ['(']
      loops := [LiveLoop.passLaid { oneNoteReady with phase := .laying [] }] }
  errand := none
  marks := oneNoteLaid.marks

theorem run_spoiltPlaying : Run oneNoteLaunch spoiltPlaying := by
  let laid : LiveLoop ℝ := { oneNoteReady with phase := .laying [] }
  let device : Device ℝ := oneNotePlaying.heldDevice.taken oneNoteEvent
  have completes : Move oneNoteLaid (oneNoteLaid.stepped 0 laid laid.passLaid device device) :=
    .step 0 laid laid.passLaid device device rfl rfl rfl
  have spoils : Move (oneNoteLaid.stepped 0 laid laid.passLaid device device) spoiltPlaying :=
    .edit _ rfl (.setText ['('])
  exact (run_oneNoteLaid.tail completes).tail spoils

/-- The transport when it has ended the session, and found nothing to play. -/
noncomputable def spoiltIdle : Transport ℝ := spoiltPlaying.transport.teardown 0

theorem exists_start_spoilt : ∃ fault, spoiltPlaying.transport.start 0 =
    (spoiltIdle, .error (.score fault)) := by
  have unpaused : spoiltPlaying.transport.state ≠ .paused := by
    rw [show spoiltPlaying.transport.state = .playing from rfl]
    decide
  have acquires : spoiltIdle.acquire = (spoiltIdle, .ok spoiltIdle.heldDevice) := rfl
  cases read : Score.read spoiltIdle.text spoiltIdle.settings.tempo with
  | ok score =>
    obtain ⟨-, -, tokens, unmatched, -⟩ := Score.read_eq_ok.mp read
    cases unmatched
  | error fault =>
    have kept : spoiltIdle.kept? = none := by
      have other : ¬ (['a'] : List Char) = spoiltIdle.text := by decide
      have cached : spoiltIdle.cache = some ⟨['a'], 60, oneNoteScore, none⟩ := rfl
      simp only [Transport.kept?, cached, Option.filter_some, other, false_and, decide_false,
        Bool.false_eq_true, if_false]
    have resolves : spoiltIdle.resolve = (spoiltIdle, .error fault) := by
      simp only [Transport.resolve, kept, read]
    refine ⟨fault, ?_⟩
    rw [Transport.start_of_unpaused _ _ unpaused]
    show spoiltIdle.startAnew 0 = _
    simp only [Transport.startAnew, acquires, resolves]

/-- The law at a start that fails while a session is playing, and succeeds when the text has been
put right. -/
theorem failed_start_is_clean_spoilt : ∃ (fault : TransportFault ℝ) (later : World ℝ)
    (history : History ℝ), Run oneNoteLaunch spoiltPlaying ∧
      spoiltPlaying.transport.state = .playing ∧
      (spoiltPlaying.transport.start spoiltPlaying.instant).2 = .error fault ∧
      StartLaw spoiltPlaying ∧ later.transport.CanPlay ∧
      Recovers
        { spoiltPlaying with transport := spoiltPlaying.transport.stop spoiltPlaying.instant }
        [.edit (.setText ['a'])] later history := by
  obtain ⟨fault, starts⟩ := exists_start_spoilt
  have fails : (spoiltPlaying.transport.start spoiltPlaying.instant).2 = .error (.score fault) :=
    congrArg Prod.snd starts
  have law : StartLaw spoiltPlaying := failed_start_is_clean liveSettings ['a'] 44100 44100
    ⟨none, none⟩ 0 0 spoiltPlaying run_spoiltPlaying
  have free : spoiltPlaying.transport.IsFree := by
    intro loop member
    rw [List.mem_singleton.mp member]
    rfl
  obtain ⟨same, setback⟩ := law.at_once _ rfl free fails
  let later : World ℝ := { spoiltPlaying with transport := spoiltIdle.setText ['a'] }
  have follows : (spoiltPlaying.tornDown.carriedOut .beginning).follow? [.edit (.setText ['a'])] =
      some (later, [(.edit (.setText ['a']), .nothing)]) := by
    have started : spoiltPlaying.started = { spoiltPlaying with transport := spoiltIdle } :=
      congrArg (fun result => { spoiltPlaying with transport := result.1 }) starts
    rw [same, started]
    rfl
  have can : later.transport.CanPlay :=
    ⟨.inl rfl, oneNoteScore, read_oneNoteScore, fun rendered => nomatch rendered⟩
  exact ⟨_, later, _, run_spoiltPlaying, rfl, fails, law, can,
    setback.recovers _ later _ (by simp) follows can⟩

end OneNote

end World

end Portamento
