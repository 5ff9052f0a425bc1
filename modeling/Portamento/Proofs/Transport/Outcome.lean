import Portamento.Proofs.Transport.Idle
import Portamento.Proofs.Transport.Tally

/-!
# The result of a live loop is delivered once

A live loop returns by itself, because it is told to, because a request is refused, or because it is
broken off; the result waits until it is asked for, or until the session is ended by a start or a
stop. A loop that is broken off has the device in its hands. It lets go of it all the same, and the
device is silenced as it is after any other session.
-/

namespace Portamento

variable {α : Type}

/-- Whether an operation does no more to a session than to pause or to resume it. -/
def Operation.spares : Operation → Bool
  | .pause => true
  | .resume => true
  | _ => false

/-- Whether an errand does. -/
def Errand.spares : Errand → Bool
  | .pausing => true
  | .resuming => true
  | _ => false

/-- Whether an act asks for no operation that ends the session. -/
def Act.spares : Act α → Bool
  | .ask operation => operation.spares
  | _ => true

theorem Transport.asked_of_spares {t next : Transport α} {operation : Operation}
    {left : Option Errand} {answer : Answer α} (spares : operation.spares = true)
    (asks : t.asked operation = (next, left, answer)) :
    next = t ∧ ∀ errand, left = some errand → errand.spares = true := by
  cases operation with
  | pause =>
    simp only [asked] at asks
    split at asks <;> cases asks <;> simp [Errand.spares]
  | resume =>
    simp only [asked] at asks
    split at asks <;> cases asks <;> simp [Errand.spares]
  | _ => cases spares

variable [Tonal α]

namespace World

variable {w v : World α} {act : Act α} {answer : Answer α} {history : History α} {i : Nat}
  {outcome : Except SoundFault Nat}

section Delivery

variable [Scalar.Ordered α]

/-- What is left of a session whose result has been delivered. -/
structure Cleared (w : World α) : Prop where
  session : w.transport.session = none
  state : w.transport.state = .idle
  buffer : ∀ device, w.transport.device = some device → device.buffer = none
  pending : ∀ device, w.transport.device = some device → device.pending w.instant = 0

theorem Cleared.of_idle (orderly : Orderly w) (idle : w.transport.session = none) : Cleared w := by
  obtain ⟨buffer, begun⟩ := orderly.quiet idle
  refine ⟨idle, w.transport.state_of_idle idle, fun device held => ?_, fun device held => ?_⟩
  · rw [← buffer, World.device, Transport.heldDevice_eq held]
  · rw [World.tones, World.now, World.device, Transport.heldDevice_eq held] at begun
    exact pending_eq_zero begun

/-- The world after a poll. -/
def polled (w : World α) : World α :=
  { w with transport := (w.transport.pollLive w.instant).1 }

/-- What a poll does that finds a result, if nothing comes between its two parts: it delivers the
result and ends the session. -/
structure Delivers (w : World α) (i : Nat) (outcome : Except SoundFault Nat) : Prop where
  result : (w.transport.pollLive w.instant).2 = outcome.map some
  follow : w.follow? [.ask .poll, .goOn] =
    some (w.polled, [(.ask .poll, .nothing), (.goOn, .collected (some i) outcome)])
  cleared : Cleared w.polled

/-- Whether a result is the loop's own: the number of the passes that it has put on the device, each
of them complete and nothing besides; or the answer of the device to its last call. -/
def IsOwn (w : World α) (history : History α) (i : Nat) (loop : LiveLoop α) :
    Except SoundFault Nat → Prop
  | .ok passes => ((w.marksOf i).map fun mark => (mark.pass, mark.event)) = loop.passesUpTo passes ∧
    ∀ call ∈ history.callsOf i, call.isGranted = true
  | .error fault => ∃ front call, history.callsOf i = front ++ [call] ∧ call.fault? = some fault ∧
    ∀ call ∈ front, call.isGranted = true

/-- Whether no operation is under way that ends the session. -/
def IsCalm (w : World α) : Prop := ∀ errand, w.errand = some errand → errand.spares = true

/-- What is to be said of the results of loops, in a world with its history. -/
structure Delivery (w : World α) (history : History α) : Prop where
  /-- A result that is there is delivered. -/
  delivers : ∀ i outcome, w.errand = none → w.transport.Returned i outcome → w.Delivers i outcome
  /-- A loop that is refused a tone or broken off has the device in its hands. Its result is there
  at once, and the device is free. -/
  breaks_off : ∀ i loop device event later fault, w.transport.loops[i]? = some loop →
    w.transport.device = some device → loop.phase = .laying (event :: later) →
      device.refusal? = some fault → ∃ v, w.act? (.step i) =
        some (v, .called i [.tone event.path event.start event.finish (.error fault)]) ∧
        v.transport.Returned i (.error fault) ∧ v.transport.IsFree
  /-- If there is none, a poll finds none and changes nothing. -/
  otherwise : (∀ i outcome, ¬ w.transport.Returned i outcome) →
    w.transport.pollLive w.instant = (w.transport, .ok none) ∧
      (w.errand = none → w.act? (.ask .poll) = some (w, .unreturned))
  /-- A poll that has been asked for delivers what it has found, whatever has come between. -/
  put_off : ∀ outcome, w.errand = some (.collecting outcome) → ∃ i,
    w.transport.Returned i outcome ∧ w.act? .goOn =
      some (w.carriedOut (.collecting outcome), .collected (some i) outcome) ∧
      Cleared (w.carriedOut (.collecting outcome))
  own : ∀ i loop outcome, w.transport.loops[i]? = some loop → loop.phase = .ended outcome →
    w.IsOwn history i loop outcome
  /-- What has been delivered is the result of a loop whose session is over. -/
  delivered : ∀ loop outcome, (loop, outcome) ∈ history.delivered →
    ∃ i, loop = some i ∧ w.transport.HasEnded i outcome ∧ w.transport.current? ≠ some i
  once : (history.delivered.map Prod.fst).Nodup
  /-- A session that is over never comes back, for its loop is that of no other. -/
  never_back : ∀ i v, Run w v → i < w.transport.loops.length → v.transport.current? = some i →
    w.transport.current? = some i
  /-- A result waits for the first poll, unless a start or a stop ends the session. -/
  waits : ∀ i outcome, w.transport.Returned i outcome → w.IsCalm →
    ∀ acts later told, (∀ act ∈ acts, act.spares = true) → w.follow? acts = some (later, told) →
      later.transport.Returned i outcome ∧ later.IsCalm ∧
        (later.errand = none → later.Delivers i outcome)

omit [Scalar.Ordered α] in
/-- A loop that has returned does not hold the device. -/
theorem Orderly.isFree_of_returned (orderly : Orderly w)
    (returned : w.transport.Returned i outcome) : w.transport.IsFree := by
  obtain ⟨current, before, found, ended⟩ := returned
  refine orderly.isFree fun j current' loop numbered => ?_
  rw [current] at current'
  cases current'
  rw [found] at numbered
  cases numbered
  simp only [LiveLoop.holdsDevice, ended]

theorem delivers_of_collecting (poised : Poised w) (orderly : Orderly w)
    (returned : w.transport.Returned i outcome)
    (pending : w.errand = some (.collecting outcome)) : w.act? .goOn =
      some (w.carriedOut (.collecting outcome), .collected (some i) outcome) ∧
      Cleared (w.carriedOut (.collecting outcome)) := by
  have free := orderly.isFree_of_returned returned
  have move : Move w (w.carriedOut (.collecting outcome)) := .carryOut _ pending free
  constructor
  · refine act?_goOn.mpr ⟨_, pending, free, rfl, ?_⟩
    rw [Transport.reply, returned.1]
  · exact .of_idle (orderly.effect (move.effect poised)) (poised.carriedOut_eq pending rfl).2.2

theorem delivers_of_returned (poised : Poised w) (orderly : Orderly w) (idle : w.errand = none)
    (returned : w.transport.Returned i outcome) : w.Delivers i outcome := by
  have found := Transport.outcome_eq_some_iff.mpr ⟨i, returned⟩
  have takes : w.transport.TakesUp w.transport.revoke (.collecting outcome) := .poll outcome found
  let asked : World α :=
    { w with transport := w.transport.revoke, errand := some (.collecting outcome) }
  have asks : w.act? (.ask .poll) = some (asked, .nothing) :=
    act?_ask.mpr ⟨idle, _, _, by simp only [Transport.asked, found], rfl⟩
  have move : Move w asked := .takeUp _ _ idle takes
  obtain ⟨-, -, same⟩ := Transport.returned_of_takesUp takes
  have returned' : asked.transport.Returned i outcome :=
    ⟨same.trans returned.1, hasEnded_of_run poised (.single move) returned.2⟩
  obtain ⟨goes, cleared⟩ :=
    delivers_of_collecting (poised.move move) (orderly.effect (move.effect poised)) returned' rfl
  have polled : asked.carriedOut (.collecting outcome) = w.polled := by
    rw [World.polled, Transport.pollLive_eq _ _ outcome found, idle]
    cases outcome <;> rfl
  rw [polled] at goes cleared
  refine ⟨?_, ?_, cleared⟩
  · unfold Transport.pollLive
    rw [found]
    cases outcome <;> rfl
  · exact follow?_cons.mpr ⟨asked, .nothing, _, asks,
      follow?_cons.mpr ⟨w.polled, _, [], goes, rfl, rfl⟩, rfl⟩

theorem breaks_off (poised : Poised w) (orderly : Orderly w) {loop : LiveLoop α}
    {device : Device α} {event : Event α} {later : List (Event α)} {fault : SoundFault}
    (numbered : w.transport.loops[i]? = some loop) (held : w.transport.device = some device)
    (laying : loop.phase = .laying (event :: later)) (refuses : device.refusal? = some fault) :
    ∃ v, w.act? (.step i) =
      some (v, .called i [.tone event.path event.start event.finish (.error fault)]) ∧
      v.transport.Returned i (.error fault) ∧ v.transport.IsFree := by
  let next : LiveLoop α := { loop with phase := .ended (.error fault) }
  have taken : loop.step? w.instant device = some (next, device.refused) :=
    LiveLoop.step?_of_refuses laying refuses w.instant
  have calls : loop.calls device =
      [.tone event.path event.start event.finish (.error fault)] := by
    simp only [LiveLoop.calls, laying, Device.calls_of_refusal refuses]
  have holds : loop.holdsDevice = true := by simp only [LiveLoop.holdsDevice, laying]
  have move : Move w (w.stepped i loop next device device.refused) :=
    .step i loop next device _ held numbered taken
  have returned : (w.stepped i loop next device device.refused).transport.Returned i
      (.error fault) := by
    refine ⟨orderly.current_of_holdsDevice numbered holds, next, ?_, rfl⟩
    exact List.getElem?_set_self (List.getElem?_eq_some_iff.mp numbered).1
  exact ⟨_, act?_step.mpr ⟨device, loop, next, _, held, numbered, taken, rfl, by rw [calls]⟩,
    returned, (orderly.effect (move.effect poised)).isFree_of_returned returned⟩

omit [Scalar.Ordered α] in
theorem isOwn (recorded : w.Recorded) (tally : Tally w history) {loop : LiveLoop α}
    (numbered : w.transport.loops[i]? = some loop) (ended : loop.phase = .ended outcome) :
    w.IsOwn history i loop outcome := by
  have reports := tally.reports i loop numbered
  cases outcome with
  | error fault => exact reports.refused fault ended
  | ok passes =>
    constructor
    · rw [reports.counted passes ended]
      exact (recorded i loop numbered).whole (by simp only [LiveLoop.isMidPass, ended])
    · refine reports.granted fun fault => ?_
      rw [ended]
      simp

omit [Tonal α] [Scalar.Ordered α] in
theorem IsCalm.of_idle (idle : w.errand = none) : w.IsCalm := by
  intro errand pending
  rw [idle] at pending
  cases pending

/-- Neither pauses nor edits, nor the device, nor the steps of other loops, touch a result that
waits. -/
theorem returned_of_act (poised : Poised w) (returned : w.transport.Returned i outcome)
    (calm : w.IsCalm) (spares : act.spares = true) (acts : w.act? act = some (v, answer)) :
    v.transport.Returned i outcome ∧ v.IsCalm := by
  have ended := hasEnded_of_run poised (run_of_act acts) returned.2
  cases act with
  | advance nanoseconds =>
    cases acts
    exact ⟨⟨returned.1, ended⟩, calm⟩
  | limit limits =>
    cases acts
    exact ⟨⟨returned.1, ended⟩, calm⟩
  | step j =>
    obtain ⟨device, loop, next, after, -, -, -, rfl, -⟩ := act?_step.mp acts
    exact ⟨⟨returned.1, ended⟩, calm⟩
  | edit edit =>
    obtain ⟨idle, rfl, -⟩ := act?_edit.mp acts
    obtain ⟨text, tempo, cache, eq, -⟩ := (Transport.edits_edited (t := w.transport) edit).eq
    refine ⟨⟨?_, ended⟩, calm⟩
    rw [eq]
    exact returned.1
  | ask operation =>
    obtain ⟨idle, transport, errand, asks, rfl⟩ := act?_ask.mp acts
    obtain ⟨rfl, spares'⟩ := Transport.asked_of_spares spares asks
    exact ⟨⟨returned.1, ended⟩, spares'⟩
  | goOn =>
    obtain ⟨errand, pending, -, rfl, -⟩ := act?_goOn.mp acts
    have gentle := calm errand pending
    cases errand with
    | pausing =>
      refine ⟨⟨?_, ended⟩, .of_idle rfl⟩
      rw [← returned.1, ← Transport.current?_setPaused w.transport true]
      rfl
    | resuming =>
      refine ⟨⟨?_, ended⟩, .of_idle rfl⟩
      rw [← returned.1, ← Transport.current?_setPaused w.transport false]
      rfl
    | _ => cases gentle

theorem returned_of_follow (poised : Poised w) (orderly : Orderly w)
    (returned : w.transport.Returned i outcome) (calm : w.IsCalm) {acts : List (Act α)}
    {later : World α} {told : History α} (spares : ∀ act ∈ acts, act.spares = true)
    (follows : w.follow? acts = some (later, told)) :
    later.transport.Returned i outcome ∧ later.IsCalm ∧
      (later.errand = none → later.Delivers i outcome) := by
  induction acts generalizing w told with
  | nil =>
    cases follows
    exact ⟨returned, calm, fun idle => delivers_of_returned poised orderly idle returned⟩
  | cons act acts ih =>
    obtain ⟨v, answer, rest, done, follows', rfl⟩ := follow?_cons.mp follows
    obtain ⟨returned', calm'⟩ := returned_of_act poised returned calm
      (spares act List.mem_cons_self) done
    have spares' : ∀ act ∈ acts, act.spares = true :=
      fun act member => spares act (List.mem_cons_of_mem _ member)
    rcases eq_or_move_of_act done with rfl | move
    · exact ih poised orderly returned' calm' spares' follows'
    · exact ih (poised.move move) (orderly.effect (move.effect poised)) returned' calm' spares'
        follows'

/-- In whatever way operations, edits, time and the steps of the loops have followed each other, the
result of a session's loop is its own and is delivered to the first poll that can have it, and to no
other. -/
theorem outcomes_are_delivered_once (settings : Settings α) (text : List Char)
    (rate rendererRate : Nat) (limits : DeviceLimits) (unavailable instant : Nat)
    (acts : List (Act α)) (w : World α) (history : History α)
    (follows : (launch settings text rate rendererRate limits unavailable instant).follow? acts =
      some (w, history)) : Delivery w history := by
  obtain ⟨poised, orderly, recorded, tally⟩ := tally_of_follow follows
  constructor
  case delivers => exact fun i outcome idle => delivers_of_returned poised orderly idle
  case breaks_off => exact fun i loop device event later fault => breaks_off poised orderly
  case otherwise =>
    intro unreturned
    have nothing : w.transport.sessionLoop?.bind LiveLoop.outcome? = none := by
      refine Option.eq_none_iff_forall_ne_some.mpr fun outcome found => ?_
      obtain ⟨i, returned⟩ := Transport.outcome_eq_some_iff.mp found
      exact unreturned i outcome returned
    have asked : w.transport.asked .poll = (w.transport, none, .unreturned) := by
      simp only [Transport.asked, nothing]
    exact ⟨by simp only [Transport.pollLive, nothing],
      fun idle => act?_ask.mpr ⟨idle, _, _, asked, by rw [← idle]⟩⟩
  case put_off =>
    intro outcome pending
    obtain ⟨i, returned⟩ := tally.collecting outcome pending
    exact ⟨i, returned, delivers_of_collecting poised orderly returned pending⟩
  case own => exact fun i loop outcome => isOwn recorded tally
  case delivered => exact tally.delivered
  case once => exact tally.once
  case never_back => exact fun i v run => current_of_run poised run
  case waits =>
    exact fun i outcome returned calm acts later told =>
      returned_of_follow poised orderly returned calm

/-- The law when a loop has broken off between two notes of one chord. -/
theorem outcomes_are_delivered_once_duo : ∃ acts history,
    duoLaunch.follow? acts = some (duoBroken, history) ∧ Delivery duoBroken history ∧
      duoBroken.Delivers 0 (.error (.deviceUnavailable "output lost")) := by
  obtain ⟨acts, history, follows⟩ := run_duoBroken.exists_follow
  have law : Delivery duoBroken history := outcomes_are_delivered_once duoSettings duo 44100 44100
    ⟨some 1, none⟩ 0 0 acts duoBroken history follows
  exact ⟨acts, history, follows, law, law.delivers 0 _ rfl ⟨rfl, _, rfl, rfl⟩⟩

end Delivery

end World

end Portamento
