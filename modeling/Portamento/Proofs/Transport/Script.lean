import Portamento.Proofs.Transport.World

/-!
# A world, act by act

What happens in a world is put down as a script, so that two worlds can be put through the same acts
and the answers compared. An act that is not possible stops the script: the step of a loop that
sleeps or has returned, or anything that the transport is asked before it is done with the operation
that it has taken up.
-/

namespace Portamento

/-- What can be done to a transport without its device. -/
inductive Edit (α : Type) where
  | setText (text : List Char)
  | setTempo (tempo : α)
  | resolve
  | timeline

/-- What a transport can be asked to do with its session. -/
inductive Operation where
  | start
  | pause
  | resume
  | stop
  | poll

/-- One thing that happens. -/
inductive Act (α : Type) where
  | advance (nanoseconds : Nat)
  /-- The device gets other limits. -/
  | limit (limits : DeviceLimits)
  /-- A loop takes a step. -/
  | step (loop : Nat)
  | edit (edit : Edit α)
  /-- The transport takes up an operation, if that fits its state. -/
  | ask (operation : Operation)
  /-- The transport goes on with the operation that it has taken up. -/
  | goOn

/-- What is learnt by an act. -/
inductive Answer (α : Type) where
  | nothing
  /-- What a loop has asked of the device, and the device has answered. -/
  | called (loop : Nat) (calls : List (SinkCall α))
  | resolved (result : Except (ScoreFault α) (Score α))
  | laidOut (result : Except (ScoreFault α) (Timeline α))
  | started (result : Except (TransportFault α) Unit)
  /-- There is no result of a loop to be had. -/
  | unreturned
  /-- The result of the session's loop, with the number of that loop. -/
  | collected (loop : Option Nat) (outcome : Except SoundFault Nat)

/-- What has happened, with what was learnt by it. -/
abbrev History (α : Type) : Type := List (Act α × Answer α)

variable {α : Type} [Tonal α]

namespace Transport

instance (t : Transport α) : Decidable t.IsFree :=
  inferInstanceAs (Decidable (∀ loop ∈ t.loops, loop.holdsDevice = false))

variable (t : Transport α)

/-- The transport after an edit, and its answer. -/
def edited : Edit α → Transport α × Answer α
  | .setText text => (t.setText text, .nothing)
  | .setTempo tempo => (t.setTempo tempo, .nothing)
  | .resolve => (t.resolve.1, .resolved t.resolve.2)
  | .timeline => (t.timeline.1, .laidOut t.timeline.2)

/-- The first part of an operation: what it makes of the transport, the errand that is left, and the
answer as far as there is one yet. To begin what is paused never fails, and so is answered at once.
-/
def asked : Operation → Transport α × Option Errand × Answer α
  | .start =>
    match t.state, t.session with
    | .paused, _ => (t, some .resuming, .started (.ok ()))
    | _, some _ => (t.revoke, some .restarting, .nothing)
    | _, none => (t, some .beginning, .nothing)
  | .pause =>
    match t.state with
    | .playing => (t, some .pausing, .nothing)
    | _ => (t, none, .nothing)
  | .resume =>
    match t.state with
    | .paused => (t, some .resuming, .nothing)
    | _ => (t, none, .nothing)
  | .stop =>
    match t.session with
    | some _ =>
      ((if t.isFinished then t.log .uncollected else t).revoke, some .stopping, .nothing)
    | none => (t, none, .nothing)
  | .poll =>
    match t.sessionLoop?.bind LiveLoop.outcome? with
    | some outcome => (t.revoke, some (.collecting outcome), .nothing)
    | none => (t, none, .unreturned)

/-- What an errand answers when it is carried out. -/
def reply (instant : Nat) : Errand → Answer α
  | .beginning => .started (t.startAnew instant).2
  | .collecting outcome => .collected t.current? outcome
  | _ => .nothing

variable {t}

omit [Tonal α] in
/-- An operation that leaves an errand has been taken up. -/
theorem takesUp_of_asked {next : Transport α} {operation : Operation} {errand : Errand}
    {answer : Answer α} (asks : t.asked operation = (next, some errand, answer)) :
    t.TakesUp next errand := by
  cases operation with
  | start =>
    simp only [asked] at asks
    split at asks
    · next paused =>
      cases asks
      exact .resume paused
    · next begun unpaused =>
      cases asks
      exact .restart (by rw [begun]; rfl) unpaused
    · next idle _ =>
      cases asks
      exact .start idle
  | pause =>
    simp only [asked] at asks
    split at asks
    · next playing =>
      cases asks
      exact .pause playing
    · cases asks
  | resume =>
    simp only [asked] at asks
    split at asks
    · next paused =>
      cases asks
      exact .resume paused
    · cases asks
  | stop =>
    simp only [asked] at asks
    split at asks
    · next session begun =>
      cases asks
      exact .stop (by rw [begun]; rfl)
    · cases asks
  | poll =>
    simp only [asked] at asks
    split at asks
    · next outcome returned =>
      cases asks
      exact .poll outcome returned
    · cases asks

omit [Tonal α] in
/-- An operation that leaves no errand has changed nothing. -/
theorem eq_of_asked {next : Transport α} {operation : Operation} {answer : Answer α}
    (asks : t.asked operation = (next, none, answer)) : next = t := by
  cases operation <;> simp only [asked] at asks <;> split at asks <;> cases asks <;> rfl

omit [Tonal α] in
/-- An operation that can be taken up is taken up when it is asked for. -/
theorem TakesUp.exists_asked {next : Transport α} {errand : Errand}
    (takes : t.TakesUp next errand) :
    ∃ operation answer, t.asked operation = (next, some errand, answer) := by
  cases takes with
  | pause playing => exact ⟨.pause, .nothing, by simp only [asked, playing]⟩
  | resume paused => exact ⟨.resume, .nothing, by simp only [asked, paused]⟩
  | stop session =>
    obtain ⟨begun, found⟩ := Option.isSome_iff_exists.mp session
    exact ⟨.stop, .nothing, by simp only [asked, found]⟩
  | poll outcome returned => exact ⟨.poll, .nothing, by simp only [asked, returned]⟩
  | restart session unpaused =>
    obtain ⟨begun, found⟩ := Option.isSome_iff_exists.mp session
    refine ⟨.start, .nothing, ?_⟩
    simp only [asked, found]
  | start idle =>
    exact ⟨.start, .nothing, by simp only [asked, t.state_of_idle idle, idle]⟩

theorem edits_edited (edit : Edit α) : t.Edits (t.edited edit).1 := by
  cases edit with
  | setText text => exact .setText text
  | setTempo tempo => exact .setTempo tempo
  | resolve => exact .resolve
  | timeline => exact .timeline

theorem Edits.exists_edited {next : Transport α} (edits : t.Edits next) :
    ∃ edit, (t.edited edit).1 = next := by
  cases edits with
  | setText text => exact ⟨.setText text, rfl⟩
  | setTempo tempo => exact ⟨.setTempo tempo, rfl⟩
  | resolve => exact ⟨.resolve, rfl⟩
  | timeline => exact ⟨.timeline, rfl⟩

end Transport

namespace World

/-- The world after an act, and what is learnt by it; or nothing, if the act is not possible. -/
def act? (w : World α) : Act α → Option (World α × Answer α)
  | .advance nanoseconds => some ({ w with instant := w.instant + nanoseconds }, .nothing)
  | .limit limits => some ({ w with transport := w.transport.limited limits }, .nothing)
  | .step i =>
    w.transport.device.bind fun device =>
      w.transport.loops[i]?.bind fun loop =>
        (loop.step? w.instant device).map fun (next, after) =>
          (w.stepped i loop next device after, .called i (loop.calls device))
  | .edit edit =>
    match w.errand with
    | some _ => none
    | none =>
      let (transport, answer) := w.transport.edited edit
      some ({ w with transport }, answer)
  | .ask operation =>
    match w.errand with
    | some _ => none
    | none =>
      let (transport, errand, answer) := w.transport.asked operation
      some ({ w with transport, errand }, answer)
  | .goOn =>
    match w.errand with
    | some errand =>
      if w.transport.IsFree then
        some (w.carriedOut errand, w.transport.reply w.instant errand)
      else none
    | none => none

/-- The world after so many acts, with what has been learnt. -/
def follow? (w : World α) : List (Act α) → Option (World α × History α)
  | [] => some (w, [])
  | act :: later =>
    match w.act? act with
    | none => none
    | some (v, answer) =>
      (v.follow? later).map fun (u, history) => (u, (act, answer) :: history)

variable {w u v : World α}

/-! What it takes for an act to be possible, and what it does. -/

section Acts

variable {answer : Answer α}

theorem act?_step {i : Nat} : w.act? (.step i) = some (v, answer) ↔
    ∃ device loop next after, w.transport.device = some device ∧
      w.transport.loops[i]? = some loop ∧ loop.step? w.instant device = some (next, after) ∧
      v = w.stepped i loop next device after ∧ answer = .called i (loop.calls device) := by
  simp only [act?, Option.bind_eq_some_iff, Option.map_eq_some_iff, Prod.exists, Prod.mk.injEq]
  constructor
  · rintro ⟨device, held, loop, numbered, next, after, taken, rfl, rfl⟩
    exact ⟨device, loop, next, after, held, numbered, taken, rfl, rfl⟩
  · rintro ⟨device, loop, next, after, held, numbered, taken, rfl, rfl⟩
    exact ⟨device, held, loop, numbered, next, after, taken, rfl, rfl⟩

theorem act?_edit {edit : Edit α} : w.act? (.edit edit) = some (v, answer) ↔
    w.errand = none ∧ v = { w with transport := (w.transport.edited edit).1 } ∧
      answer = (w.transport.edited edit).2 := by
  unfold act?
  cases w.errand <;> simp [eq_comm]

theorem act?_ask {operation : Operation} : w.act? (.ask operation) = some (v, answer) ↔
    w.errand = none ∧ ∃ transport errand,
      w.transport.asked operation = (transport, errand, answer) ∧
        v = { w with transport, errand } := by
  unfold act?
  cases w.errand with
  | some errand => simp
  | none =>
    simp only [Option.some.injEq, Prod.mk.injEq, true_and]
    constructor
    · rintro ⟨rfl, rfl⟩
      exact ⟨_, _, rfl, rfl⟩
    · rintro ⟨transport, errand, asks, rfl⟩
      simp only [asks, and_self]

theorem act?_goOn : w.act? .goOn = some (v, answer) ↔
    ∃ errand, w.errand = some errand ∧ w.transport.IsFree ∧ v = w.carriedOut errand ∧
      answer = w.transport.reply w.instant errand := by
  unfold act?
  cases w.errand with
  | none => simp
  | some errand =>
    by_cases free : w.transport.IsFree <;> simp [free, eq_comm]

/-- An act is a move, or an operation that does not fit the state. -/
theorem eq_or_move_of_act {act : Act α} (acts : w.act? act = some (v, answer)) :
    v = w ∨ Move w v := by
  cases act with
  | advance nanoseconds =>
    cases acts
    exact .inr (.advance nanoseconds)
  | limit limits =>
    cases acts
    exact .inr (.limit limits)
  | step i =>
    obtain ⟨device, loop, next, after, held, numbered, taken, rfl, -⟩ := act?_step.mp acts
    exact .inr (.step i loop next device after held numbered taken)
  | edit edit =>
    obtain ⟨idle, rfl, -⟩ := act?_edit.mp acts
    exact .inr (.edit _ idle (Transport.edits_edited edit))
  | ask operation =>
    obtain ⟨idle, transport, errand, asks, rfl⟩ := act?_ask.mp acts
    cases errand with
    | none => exact .inl (by rw [Transport.eq_of_asked asks, ← idle])
    | some errand => exact .inr (.takeUp transport errand idle (Transport.takesUp_of_asked asks))
  | goOn =>
    obtain ⟨errand, pending, free, rfl, -⟩ := act?_goOn.mp acts
    exact .inr (.carryOut errand pending free)

theorem run_of_act {act : Act α} (acts : w.act? act = some (v, answer)) : Run w v := by
  rcases eq_or_move_of_act acts with rfl | move
  · exact .refl
  · exact .single move

/-- Every move is an act. -/
theorem Move.exists_act (move : Move w v) : ∃ act answer, w.act? act = some (v, answer) := by
  cases move with
  | advance nanoseconds => exact ⟨.advance nanoseconds, _, rfl⟩
  | limit limits => exact ⟨.limit limits, _, rfl⟩
  | step i loop next device after held numbered taken =>
    exact ⟨.step i, _, act?_step.mpr ⟨device, loop, next, after, held, numbered, taken, rfl, rfl⟩⟩
  | edit transport idle edits =>
    obtain ⟨edit, rfl⟩ := edits.exists_edited
    exact ⟨.edit edit, _, act?_edit.mpr ⟨idle, rfl, rfl⟩⟩
  | takeUp transport errand idle takes =>
    obtain ⟨operation, answer, asks⟩ := takes.exists_asked
    exact ⟨.ask operation, answer, act?_ask.mpr ⟨idle, transport, some errand, asks, rfl⟩⟩
  | carryOut errand pending free =>
    exact ⟨.goOn, _, act?_goOn.mpr ⟨errand, pending, free, rfl, rfl⟩⟩

end Acts

section Scripts

variable {acts later : List (Act α)} {history : History α}

theorem follow?_cons {act : Act α} : w.follow? (act :: later) = some (u, history) ↔
    ∃ v answer rest, w.act? act = some (v, answer) ∧ v.follow? later = some (u, rest) ∧
      history = (act, answer) :: rest := by
  rw [follow?]
  cases w.act? act with
  | none => simp
  | some found =>
    obtain ⟨v, answer⟩ := found
    simp only [Option.map_eq_some_iff, Prod.exists, Prod.mk.injEq, Option.some.injEq]
    constructor
    · rintro ⟨u', rest, follows, rfl, rfl⟩
      exact ⟨v, answer, rest, ⟨rfl, rfl⟩, follows, rfl⟩
    · rintro ⟨_, _, rest, ⟨rfl, rfl⟩, follows, rfl⟩
      exact ⟨u, rest, follows, rfl, rfl⟩

theorem follow?_append (acts : List (Act α)) : w.follow? (acts ++ later) = some (u, history) ↔
    ∃ v front rest, w.follow? acts = some (v, front) ∧ v.follow? later = some (u, rest) ∧
      history = front ++ rest := by
  induction acts generalizing w history with
  | nil =>
    constructor
    · exact fun follows => ⟨w, [], history, rfl, follows, rfl⟩
    · rintro ⟨_, _, rest, same, follows, rfl⟩
      cases same
      exact follows
  | cons act acts ih =>
    simp only [List.cons_append, follow?_cons, ih]
    constructor
    · rintro ⟨next, answer, _, done, ⟨v, front, rest, before, follows, rfl⟩, rfl⟩
      exact ⟨v, (act, answer) :: front, rest, ⟨next, answer, front, done, before, rfl⟩, follows,
        rfl⟩
    · rintro ⟨v, _, rest, ⟨next, answer, front, done, before, rfl⟩, follows, rfl⟩
      exact ⟨next, answer, front ++ rest, done, ⟨v, front, rest, before, follows, rfl⟩, rfl⟩

/-- What holds of a world and its history and withstands every act holds after every script. -/
theorem carries_of_follow {P : World α → History α → Prop} (base : P w [])
    (step : ∀ u told act v answer, P u told → u.act? act = some (v, answer) →
      P v (told ++ [(act, answer)]))
    (follows : w.follow? acts = some (v, history)) : P v history := by
  -- the induction is on the acts to come, behind a history that has been told
  suffices carried : ∀ acts w told history, P w told → w.follow? acts = some (v, history) →
      P v (told ++ history) from carried acts w [] history base follows
  clear base follows
  intro acts
  induction acts with
  | nil =>
    intro w told history here follows
    cases follows
    rwa [List.append_nil]
  | cons act acts ih =>
    intro w told history here follows
    obtain ⟨next, answer, rest, done, later, rfl⟩ := follow?_cons.mp follows
    have there := ih next (told ++ [(act, answer)]) rest (step w told act next answer here done)
      later
    rwa [List.append_assoc] at there

/-- A script is a run. -/
theorem run_of_follow (follows : w.follow? acts = some (v, history)) : Run w v :=
  carries_of_follow (P := fun v _ => Run w v) .refl
    (fun _ _ _ _ _ run acts => run.trans (run_of_act acts)) follows

/-- Every run is a script. -/
theorem Run.exists_follow (run : Run w v) : ∃ acts history, w.follow? acts = some (v, history) := by
  induction run with
  | refl => exact ⟨[], [], rfl⟩
  | tail _ move ih =>
    obtain ⟨acts, history, follows⟩ := ih
    obtain ⟨act, answer, done⟩ := move.exists_act
    have last := follow?_cons.mpr ⟨_, answer, [], done, by rw [follow?], rfl⟩
    exact ⟨acts ++ [act], _, (follow?_append acts).mpr ⟨_, _, _, follows, last, rfl⟩⟩

end Scripts

end World

end Portamento
