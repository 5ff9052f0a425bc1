import Portamento.Proofs.Live.Report
import Portamento.Proofs.Transport.Harmony
import Portamento.Proofs.Transport.Script

/-!
# What a history tells of the loops

Loops are numbered, and none is forgotten. So it can be told from what has been learnt in a script
which calls a loop has made on the device, and whose results have been delivered. `Tally` says what
that has to do with where the loops stand; every act keeps it.
-/

namespace Portamento

variable {α : Type}

namespace Answer

/-- The calls of a loop that an answer tells of. -/
def callsOf (i : Nat) : Answer α → List (SinkCall α)
  | .called loop calls => if loop = i then calls else []
  | _ => []

/-- The result that an answer delivers, with the number of the session's loop. -/
def delivered? : Answer α → Option (Option Nat × Except SoundFault Nat)
  | .collected loop outcome => some (loop, outcome)
  | _ => none

/-- Whether an answer tells neither of calls nor of a result. -/
def IsPlain : Answer α → Prop
  | .called _ _ => False
  | .collected _ _ => False
  | _ => True

variable {answer : Answer α}

theorem IsPlain.callsOf_eq (plain : answer.IsPlain) (i : Nat) : answer.callsOf i = [] := by
  cases answer with
  | called => exact plain.elim
  | _ => rfl

theorem IsPlain.delivered?_eq (plain : answer.IsPlain) : answer.delivered? = none := by
  cases answer with
  | collected => exact plain.elim
  | _ => rfl

end Answer

namespace History

/-- The calls that a loop has made on the device, with the answers of the device. -/
def callsOf (history : History α) (i : Nat) : List (SinkCall α) :=
  history.flatMap fun entry => entry.2.callsOf i

/-- The results that have been delivered. -/
def delivered (history : History α) : List (Option Nat × Except SoundFault Nat) :=
  history.filterMap fun entry => entry.2.delivered?

variable (history : History α) (act : Act α) (answer : Answer α)

theorem callsOf_concat (i : Nat) : callsOf (history ++ [(act, answer)]) i =
    history.callsOf i ++ answer.callsOf i := by
  simp [callsOf]

theorem delivered_concat : delivered (history ++ [(act, answer)]) =
    history.delivered ++ answer.delivered?.toList := by
  cases found : answer.delivered? <;> simp [delivered, found]

end History

namespace Transport

/-- Whether a loop has returned with an outcome. -/
def HasEnded (t : Transport α) (i : Nat) (outcome : Except SoundFault Nat) : Prop :=
  ∃ loop, t.loops[i]? = some loop ∧ loop.phase = .ended outcome

/-- Whether the session is live, and its loop has returned with an outcome. -/
def Returned (t : Transport α) (i : Nat) (outcome : Except SoundFault Nat) : Prop :=
  t.current? = some i ∧ t.HasEnded i outcome

variable {t : Transport α}

theorem HasEnded.lt {i : Nat} {outcome : Except SoundFault Nat} (ended : t.HasEnded i outcome) :
    i < t.loops.length := by
  obtain ⟨loop, numbered, -⟩ := ended
  exact (List.getElem?_eq_some_iff.mp numbered).1

theorem outcome_eq_some_iff {outcome : Except SoundFault Nat} :
    t.sessionLoop?.bind LiveLoop.outcome? = some outcome ↔ ∃ i, t.Returned i outcome := by
  simp only [sessionLoop?_eq, Option.bind_eq_some_iff, LiveLoop.outcome?_eq_some_iff, Returned,
    HasEnded]
  constructor
  · rintro ⟨loop, ⟨i, current, numbered⟩, ended⟩
    exact ⟨i, current, loop, numbered, ended⟩
  · rintro ⟨i, current, loop, numbered, ended⟩
    exact ⟨loop, ⟨i, current, numbered⟩, ended⟩

/-- A result that is taken up is the one of the session's loop. -/
theorem returned_of_takesUp [Tonal α] {next : Transport α} {outcome : Except SoundFault Nat}
    (takes : t.TakesUp next (.collecting outcome)) :
    ∃ i, t.Returned i outcome ∧ next.current? = t.current? := by
  cases takes with
  | poll _ found =>
    obtain ⟨i, returned⟩ := outcome_eq_some_iff.mp found
    obtain ⟨loops, eq, -⟩ := t.revoke_eq
    rw [eq]
    exact ⟨i, returned, rfl⟩

end Transport

variable [Tonal α]

namespace World

variable {w v : World α} {act : Act α} {answer : Answer α} {history : History α} {i : Nat}
  {outcome : Except SoundFault Nat}

section Acts

/-! What an act makes of the loops, and what is learnt by it of their calls and results. -/

/-- What can be learnt by an act. -/
inductive Learns (w : World α) : Act α → World α → Answer α → Prop where
  | plain (act : Act α) (v : World α) (answer : Answer α) (plain : answer.IsPlain) :
      Learns w act v answer
  /-- The step of a loop tells of its calls. -/
  | called (i : Nat) (v : World α) (calls : List (SinkCall α)) :
      Learns w (.step i) v (.called i calls)
  /-- A result is delivered by going on with the operation that has asked for it. -/
  | collected (outcome : Except SoundFault Nat) (pending : w.errand = some (.collecting outcome)) :
      Learns w .goOn (w.carriedOut (.collecting outcome)) (.collected w.transport.current? outcome)

theorem learns_of_act (acts : w.act? act = some (v, answer)) : w.Learns act v answer := by
  cases act with
  | advance nanoseconds =>
    cases acts
    exact .plain _ _ _ trivial
  | limit limits =>
    cases acts
    exact .plain _ _ _ trivial
  | step i =>
    obtain ⟨device, loop, next, after, -, -, -, -, rfl⟩ := act?_step.mp acts
    exact .called i v _
  | edit edit =>
    obtain ⟨-, -, rfl⟩ := act?_edit.mp acts
    cases edit <;> exact .plain _ _ _ trivial
  | ask operation =>
    obtain ⟨-, transport, errand, asks, -⟩ := act?_ask.mp acts
    refine .plain _ _ _ ?_
    cases operation <;> simp only [Transport.asked] at asks <;> split at asks <;> cases asks <;>
      trivial
  | goOn =>
    obtain ⟨errand, pending, -, rfl, rfl⟩ := act?_goOn.mp acts
    cases errand with
    | collecting outcome => exact .collected outcome pending
    | _ => exact .plain _ _ _ trivial

/-- Of the calls of a loop nothing is learnt but by a step of that loop. -/
theorem callsOf_of_act (acts : w.act? act = some (v, answer)) (other : act ≠ .step i) :
    answer.callsOf i = [] := by
  cases learns_of_act acts with
  | plain _ _ _ plain => exact plain.callsOf_eq i
  | called j => exact if_neg fun same => other (congrArg Act.step same)
  | collected => rfl

/-- What becomes of the loop with a number in an act by which so many of its calls are learnt. -/
inductive Becomes (w : World α) (i : Nat) (next : LiveLoop α) : List (SinkCall α) → Prop where
  | steps (loop : LiveLoop α) (device after : Device α)
      (numbered : w.transport.loops[i]? = some loop)
      (step : loop.Step w.instant device next after) : Becomes w i next (loop.calls device)
  | keeps (numbered : w.transport.loops[i]? = some next) : Becomes w i next []
  | tells (loop : LiveLoop α) (numbered : w.transport.loops[i]? = some loop)
      (eq : next = loop.cancel) : Becomes w i next []
  | begins (plan : LivePlan α) (last : i = w.transport.loops.length) (eq : next = .ofPlan plan) :
      Becomes w i next []

theorem becomes_of_beginsAnew {t : Transport α} {result : Except (TransportFault α) Unit}
    (begins : w.transport.BeginsAnew w.instant (t, result)) {next : LiveLoop α}
    (numbered : t.loops[i]? = some next) : w.Becomes i next [] := by
  cases begins with
  | live =>
    rcases Transport.loop_of_concat numbered with old | ⟨last, rfl⟩
    · exact .keeps old
    · exact .begins _ last rfl
  | _ => exact .keeps numbered

theorem becomes_of_act (acts : w.act? act = some (v, answer)) {next : LiveLoop α}
    (numbered : v.transport.loops[i]? = some next) : w.Becomes i next (answer.callsOf i) := by
  cases act with
  | step j =>
    obtain ⟨device, loop, stepped, after, -, found, taken, rfl, rfl⟩ := act?_step.mp acts
    rcases Transport.loop_of_set numbered with ⟨rfl, rfl⟩ | ⟨other, old⟩
    · rw [Answer.callsOf, if_pos rfl]
      exact .steps loop device after found (LiveLoop.step_of_step? taken)
    · rw [Answer.callsOf, if_neg other]
      exact .keeps old
  | advance nanoseconds =>
    cases acts
    exact .keeps numbered
  | limit limits =>
    cases acts
    exact .keeps numbered
  | edit edit =>
    rw [callsOf_of_act acts (by simp)]
    obtain ⟨-, rfl, -⟩ := act?_edit.mp acts
    obtain ⟨text, tempo, cache, eq, -⟩ := (Transport.edits_edited (t := w.transport) edit).eq
    rw [eq] at numbered
    exact .keeps numbered
  | ask operation =>
    rw [callsOf_of_act acts (by simp)]
    obtain ⟨-, transport, errand, asks, rfl⟩ := act?_ask.mp acts
    cases errand with
    | none =>
      rw [Transport.eq_of_asked asks] at numbered
      exact .keeps numbered
    | some errand =>
      obtain ⟨loops, logged, rfl, -, revoked, -⟩ := (Transport.takesUp_of_asked asks).eq
      simp only [revoked i] at numbered
      split at numbered
      · obtain ⟨loop, found, rfl⟩ := Option.map_eq_some_iff.mp numbered
        exact .tells loop found rfl
      · exact .keeps numbered
  | goOn =>
    rw [callsOf_of_act acts (by simp)]
    obtain ⟨errand, -, -, rfl, -⟩ := act?_goOn.mp acts
    cases errand with
    | beginning =>
      exact becomes_of_beginsAnew (w.transport.startAnew_spec w.instant) numbered
    | collecting outcome => cases outcome <;> exact .keeps numbered
    | _ => exact .keeps numbered

end Acts

section Effect

theorem Effect.hasEnded (effect : Effect w v) (ended : w.transport.HasEnded i outcome) :
    v.transport.HasEnded i outcome := by
  obtain ⟨loop, numbered, ended⟩ := ended
  cases effect with
  | keeps _ _ loops => exact ⟨loop, by rw [loops, numbered], ended⟩
  | steps j before next found step _ loops =>
    have other : j ≠ i := by
      rintro rfl
      rw [numbered] at found
      cases found
      exact step.phase_ne_ended _ ended
    exact ⟨loop, by rw [loops, List.getElem?_set_ne other, numbered], ended⟩
  | tells _ _ _ loops =>
    by_cases current : w.transport.current? = some i
    · exact ⟨loop.cancel, by rw [loops, if_pos current, numbered]; rfl, ended⟩
    · exact ⟨loop, by rw [loops, if_neg current, numbered], ended⟩
  | cuts _ _ loops => exact ⟨loop, by rw [loops, numbered], ended⟩
  | begins _ _ _ _ loops =>
    have inside := (List.getElem?_eq_some_iff.mp numbered).1
    exact ⟨loop, by rw [loops, List.getElem?_append_left inside, numbered], ended⟩

/-- No session is begun with a loop that there has been before. -/
theorem Effect.current_of_current (effect : Effect w v) (begun : i < w.transport.loops.length)
    (current : v.transport.current? = some i) : w.transport.current? = some i := by
  cases effect with
  | keeps _ _ _ _ same => rwa [same] at current
  | steps _ _ _ _ _ _ _ _ session => rwa [Transport.current?_congr session] at current
  | tells _ _ _ _ _ session => rwa [Transport.current?_congr session] at current
  | cuts _ _ _ _ session =>
    rw [Transport.current?_of_idle session] at current
    cases current
  | begins _ _ _ _ _ _ _ last =>
    rw [last] at current
    cases current
    exact absurd begun (Nat.lt_irrefl _)

variable [Scalar.Ordered α]

/-- A loop that has returned stays so. -/
theorem hasEnded_of_run (poised : Poised w) (run : Run w v)
    (ended : w.transport.HasEnded i outcome) : v.transport.HasEnded i outcome :=
  (run.carries (P := fun u => u.transport.HasEnded i outcome) poised ended
    fun _ _ ended _ effect => effect.hasEnded ended).2

/-- No loop is forgotten. -/
theorem length_le_of_run (poised : Poised w) (run : Run w v) :
    w.transport.loops.length ≤ v.transport.loops.length :=
  (run.carries (P := fun u => w.transport.loops.length ≤ u.transport.loops.length) poised
    (Nat.le_refl _) fun _ _ before _ effect => Nat.le_trans before effect.length_le).2

/-- A session that is over never comes back: its loop is that of no other. -/
theorem current_of_run (poised : Poised w) (run : Run w v) (begun : i < w.transport.loops.length)
    (current : v.transport.current? = some i) : w.transport.current? = some i := by
  obtain ⟨-, -, same⟩ := run.carries poised
    (P := fun u => i < u.transport.loops.length ∧
      (u.transport.current? = some i → w.transport.current? = some i))
    ⟨begun, id⟩ fun u v before _ effect => ⟨Nat.lt_of_lt_of_le before.1 effect.length_le,
      fun current => before.2 (effect.current_of_current before.1 current)⟩
  exact same current

end Effect

/-- What the history of a world has to do with its loops. -/
structure Tally (w : World α) (history : History α) : Prop where
  reports : ∀ i (loop : LiveLoop α), w.transport.loops[i]? = some loop →
    loop.Reports (history.callsOf i)
  unbegun : ∀ i, w.transport.loops.length ≤ i → history.callsOf i = []
  /-- A result that is about to be delivered is the one of the session. -/
  collecting : ∀ outcome, w.errand = some (.collecting outcome) →
    ∃ i, w.transport.Returned i outcome
  /-- One that has been delivered is the one of a loop whose session is over. -/
  delivered : ∀ loop outcome, (loop, outcome) ∈ history.delivered →
    ∃ i, loop = some i ∧ w.transport.HasEnded i outcome ∧ w.transport.current? ≠ some i
  once : (history.delivered.map Prod.fst).Nodup

theorem Tally.launch (settings : Settings α) (text : List Char) (rate rendererRate : Nat)
    (limits : DeviceLimits) (unavailable instant : Nat) :
    Tally (launch settings text rate rendererRate limits unavailable instant) [] where
  reports _ _ numbered := nomatch numbered
  unbegun _ _ := rfl
  collecting _ pending := nomatch pending
  delivered _ _ member := nomatch member
  once := .nil

section Tally

variable (tally : Tally w history) (acts : w.act? act = some (v, answer))

include tally acts

theorem Tally.reports_of_act (recorded : w.Recorded) (i : Nat) (loop : LiveLoop α)
    (numbered : v.transport.loops[i]? = some loop) :
    loop.Reports (History.callsOf (history ++ [(act, answer)]) i) := by
  have becomes := becomes_of_act acts numbered
  rw [History.callsOf_concat]
  generalize answer.callsOf i = calls at becomes ⊢
  cases becomes with
  | steps before device after found step =>
    exact step.reports (recorded i before found).none_fresh (tally.reports i before found)
  | keeps found =>
    rw [List.append_nil]
    exact tally.reports i loop found
  | tells before found eq =>
    rw [List.append_nil, eq]
    exact (tally.reports i before found).cancel
  | begins plan last eq =>
    rw [List.append_nil, eq, tally.unbegun i last.ge]
    exact .ofPlan plan

theorem Tally.once_of_act :
    ((History.delivered (history ++ [(act, answer)])).map Prod.fst).Nodup := by
  rw [History.delivered_concat, List.map_append]
  cases learns_of_act acts with
  | plain _ _ _ plain =>
    rw [plain.delivered?_eq]
    simpa using tally.once
  | called => simpa [Answer.delivered?] using tally.once
  | collected result pending =>
    refine List.nodup_append.mpr ⟨tally.once, List.nodup_singleton _, ?_⟩
    rintro loop earlier _ last rfl
    obtain ⟨⟨_, outcome⟩, member, rfl⟩ := List.mem_map.mp earlier
    obtain ⟨i, rfl, -, other⟩ := tally.delivered _ outcome member
    exact other (List.mem_singleton.mp last).symm

variable [Scalar.Ordered α] (poised : Poised w)

include poised

theorem Tally.unbegun_of_act (i : Nat) (outside : v.transport.loops.length ≤ i) :
    History.callsOf (history ++ [(act, answer)]) i = [] := by
  have unbegun := Nat.le_trans (length_le_of_run poised (run_of_act acts)) outside
  have other : act ≠ .step i := by
    rintro rfl
    obtain ⟨device, loop, next, after, -, numbered, -⟩ := act?_step.mp acts
    exact absurd (List.getElem?_eq_some_iff.mp numbered).1 (Nat.not_lt.mpr unbegun)
  rw [History.callsOf_concat, tally.unbegun i unbegun, callsOf_of_act acts other]
  rfl

theorem Tally.collecting_of_act (outcome : Except SoundFault Nat)
    (pending : v.errand = some (.collecting outcome)) : ∃ i, v.transport.Returned i outcome := by
  have run := run_of_act acts
  cases act with
  | advance nanoseconds =>
    cases acts
    exact tally.collecting outcome pending
  | limit limits =>
    cases acts
    exact tally.collecting outcome pending
  | step j =>
    obtain ⟨device, loop, next, after, -, -, -, rfl, -⟩ := act?_step.mp acts
    obtain ⟨i, current, ended⟩ := tally.collecting outcome pending
    exact ⟨i, current, hasEnded_of_run poised run ended⟩
  | edit edit =>
    obtain ⟨idle, rfl, -⟩ := act?_edit.mp acts
    rw [show w.errand = some (.collecting outcome) from pending] at idle
    cases idle
  | ask operation =>
    obtain ⟨-, transport, errand, asks, rfl⟩ := act?_ask.mp acts
    cases pending
    obtain ⟨i, ⟨current, ended⟩, same⟩ :=
      Transport.returned_of_takesUp (Transport.takesUp_of_asked asks)
    exact ⟨i, same.trans current, hasEnded_of_run poised run ended⟩
  | goOn =>
    obtain ⟨errand, -, -, rfl, -⟩ := act?_goOn.mp acts
    cases errand with
    | collecting outcome => cases outcome <;> cases pending
    | _ => cases pending

theorem Tally.delivered_of_act (loop : Option Nat) (outcome : Except SoundFault Nat)
    (member : (loop, outcome) ∈ History.delivered (history ++ [(act, answer)])) :
    ∃ i, loop = some i ∧ v.transport.HasEnded i outcome ∧ v.transport.current? ≠ some i := by
  have run := run_of_act acts
  rw [History.delivered_concat, List.mem_append, Option.mem_toList] at member
  rcases member with old | new
  · obtain ⟨i, rfl, ended, other⟩ := tally.delivered loop outcome old
    exact ⟨i, rfl, hasEnded_of_run poised run ended,
      fun current => other (current_of_run poised run ended.lt current)⟩
  · cases learns_of_act acts with
    | plain _ _ _ plain =>
      rw [plain.delivered?_eq] at new
      cases new
    | called => cases new
    | collected _ pending =>
      cases new
      obtain ⟨i, current, ended⟩ := tally.collecting outcome pending
      refine ⟨i, current, hasEnded_of_run poised run ended, ?_⟩
      rw [Transport.current?_of_idle (poised.carriedOut_eq pending rfl).2.2]
      simp

end Tally

section Script

variable [Scalar.Ordered α]

/-- What holds in a world that has been launched, with its history, and withstands every act. -/
theorem tally_of_follow {settings : Settings α} {text : List Char} {rate rendererRate : Nat}
    {limits : DeviceLimits} {unavailable instant : Nat} {acts : List (Act α)}
    (follows : (launch settings text rate rendererRate limits unavailable instant).follow? acts =
      some (w, history)) : Poised w ∧ Orderly w ∧ w.Recorded ∧ Tally w history := by
  refine carries_of_follow
    (P := fun w history => Poised w ∧ Orderly w ∧ w.Recorded ∧ Tally w history)
    ⟨.launch .., .launch .., fun _ _ numbered => (nomatch numbered), .launch ..⟩ ?_ follows
  rintro u told act v answer ⟨poised, orderly, recorded, tally⟩ acts
  have tally' : Tally v (told ++ [(act, answer)]) :=
    ⟨tally.reports_of_act acts recorded, tally.unbegun_of_act acts poised,
      tally.collecting_of_act acts poised, tally.delivered_of_act acts poised,
      tally.once_of_act acts⟩
  rcases eq_or_move_of_act acts with rfl | move
  · exact ⟨poised, orderly, recorded, tally'⟩
  · have effect := move.effect poised
    exact ⟨poised.move move, orderly.effect effect, recorded.effect orderly effect, tally'⟩

end Script

end World

end Portamento
