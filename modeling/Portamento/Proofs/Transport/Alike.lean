import Portamento.Proofs.Transport.Beginning
import Portamento.Proofs.Transport.Script

/-!
# What is not heard of a transport

The text and the tempo, what has been kept, the source of the device and the log are not heard, as
long as no session is begun: whatever they are, every act does the same to all the rest, and answers
the same. Where a session is begun it is only the text and the tempo that count, as long as a device
is to be had.
-/

namespace Portamento

/-- What of a transport is not heard until a session is begun. -/
structure Unheard (α : Type) where
  text : List Char
  tempo : α
  source : DeviceSource α
  cache : Option (ReadScore α)
  logged : Log α

variable {α : Type}

namespace Transport

/-- What is not heard of a transport. -/
def unheard (t : Transport α) : Unheard α :=
  ⟨t.text, t.settings.tempo, t.source, t.cache, t.logged⟩

/-- The same for the ear, with all else in place of what it was. -/
def withUnheard (t : Transport α) (other : Unheard α) : Transport α :=
  { t with
    text := other.text
    settings := { t.settings with tempo := other.tempo }
    source := other.source
    cache := other.cache
    logged := other.logged }

variable (t : Transport α) (other : Unheard α)

theorem revoke_withUnheard : (t.withUnheard other).revoke = t.revoke.withUnheard other := by
  obtain ⟨settings, shape, text, source, device, cache, session, loops, logged⟩ := t
  rcases session with _ | ⟨_ | loop, looping, paused⟩ <;> rfl

theorem unheard_revoke : t.revoke.unheard = { t.unheard with logged := t.revoke.logged } := by
  obtain ⟨loops, eq, -⟩ := t.revoke_eq
  rw [eq]
  rfl

/-- The first part of an operation logs something at most. -/
theorem asked_withUnheard (operation : Operation) : ∃ logged,
    (t.withUnheard other).asked operation =
        ((t.asked operation).1.withUnheard { other with logged }, (t.asked operation).2) ∧
      (t.asked operation).1.unheard =
        { t.unheard with logged := (t.asked operation).1.logged } := by
  have state : (t.withUnheard other).state = t.state := rfl
  have session : (t.withUnheard other).session = t.session := rfl
  cases operation with
  | start =>
    refine ⟨other.logged, ?_⟩
    simp only [asked, state, session]
    split
    · exact ⟨rfl, rfl⟩
    · exact ⟨by rw [revoke_withUnheard], t.unheard_revoke⟩
    · exact ⟨rfl, rfl⟩
  | pause =>
    refine ⟨other.logged, ?_⟩
    simp only [asked, state]
    split <;> exact ⟨rfl, rfl⟩
  | resume =>
    refine ⟨other.logged, ?_⟩
    simp only [asked, state]
    split <;> exact ⟨rfl, rfl⟩
  | stop =>
    have finished : (t.withUnheard other).isFinished = t.isFinished := rfl
    simp only [asked, session, finished]
    split
    · cases t.isFinished with
      | true =>
        -- the result that is thrown away is regretted in the log
        have warned : (t.withUnheard other).log .uncollected = (t.log .uncollected).withUnheard
          { other with logged := other.logged.add .uncollected } := rfl
        refine ⟨other.logged.add .uncollected, ?_, unheard_revoke (t.log .uncollected)⟩
        rw [if_pos rfl, warned, revoke_withUnheard]
        rfl
      | false =>
        refine ⟨other.logged, ?_, t.unheard_revoke⟩
        rw [if_neg Bool.false_ne_true, revoke_withUnheard]
        rfl
    · exact ⟨other.logged, rfl, rfl⟩
  | poll =>
    have loop : (t.withUnheard other).sessionLoop? = t.sessionLoop? := rfl
    refine ⟨other.logged, ?_⟩
    simp only [asked, loop]
    cases t.sessionLoop?.bind LiveLoop.outcome? with
    | some outcome => exact ⟨by rw [revoke_withUnheard], t.unheard_revoke⟩
    | none => exact ⟨rfl, rfl⟩

/-- An errand that begins no session logs something at most. -/
theorem carryOut_withUnheard [Tonal α] (instant : Nat) {errand : Errand}
    (gentle : errand ≠ .beginning) : ∃ logged,
    (t.withUnheard other).carryOut instant errand =
        ((t.carryOut instant errand).1.withUnheard { other with logged },
          (t.carryOut instant errand).2) ∧
      (t.carryOut instant errand).1.unheard =
        { t.unheard with logged := (t.carryOut instant errand).1.logged } := by
  refine ⟨((t.withUnheard other).carryOut instant errand).1.logged, ?_⟩
  cases errand with
  | collecting outcome => cases outcome <;> exact ⟨rfl, rfl⟩
  | beginning => exact absurd rfl gentle
  | _ => exact ⟨rfl, rfl⟩

/-- What beginning anew comes to, apart from the log, does not depend on what is not heard but text,
tempo and device. -/
theorem beginning_congr [Tonal α] (instant : Nat) {source : DeviceSource α}
    {device : Option (Device α)} (held : device.getD source.device = t.heldDevice)
    (cache : Option (ReadScore α)) (logged : Log α) : ∃ logged',
      beginning { t with source, device, cache, logged } instant =
        { t.beginning instant with logged := logged' } := by
  have held : heldDevice { t with source, device, cache, logged } = t.heldDevice := held
  refine ⟨(beginning { t with source, device, cache, logged } instant).logged, ?_⟩
  simp only [beginning, held]
  cases Score.read t.text t.settings.tempo with
  | error fault => rfl
  | ok score =>
    cases t.settings.mode with
    | live => rfl
    | rendered =>
      dsimp only
      cases Mixing.renderPass t.shape score t.heldDevice.rendererRate with
      | error fault => rfl
      | ok pass =>
        dsimp only
        cases (t.heldDevice.resume instant).play pass _ t.settings.looping <;> rfl

/-- What an edit does, and what it answers, does not depend on what is kept, as long as that is
genuine, nor on the device. -/
theorem edited_congr [Tonal α] [Scalar.Antisymmetric α] {t : Transport α} (genuine : t.IsGenuine)
    {source : DeviceSource α} {device : Option (Device α)} {cache : Option (ReadScore α)}
    {logged : Log α} (genuine' : IsGenuine { t with source, device, cache, logged })
    (edit : Edit α) : ∃ cache', edited { t with source, device, cache, logged } edit =
      ({ (t.edited edit).1 with source, device, cache := cache', logged }, (t.edited edit).2) := by
  obtain ⟨cache₁, resolve₁, -⟩ := genuine.resolve_eq
  obtain ⟨cache₂, resolve₂, -⟩ := genuine'.resolve_eq
  cases edit with
  | setText text => exact ⟨cache, rfl⟩
  | setTempo tempo => exact ⟨cache, rfl⟩
  | resolve => exact ⟨cache₂, by simp only [edited, resolve₁, resolve₂]⟩
  | timeline => exact ⟨cache₂, by simp only [edited, timeline, resolve₁, resolve₂]⟩

end Transport

namespace World

variable [Tonal α]

/-- The same world for the ear. -/
def withUnheard (w : World α) (other : Unheard α) : World α :=
  { w with transport := w.transport.withUnheard other }

/-- Whether an act neither edits the transport nor begins a session, and does not touch a device
that is still to be had. -/
def IsGentle (w : World α) : Act α → Prop
  | .edit _ => False
  | .limit _ => False
  | .goOn => w.errand ≠ some .beginning
  | _ => True

/-- An act that neither edits nor begins anything does not look at what is not heard. -/
theorem act_withUnheard {w v : World α} (other : Unheard α) {act : Act α} {answer : Answer α}
    (gentle : w.IsGentle act) (acts : w.act? act = some (v, answer)) : ∃ logged,
      (w.withUnheard other).act? act = some (v.withUnheard { other with logged }, answer) ∧
        v.transport.unheard = { w.transport.unheard with logged := v.transport.logged } := by
  cases act with
  | advance nanoseconds =>
    cases acts
    exact ⟨other.logged, rfl, rfl⟩
  | step i =>
    obtain ⟨device, loop, next, after, held, numbered, taken, rfl, rfl⟩ := act?_step.mp acts
    refine ⟨other.logged.addAll (loop.words next), ?_, rfl⟩
    exact act?_step.mpr ⟨device, loop, next, after, held, numbered, taken, rfl, rfl⟩
  | limit limits => exact gentle.elim
  | edit edit => exact gentle.elim
  | ask operation =>
    obtain ⟨idle, transport, errand, asks, rfl⟩ := act?_ask.mp acts
    obtain ⟨logged, same, kept⟩ := w.transport.asked_withUnheard other operation
    rw [asks] at same kept
    exact ⟨logged, act?_ask.mpr ⟨idle, _, errand, same, rfl⟩, kept⟩
  | goOn =>
    obtain ⟨errand, pending, free, rfl, rfl⟩ := act?_goOn.mp acts
    have other_errand : errand ≠ .beginning := fun same => gentle (same ▸ pending)
    obtain ⟨logged, same, kept⟩ := w.transport.carryOut_withUnheard other w.instant other_errand
    refine ⟨logged, act?_goOn.mpr ⟨errand, pending, free, ?_, ?_⟩, kept⟩
    · simp only [carriedOut, withUnheard, same]
    · cases errand with
      | beginning => exact absurd rfl other_errand
      | _ => rfl

/-- Two worlds that differ in nothing that is heard. -/
structure SoundsAlike (u v : World α) : Prop where
  instant_eq : v.instant = u.instant
  device_eq : v.transport.device = u.transport.device
  session_eq : v.transport.session = u.transport.session
  loops_eq : v.transport.loops = u.transport.loops
  state_eq : v.transport.state = u.transport.state
  errand_eq : v.errand = u.errand
  marks_eq : v.marks = u.marks

omit [Tonal α] in
theorem soundsAlike_withUnheard (w : World α) (other : Unheard α) :
    SoundsAlike w (w.withUnheard other) :=
  ⟨rfl, rfl, rfl, rfl, rfl, rfl, rfl⟩

/-- Whatever the two worlds are put through, either both withstand it or none does, the answers are
the same, and they sound alike in the end. -/
def Agree (u v : World α) : Prop :=
  ∀ acts, Option.Rel (fun x y => SoundsAlike x.1 y.1 ∧ y.2 = x.2) (u.follow? acts) (v.follow? acts)

/-- Two worlds that differ in what is kept and logged, and perhaps in the source of a device that
both have got. -/
def Matches (u v : World α) : Prop :=
  ∃ source cache logged, v = { u with transport := { u.transport with source, cache, logged } } ∧
    (u.transport.device = none → source = u.transport.source)

/-- Two such worlds that keep only what is genuine. -/
structure Alike (u v : World α) : Prop where
  same : Matches u v
  genuine : u.transport.IsGenuine
  genuine' : v.transport.IsGenuine

variable {u v u' : World α} {act : Act α} {answer : Answer α}

section Matches

omit [Tonal α]

theorem Matches.symm (same : Matches u v) : Matches v u := by
  obtain ⟨source, cache, logged, rfl, shared⟩ := same
  exact ⟨u.transport.source, u.transport.cache, u.transport.logged, rfl,
    fun bare => (shared bare).symm⟩

theorem Matches.soundsAlike (same : Matches u v) : SoundsAlike u v := by
  obtain ⟨source, cache, logged, rfl, -⟩ := same
  exact ⟨rfl, rfl, rfl, rfl, rfl, rfl, rfl⟩

theorem Matches.heldDevice_eq (same : Matches u v) :
    v.transport.heldDevice = u.transport.heldDevice := by
  obtain ⟨source, cache, logged, rfl, shared⟩ := same
  unfold Transport.heldDevice
  dsimp only
  cases held : u.transport.device with
  | some device => rfl
  | none => rw [shared held]

theorem Matches.isEquipped_iff (same : Matches u v) :
    v.transport.IsEquipped ↔ u.transport.IsEquipped := by
  obtain ⟨source, cache, logged, rfl, shared⟩ := same
  unfold Transport.IsEquipped
  dsimp only
  cases held : u.transport.device with
  | some device => simp
  | none => rw [shared held]

end Matches

/-- No act takes a device away. -/
theorem held_of_act (acts : u.act? act = some (u', answer)) (bare : u'.transport.device = none) :
    u.transport.device = none := by
  rcases eq_or_move_of_act acts with rfl | move
  · exact bare
  · refine Option.not_isSome_iff_eq_none.mp fun held => ?_
    have still := (move.source_eq held).1
    rw [bare] at still
    cases still

theorem genuine_of_act (genuine : u.transport.IsGenuine) (acts : u.act? act = some (u', answer)) :
    u'.transport.IsGenuine := by
  rcases eq_or_move_of_act acts with rfl | move
  · exact genuine
  · exact genuine_of_move genuine move

/-- An act that neither edits nor begins anything. -/
theorem Matches.gentle (same : Matches u v) (gentle : u.IsGentle act)
    (acts : u.act? act = some (u', answer)) :
    ∃ v', v.act? act = some (v', answer) ∧ Matches u' v' := by
  obtain ⟨source, cache, logged, rfl, shared⟩ := same
  obtain ⟨logged', acts', kept⟩ := act_withUnheard
    ⟨u.transport.text, u.transport.settings.tempo, source, cache, logged⟩ gentle acts
  have text : u'.transport.text = u.transport.text := congrArg Unheard.text kept
  have tempo : u'.transport.settings.tempo = u.transport.settings.tempo :=
    congrArg Unheard.tempo kept
  have source' : u'.transport.source = u.transport.source := congrArg Unheard.source kept
  refine ⟨_, acts', source, cache, logged', ?_, fun bare => ?_⟩
  · simp only [withUnheard, Transport.withUnheard, ← text, ← tempo]
  · rw [source', shared (held_of_act acts bare)]

/-- Two worlds in which sessions are begun on one device come to match. -/
theorem Matches.begun (w : World α) {source : DeviceSource α} {device : Option (Device α)}
    (held : device.getD source.device = w.transport.heldDevice)
    (cache : Option (ReadScore α)) (logged : Log α) (kept kept' : Option (ReadScore α)) :
    Matches { w with transport := w.transport.begun w.instant kept }
      { w with transport :=
        Transport.begun { w.transport with source, device, cache, logged } w.instant kept' } := by
  obtain ⟨logged', begun⟩ := w.transport.beginning_congr w.instant held cache logged
  refine ⟨Transport.asksSource { w.transport with source, device, cache, logged }, kept', logged',
    ?_, fun bare => nomatch bare⟩
  simp only [Transport.begun, begun]

/-- Other limits for the device, which is held in both worlds or still with the same source. -/
theorem Matches.limit (same : Matches u v) {limits : DeviceLimits}
    (acts : u.act? (.limit limits) = some (u', answer)) :
    ∃ v', v.act? (.limit limits) = some (v', answer) ∧ Matches u' v' := by
  obtain ⟨source, cache, logged, rfl, shared⟩ := same
  cases acts
  refine ⟨_, rfl, _, cache, logged, rfl, fun bare => ?_⟩
  have bare : u.transport.device = none := Option.map_eq_none_iff.mp bare
  simp only [Transport.limited, bare, shared bare]

section Genuine

variable [Scalar.Antisymmetric α] (alike : Alike u v)

include alike

/-- An edit, the answer of which depends on text and tempo alone. -/
theorem Alike.edit {edit : Edit α} (acts : u.act? (.edit edit) = some (u', answer)) :
    ∃ v', v.act? (.edit edit) = some (v', answer) ∧ Matches u' v' := by
  obtain ⟨⟨source, cache, logged, rfl, shared⟩, genuine, genuine'⟩ := alike
  obtain ⟨idle, rfl, rfl⟩ := act?_edit.mp acts
  obtain ⟨cache', same⟩ := Transport.edited_congr genuine genuine' edit
  obtain ⟨text, tempo, kept, eq, -⟩ := (Transport.edits_edited (t := u.transport) edit).eq
  refine ⟨_, act?_edit.mpr ⟨idle, rfl, ?_⟩, source, cache', logged, ?_, ?_⟩
  · rw [same]
  · simp only [same, eq]
  · rw [eq]
    exact shared

/-- A beginning, which depends on text, tempo and device alone. -/
theorem Alike.begins (pending : u.errand = some .beginning)
    (acts : u.act? .goOn = some (u', answer)) :
    ∃ v', v.act? .goOn = some (v', answer) ∧ Matches u' v' := by
  have equipped_iff := alike.same.isEquipped_iff
  have held := alike.same.heldDevice_eq
  obtain ⟨⟨source, cache, logged, rfl, shared⟩, genuine, genuine'⟩ := alike
  obtain ⟨errand, found, free, rfl, rfl⟩ := act?_goOn.mp acts
  cases pending.symm.trans found
  by_cases equipped : u.transport.IsEquipped
  · obtain ⟨cache₁, -, begins₁⟩ := genuine.startAnew_eq u.instant equipped
    obtain ⟨cache₂, -, begins₂⟩ := genuine'.startAnew_eq u.instant (equipped_iff.mpr equipped)
    obtain ⟨logged', begun⟩ := u.transport.beginning_congr u.instant held cache logged
    have both := Matches.begun { u with errand := none } held cache logged cache₁ cache₂
    simp only [carriedOut, Transport.carryOut, Transport.reply, begins₁]
    refine ⟨_, act?_goOn.mpr ⟨.beginning, pending, free, rfl, ?_⟩, ?_⟩
    · simp only [Transport.reply, begins₂, begun]
    · simp only [carriedOut, Transport.carryOut, begins₂]
      exact both
  · have begins₁ := Transport.startAnew_of_not_equipped equipped u.instant
    have begins₂ := Transport.startAnew_of_not_equipped (equipped ∘ equipped_iff.mp) u.instant
    simp only [carriedOut, Transport.carryOut, Transport.reply, begins₁]
    refine ⟨_, act?_goOn.mpr ⟨.beginning, pending, free, rfl, ?_⟩,
      Transport.asksSource { u.transport with source, cache, logged }, cache, logged, ?_,
      fun bare => ?_⟩
    · simp only [Transport.reply, begins₂]
    · simp only [carriedOut, Transport.carryOut, begins₂]
    · have bare : u.transport.device = none := bare
      simp only [Transport.asksSource, bare, shared bare]

/-- Every act does the same to two such worlds, and answers the same. -/
theorem Alike.lockstep (acts : u.act? act = some (u', answer)) :
    ∃ v', v.act? act = some (v', answer) ∧ Alike u' v' := by
  have matched : ∃ v', v.act? act = some (v', answer) ∧ Matches u' v' := by
    cases act with
    | edit edit => exact alike.edit acts
    | limit limits => exact alike.same.limit acts
    | goOn =>
      by_cases pending : u.errand = some .beginning
      · exact alike.begins pending acts
      · exact alike.same.gentle pending acts
    | advance nanoseconds =>
      have gentle : u.IsGentle (.advance nanoseconds) := trivial
      exact alike.same.gentle gentle acts
    | step i =>
      have gentle : u.IsGentle (.step i) := trivial
      exact alike.same.gentle gentle acts
    | ask operation =>
      have gentle : u.IsGentle (.ask operation) := trivial
      exact alike.same.gentle gentle acts
  obtain ⟨v', acts', same⟩ := matched
  exact ⟨v', acts', same, genuine_of_act alike.genuine acts, genuine_of_act alike.genuine' acts'⟩

omit [Scalar.Antisymmetric α] in
theorem Alike.symm : Alike v u := ⟨alike.same.symm, alike.genuine', alike.genuine⟩

/-- So does every script. -/
theorem Alike.follow {acts : List (Act α)} {history : History α}
    (follows : u.follow? acts = some (u', history)) :
    ∃ v', v.follow? acts = some (v', history) ∧ Alike u' v' := by
  induction acts generalizing u v history with
  | nil =>
    cases follows
    exact ⟨v, rfl, alike⟩
  | cons act acts ih =>
    obtain ⟨next, answer, rest, done, later, rfl⟩ := follow?_cons.mp follows
    obtain ⟨next', done', alike'⟩ := alike.lockstep done
    obtain ⟨v', later', alike''⟩ := ih alike' later
    exact ⟨v', follow?_cons.mpr ⟨next', answer, rest, done', later', rfl⟩, alike''⟩

theorem Alike.agree : Agree u v := by
  intro acts
  cases first : u.follow? acts with
  | none =>
    cases second : v.follow? acts with
    | none => exact .none
    | some found =>
      obtain ⟨u', follows, -⟩ := alike.symm.follow second
      rw [first] at follows
      cases follows
  | some found =>
    obtain ⟨v', follows, alike'⟩ := alike.follow first
    rw [follows]
    exact .some ⟨alike'.same.soundsAlike, rfl⟩

end Genuine

end World

end Portamento
