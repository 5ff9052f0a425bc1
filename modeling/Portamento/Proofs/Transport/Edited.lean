import Portamento.Proofs.Transport.Alike

/-!
# A session does not hear of edits

Another text, another tempo, and the reading of either replace what the transport has kept, the pass
that is playing included. The session goes on with what it was begun with: it is paused and resumed,
its loop lays its passes and its result is collected as if nothing had been edited. Only the next
beginning looks at the text and the tempo, and then at nothing else of what the edits have left.
-/

namespace Portamento

variable {α : Type}

/-- A script with edits inserted into it. -/
inductive Act.Inserted : List (Act α) → List (Act α) → Prop where
  | nil : Inserted [] []
  | keep (act : Act α) {plain edited : List (Act α)} (inserted : Inserted plain edited) :
      Inserted (act :: plain) (act :: edited)
  | insert (edit : Edit α) {plain edited : List (Act α)} (inserted : Inserted plain edited) :
      Inserted plain (.edit edit :: edited)

/-- Whether an act edits the transport. -/
def Act.isEdit : Act α → Bool
  | .edit _ => true
  | _ => false

/-- Whether an errand is to begin a session, now or after the one before has been ended. -/
def Errand.begins : Errand → Bool
  | .restarting => true
  | .beginning => true
  | _ => false

namespace History

/-- What has been learnt otherwise than by edits. -/
def played (history : History α) : History α := history.filter fun entry => !entry.1.isEdit

/-- Whether every start that was asked for has resumed a session that was paused: no other is
answered at once. -/
def OnlyResumes (history : History α) : Prop :=
  ∀ answer, (.ask .start, answer) ∈ history → answer = .started (.ok ())

end History

namespace World

variable [Tonal α]

/-- Whether no session is about to be begun. -/
def IsSettled (w : World α) : Prop := ∀ errand, w.errand = some errand → errand.begins = false

variable {w u v : World α} {act : Act α} {answer : Answer α}

omit [Tonal α] in
/-- Only a start can lead to a beginning, and only one that is not answered at once. -/
theorem begins_of_asked {t next : Transport α} {operation : Operation} {errand : Errand}
    (asks : t.asked operation = (next, some errand, answer))
    (resumes : operation = .start → answer = .started (.ok ())) : errand.begins = false := by
  cases operation with
  | start =>
    simp only [Transport.asked] at asks
    split at asks
    · cases asks
      rfl
    · cases asks
      cases resumes rfl
    · cases asks
      cases resumes rfl
  | _ =>
    simp only [Transport.asked] at asks
    split at asks <;> cases asks
    rfl

theorem IsSettled.of_act (settled : w.IsSettled) (acts : w.act? act = some (v, answer))
    (resumes : act = .ask .start → answer = .started (.ok ())) : v.IsSettled := by
  intro errand pending
  cases act with
  | advance nanoseconds =>
    cases acts
    exact settled errand pending
  | limit limits =>
    cases acts
    exact settled errand pending
  | step i =>
    obtain ⟨device, loop, next, after, -, -, -, rfl, -⟩ := act?_step.mp acts
    exact settled errand pending
  | edit edit =>
    obtain ⟨-, rfl, -⟩ := act?_edit.mp acts
    exact settled errand pending
  | ask operation =>
    obtain ⟨-, transport, left, asks, rfl⟩ := act?_ask.mp acts
    cases pending
    exact begins_of_asked asks fun start => resumes (congrArg Act.ask start)
  | goOn =>
    obtain ⟨before, found, -, rfl, -⟩ := act?_goOn.mp acts
    have gentle := settled before found
    cases before with
    | collecting outcome => cases outcome <;> cases pending
    | pausing => cases pending
    | resuming => cases pending
    | stopping => cases pending
    | _ => cases gentle

/-- An edit changes nothing that is heard, and not the source of the device. -/
theorem edit_withUnheard {edit : Edit α} (acts : w.act? (.edit edit) = some (v, answer)) :
    v = w.withUnheard v.transport.unheard ∧ v.transport.source = w.transport.source := by
  obtain ⟨idle, rfl, -⟩ := act?_edit.mp acts
  obtain ⟨text, tempo, cache, eq, -⟩ := (Transport.edits_edited (t := w.transport) edit).eq
  rw [eq]
  exact ⟨rfl, rfl⟩

/-- An act that neither edits nor begins anything does the same to two worlds that differ in nothing
that is heard. -/
theorem gentle_of_withUnheard {other : Unheard α} (same : other.source = w.transport.source)
    (gentle : (w.withUnheard other).IsGentle act)
    (acts : (w.withUnheard other).act? act = some (v, answer)) :
    ∃ u other', w.act? act = some (u, answer) ∧ v = u.withUnheard other' ∧
      other'.source = u.transport.source := by
  obtain ⟨logged, acts', kept⟩ := act_withUnheard w.transport.unheard gentle acts
  exact ⟨_, v.transport.unheard, acts', rfl, (congrArg Unheard.source kept).trans same⟩

/-- What an act does to two worlds that differ in nothing that is heard. -/
theorem act_of_withUnheard {other : Unheard α} (same : other.source = w.transport.source)
    (settled : w.IsSettled) (acts : (w.withUnheard other).act? act = some (v, answer)) :
    ∃ u answer' other', w.act? act = some (u, answer') ∧ v = u.withUnheard other' ∧
      other'.source = u.transport.source ∧ (act.isEdit = false → answer' = answer) := by
  cases edits : act.isEdit with
  | true =>
    cases act with
    | edit edit =>
      obtain ⟨idle, -, -⟩ := act?_edit.mp acts
      have acts' : w.act? (.edit edit) = some _ := act?_edit.mpr ⟨idle, rfl, rfl⟩
      obtain ⟨eq, source⟩ := edit_withUnheard acts
      obtain ⟨eq', source'⟩ := edit_withUnheard acts'
      refine ⟨_, _, v.transport.unheard, acts', ?_, source.trans (same.trans source'.symm), ?_⟩
      · rw [eq', eq]
        rfl
      · intro plain
        cases plain
    | _ => cases edits
  | false =>
    have matched : ∃ u other', w.act? act = some (u, answer) ∧ v = u.withUnheard other' ∧
        other'.source = u.transport.source := by
      cases act with
      | edit => cases edits
      | limit limits =>
        cases acts
        let source := (w.transport.limited limits).source
        refine ⟨_, { other with source }, rfl, ?_, rfl⟩
        simp only [source, withUnheard, Transport.withUnheard, Transport.limited, same]
      | goOn =>
        have gentle : (w.withUnheard other).IsGentle .goOn := by
          intro pending
          cases settled .beginning pending
        exact gentle_of_withUnheard same gentle acts
      | advance nanoseconds =>
        have gentle : (w.withUnheard other).IsGentle (.advance nanoseconds) := trivial
        exact gentle_of_withUnheard same gentle acts
      | step i =>
        have gentle : (w.withUnheard other).IsGentle (.step i) := trivial
        exact gentle_of_withUnheard same gentle acts
      | ask operation =>
        have gentle : (w.withUnheard other).IsGentle (.ask operation) := trivial
        exact gentle_of_withUnheard same gentle acts
    obtain ⟨u, other', acts', eq, source⟩ := matched
    exact ⟨u, answer, other', acts', eq, source, fun _ => rfl⟩

/-- A script with edits inserted, and the script without them. -/
theorem follow_of_inserted {plain edited : List (Act α)} (inserted : Act.Inserted plain edited)
    {history : History α} {other : Unheard α} (same : other.source = w.transport.source)
    (settled : w.IsSettled) (follows : (w.withUnheard other).follow? edited = some (v, history))
    (resumes : history.OnlyResumes) :
    ∃ u told other', w.follow? plain = some (u, told) ∧ v = u.withUnheard other' ∧
      other'.source = u.transport.source ∧ History.played told = history.played := by
  induction inserted generalizing w history other with
  | nil =>
    cases follows
    exact ⟨w, [], other, rfl, rfl, same, rfl⟩
  | keep act inserted ih =>
    obtain ⟨next, answer, rest, done, later, rfl⟩ := follow?_cons.mp follows
    obtain ⟨u, answer', other', done', rfl, same', answers⟩ := act_of_withUnheard same settled done
    have settled' : (u.withUnheard other').IsSettled :=
      IsSettled.of_act (w := w.withUnheard other) settled done fun start =>
        resumes answer (start ▸ List.mem_cons_self)
    obtain ⟨u', told, other'', follows', eq, same'', played⟩ := ih same' settled' later
      fun answer' member => resumes answer' (List.mem_cons_of_mem _ member)
    refine ⟨u', _, other'', follow?_cons.mpr ⟨u, answer', told, done', follows', rfl⟩, eq, same'',
      ?_⟩
    unfold History.played at played ⊢
    rw [List.filter_cons, List.filter_cons, played]
    cases edits : act.isEdit with
    | true => rfl
    | false => rw [answers edits]
  | insert edit inserted ih =>
    obtain ⟨next, answer, rest, done, later, rfl⟩ := follow?_cons.mp follows
    obtain ⟨eq, source⟩ := edit_withUnheard done
    rw [eq] at later
    obtain ⟨u, told, other', follows', eq', same', played⟩ := ih (source.trans same) settled later
      fun answer' member => resumes answer' (List.mem_cons_of_mem _ member)
    exact ⟨u, told, other', follows', eq', same', played⟩

/-- What a world, reached with a history, has in common with another that has been reached without
some edits. -/
structure Unheeded (u : World α) (told : History α) (v : World α) (history : History α) : Prop where
  /-- Device, session, loops and state are the same. -/
  same : SoundsAlike u v
  /-- So are all answers, the results of loops among them. -/
  answers : history.played = told.played
  /-- And so is everything that follows, sessions that are begun included, if the text and the tempo
  are the same. -/
  later : v.transport.text = u.transport.text →
    v.transport.settings.tempo = u.transport.settings.tempo → Agree u v

/-- Whatever is edited in whatever order between a beginning and the next, while the session is
played, paused, resumed, stopped and its result collected: nothing of it is heard. -/
theorem edits_are_not_heard [Scalar.Antisymmetric α] (settings : Settings α) (text : List Char)
    (rate rendererRate : Nat) (limits : DeviceLimits) (unavailable instant : Nat) (w : World α)
    (reached : Run (launch settings text rate rendererRate limits unavailable instant) w)
    (idle : w.errand = none) (plain edited : List (Act α)) (inserted : Act.Inserted plain edited)
    (v : World α) (history : History α) (follows : w.follow? edited = some (v, history))
    (resumes : history.OnlyResumes) :
    ∃ u told, w.follow? plain = some (u, told) ∧ Unheeded u told v history := by
  have settled : w.IsSettled := fun errand pending => by
    rw [idle] at pending
    cases pending
  have heard : w.transport.unheard.source = w.transport.source := rfl
  obtain ⟨u, told, other, follows', rfl, same, played⟩ :=
    follow_of_inserted inserted heard settled follows resumes
  refine ⟨u, told, follows', u.soundsAlike_withUnheard other, played.symm, fun text tempo => ?_⟩
  have genuine := genuine_of_run (reached.trans (run_of_follow follows'))
  have genuine' := genuine_of_run (reached.trans (run_of_follow follows))
  refine Alike.agree
    ⟨⟨other.source, other.cache, other.logged, ?_, fun _ => same⟩, genuine, genuine'⟩
  have text : other.text = u.transport.text := text
  have tempo : other.tempo = u.transport.settings.tempo := tempo
  simp only [withUnheard, Transport.withUnheard, text, tempo]

section OneNote

/-- A pass is completed, and the session paused and resumed. -/
def plainScript : List (Act ℝ) := [.step 0, .ask .pause, .goOn, .ask .start, .goOn]

/-- The same, with another text in between. -/
def editedScript : List (Act ℝ) :=
  [.edit (.setText ['b']), .step 0, .ask .pause, .goOn, .ask .start, .goOn, .edit (.setText ['a'])]

theorem edits_are_not_heard_oneNote : ∃ (v : World ℝ) (history : History ℝ),
    Run oneNoteLaunch oneNoteLaid ∧ oneNoteLaid.errand = none ∧
      Act.Inserted plainScript editedScript ∧
      oneNoteLaid.follow? editedScript = some (v, history) ∧ history.OnlyResumes ∧
      ∃ u told, oneNoteLaid.follow? plainScript = some (u, told) ∧ Unheeded u told v history ∧
        Agree u v := by
  have inserted : Act.Inserted plainScript editedScript :=
    .insert _ (.keep _ (.keep _ (.keep _ (.keep _ (.keep _ (.insert _ .nil))))))
  obtain ⟨v, history, follows, resumes, text, tempo⟩ : ∃ v history,
      oneNoteLaid.follow? editedScript = some (v, history) ∧ history.OnlyResumes ∧
        v.transport.text = ['a'] ∧ v.transport.settings.tempo = liveSettings.tempo :=
    ⟨_, _, rfl, fun answer member => by simpa using member, rfl, rfl⟩
  obtain ⟨u, told, follows', unheeded⟩ := edits_are_not_heard liveSettings ['a'] 44100 44100
    ⟨none, none⟩ 0 0 oneNoteLaid run_oneNoteLaid rfl plainScript editedScript inserted v history
    follows resumes
  have same : u.transport.text = ['a'] ∧ u.transport.settings.tempo = liveSettings.tempo := by
    cases follows'
    exact ⟨rfl, rfl⟩
  exact ⟨v, history, run_oneNoteLaid, rfl, inserted, follows, resumes, u, told, follows', unheeded,
    unheeded.later (text.trans same.1.symm) (tempo.trans same.2.symm)⟩

end OneNote

end World

end Portamento
