import Portamento.Proofs.Scalar.Exact
import Portamento.Proofs.Score.Reading
import Portamento.Proofs.Score.Stages

/-!
# The language of scores

A text reads as a score exactly if its parentheses pair up, it has a token, and each of its tokens
is one of the grammar, with as many notes in each stage, and a rest among them or frequencies that
can be played. What the score then says is what the grammar has the tokens mean.
-/

namespace Portamento

section Tokens

/-- No length operator stands in a body. -/
theorem BodyText.not_isLengthOperator {stages : List (List Note)} {body : List Char}
    (is : BodyText stages body) : ∀ x ∈ body, isLengthOperator x = false := by
  have parenthesis (text : List Char) (within : ∀ x ∈ text, isLengthOperator x = false) :
      ∀ x ∈ '(' :: text ++ [')'], isLengthOperator x = false := by
    intro x member
    simp only [List.mem_append, List.mem_cons, List.not_mem_nil, or_false] at member
    rcases member with (rfl | inside) | rfl
    · rfl
    · exact within x inside
    · rfl
  have stages (text : List Char) (are : StagesText stages text) :
      ∀ x ∈ text, isLengthOperator x = false := by
    refine are.forall_mem (by simp [isLengthOperator]) fun notes text is x member => ?_
    rw [Bool.eq_false_iff]
    intro operator
    simp only [isLengthOperator, Bool.or_eq_true, beq_iff_eq] at operator
    rcases operator with rfl | rfl
    · exact absurd (is.clear '/' member (by decide)) (by decide)
    · exact absurd (is.clear '*' member (by decide)) (by decide)
  cases is with
  | plain _ are => exact stages body are
  | grouped _ _ is =>
    induction is with
    | once text are => exact parenthesis text (stages text are)
    | again text _ ih => exact parenthesis text ih

/-- A token is taken apart and its body read as the grammar has it. -/
theorem tokenText_iff {stages : List (List Note)} {change : Option LengthChange}
    {token : List Char} : TokenText stages change token ↔
      ∃ body, splitLength token = .ok (body, change) ∧ Stage.readAll body = .ok stages := by
  simp only [splitLength_eq_ok, Stage.readAll_eq_ok]
  constructor
  · intro is
    cases is with
    | beat _ is =>
      refine ⟨token, .whole ?_, is⟩
      rintro ⟨front, operator, digits, rfl, isOperator, -⟩
      rw [is.not_isLengthOperator operator (by simp)] at isOperator
      cases isOperator
    | changed body suffix is change writes => exact ⟨body, .changed suffix change writes, is⟩
  · rintro ⟨body, suffixed, is⟩
    cases suffixed with
    | whole => exact .beat _ is
    | changed suffix change writes => exact .changed body suffix is change writes

/-- A text says one thing only. -/
theorem TokenText.unique {stages stages' : List (List Note)} {change change' : Option LengthChange}
    {token : List Char} (is : TokenText stages change token)
    (is' : TokenText stages' change' token) : stages = stages' ∧ change = change' := by
  obtain ⟨body, split, reads⟩ := tokenText_iff.mp is
  obtain ⟨body', split', reads'⟩ := tokenText_iff.mp is'
  rw [split] at split'
  cases split'
  rw [reads] at reads'
  cases reads'
  exact ⟨rfl, rfl⟩

end Tokens

namespace Stage

theorem uneven?_eq_none_iff {expected index : Nat} {stages : List (List Note)} :
    uneven? expected index stages = none ↔ ∀ stage ∈ stages, stage.length = expected := by
  induction stages generalizing index with
  | nil => simp [uneven?]
  | cons stage later ih =>
    rw [uneven?, List.forall_mem_cons]
    split
    · next same => simp [ih, same]
    · next other => simp [other]

theorem checkEven_eq_ok_iff {stages : List (List Note)} : checkEven stages = .ok () ↔
    ∀ stage ∈ stages, ∀ other ∈ stages, stage.length = other.length := by
  unfold checkEven
  split
  · simp
  · next first later =>
    have even : (∀ stage ∈ first :: later, ∀ other ∈ first :: later,
        stage.length = other.length) ↔ uneven? first.length 1 later = none := by
      rw [uneven?_eq_none_iff]
      constructor
      · exact fun even stage member =>
          even stage (List.mem_cons_of_mem _ member) first List.mem_cons_self
      · intro even
        have all : ∀ stage ∈ first :: later, stage.length = first.length :=
          List.forall_mem_cons.mpr ⟨rfl, even⟩
        exact fun stage member other member' => (all stage member).trans (all other member').symm
    rw [even]
    split
    · next found => simp [found]
    · next alike => simp [alike]

end Stage

section Sound

variable {α : Type} [Scalar α]

/-- The frequency that a pitch is written with. -/
def Note.hertz : Note → α
  | .rest => Scalar.ofNat 0
  | .pitch letter accidental octave =>
    (spell letter accidental).frequency *
      Scalar.octaves ((match octave with | some n => (n : Int) | none => referenceOctave) -
        referenceOctave)

/-- Whether that frequency can be played: it is finite and positive. -/
def Note.IsPlayable (α : Type) [Scalar α] (note : Note) : Prop :=
  Scalar.isFinite (note.hertz : α) = true ∧ Scalar.ofNat 0 < (note.hertz : α)

/-- A pitch is accepted if its frequency can be played, and with that frequency. -/
theorem Note.frequency_pitch_eq_ok {letter : Letter} {accidental : Option Accidental}
    {octave : Option Nat} {found : Option α} :
    Note.frequency (.pitch letter accidental octave) = .ok found ↔
      (Note.pitch letter accidental octave).IsPlayable α ∧
        some (Note.pitch letter accidental octave).hertz = found := by
  by_cases playable : (Note.pitch letter accidental octave).IsPlayable α
  · have accepted : Note.pitchFrequency letter accidental octave =
        .ok ((Note.pitch letter accidental octave).hertz : α) := if_pos playable
    simp [Note.frequency, accepted, Except.map, playable]
  · have refused : Note.pitchFrequency (α := α) letter accidental octave = .error _ :=
      if_neg playable
    simp [Note.frequency, refused, Except.map, playable]

/-- What the stages of a token need to be played: as many notes in one as in another, and either a
rest somewhere or notes that can be played everywhere. -/
structure Playable (α : Type) [Scalar α] (stages : List (List Note)) : Prop where
  even : ∀ stage ∈ stages, ∀ other ∈ stages, stage.length = other.length
  sounds : (∃ stage ∈ stages, Note.rest ∈ stage) ∨
    ∀ stage ∈ stages, ∀ note ∈ stage, note.IsPlayable α

/-- To read each element of a list as what is made of it, if that can be done. -/
theorem mapM_eq_ok_map {ε β γ : Type} {read : β → Except ε γ} {P : β → Prop} {make : β → γ}
    {items : List β} {results : List γ}
    (reads : ∀ item ∈ items, ∀ result, read item = .ok result ↔ P item ∧ make item = result) :
    items.mapM read = .ok results ↔ (∀ item ∈ items, P item) ∧ items.map make = results := by
  rw [mapM_eq_ok]
  induction items generalizing results with
  | nil => simp [eq_comm]
  | cons item later ih =>
    have first := reads item List.mem_cons_self
    have rest (results : List γ) : List.Forall₂ (fun item result => read item = .ok result) later
        results ↔ (∀ item ∈ later, P item) ∧ later.map make = results :=
      ih fun other member => reads other (List.mem_cons_of_mem _ member)
    rw [List.forall₂_cons_left_iff, List.forall_mem_cons, List.map_cons]
    constructor
    · rintro ⟨result, results', is, are, rfl⟩
      obtain ⟨holds, rfl⟩ := (first result).mp is
      obtain ⟨hold, rfl⟩ := (rest results').mp are
      exact ⟨⟨holds, hold⟩, rfl⟩
    · rintro ⟨⟨holds, hold⟩, rfl⟩
      exact ⟨make item, later.map make, (first _).mpr ⟨holds, rfl⟩, (rest _).mpr ⟨hold, rfl⟩, rfl⟩

/-- The frequencies of a stage without a rest. -/
theorem Stage.frequencies_eq_ok {stage : List Note} {found : List α} (pitched : Note.rest ∉ stage) :
    Stage.frequencies stage = .ok found ↔
      (∀ note ∈ stage, note.IsPlayable α) ∧ stage.map Note.hertz = found := by
  refine mapM_eq_ok_map fun note member frequency => ?_
  cases note with
  | rest => exact absurd member pitched
  | pitch letter accidental octave =>
    cases answer : Note.frequency (α := α) (.pitch letter accidental octave) with
    | ok found =>
      obtain ⟨playable, rfl⟩ := Note.frequency_pitch_eq_ok.mp answer
      simp [Except.map, playable]
    | error fault =>
      have unplayable : ¬ (Note.pitch letter accidental octave).IsPlayable α := by
        intro playable
        rw [Note.frequency_pitch_eq_ok.mpr ⟨playable, rfl⟩] at answer
        cases answer
      simp [Except.map, unplayable]

/-- How long a chord lasts: a beat, of which there are as many in a minute as the tempo says, or
that divided or multiplied by the digit behind it. -/
structure Chord.Lasts (tempo : α) (change : Option LengthChange) (seconds : α) : Prop where
  beat : change = none → seconds = Scalar.ofNat 60 / tempo
  divided : ∀ d, change = some (.divide d) → seconds = Scalar.ofNat 60 / tempo / Scalar.ofNat d
  multiplied : ∀ d, change = some (.multiply d) →
    seconds = Scalar.ofNat 60 / tempo * Scalar.ofNat d

theorem Chord.lasts_iff {tempo seconds : α} {change : Option LengthChange} :
    Chord.Lasts tempo change seconds ↔ seconds = chordSeconds change tempo := by
  constructor
  · intro lasts
    cases change with
    | none => exact lasts.beat rfl
    | some change =>
      cases change with
      | divide d => exact lasts.divided d rfl
      | multiply d => exact lasts.multiplied d rfl
  · rintro rfl
    refine ⟨fun none => ?_, fun d divides => ?_, fun d multiplies => ?_⟩
    · rw [none]
      rfl
    · rw [divides]
      rfl
    · rw [multiplies]
      rfl

/-- A chord is what its token means. -/
structure Chord.Means (tempo : α) (token : List Char) (chord : Chord α) : Prop where
  source_eq : chord.source = token
  meaning : ∃ stages change, TokenText stages change token ∧ Playable α stages ∧
    Chord.Lasts tempo change chord.seconds ∧
    ((∃ stage ∈ stages, Note.rest ∈ stage) → chord.stages = []) ∧
    ((∀ stage ∈ stages, Note.rest ∉ stage) → chord.stages = stages.map (List.map Note.hertz))

theorem Chord.sounds_iff {notes : List (List Note)} {found : List (List α)} :
    Chord.Sounds notes found ↔ ((∃ stage ∈ notes, Note.rest ∈ stage) ∨
        ∀ stage ∈ notes, ∀ note ∈ stage, note.IsPlayable α) ∧
      ((∃ stage ∈ notes, Note.rest ∈ stage) → found = []) ∧
      ((∀ stage ∈ notes, Note.rest ∉ stage) → found = notes.map (List.map Note.hertz)) := by
  have rests : (notes.any fun stage => stage.any Note.isRest) = true ↔
      ∃ stage ∈ notes, Note.rest ∈ stage := by
    simp [Note.isRest]
  unfold Chord.Sounds
  by_cases rest : ∃ stage ∈ notes, Note.rest ∈ stage
  · have pitched : ¬ ∀ stage ∈ notes, Note.rest ∉ stage := by
      obtain ⟨stage, member, inside⟩ := rest
      exact fun pitched => pitched stage member inside
    rw [if_pos (rests.mpr rest)]
    simp [rest, pitched]
  · have pitched : ∀ stage ∈ notes, Note.rest ∉ stage :=
      fun stage member inside => rest ⟨stage, member, inside⟩
    rw [if_neg (mt rests.mp rest), mapM_eq_ok_map (P := fun stage => ∀ note ∈ stage,
      note.IsPlayable α) fun stage member _ => Stage.frequencies_eq_ok (pitched stage member)]
    simp only [rest, false_or, false_implies, true_and]
    exact and_congr_right fun _ => ⟨fun same _ => same.symm, fun same => (same pitched).symm⟩

/-- A chord is read from a token exactly if it is what the token means. -/
theorem Chord.read_eq_ok_iff_means {token : List Char} {tempo : α} {chord : Chord α} :
    Chord.read token tempo = .ok chord ↔ Chord.Means tempo token chord := by
  rw [Chord.read_eq_ok]
  constructor
  · rintro ⟨body, change, notes, split, reads, even, source, seconds, sounds⟩
    obtain ⟨playable, silent, sounding⟩ := Chord.sounds_iff.mp sounds
    exact ⟨source, notes, change, tokenText_iff.mpr ⟨body, split, reads⟩,
      ⟨Stage.checkEven_eq_ok_iff.mp even, playable⟩, Chord.lasts_iff.mpr seconds, silent, sounding⟩
  · rintro ⟨source, notes, change, is, playable, seconds, silent, sounding⟩
    obtain ⟨body, split, reads⟩ := tokenText_iff.mp is
    exact ⟨body, change, notes, split, reads, Stage.checkEven_eq_ok_iff.mpr playable.even, source,
      Chord.lasts_iff.mp seconds, Chord.sounds_iff.mpr ⟨playable.sounds, silent, sounding⟩⟩

/-- Some chord is read from every token that can be played. -/
theorem Chord.exists_means_iff {token : List Char} (tempo : α) :
    (∃ chord, Chord.Means tempo token chord) ↔
      ∃ stages change, TokenText stages change token ∧ Playable α stages := by
  constructor
  · rintro ⟨chord, -, stages, change, is, playable, -⟩
    exact ⟨stages, change, is, playable⟩
  · rintro ⟨stages, change, is, playable⟩
    have lasts : Chord.Lasts tempo change (chordSeconds change tempo) := Chord.lasts_iff.mpr rfl
    by_cases rest : ∃ stage ∈ stages, Note.rest ∈ stage
    · refine ⟨⟨token, chordSeconds change tempo, []⟩, rfl, stages, change, is, playable, lasts,
        fun _ => rfl, fun pitched => ?_⟩
      obtain ⟨stage, member, inside⟩ := rest
      exact absurd inside (pitched stage member)
    · exact ⟨⟨token, chordSeconds change tempo, stages.map (List.map Note.hertz)⟩, rfl, stages,
        change, is, playable, lasts, fun found => absurd found rest, fun _ => rfl⟩

theorem exists_forall₂_iff {β γ : Type} {R : β → γ → Prop} {items : List β} :
    (∃ results, List.Forall₂ R items results) ↔ ∀ item ∈ items, ∃ result, R item result := by
  induction items with
  | nil => simp
  | cons item later ih =>
    rw [List.forall_mem_cons, ← ih]
    simp only [List.forall₂_cons_left_iff]
    constructor
    · rintro ⟨_, result, results, is, are, rfl⟩
      exact ⟨⟨result, is⟩, results, are⟩
    · rintro ⟨⟨result, is⟩, results, are⟩
      exact ⟨_, result, results, is, are, rfl⟩

/-- At a tempo that is finite and not zero or less, reading accepts exactly the language of the
notation, and answers with what the tokens mean. -/
theorem Score.read_iff (tempo : α) (finite : Scalar.isFinite tempo = true)
    (positive : ¬ tempo ≤ Scalar.ofNat 0) (text : List Char) :
    ((∃ score, Score.read text tempo = .ok score) ↔
      Balanced text ∧ Token.split text ≠ [] ∧ ∀ token ∈ Token.split text,
        ∃ stages change, TokenText stages change token ∧ Playable α stages) ∧
    ∀ score, Score.read text tempo = .ok score →
      score.tempo = tempo ∧ List.Forall₂ (Chord.Means tempo) (Token.split text) score.chords := by
  have reads (score : Score α) : Score.read text tempo = .ok score ↔
      Balanced text ∧ Token.split text ≠ [] ∧ score.tempo = tempo ∧
        List.Forall₂ (Chord.Means tempo) (Token.split text) score.chords := by
    rw [Score.read_eq_ok]
    simp only [finite, positive, not_false_iff, true_and, Token.ofText_eq_ok,
      Chord.read_eq_ok_iff_means]
    constructor
    · rintro ⟨tokens, ⟨balanced, rfl⟩, present, same, chords⟩
      exact ⟨balanced, present, same, chords⟩
    · rintro ⟨balanced, present, same, chords⟩
      exact ⟨_, ⟨balanced, rfl⟩, present, same, chords⟩
  refine ⟨?_, fun score read => ((reads score).mp read).2.2⟩
  simp only [reads, ← Chord.exists_means_iff tempo]
  constructor
  · rintro ⟨score, balanced, present, -, chords⟩
    exact ⟨balanced, present, exists_forall₂_iff.mp ⟨score.chords, chords⟩⟩
  · rintro ⟨balanced, present, readable⟩
    obtain ⟨chords, are⟩ := exists_forall₂_iff.mpr readable
    exact ⟨⟨tempo, chords⟩, balanced, present, rfl, are⟩

end Sound

/-- A text with a group of two stages, in which notes are written in every way there is, a rest
among them: three beats of silence. -/
theorem Score.read_iff_group : Scalar.isFinite (60 : ℝ) = true ∧ ¬ (60 : ℝ) ≤ Scalar.ofNat 0 ∧
    ∃ score chord, Score.read ['(', '(', 'c', ',', 'A', '#', '5', ')', ' ', '-', '>', 'b', 'b', ',',
      '-', ')', '*', '3'] (60 : ℝ) = .ok score ∧ score.chords = [chord] ∧ chord.seconds = 3 ∧
      chord.stages = [] := by
  have positive : ¬ (60 : ℝ) ≤ Scalar.ofNat 0 := by norm_num
  have low : NotesText [.pitch .c none none, .pitch .a (some .sharp) (some 5)]
      ['c', ',', 'A', '#', '5'] :=
    .more _ ['c'] (.pitch 'c' .c (.inr rfl) none [] .natural none [] .usual) _ ['A', '#', '5']
      (.single _ _ (.pitch 'A' .a (.inl rfl) (some .sharp) ['#'] .sharp (some 5) ['5']
        (.written ['5'] (by decide) rfl (by decide))))
  have high : NotesText [.pitch .b (some .flat) none, .rest] ['b', 'b', ',', '-'] :=
    .more _ ['b', 'b'] (.pitch 'b' .b (.inr rfl) (some .flat) ['b'] .flat none [] .usual) _ ['-']
      (.single _ _ .rest)
  have glide : StagesText [[.pitch .c none none, .pitch .a (some .sharp) (some 5)],
      [.pitch .b (some .flat) none, .rest]]
      ['(', 'c', ',', 'A', '#', '5', ')', '-', '>', 'b', 'b', ',', '-'] :=
    .more _ ['(', 'c', ',', 'A', '#', '5', ')'] (.listed ['c', ',', 'A', '#', '5'] low) _
      ['b', 'b', ',', '-'] (.single _ _ (.bare _ high))
  have token : TokenText _ (some (.multiply 3)) ['(', '(', 'c', ',', 'A', '#', '5', ')', '-', '>',
      'b', 'b', ',', '-', ')', '*', '3'] :=
    .changed ['(', '(', 'c', ',', 'A', '#', '5', ')', '-', '>', 'b', 'b', ',', '-', ')']
      ['*', '3'] (.grouped (by decide) _ (.once _ glide)) _ (.multiply '3' rfl (by decide))
  have rest : ∃ stage ∈ [[.pitch .c none none, .pitch .a (some .sharp) (some 5)],
      [.pitch .b (some .flat) none, .rest]], Note.rest ∈ stage :=
    ⟨_, List.mem_cons_of_mem _ List.mem_cons_self, by decide⟩
  obtain ⟨accepts, means⟩ := Score.read_iff (60 : ℝ) rfl positive
    ['(', '(', 'c', ',', 'A', '#', '5', ')', ' ', '-', '>', 'b', 'b', ',', '-', ')', '*', '3']
  obtain ⟨score, read⟩ := accepts.mpr ⟨(Balanced.isBalanced_iff _).mp rfl, by decide, by
    intro found member
    rw [List.mem_singleton.mp member]
    exact ⟨_, _, token, by decide, .inl rest⟩⟩
  obtain ⟨-, chords⟩ := means score read
  obtain ⟨chord, others, ⟨-, stages, change, is, -, lasts, silent, -⟩, none, same⟩ :=
    List.forall₂_cons_left_iff.mp chords
  obtain ⟨rfl, rfl⟩ := is.unique token
  obtain rfl := List.forall₂_nil_left_iff.mp none
  refine ⟨rfl, positive, score, chord, read, same, ?_, silent rest⟩
  rw [lasts.multiplied 3 rfl]
  norm_num

end Portamento
