import Portamento.Proofs.Score.Language
import Portamento.Proofs.Score.NormalForm

/-!
# The documented notation

The documentation has a list of notes only between parentheses of its own:

    stage = note | "(" note ("," note)* ")"

What is read is wider than that, in one place. A list without parentheses is not taken for a stage
where the text is taken apart at commas, for no comma outside parentheses is left in a token. But
the parentheses that group a glide are enough to keep the commas of its stages, and they are gone
when the stages are read. Here is how far the documentation holds: a chord that is read is written
as documented unless it is a group with a bare list in it.
-/

namespace Portamento

/-- A stage as the documentation has it: one note, or notes between parentheses. -/
inductive DocumentedStage : List Note → List Char → Prop where
  | bare (note : Note) (text : List Char) (is : NoteText note text) : DocumentedStage [note] text
  | listed (notes : List Note) (text : List Char) (are : NotesText notes text) :
      DocumentedStage notes ('(' :: text ++ [')'])

/-- Documented stages with arrows between them. -/
abbrev DocumentedStages : List (List Note) → List Char → Prop :=
  Separated ['-', '>'] DocumentedStage

/-- A list of two notes or more, without parentheses. -/
def IsBareList (text : List Char) : Prop := ∃ notes, 2 ≤ notes.length ∧ NotesText notes text

/-- A text within so many pairs of parentheses. -/
def parenthesized (pairs : Nat) (text : List Char) : List Char :=
  List.replicate pairs '(' ++ text ++ List.replicate pairs ')'

/-- The suffix for a change of length, or nothing. -/
inductive ChangeText : Option LengthChange → List Char → Prop where
  | usual : ChangeText none []
  | written (change : LengthChange) (suffix : List Char) (writes : change.Writes suffix) :
      ChangeText (some change) suffix

/-- A token in its parts: the text of its stages, the pairs of parentheses around all of them, and
its suffix. -/
structure Parts (stages : List (List Note)) (change : Option LengthChange) (token : List Char)
    (pairs : Nat) (inner suffix : List Char) : Prop where
  token_eq : token = parenthesized pairs inner ++ suffix
  are : StagesText stages inner
  glide : 0 < pairs → 2 ≤ stages.length
  changes : ChangeText change suffix

/-- A token whose stages are written as documented. Parentheses around a whole glide are allowed. -/
def DocumentedToken (stages : List (List Note)) (change : Option LengthChange)
    (token : List Char) : Prop :=
  ∃ pairs inner suffix, Parts stages change token pairs inner suffix ∧
    DocumentedStages stages inner

/-- A token that has a bare list among its stages, and parentheses around all of them. -/
def GroupsBareList (token : List Char) : Prop :=
  ∃ stages change pairs inner suffix, Parts stages change token pairs inner suffix ∧ 0 < pairs ∧
    ∃ piece ∈ Stage.splitArrows inner, IsBareList piece

section Parentheses

variable {stages : List (List Note)} {change : Option LengthChange} {token text : List Char}

theorem parenthesized_zero (text : List Char) : parenthesized 0 text = text :=
  List.append_nil _

theorem parenthesized_succ (pairs : Nat) (text : List Char) :
    parenthesized (pairs + 1) text = '(' :: parenthesized pairs text ++ [')'] := by
  rw [parenthesized, List.replicate_succ, List.replicate_succ']
  simp [parenthesized]

/-- A group is its stages within one pair of parentheses or more. -/
theorem groupText_iff : GroupText stages text ↔
    ∃ pairs inner, StagesText stages inner ∧ text = parenthesized (pairs + 1) inner := by
  constructor
  · intro is
    induction is with
    | once inner are => exact ⟨0, inner, are, by rw [parenthesized_succ, parenthesized_zero]⟩
    | again text _ ih =>
      obtain ⟨pairs, inner, are, rfl⟩ := ih
      exact ⟨pairs + 1, inner, are, (parenthesized_succ (pairs + 1) inner).symm⟩
  · rintro ⟨pairs, inner, are, rfl⟩
    induction pairs with
    | zero =>
      rw [parenthesized_succ, parenthesized_zero]
      exact .once inner are
    | succ pairs ih =>
      rw [parenthesized_succ]
      exact .again _ ih

theorem bodyText_iff : BodyText stages text ↔ ∃ pairs inner, StagesText stages inner ∧
    (0 < pairs → 2 ≤ stages.length) ∧ text = parenthesized pairs inner := by
  constructor
  · intro is
    cases is with
    | plain _ are => exact ⟨0, text, are, fun none => absurd none (lt_irrefl 0),
        (parenthesized_zero text).symm⟩
    | grouped glide _ is =>
      obtain ⟨pairs, inner, are, same⟩ := groupText_iff.mp is
      exact ⟨pairs + 1, inner, are, fun _ => glide, same⟩
  · rintro ⟨pairs, inner, are, glide, rfl⟩
    cases pairs with
    | zero =>
      rw [parenthesized_zero]
      exact .plain inner are
    | succ pairs =>
      exact .grouped (glide pairs.succ_pos) _ (groupText_iff.mpr ⟨pairs, inner, are, rfl⟩)

/-- A token of the grammar is one that has its parts. -/
theorem tokenText_iff_parts : TokenText stages change token ↔
    ∃ pairs inner suffix, Parts stages change token pairs inner suffix := by
  constructor
  · intro is
    cases is with
    | beat _ is =>
      obtain ⟨pairs, inner, are, glide, same⟩ := bodyText_iff.mp is
      exact ⟨pairs, inner, [], by rw [same, List.append_nil], are, glide, .usual⟩
    | changed body suffix is change writes =>
      obtain ⟨pairs, inner, are, glide, rfl⟩ := bodyText_iff.mp is
      exact ⟨pairs, inner, suffix, rfl, are, glide, .written change suffix writes⟩
  · rintro ⟨pairs, inner, suffix, rfl, are, glide, changes⟩
    have body : BodyText stages (parenthesized pairs inner) :=
      bodyText_iff.mpr ⟨pairs, inner, are, glide, rfl⟩
    cases changes with
    | usual =>
      rw [List.append_nil]
      exact .beat _ body
    | written change _ writes => exact .changed _ suffix body change writes

theorem ungroup_parenthesized (arrow : Stage.hasArrow text = true) (balanced : Balanced text)
    (pairs : Nat) : Stage.hasArrow (parenthesized pairs text) = true ∧
      Balanced (parenthesized pairs text) ∧
      Stage.ungroup (parenthesized pairs text) = Stage.ungroup text := by
  induction pairs with
  | zero =>
    rw [parenthesized_zero]
    exact ⟨arrow, balanced, rfl⟩
  | succ pairs ih =>
    obtain ⟨arrow', balanced', same⟩ := ih
    rw [parenthesized_succ, Stage.ungroup_wrap arrow' balanced']
    refine ⟨?_, balanced'.wrap, same⟩
    obtain ⟨front, back, within⟩ := Stage.hasArrow_iff.mp arrow'
    exact Stage.hasArrow_iff.mpr ⟨'(' :: front, back ++ [')'], by simp [within]⟩

variable {pairs : Nat} {inner suffix : List Char}

/-- The parentheses around a whole glide are dropped, and no other. -/
theorem Parts.ungroup_eq (parts : Parts stages change token pairs inner suffix) :
    Stage.ungroup (parenthesized pairs inner) = inner := by
  cases pairs with
  | zero => rw [parenthesized_zero, Stage.ungroup_of_stages parts.are]
  | succ pairs =>
    have arrow := Stage.hasArrow_of_stages parts.are (parts.glide pairs.succ_pos)
    rw [(ungroup_parenthesized arrow (stagesText_balanced parts.are) _).2.2,
      Stage.ungroup_of_stages parts.are]

theorem Parts.suffixed (parts : Parts stages change token pairs inner suffix) :
    Suffixed (parenthesized pairs inner) change token := by
  obtain ⟨rfl, are, glide, changes⟩ := parts
  have body : BodyText stages (parenthesized pairs inner) :=
    bodyText_iff.mpr ⟨pairs, inner, are, glide, rfl⟩
  cases changes with
  | usual =>
    rw [List.append_nil]
    refine .whole ?_
    rintro ⟨front, operator, digits, same, isOperator, -⟩
    rw [body.not_isLengthOperator operator (by simp [same])] at isOperator
    cases isOperator
  | written change _ writes => exact .changed suffix change writes

/-- The text of the stages is found in a token in one way only. -/
theorem Parts.unique {stages' : List (List Note)} {change' : Option LengthChange} {pairs' : Nat}
    {inner' suffix' : List Char} (parts : Parts stages change token pairs inner suffix)
    (parts' : Parts stages' change' token pairs' inner' suffix') : inner = inner' := by
  have split := splitLength_eq_ok.mpr parts.suffixed
  rw [splitLength_eq_ok.mpr parts'.suffixed, Except.ok.injEq, Prod.mk.injEq] at split
  rw [← parts.ungroup_eq, ← split.1, parts'.ungroup_eq]

end Parentheses

section BareLists

variable {notes : List Note} {stages : List (List Note)} {text : List Char}

/-- A stage that is read is documented unless it is a bare list. -/
theorem documentedStage_iff (is : StageText notes text) :
    DocumentedStage notes text ↔ ¬ IsBareList text := by
  constructor
  · rintro documented ⟨list, several, are⟩
    cases documented with
    | bare note _ single =>
      -- a list has a comma in it, a note has none
      cases are with
      | single => simp at several
      | more note text _ later rest _ =>
        exact single.not_mem_punctuation ',' (by simp) (by decide)
    | listed _ _ _ => exact (notesText_plain are '(' List.mem_cons_self).1 rfl
  · intro plain
    cases is with
    | listed _ are => exact .listed notes _ are
    | bare _ are =>
      cases are with
      | single note _ is => exact .bare note _ is
      | more note first is later rest are =>
        refine absurd ⟨note :: later, ?_, .more note first is later rest are⟩ plain
        cases are <;> simp

theorem DocumentedStage.stageText (is : DocumentedStage notes text) : StageText notes text := by
  cases is with
  | bare note _ is => exact .bare text (.single note text is)
  | listed _ inner are => exact .listed inner are

/-- Items with arrows between them, in which there is no arrow, are what stands between the arrows
of the text. -/
theorem separated_iff_splitArrows {β : Type} {Item : β → List Char → Prop} {items : List β}
    (clear : ∀ item text, Item item text → Stage.hasArrow text = false) :
    Separated ['-', '>'] Item items text ↔ List.Forall₂ Item items (Stage.splitArrows text) := by
  rw [Separated.iff_intercalate]
  constructor
  · rintro ⟨pieces, present, are, rfl⟩
    have both : List.Forall₂ (fun piece item =>
        Stage.hasArrow piece = false ∧ Item item piece) pieces items :=
      are.flip.imp fun piece item is => ⟨clear item piece is, is⟩
    rwa [Stage.splitArrows_intercalate present ((List.forall₂_and_left _ _).mp both).1]
  · exact fun are => ⟨Stage.splitArrows text, Stage.splitArrows_ne_nil text, are,
      Stage.intercalate_splitArrows text⟩

/-- Stages that are read are documented unless there is a bare list among them. -/
theorem documentedStages_iff (are : StagesText stages text) : DocumentedStages stages text ↔
    ∀ piece ∈ Stage.splitArrows text, ¬ IsBareList piece := by
  refine (separated_iff_splitArrows fun _ _ is => is.stageText.not_hasArrow).trans ?_
  replace are := (separated_iff_splitArrows fun _ _ is => StageText.not_hasArrow is).mp are
  generalize Stage.splitArrows text = pieces at are
  induction are with
  | nil => simp
  | cons is _ ih =>
    rw [List.forall₂_cons, List.forall_mem_cons]
    exact and_congr (documentedStage_iff is) ih

/-- Where every comma is within parentheses there is no bare list. -/
theorem documentedStages_of_enclosed (are : StagesText stages text)
    (enclosed : ∀ front back, text = front ++ ',' :: back → ¬ Balanced front) :
    DocumentedStages stages text := by
  have documented {notes : List Note} {text : List Char} (is : StageText notes text)
      (enclosed : ∀ front back, text = front ++ ',' :: back → ¬ Balanced front) :
      DocumentedStage notes text := by
    rw [documentedStage_iff is]
    rintro ⟨list, several, are⟩
    cases are with
    | single => simp at several
    | more note first single _ rest _ =>
      refine enclosed first rest (by simp) (.of_plain fun x member => ?_)
      exact notesText_plain (.single note first single) x member
  induction are with
  | single notes text is => exact .single notes text (documented is enclosed)
  | more notes first is later rest _ ih =>
    refine .more notes first (documented is fun front back parts => ?_) later rest
      (ih fun front back parts balanced => ?_)
    · exact enclosed front (back ++ ['-', '>'] ++ rest) (by simp [parts])
    · refine enclosed (first ++ ['-', '>'] ++ front) back (by simp [parts]) ?_
      exact (is.balanced.append (.of_plain (by simp))).append balanced

end BareLists

section Sound

variable {α : Type} [Scalar α] {stages : List (List Note)} {change : Option LengthChange}
  {token : List Char}

/-- The documentation has no bare list, not in a group either. -/
theorem DocumentedToken.not_groupsBareList (documented : DocumentedToken stages change token) :
    ¬ GroupsBareList token := by
  obtain ⟨pairs, inner, suffix, parts, are⟩ := documented
  rintro ⟨_, _, _, _, _, parts', -, piece, member, list⟩
  rw [← parts.unique parts'] at member
  exact (documentedStages_iff parts.are).mp are piece member list

/-- A token in which every comma is within parentheses is documented unless it is a group with a
bare list in it. -/
theorem documentedToken_iff (is : TokenText stages change token)
    (enclosed : ∀ front back, token = front ++ ',' :: back → ¬ Balanced front) :
    DocumentedToken stages change token ↔ ¬ GroupsBareList token := by
  constructor
  · exact fun documented => documented.not_groupsBareList
  · intro plain
    obtain ⟨pairs, inner, suffix, parts⟩ := tokenText_iff_parts.mp is
    refine ⟨pairs, inner, suffix, parts, ?_⟩
    rcases Nat.eq_zero_or_pos pairs with rfl | grouped
    · refine documentedStages_of_enclosed parts.are fun front back same => ?_
      refine enclosed front (back ++ suffix) ?_
      rw [parts.token_eq, parenthesized_zero, same, List.append_assoc, List.cons_append]
    · refine (documentedStages_iff parts.are).mpr fun piece member list => ?_
      exact plain ⟨stages, change, pairs, inner, suffix, parts, grouped, piece, member, list⟩

/-- Every chord of a score that is read is written as documented, unless its token groups stages
with a bare list among them. -/
theorem Score.documented_unless_grouped {text : List Char} {tempo : α} {score : Score α}
    (reads : Score.read text tempo = .ok score) : ∀ chord ∈ score.chords,
    ∃ stages change, TokenText stages change chord.source ∧
      (DocumentedToken stages change chord.source ↔ ¬ GroupsBareList chord.source) := by
  obtain ⟨-, -, tokens, found, -, -, chords⟩ := Score.read_eq_ok.mp reads
  obtain ⟨balanced, rfl⟩ := Token.ofText_eq_ok.mp found
  have means : ∀ chord ∈ score.chords,
      ∃ stages change, TokenText stages change chord.source := by
    have both : List.Forall₂ (fun chord token =>
        (∃ stages change, TokenText stages change chord.source) ∧
          Chord.read token tempo = .ok chord) score.chords (Token.split text) := by
      refine chords.flip.imp fun chord token read => ⟨?_, read⟩
      obtain ⟨rfl, stages, change, is, -⟩ := Chord.read_eq_ok_iff_means.mp read
      exact ⟨stages, change, is⟩
    exact ((List.forall₂_and_left _ _).mp both).1
  intro chord member
  obtain ⟨stages, change, is⟩ := means chord member
  have listed : chord.source ∈ Token.split text := by
    rw [← sources_eq chords]
    exact List.mem_map_of_mem member
  exact ⟨stages, change, is,
    documentedToken_iff is (Token.isToken_of_mem_split balanced listed).enclosed⟩

end Sound

section BareGlide

/-- A glide that is grouped, with no parentheses around the lists of its stages. -/
def bareGlide : List Char := ['(', 'c', ',', 'd', '-', '>', 'e', ',', 'f', ')']

/-- The stages of that glide. -/
def bareGlideStages : List (List Note) :=
  [[.pitch .c none none, .pitch .d none none], [.pitch .e none none, .pitch .f none none]]

/-- Two letters with a comma between them are a bare list. -/
theorem notesText_pair (low high : Letter) {x y : Char} (first : low.IsNamedBy x)
    (second : high.IsNamedBy y) :
    NotesText [.pitch low none none, .pitch high none none] [x, ',', y] :=
  .more _ [x] (.pitch x low first none [] .natural none [] .usual) _ [y]
    (.single _ [y] (.pitch y high second none [] .natural none [] .usual))

theorem parts_bareGlide : Parts bareGlideStages none bareGlide 1
    ['c', ',', 'd', '-', '>', 'e', ',', 'f'] [] where
  token_eq := rfl
  are := .more _ ['c', ',', 'd'] (.bare _ (notesText_pair .c .d (.inr rfl) (.inr rfl))) _
    ['e', ',', 'f'] (.single _ _ (.bare _ (notesText_pair .e .f (.inr rfl) (.inr rfl))))
  glide _ := le_refl 2
  changes := .usual

theorem groupsBareList_bareGlide : GroupsBareList bareGlide := by
  have list : IsBareList ['c', ',', 'd'] :=
    ⟨_, le_refl 2, notesText_pair .c .d (.inr rfl) (.inr rfl)⟩
  exact ⟨_, _, _, _, _, parts_bareGlide, Nat.one_pos, _, List.mem_cons_self, list⟩

/-- In the octave of the reference frequencies every letter can be played. -/
theorem isPlayable_usual (letter : Letter) : (Note.pitch letter none none).IsPlayable ℝ := by
  have unmoved : (Scalar.octaves 0 : ℝ) = 1 := by simp [Scalar.octaves, Scalar.power]
  have hertz : (Note.pitch letter none none).hertz =
      (Scalar.ratio letter.natural.centihertz 100 : ℝ) := by
    simp [Note.hertz, spell, Spelling.frequency, PitchClass.frequency, unmoved]
  refine ⟨rfl, ?_⟩
  rw [hertz, Scalar.ratio_real]
  cases letter <;> norm_num [Letter.natural, PitchClass.centihertz]

theorem exists_read_bareGlide : ∃ score : Score ℝ, Score.read bareGlide 60 = .ok score ∧
    score.chords.map Chord.source = [bareGlide] := by
  have token : TokenText bareGlideStages none bareGlide :=
    tokenText_iff_parts.mpr ⟨_, _, _, parts_bareGlide⟩
  have playable : Playable ℝ bareGlideStages := by
    refine ⟨by decide, .inr ?_⟩
    simp only [bareGlideStages, List.forall_mem_cons, List.not_mem_nil, false_implies,
      implies_true, and_true, isPlayable_usual]
  obtain ⟨chord, means⟩ := (Chord.exists_means_iff (60 : ℝ)).mpr ⟨_, _, token, playable⟩
  refine ⟨⟨60, [chord]⟩, Score.read_eq_ok.mpr ⟨rfl, by norm_num, [bareGlide], rfl, by simp, rfl,
    .cons (Chord.read_eq_ok_iff_means.mpr means) .nil⟩, ?_⟩
  rw [List.map_singleton, means.source_eq]

/-- That glide is read as a score, and its only chord is not written as documented. -/
theorem Score.documented_unless_grouped_bareGlide : ∃ score : Score ℝ,
    Score.read bareGlide 60 = .ok score ∧ ∀ chord ∈ score.chords,
      ∃ stages change, TokenText stages change chord.source ∧
        (DocumentedToken stages change chord.source ↔ ¬ GroupsBareList chord.source) := by
  obtain ⟨score, reads, -⟩ := exists_read_bareGlide
  exact ⟨score, reads, Score.documented_unless_grouped reads⟩

/-- A bare list within a group is accepted, though no stage of the documentation is one. -/
theorem Score.accepts_bareGlide : ∃ score : Score ℝ, Score.read bareGlide 60 = .ok score ∧
    ∃ chord ∈ score.chords, ∀ stages change, ¬ DocumentedToken stages change chord.source := by
  obtain ⟨score, reads, sources⟩ := exists_read_bareGlide
  have listed : bareGlide ∈ score.chords.map Chord.source := by
    rw [sources]
    exact List.mem_singleton_self bareGlide
  obtain ⟨chord, member, source⟩ := List.mem_map.mp listed
  refine ⟨score, reads, chord, member, fun stages change documented => ?_⟩
  rw [source] at documented
  exact documented.not_groupsBareList groupsBareList_bareGlide

end BareGlide

end Portamento
