import Mathlib.Data.List.Forall2
import Portamento.Proofs.Score.Length
import Portamento.Score.Chord

/-!
# The grammar of chord tokens

What the tokens of the notation look like, and what each of them says, as a grammar over texts:

    token  = body | body op digit       op = "/" | "*", digit = "1" .. "9"
    body   = stages | group             a group holds two stages or more
    group  = "(" stages ")" | "(" group ")"
    stages = stage ("->" stage)*
    stage  = notes | "(" notes ")"
    notes  = note ("," note)*
    note   = "-" | letter accidental? octave?

The characters that hold a token together, such as commas, arrows and parentheses, stand in no note.
That is why a text can be read as a token in one way only, and why it can be taken apart at these
characters without a look at what stands between them.
-/

namespace Portamento

/-- Whether a character names a letter, in either case. -/
def Letter.IsNamedBy (letter : Letter) (x : Char) : Prop :=
  x = letter.toChar ∨ x = letter.toChar.toLower

/-- The sign of an accidental, or nothing. -/
inductive AccidentalText : Option Accidental → List Char → Prop where
  | natural : AccidentalText none []
  | sharp : AccidentalText (some .sharp) ['#']
  | flat : AccidentalText (some .flat) ['b']
  | capitalFlat : AccidentalText (some .flat) ['B']

/-- The digits of an octave, or nothing. -/
inductive OctaveText : Option Nat → List Char → Prop where
  | usual : OctaveText none []
  | written (digits : List Char) (present : digits ≠ [])
      (areDigits : digits.all Char.isDigit = true)
      (fits : Decimal.digitsValue digits ≤ greatestOctave) :
      OctaveText (some (Decimal.digitsValue digits)) digits

inductive NoteText : Note → List Char → Prop where
  | rest : NoteText .rest ['-']
  | pitch (x : Char) (letter : Letter) (named : letter.IsNamedBy x)
      (accidental : Option Accidental) (sign : List Char)
      (signed : AccidentalText accidental sign) (octave : Option Nat) (digits : List Char)
      (numbered : OctaveText octave digits) :
      NoteText (.pitch letter accidental octave) (x :: sign ++ digits)

/-- Texts of one kind, one behind the other, with a separator between any two. -/
inductive Separated {β : Type} (separator : List Char) (Item : β → List Char → Prop) :
    List β → List Char → Prop where
  | single (item : β) (text : List Char) (is : Item item text) :
      Separated separator Item [item] text
  | more (item : β) (text : List Char) (is : Item item text) (later : List β) (rest : List Char)
      (are : Separated separator Item later rest) :
      Separated separator Item (item :: later) (text ++ separator ++ rest)

/-- Notes with commas between them. -/
abbrev NotesText : List Note → List Char → Prop := Separated [','] NoteText

inductive StageText (notes : List Note) : List Char → Prop where
  | bare (text : List Char) (are : NotesText notes text) : StageText notes text
  | listed (text : List Char) (are : NotesText notes text) : StageText notes ('(' :: text ++ [')'])

/-- Stages with arrows between them. -/
abbrev StagesText : List (List Note) → List Char → Prop := Separated ['-', '>'] StageText

/-- Stages with parentheses around all of them, once or more. -/
inductive GroupText (stages : List (List Note)) : List Char → Prop where
  | once (text : List Char) (are : StagesText stages text) : GroupText stages ('(' :: text ++ [')'])
  | again (text : List Char) (is : GroupText stages text) : GroupText stages ('(' :: text ++ [')'])

inductive BodyText (stages : List (List Note)) : List Char → Prop where
  | plain (text : List Char) (are : StagesText stages text) : BodyText stages text
  | grouped (glide : 2 ≤ stages.length) (text : List Char) (is : GroupText stages text) :
      BodyText stages text

/-- A chord token, with the stages and the change of length that it says. -/
inductive TokenText (stages : List (List Note)) : Option LengthChange → List Char → Prop where
  | beat (body : List Char) (is : BodyText stages body) : TokenText stages none body
  | changed (body suffix : List Char) (is : BodyText stages body) (change : LengthChange)
      (writes : change.Writes suffix) : TokenText stages (some change) (body ++ suffix)

namespace Separated

variable {β : Type} {separator : List Char} {Item : β → List Char → Prop}

/-- A text of separated items is put together from the texts of the items. -/
theorem iff_intercalate {items : List β} {text : List Char} :
    Separated separator Item items text ↔ ∃ pieces, pieces ≠ [] ∧
      List.Forall₂ Item items pieces ∧ separator.intercalate pieces = text := by
  constructor
  · intro are
    induction are with
    | single item text is => exact ⟨[text], by simp, .cons is .nil, by simp⟩
    | more item text is later rest _ ih =>
      obtain ⟨pieces, present, items, rfl⟩ := ih
      refine ⟨text :: pieces, by simp, .cons is items, ?_⟩
      rw [List.intercalate_cons_of_ne_nil present]
  · rintro ⟨pieces, present, items, rfl⟩
    induction items with
    | nil => exact absurd rfl present
    | @cons item text later pieces is others ih =>
      cases pieces with
      | nil =>
        cases others
        simpa using single item text is
      | cons next pieces =>
        rw [List.intercalate_cons_cons]
        exact .more item text is later _ (ih (by simp))

/-- What holds of the separator and of every item holds of a text of separated items. -/
theorem forall_mem {P : Char → Prop} (between : ∀ x ∈ separator, P x)
    (within : ∀ item text, Item item text → ∀ x ∈ text, P x) {items : List β} {text : List Char}
    (are : Separated separator Item items text) : ∀ x ∈ text, P x := by
  induction are with
  | single item text is => exact within item text is
  | more item text is later rest _ ih =>
    intro x member
    simp only [List.mem_append] at member
    rcases member with (inside | separates) | behind
    · exact within item text is x inside
    · exact between x separates
    · exact ih x behind

theorem items_ne_nil {items : List β} {text : List Char}
    (are : Separated separator Item items text) : items ≠ [] := by
  cases are <;> exact List.cons_ne_nil _ _

/-- Every item has a text of its own. -/
theorem exists_text {items : List β} {text : List Char}
    (are : Separated separator Item items text) : ∀ item ∈ items, ∃ text, Item item text := by
  induction are with
  | single item text is => exact List.forall_mem_singleton.mpr ⟨text, is⟩
  | more item text is later rest _ ih => exact List.forall_mem_cons.mpr ⟨⟨text, is⟩, ih⟩

end Separated

/-- A token has stages in it, whatever parentheses and suffix there are around them. -/
theorem TokenText.exists_stagesText {stages : List (List Note)} {change : Option LengthChange}
    {token : List Char} (is : TokenText stages change token) : ∃ text, StagesText stages text := by
  have ofGroup {text : List Char} (is : GroupText stages text) :
      ∃ text, StagesText stages text := by
    induction is with
    | once text are => exact ⟨text, are⟩
    | again _ _ ih => exact ih
  have ofBody {text : List Char} (is : BodyText stages text) : ∃ text, StagesText stages text := by
    cases is with
    | plain _ are => exact ⟨text, are⟩
    | grouped _ _ is => exact ofGroup is
  cases is with
  | beat _ is => exact ofBody is
  | changed _ _ is => exact ofBody is

theorem TokenText.stages_ne_nil {stages : List (List Note)} {change : Option LengthChange}
    {token : List Char} (is : TokenText stages change token) : stages ≠ [] := by
  obtain ⟨text, are⟩ := is.exists_stagesText
  exact are.items_ne_nil

/-- No stage of a token is without a note. -/
theorem TokenText.stage_ne_nil {stages : List (List Note)} {change : Option LengthChange}
    {token : List Char} (is : TokenText stages change token) : ∀ stage ∈ stages, stage ≠ [] := by
  obtain ⟨text, are⟩ := is.exists_stagesText
  intro stage member
  obtain ⟨text, is⟩ := are.exists_text stage member
  cases is with
  | bare _ are => exact are.items_ne_nil
  | listed _ are => exact are.items_ne_nil

/-- The characters that notes are held together by, and those of length suffixes. -/
def punctuation : List Char := [',', '(', ')', '>', '/', '*']

theorem not_mem_punctuation_of_isDigit {x : Char} (isDigit : x.isDigit = true) :
    x ∉ punctuation := by
  intro member
  simp only [punctuation, List.mem_cons, List.not_mem_nil, or_false] at member
  rcases member with rfl | rfl | rfl | rfl | rfl | rfl <;> cases isDigit

/-- No note has a character in it that holds notes together. -/
theorem NoteText.not_mem_punctuation {note : Note} {text : List Char} (is : NoteText note text) :
    ∀ x ∈ text, x ∉ punctuation := by
  cases is with
  | rest => simp [punctuation]
  | pitch x letter named accidental sign signed octave digits numbered =>
    intro y member
    simp only [List.mem_append, List.mem_cons] at member
    rcases member with (rfl | member) | member
    · rcases named with rfl | rfl <;> cases letter <;> decide
    · cases signed with
      | natural => cases member
      | _ =>
        rw [List.mem_singleton.mp member]
        decide
    · cases numbered with
      | usual => cases member
      | written _ _ areDigits =>
        exact not_mem_punctuation_of_isDigit (List.all_eq_true.mp areDigits y member)

end Portamento
