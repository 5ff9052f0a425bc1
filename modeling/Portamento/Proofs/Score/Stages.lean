import Portamento.Proofs.Score.Balance
import Portamento.Proofs.Score.Grammar

/-!
# Notes, stages and bodies are read as the grammar has them

Each reader accepts the texts that the grammar derives and no other, and answers with what the
grammar says that they mean.
-/

namespace Portamento

section Notes

theorem eq_or_eq_toLower {x y : Char} (upper : 'A'.val ≤ y.val ∧ y.val ≤ 'Z'.val)
    (same : x.toUpper = y) : x = y ∨ x = y.toLower := by
  unfold Char.toUpper at same
  split at same
  · refine .inr (Char.ext ?_)
    have value := congrArg Char.val same
    dsimp only at value
    have lower : y.toLower.val = y.val + ('a'.val - 'A'.val) :=
      congrArg Char.val (dif_pos upper)
    rw [lower, ← value, UInt32.add_assoc]
    have zero : ('A'.val - 'a'.val) + ('a'.val - 'A'.val) = 0 := by decide
    rw [zero, UInt32.add_zero]
  · exact .inl same

theorem Letter.ofChar?_eq_some {x : Char} {letter : Letter} :
    Letter.ofChar? x = some letter ↔ letter.IsNamedBy x := by
  constructor
  · intro named
    have upper : x.toUpper = letter.toChar := by
      unfold Letter.ofChar? at named
      split at named <;> cases named <;> assumption
    refine eq_or_eq_toLower ?_ upper
    cases letter <;> decide
  · rintro (rfl | rfl) <;> cases letter <;> rfl

theorem readOctave?_eq_some {octave : Option Nat} {text : List Char} :
    readOctave? text = some octave ↔ OctaveText octave text := by
  unfold readOctave? Decimal.valueUpTo?
  rw [Decimal.extendUpTo?_eq]
  constructor
  · intro reads
    split at reads
    · next empty =>
      cases reads
      rw [List.isEmpty_iff.mp empty]
      exact .usual
    · next present =>
      split at reads
      · cases reads
      · next areDigits =>
        split at reads
        · next fits =>
          cases reads
          exact .written text (by simpa using present) (by simpa using areDigits) fits
        · cases reads
  · intro is
    cases is with
    | usual => rfl
    | written _ present areDigits fits =>
      simp only [List.isEmpty_iff, if_neg present, areDigits, Bool.not_true, Bool.false_eq_true,
        if_false]
      have fits' : text.foldl Decimal.appendDigit 0 ≤ greatestOctave := fits
      rw [if_pos fits']
      rfl

/-- No digit is the sign of an accidental. -/
theorem OctaveText.take_eq {octave : Option Nat} {text : List Char} (is : OctaveText octave text) :
    Accidental.take text = (none, text) := by
  cases is with
  | usual => rfl
  | written _ present areDigits =>
    cases text with
    | nil => rfl
    | cons x rest =>
      have isDigit : x.isDigit = true := List.all_eq_true.mp areDigits x List.mem_cons_self
      have plain : Accidental.ofChar? x = none := by
        unfold Accidental.ofChar?
        split
        · cases isDigit
        · cases isDigit
        · cases isDigit
        · rfl
      simp only [Accidental.take, plain]

theorem Accidental.take_eq_of_text {accidental : Option Accidental} {sign digits : List Char}
    {octave : Option Nat} (signed : AccidentalText accidental sign)
    (numbered : OctaveText octave digits) :
    Accidental.take (sign ++ digits) = (accidental, digits) := by
  cases signed with
  | natural => exact numbered.take_eq
  | sharp => rfl
  | flat => rfl
  | capitalFlat => rfl

theorem Accidental.text_of_take {accidental : Option Accidental} {text rest : List Char}
    (takes : Accidental.take text = (accidental, rest)) :
    ∃ sign, AccidentalText accidental sign ∧ text = sign ++ rest := by
  unfold Accidental.take at takes
  split at takes
  · cases takes
    exact ⟨[], .natural, rfl⟩
  · next x tail =>
    split at takes
    · next found named =>
      cases takes
      unfold Accidental.ofChar? at named
      split at named <;> cases named
      · exact ⟨['#'], .sharp, rfl⟩
      · exact ⟨['b'], .flat, rfl⟩
      · exact ⟨['B'], .capitalFlat, rfl⟩
    · cases takes
      exact ⟨[], .natural, rfl⟩

theorem Note.read?_eq_some {note : Note} {text : List Char} :
    Note.read? text = some note ↔ NoteText note text := by
  constructor
  · intro reads
    unfold Note.read? at reads
    split at reads
    · cases reads
    · cases reads
      exact .rest
    · next x tail _ =>
      obtain ⟨letter, named, reads⟩ := Option.bind_eq_some_iff.mp reads
      cases takes : Accidental.take tail with
      | mk accidental digits =>
        rw [takes] at reads
        obtain ⟨octave, numbered, reads⟩ := Option.bind_eq_some_iff.mp reads
        cases reads
        obtain ⟨sign, signed, rfl⟩ := Accidental.text_of_take takes
        exact .pitch x letter (Letter.ofChar?_eq_some.mp named) accidental sign signed octave digits
          (readOctave?_eq_some.mp numbered)
  · intro is
    cases is with
    | rest => rfl
    | pitch x letter named accidental sign signed octave digits numbered =>
      have named := Letter.ofChar?_eq_some.mpr named
      have other : x ≠ '-' := by
        rintro rfl
        cases named
      rw [List.cons_append, Note.read?, named, Accidental.take_eq_of_text signed numbered]
      · simp only [Option.bind_eq_bind, Option.bind_some, readOctave?_eq_some.mpr numbered]
        rfl
      · rintro rfl
        exact absurd rfl other

theorem Note.read_eq_ok {note : Note} {text : List Char} :
    Note.read text = .ok note ↔ NoteText note text := by
  rw [← Note.read?_eq_some, Note.read]
  cases Note.read? text <;> simp

end Notes

section Pieces

/-- A reading of a whole list succeeds if that of each element does. -/
theorem mapM_eq_ok {ε β γ : Type} {read : β → Except ε γ} {items : List β} {results : List γ} :
    items.mapM read = .ok results ↔
      List.Forall₂ (fun item result => read item = .ok result) items results := by
  induction items generalizing results with
  | nil =>
    rw [List.forall₂_nil_left_iff, List.mapM_nil]
    exact ⟨fun same => (Except.ok.inj same).symm, fun same => congrArg Except.ok same.symm⟩
  | cons item later ih =>
    rw [List.forall₂_cons_left_iff, List.mapM_cons]
    cases first : read item with
    | error fault => simp [bind, Except.bind]
    | ok result =>
      cases rest : later.mapM read with
      | error fault =>
        simp only [bind, Except.bind, reduceCtorEq, Except.ok.injEq, false_iff]
        rintro ⟨result', results', -, others, -⟩
        rw [ih.mpr others] at rest
        cases rest
      | ok results' =>
        simp only [bind, Except.bind, pure, Except.pure, Except.ok.injEq]
        constructor
        · rintro rfl
          exact ⟨result, results', rfl, ih.mp rest, rfl⟩
        · rintro ⟨result'', others, rfl, reads, rfl⟩
          rw [ih.mpr reads] at rest
          cases rest
          rfl

/-- To take a text apart at the separators and to read each piece is to read separated items, if the
splitting undoes the putting together, for pieces in which no separator is hidden. -/
theorem Separated.of_split {ε β : Type} {separator : List Char} {Item : β → List Char → Prop}
    {split : List Char → List (List Char)} {read : List Char → Except ε β}
    (Clear : List Char → Prop) (joined : ∀ text, separator.intercalate (split text) = text)
    (present : ∀ text, split text ≠ [])
    (splits : ∀ pieces, pieces ≠ [] → (∀ piece ∈ pieces, Clear piece) →
      split (separator.intercalate pieces) = pieces)
    (reads : ∀ item text, read text = .ok item ↔ Item item text)
    (clear : ∀ item text, Item item text → Clear text) (items : List β) (text : List Char) :
    (split text).mapM read = .ok items ↔ Separated separator Item items text := by
  rw [mapM_eq_ok, Separated.iff_intercalate]
  simp only [reads]
  constructor
  · exact fun are => ⟨split text, present text, are.flip, joined text⟩
  · rintro ⟨pieces, several, are, rfl⟩
    have clears : ∀ piece ∈ pieces, Clear piece := by
      have both : List.Forall₂ (fun piece item => Clear piece ∧ Item item piece) pieces items :=
        are.flip.imp fun piece item is => ⟨clear item piece is, is⟩
      exact ((List.forall₂_and_left _ _).mp both).1
    rw [splits pieces several clears]
    exact are.flip

namespace Stage

theorem splitDelimiters_eq_splitOn (text : List Char) :
    splitDelimiters text = text.splitOn ',' := by
  induction text with
  | nil => rfl
  | cons x rest ih =>
    rw [splitDelimiters, List.splitOn_cons_eq_if_modifyHead, ← ih]
    by_cases delimits : x = Token.delimiter
    · have same : (x == ',') = true := beq_iff_eq.mpr delimits
      rw [if_pos delimits, if_pos same]
    · have other : ¬ (x == ',') = true := fun same => delimits (beq_iff_eq.mp same)
      rw [if_neg delimits, if_neg other]
      cases pieces : splitDelimiters rest with
      | nil =>
        rw [pieces] at ih
        exact absurd ih.symm (List.splitOn_ne_nil ',' rest)
      | cons piece later => rfl

theorem splitArrows_ne_nil (text : List Char) : splitArrows text ≠ [] := by
  fun_induction splitArrows text <;> exact List.cons_ne_nil _ _

/-- A character that begins no arrow goes to the first piece. -/
theorem splitArrows_cons {x : Char} {rest : List Char}
    (other : x = '-' → rest.head? ≠ some '>') :
    splitArrows (x :: rest) = (splitArrows rest).modifyHead (List.cons x) := by
  have present := splitArrows_ne_nil rest
  rw [splitArrows]
  · cases pieces : splitArrows rest with
    | nil => exact absurd pieces present
    | cons piece later => rfl
  · rintro later rfl rfl
    exact other rfl rfl

theorem hasArrow_iff {text : List Char} :
    hasArrow text = true ↔ ∃ front back, text = front ++ ['-', '>'] ++ back := by
  constructor
  · intro arrow
    fun_induction hasArrow text with
    | case1 => cases arrow
    | case2 rest => exact ⟨[], rest, rfl⟩
    | case3 x rest _ ih =>
      obtain ⟨front, back, rfl⟩ := ih arrow
      exact ⟨x :: front, back, rfl⟩
  · rintro ⟨front, back, rfl⟩
    induction front with
    | nil => rfl
    | cons x later ih =>
      rw [List.cons_append, List.cons_append]
      unfold hasArrow
      split
      · next empty => cases empty
      · rfl
      · next shape =>
        cases shape
        exact ih

theorem not_hasArrow_of_clear {text : List Char} (clear : '>' ∉ text) : hasArrow text = false := by
  rw [← Bool.not_eq_true, hasArrow_iff]
  rintro ⟨front, back, rfl⟩
  simp at clear

/-- A text has no arrow if there is none behind its first character and none across it. -/
theorem hasArrow_cons_eq_false {x : Char} {rest : List Char} : hasArrow (x :: rest) = false ↔
    hasArrow rest = false ∧ (x = '-' → rest.head? ≠ some '>') := by
  constructor
  · intro clear
    constructor
    · rw [← Bool.not_eq_true, hasArrow_iff] at clear ⊢
      rintro ⟨front, back, rfl⟩
      exact clear ⟨x :: front, back, rfl⟩
    · rintro rfl head
      obtain ⟨later, rfl⟩ := List.head?_eq_some_iff.mp head
      cases clear
  · rintro ⟨clear, apart⟩
    rw [hasArrow]
    · exact clear
    · rintro later rfl rfl
      exact apart rfl rfl

/-- An arrow begins another piece. -/
theorem splitArrows_append {text : List Char} (clear : hasArrow text = false) (rest : List Char) :
    splitArrows (text ++ ['-', '>'] ++ rest) = text :: splitArrows rest := by
  induction text with
  | nil => rfl
  | cons x later ih =>
    obtain ⟨clear, apart⟩ := hasArrow_cons_eq_false.mp clear
    rw [List.cons_append, List.cons_append, splitArrows_cons, ih clear]
    · rfl
    · intro hyphen
      cases later with
      | nil => simp
      | cons y later => exact apart hyphen

theorem splitArrows_of_clear {text : List Char} (clear : hasArrow text = false) :
    splitArrows text = [text] := by
  induction text with
  | nil => rfl
  | cons x later ih =>
    obtain ⟨clear, apart⟩ := hasArrow_cons_eq_false.mp clear
    rw [splitArrows_cons apart, ih clear]
    rfl

theorem intercalate_splitArrows (text : List Char) :
    ['-', '>'].intercalate (splitArrows text) = text := by
  fun_induction splitArrows text with
  | case1 => rfl
  | case2 rest ih =>
    rw [List.intercalate_cons_of_ne_nil (splitArrows_ne_nil rest), ih]
    rfl
  | case3 x rest _ empty => exact absurd empty (splitArrows_ne_nil rest)
  | case4 x rest _ piece later pieces ih =>
    rw [pieces] at ih
    cases later with
    | nil => simpa using ih
    | cons next later =>
      rw [List.intercalate_cons_cons] at ih ⊢
      rw [← ih]
      rfl

theorem splitArrows_intercalate {pieces : List (List Char)} (present : pieces ≠ [])
    (clear : ∀ piece ∈ pieces, hasArrow piece = false) :
    splitArrows (['-', '>'].intercalate pieces) = pieces := by
  induction pieces with
  | nil => exact absurd rfl present
  | cons piece later ih =>
    have first := clear piece List.mem_cons_self
    cases later with
    | nil => simpa using splitArrows_of_clear first
    | cons next later =>
      rw [List.intercalate_cons_cons, splitArrows_append first,
        ih (by simp) fun piece member => clear piece (List.mem_cons_of_mem _ member)]

/-- What stands between two parentheses. -/
theorem unwrap?_eq_some {text inner : List Char} :
    unwrap? text = some inner ↔ text = '(' :: inner ++ [')'] := by
  constructor
  · intro unwraps
    unfold unwrap? at unwraps
    split at unwraps
    · next rest =>
      split at unwraps
      · next closes =>
        cases unwraps
        obtain ⟨some, last⟩ := List.getLast?_eq_some_iff.mp closes
        rw [last]
        simp
      · cases unwraps
    · cases unwraps
  · rintro rfl
    simp [unwrap?]

end Stage

end Pieces

section Bodies

/-- Between notes there are commas, and no other character that holds notes together. -/
theorem notesText_clear {notes : List Note} {text : List Char} (are : NotesText notes text) :
    ∀ x ∈ text, x ∈ punctuation → x = ',' :=
  are.forall_mem (by simp) fun _ _ is x member puncts =>
    absurd puncts (is.not_mem_punctuation x member)

theorem notesText_plain {notes : List Note} {text : List Char} (are : NotesText notes text) :
    ∀ x ∈ text, x ≠ '(' ∧ x ≠ ')' := by
  intro x member
  constructor
  · rintro rfl
    exact absurd (notesText_clear are '(' member (by decide)) (by decide)
  · rintro rfl
    exact absurd (notesText_clear are ')' member (by decide)) (by decide)

/-- Within a stage there is no arrow and no length suffix. -/
theorem StageText.clear {notes : List Note} {text : List Char} (is : StageText notes text) :
    ∀ x ∈ text, x ∈ punctuation → x = ',' ∨ x = '(' ∨ x = ')' := by
  cases is with
  | bare _ are => exact fun x member puncts => .inl (notesText_clear are x member puncts)
  | listed inner are =>
    intro x member puncts
    simp only [List.mem_append, List.mem_cons, List.not_mem_nil, or_false] at member
    rcases member with (opens | inside) | closes
    · exact .inr (.inl opens)
    · exact .inl (notesText_clear are x inside puncts)
    · exact .inr (.inr closes)

theorem StageText.not_hasArrow {notes : List Note} {text : List Char}
    (is : StageText notes text) : Stage.hasArrow text = false := by
  refine Stage.not_hasArrow_of_clear fun member => ?_
  exact absurd (is.clear '>' member (by decide)) (by decide)

theorem StageText.balanced {notes : List Note} {text : List Char} (is : StageText notes text) :
    Balanced text := by
  cases is with
  | bare _ are => exact .of_plain (notesText_plain are)
  | listed _ are => exact (Balanced.of_plain (notesText_plain are)).wrap

theorem stagesText_balanced {stages : List (List Note)} {text : List Char}
    (are : StagesText stages text) : Balanced text := by
  induction are with
  | single _ _ is => exact is.balanced
  | more _ _ is _ _ _ ih =>
    exact (is.balanced.append (.of_plain (by simp))).append ih

namespace Stage

/-- The notes between commas are read as the grammar has them. -/
theorem readNotes_eq_ok {notes : List Note} {text : List Char} :
    (splitDelimiters text).mapM Note.read = .ok notes ↔ NotesText notes text := by
  refine Separated.of_split (fun piece => ',' ∉ piece) (fun text => ?_) (fun text => ?_)
    (fun pieces present clear => ?_) (fun _ _ => Note.read_eq_ok) (fun note text is comma => ?_) ..
  · rw [splitDelimiters_eq_splitOn, List.intercalate_splitOn]
  · rw [splitDelimiters_eq_splitOn]
    exact List.splitOn_ne_nil ',' text
  · rw [splitDelimiters_eq_splitOn, List.splitOn_intercalate ',' clear present]
  · exact is.not_mem_punctuation ',' comma (by decide)

theorem read_eq_ok {notes : List Note} {text : List Char} :
    read text = .ok notes ↔ StageText notes text := by
  constructor
  · intro reads
    unfold read at reads
    split at reads
    · next rest =>
      split at reads
      · next inner unwraps =>
        rw [unwrap?_eq_some.mp unwraps]
        exact .listed inner (readNotes_eq_ok.mp reads)
      · cases reads
    · exact .bare text (readNotes_eq_ok.mp reads)
  · intro is
    cases is with
    | bare _ are =>
      unfold read
      split
      · exact absurd rfl (notesText_plain are '(' List.mem_cons_self).1
      · exact readNotes_eq_ok.mpr are
    | listed inner are =>
      have unwraps := unwrap?_eq_some.mpr (rfl : '(' :: inner ++ [')'] = _)
      rw [List.cons_append] at unwraps ⊢
      simp only [read, unwraps]
      exact readNotes_eq_ok.mpr are

/-- The stages between arrows are read as the grammar has them. -/
theorem readStages_eq_ok {stages : List (List Note)} {text : List Char} :
    (splitArrows text).mapM read = .ok stages ↔ StagesText stages text :=
  Separated.of_split (fun piece => hasArrow piece = false) intercalate_splitArrows
    splitArrows_ne_nil (fun _ => splitArrows_intercalate) (fun _ _ => read_eq_ok)
    (fun _ _ is => is.not_hasArrow) ..

/-- A text with an arrow in it has two pieces or more. -/
theorem two_le_length_splitArrows {text : List Char} (arrow : hasArrow text = true) :
    2 ≤ (splitArrows text).length := by
  fun_induction hasArrow text with
  | case1 => cases arrow
  | case2 rest =>
    exact Nat.succ_le_succ (List.length_pos_iff.mpr (splitArrows_ne_nil rest))
  | case3 x rest other ih =>
    have plain : x = '-' → rest.head? ≠ some '>' := by
      rintro rfl head
      obtain ⟨later, rfl⟩ := List.head?_eq_some_iff.mp head
      exact other later rfl rfl
    rw [splitArrows_cons plain, List.length_modifyHead]
    exact ih arrow

theorem ungroup_of_not_group {text : List Char}
    (plain : ∀ inner, text = '(' :: inner ++ [')'] →
      hasArrow inner = true → ¬ isBalanced 0 inner = true) : ungroup text = text := by
  unfold ungroup
  split
  · next inner unwraps =>
    split
    · next groups =>
      rw [Bool.and_eq_true] at groups
      exact absurd groups.2 (plain inner (unwrap?_eq_some.mp unwraps) groups.1)
    · rfl
  · rfl

theorem ungroup_wrap {text : List Char} (arrow : hasArrow text = true) (balanced : Balanced text) :
    ungroup ('(' :: text ++ [')']) = ungroup text := by
  have groups : (hasArrow text && isBalanced 0 text) = true := by
    rw [arrow, (Balanced.isBalanced_iff text).mpr balanced]
    rfl
  rw [ungroup]
  split
  · next inner unwraps =>
    have same : text = inner := by
      simpa using unwrap?_eq_some.mp unwraps
    rw [← same, if_pos groups]
  · next bare =>
    rw [unwrap?_eq_some.mpr rfl] at bare
    cases bare

/-- The parentheses at the two ends of stages, if there are any, belong to the stages. -/
theorem ungroup_of_stages {stages : List (List Note)} {text : List Char}
    (are : StagesText stages text) : ungroup text = text := by
  refine ungroup_of_not_group fun inner ends arrow balanced => ?_
  cases are with
  | single notes _ is =>
    cases is with
    | bare _ are =>
      rw [ends] at are
      exact (notesText_plain are '(' List.mem_cons_self).1 rfl
    | listed notes are =>
      obtain rfl : notes = inner := by simpa using ends
      have clear : '>' ∉ notes := fun member =>
        absurd (notesText_clear are '>' member (by decide)) (by decide)
      rw [not_hasArrow_of_clear clear] at arrow
      cases arrow
  | more notes first is later rest are =>
    cases is with
    | bare _ are =>
      cases first with
      | nil => simp at ends
      | cons x first =>
        simp only [List.cons_append, List.cons.injEq] at ends
        rw [ends.1] at are
        exact (notesText_plain are '(' List.mem_cons_self).1 rfl
    | listed first are =>
      -- the parenthesis behind the first stage closes the one at the front
      have front : inner = first ++ ')' :: ('-' :: '>' :: rest).dropLast := by
        have ends' : first ++ ')' :: '-' :: '>' :: rest = inner ++ [')'] := by simpa using ends
        have shorter := congrArg List.dropLast ends'
        rw [List.dropLast_concat, List.dropLast_append_of_ne_nil (by simp)] at shorter
        rw [← shorter]
        rfl
      rw [front, (Balanced.of_plain (notesText_plain are)).isBalanced_append,
        isBalanced_close_zero] at balanced
      cases balanced

theorem hasArrow_of_stages {stages : List (List Note)} {text : List Char}
    (are : StagesText stages text) (glide : 2 ≤ stages.length) : hasArrow text = true := by
  cases are with
  | single => simp at glide
  | more _ text _ _ rest => exact hasArrow_iff.mpr ⟨text, rest, rfl⟩

/-- A group of stages is taken out of all its parentheses. -/
theorem ungroup_of_group {stages : List (List Note)} {text : List Char}
    (glide : 2 ≤ stages.length) (is : GroupText stages text) :
    StagesText stages (ungroup text) ∧ hasArrow text = true ∧ Balanced text := by
  have arrow {inner : List Char} (within : hasArrow inner = true) :
      hasArrow ('(' :: inner ++ [')']) = true := by
    obtain ⟨front, back, rfl⟩ := hasArrow_iff.mp within
    exact hasArrow_iff.mpr ⟨'(' :: front, back ++ [')'], by simp⟩
  induction is with
  | once inner are =>
    have within := hasArrow_of_stages are glide
    rw [ungroup_wrap within (stagesText_balanced are), ungroup_of_stages are]
    exact ⟨are, arrow within, (stagesText_balanced are).wrap⟩
  | again inner _ ih =>
    obtain ⟨are, within, balanced⟩ := ih
    rw [ungroup_wrap within balanced]
    exact ⟨are, arrow within, balanced.wrap⟩

theorem readAll_eq_ok {stages : List (List Note)} {body : List Char} :
    readAll body = .ok stages ↔ BodyText stages body := by
  rw [readAll, readStages_eq_ok]
  constructor
  · intro are
    have group : ungroup body = body ∨ 2 ≤ stages.length ∧ GroupText stages body := by
      fun_induction ungroup body with
      | case1 body inner unwraps groups ih =>
        rw [Bool.and_eq_true] at groups
        rw [unwrap?_eq_some.mp unwraps]
        rcases ih are with plain | ⟨glide, is⟩
        · rw [plain] at are
          have pieces := two_le_length_splitArrows groups.1
          have glide : 2 ≤ stages.length := by
            rwa [(mapM_eq_ok.mp (readStages_eq_ok.mpr are)).length_eq] at pieces
          exact .inr ⟨glide, .once inner are⟩
        · exact .inr ⟨glide, .again inner is⟩
      | case2 => exact .inl rfl
      | case3 => exact .inl rfl
    rcases group with plain | ⟨glide, is⟩
    · rw [plain] at are
      exact .plain body are
    · exact .grouped glide body is
  · intro is
    cases is with
    | plain _ are => rwa [ungroup_of_stages are]
    | grouped glide _ is => exact (ungroup_of_group glide is).1

end Stage

end Bodies

end Portamento
