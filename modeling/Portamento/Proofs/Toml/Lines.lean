import Portamento.Toml.Document

/-!
# Files that are printed line by line

A printed file is a sequence of lines, each of which is the header of a table or sets a plain name
to a value. It says what its lines say, one after the other, and is refused if one of the values is.
-/

namespace Portamento.Toml

/-- What the text of a value is read as at the end of a line, `none` if it is refused. -/
structure IsReadAs (text : List Char) (value : Option Value) : Prop where
  flush : ∀ c ∈ text.head?, isBlank c = false
  read (fuel : Nat) (rest : List Char) :
    readAnyValue fuel (text ++ '\n' :: rest) = value.map (·, '\n' :: rest)

theorem flush_cons {c : Char} {later : List Char} (solid : isBlank c = false) :
    ∀ d ∈ (c :: later).head?, isBlank d = false := by
  rintro d same
  cases same
  exact solid

/-- A name that needs no quotes. -/
structure IsPlain (name : String) : Prop where
  some : name.toList ≠ []
  bare : ∀ c ∈ name.toList, isBare c = true

theorem isPlain_of_all {name : String}
    (plain : name.toList ≠ [] ∧ name.toList.all isBare = true) : IsPlain name :=
  ⟨plain.1, List.all_eq_true.mp plain.2⟩

/-- A line of a printed file. An entry comes with the text of its value and with what that is read
as; a header has an empty line before it. -/
inductive Line where
  | header (name : String)
  | entry (name : String) (text : List Char) (value : Option Value)

namespace Line

/-- The line in print. -/
def chars : Line → List Char
  | .header name => '\n' :: '[' :: (name.toList ++ [']', '\n'])
  | .entry name text _ => name.toList ++ (' ' :: '=' :: ' ' :: (text ++ ['\n']))

/-- What the line says. -/
def statement? : Line → Option Statement
  | .header name => some (.header ⟨[], name⟩)
  | .entry name _ value => value.map (.entry ⟨[], name⟩)

/-- Whether the name of a line needs no quotes, and its value is read as what it is said to be. -/
def IsSound : Line → Prop
  | .header name => IsPlain name
  | .entry name text value => IsPlain name ∧ IsReadAs text value

end Line

section Names

variable {c mark : Char} {name : String} {rest later : List Char}

/-- Whether a line that begins with a character says something. -/
def IsSolid (c : Char) : Prop := isBlank c = false ∧ c ∉ ['#', '\n', '\r']

theorem isSolid_of_bare (bare : isBare c = true) :
    IsSolid c ∧ c ∉ ['"', '\'', '[', '.'] := by
  have other (x : Char) (odd : isBare x = false) : c ≠ x := by
    rintro rfl
    simp [odd] at bare
  refine ⟨⟨?_, ?_⟩, ?_⟩
  · simp [isBlank, other ' ' (by decide), other '\t' (by decide)]
  · simp [other '#' (by decide), other '\n' (by decide), other '\r' (by decide)]
  · simp [other '"' (by decide), other '\'' (by decide), other '[' (by decide),
      other '.' (by decide)]

theorem skipBlanks_cons (solid : isBlank c = false) : skipBlanks (c :: rest) = c :: rest :=
  List.dropWhile_cons_of_neg (by simp [solid])

theorem skipLines_cons (solid : IsSolid c) (fuel : Nat) :
    skipLines fuel (c :: rest) = c :: rest := by
  obtain ⟨blank, other⟩ := solid
  simp only [List.mem_cons, List.not_mem_nil, or_false, not_or] at other
  obtain ⟨comment, lineFeed, carriageReturn⟩ := other
  cases fuel with
  | zero => rfl
  | succ fuel =>
    have noComment : skipComment (c :: rest) = c :: rest := by
      rw [skipComment]
      exact fun _ same => comment (List.cons.inj same).1
    have noEnd : newline? (c :: rest) = none := by
      rw [newline?]
      · exact fun _ same => lineFeed (List.cons.inj same).1
      · exact fun _ same => carriageReturn (List.cons.inj same).1
    rw [skipLines, skipBlanks_cons blank, noComment, noEnd]

theorem IsPlain.exists_cons (plain : IsPlain name) :
    ∃ first more, name.toList = first :: more ∧ isBare first = true := by
  obtain ⟨first, more, form⟩ := List.exists_cons_of_ne_nil plain.some
  exact ⟨first, more, form, plain.bare first (form ▸ List.mem_cons_self)⟩

/-- A name without quotes and dots is read up to the mark that follows it. -/
theorem readPath_plain (plain : IsPlain name) (other : isBare c = false)
    (marked : skipBlanks (c :: rest) = mark :: later) (dotless : mark ≠ '.') :
    readPath (name.toList ++ c :: rest) = some (⟨[], name⟩, mark :: later) := by
  obtain ⟨first, more, form, bare⟩ := plain.exists_cons
  obtain ⟨⟨blank, -⟩, odd⟩ := isSolid_of_bare bare
  simp only [List.mem_cons, List.not_mem_nil, or_false, not_or] at odd
  have whole : (name.toList ++ c :: rest).takeWhile isBare = name.toList := by
    rw [List.takeWhile_append_of_pos plain.bare, List.takeWhile_cons_of_neg (by simp [other]),
      List.append_nil]
  have behind : (name.toList ++ c :: rest).dropWhile isBare = c :: rest := by
    rw [List.dropWhile_append_of_pos plain.bare, List.dropWhile_cons_of_neg (by simp [other])]
  have read : readName (name.toList ++ c :: rest) = some (name, c :: rest) := by
    rw [readName]
    · simp only [whole, behind, String.ofList_toList]
      rw [if_neg (by simp [form])]
    · exact fun _ same => odd.1 (by simpa [form] using congrArg List.head? same)
    · exact fun _ same => odd.2.1 (by simpa [form] using congrArg List.head? same)
  have skipped : skipBlanks (name.toList ++ c :: rest) = name.toList ++ c :: rest := by
    rw [form]
    exact skipBlanks_cons blank
  have names : readNames depthLimit (name.toList ++ c :: rest) =
      some (⟨[], name⟩, mark :: later) := by
    have rounds : depthLimit = 79 + 1 := rfl
    rw [rounds, readNames, skipped, read]
    simp only [Option.bind_eq_bind, Option.bind_some, marked]
    split
    · next heq => exact absurd (List.cons.inj heq).1 dotless
    · rfl
  rw [readPath, names]
  rfl

end Names

namespace IsReadAs

variable {text : List Char} {value : Option Value}

theorem skipBlanks_eq (readAs : IsReadAs text value) (rest : List Char) :
    skipBlanks (text ++ '\n' :: rest) = text ++ '\n' :: rest := by
  cases text with
  | nil => rfl
  | cons c more => exact skipBlanks_cons (readAs.flush c rfl)

end IsReadAs

section Lines

variable {name : String} (plain : IsPlain name) (fuel : Nat) (rest : List Char)

include plain

theorem read_header : Statement.read fuel ('[' :: (name.toList ++ ']' :: '\n' :: rest)) =
    some (.header ⟨[], name⟩, rest) := by
  obtain ⟨c, more, form, bare⟩ := plain.exists_cons
  have path : readPath (name.toList ++ ']' :: '\n' :: rest) =
      some (⟨[], name⟩, ']' :: '\n' :: rest) :=
    readPath_plain plain (by decide) (skipBlanks_cons (by decide)) (by decide)
  have single : c ≠ '[' := fun same => (isSolid_of_bare bare).2 (by simp [same])
  rw [Statement.read, path]
  · rfl
  · exact fun _ same => single (by simpa [form] using congrArg List.head? same)

theorem read_entry {text : List Char} {value : Option Value} (readAs : IsReadAs text value) :
    Statement.read fuel (name.toList ++ ' ' :: '=' :: ' ' :: (text ++ '\n' :: rest)) =
      value.map fun v => (.entry ⟨[], name⟩ v, rest) := by
  obtain ⟨c, more, form, bare⟩ := plain.exists_cons
  have path : readPath (name.toList ++ ' ' :: '=' :: ' ' :: (text ++ '\n' :: rest)) =
      some (⟨[], name⟩, '=' :: ' ' :: (text ++ '\n' :: rest)) :=
    readPath_plain plain (by decide) (by rfl) (by decide)
  have space : skipBlanks (' ' :: (text ++ '\n' :: rest)) = text ++ '\n' :: rest :=
    readAs.skipBlanks_eq rest
  have noHeader : c ≠ '[' := fun same => (isSolid_of_bare bare).2 (by simp [same])
  rw [Statement.read, path]
  · simp only [Option.bind_eq_bind, Option.bind_some, expect, if_true, space, readAs.read]
    cases value <;> rfl
  · exact fun _ same => noHeader (by simpa [form] using congrArg List.head? same)
  · exact fun _ same => noHeader (by simpa [form] using congrArg List.head? same)

end Lines

/-- A file begins with the statement that stands behind its first blanks and comments. -/
theorem readAll_of_skipLines {fuel : Nat} {text later : List Char} {c : Char}
    (skipped : skipLines fuel text = c :: later) (said : c ≠ '#') :
    Statement.readAll (fuel + 1) text =
      (Statement.read fuel (c :: later)).bind fun (statement, rest) =>
        (Statement.readAll fuel rest).map (statement :: ·) := by
  rw [Statement.readAll, skipped]
  split
  · next heq => cases heq
  · next heq => exact absurd (List.cons.inj heq).1 said
  · simp only [Option.bind_eq_bind, Option.map_eq_bind]
    rfl

/-- A line that is read says what it is said to say, and leaves the others. -/
theorem Line.readAll_cons {line : Line} (sound : line.IsSound) {fuel : Nat} (enough : 0 < fuel)
    (rest : List Char) :
    Statement.readAll (fuel + 1) (line.chars ++ rest) =
      line.statement?.bind fun statement =>
        (Statement.readAll fuel rest).map (statement :: ·) := by
  obtain ⟨fuel, rfl⟩ := Nat.exists_eq_succ_of_ne_zero (Nat.ne_zero_of_lt enough)
  cases line with
  | header name =>
    have text : (Line.header name).chars ++ rest =
        '\n' :: '[' :: (name.toList ++ ']' :: '\n' :: rest) := by simp [chars]
    have skipped : skipLines (fuel + 1) ('\n' :: '[' :: (name.toList ++ ']' :: '\n' :: rest)) =
        '[' :: (name.toList ++ ']' :: '\n' :: rest) :=
      skipLines_cons ⟨by decide, by decide⟩ fuel
    rw [text, readAll_of_skipLines skipped (by decide), read_header sound]
    rfl
  | entry name text value =>
    obtain ⟨plain, readAs⟩ := sound
    obtain ⟨c, more, form, bare⟩ := plain.exists_cons
    obtain ⟨solid, -⟩ := isSolid_of_bare bare
    have chars : (Line.entry name text value).chars ++ rest =
        name.toList ++ ' ' :: '=' :: ' ' :: (text ++ '\n' :: rest) := by simp [chars]
    have skipped :
        skipLines (fuel + 1) (name.toList ++ ' ' :: '=' :: ' ' :: (text ++ '\n' :: rest)) =
          c :: (more ++ ' ' :: '=' :: ' ' :: (text ++ '\n' :: rest)) := by
      rw [form]
      exact skipLines_cons solid _
    have read := read_entry plain (fuel + 1) rest readAs
    rw [form, List.cons_append] at read
    rw [chars, readAll_of_skipLines skipped (fun same => solid.2 (by simp [same])), read]
    cases value <;> rfl

/-- A printed file says what its lines say, unless the value of one of them is refused. -/
theorem readAll_lines {lines : List Line} (sound : ∀ line ∈ lines, line.IsSound) {fuel : Nat}
    (enough : lines.length < fuel) :
    Statement.readAll fuel (lines.flatMap Line.chars) = lines.mapM Line.statement? := by
  induction lines generalizing fuel with
  | nil =>
    obtain ⟨fuel, rfl⟩ := Nat.exists_eq_succ_of_ne_zero (Nat.ne_zero_of_lt enough)
    cases fuel <;> rfl
  | cons line later ih =>
    obtain ⟨fuel, rfl⟩ := Nat.exists_eq_succ_of_ne_zero (Nat.ne_zero_of_lt enough)
    rw [List.length_cons] at enough
    have first := sound line List.mem_cons_self
    have others (line : Line) (member : line ∈ later) := sound line (List.mem_cons_of_mem _ member)
    rw [List.flatMap_cons, Line.readAll_cons first (by omega), ih others (by omega), List.mapM_cons]
    simp only [Option.bind_eq_bind, Option.map_eq_bind]
    rfl

end Portamento.Toml
