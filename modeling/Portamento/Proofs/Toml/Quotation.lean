import Mathlib.Tactic.SplitIfs
import Portamento.Proofs.Toml.Lines
import Portamento.Text.Quoted

/-!
# Quoted texts that are read back

Quoting and reading quoted texts agree on quotes, backslashes and the usual controls, and on every
character that is shown. They disagree on the others: quoting puts a code point between braces, or
writes a zero, and a configuration file has no escape of either form.
-/

namespace Portamento.Toml

open Text (quotedChar quoted isHidden)

/-- Whether a character is read back from a quoted text. -/
def isLegible (c : Char) : Bool := c == '\n' || c == '\r' || c == '\t' || !isHidden c

/-- The controls are hidden. -/
theorem isPrintable_of_shown {c : Char} (shown : isHidden c = false) : isPrintable c = true := by
  obtain ⟨later, ranges⟩ : ∃ later, Text.hiddenRanges = (0x0, 0x1F) :: (0x7F, 0xA0) :: later :=
    ⟨_, rfl⟩
  rw [isHidden, ranges] at shown
  simp only [Text.inRanges, Bool.and_eq_false_iff, Bool.or_eq_false_iff,
    decide_eq_false_iff_not] at shown
  simp only [isPrintable, Bool.or_eq_true, Bool.and_eq_true, decide_eq_true_eq, bne_iff_ne]
  omega

/-- The code point between braces is no escape of a configuration file. -/
theorem readBasic_brace (later : List Char) :
    readBasic ('\\' :: 'u' :: '\x7b' :: later) = none := by
  match later with
  | [] => rfl
  | [_] => rfl
  | [_, _] => rfl
  | a :: b :: c :: rest =>
    have brace : isHexDigit '\x7b' = false := by decide
    have refused : scalar? ['\x7b', a, b, c] = none := by simp [scalar?, brace]
    rw [readBasic, refused]

theorem readBasic_shown {c : Char} (quote : c ≠ '"') (backslash : c ≠ '\\')
    (printable : isPrintable c = true) (later : List Char) :
    readBasic (c :: later) = before c (readBasic later) := by
  rw [readBasic]
  · rw [if_neg (by simp [backslash, printable])]
  · exact quote
  · exact fun _ _ _ _ _ same => absurd same backslash
  · exact fun _ _ _ _ _ _ _ _ _ same => absurd same backslash
  · exact fun _ _ same => absurd same backslash

/-- A quoted character is read back if it is legible, and otherwise spoils the whole text. -/
theorem readBasic_quotedChar (c : Char) (later : List Char) : readBasic (quotedChar c ++ later) =
    if isLegible c then before c (readBasic later) else none := by
  by_cases quote : c = '"'
  · subst quote
    rfl
  by_cases backslash : c = '\\'
  · subst backslash
    rfl
  by_cases lineFeed : c = '\n'
  · subst lineFeed
    rfl
  by_cases carriageReturn : c = '\r'
  · subst carriageReturn
    rfl
  by_cases tabulator : c = '\t'
  · subst tabulator
    rfl
  by_cases zero : c = '\x00'
  · subst zero
    rfl
  have legible : isLegible c = !isHidden c := by
    simp [isLegible, lineFeed, carriageReturn, tabulator]
  rw [quotedChar, if_neg quote, if_neg backslash, if_neg lineFeed, if_neg carriageReturn,
    if_neg tabulator, if_neg zero, legible]
  cases hidden : isHidden c with
  | true => exact readBasic_brace _
  | false => exact readBasic_shown quote backslash (isPrintable_of_shown hidden) later

/-- A quoted text is read back exactly if all of its characters are legible. -/
theorem readBasic_quoted (text rest : List Char) :
    readBasic (text.flatMap quotedChar ++ '"' :: rest) =
      if text.all isLegible then some (text, rest) else none := by
  induction text with
  | nil => rfl
  | cons c later ih =>
    rw [List.flatMap_cons, List.append_assoc, readBasic_quotedChar, ih, List.all_cons]
    cases isLegible c <;> cases later.all isLegible <;> rfl

/-- Behind the opening quote of a quoted text stands another one only if it is empty. -/
theorem quotedChar_eq_cons (c : Char) :
    ∃ first more, quotedChar c = first :: more ∧ first ≠ '"' := by
  unfold quotedChar
  split_ifs
  all_goals first
    | exact ⟨_, _, rfl, by decide⟩
    | exact ⟨_, _, rfl, by assumption⟩

/-- A quoted text at the end of a line is taken for what it is. -/
theorem isReadAs_quoted (text : List Char) : IsReadAs (quoted text)
    (if text.all isLegible then some (.text (String.ofList text)) else none) := by
  refine ⟨flush_cons (by decide), fun fuel rest => ?_⟩
  have single : readQuoted fuel (quoted text ++ '\n' :: rest) =
      readBasic (text.flatMap quotedChar ++ '"' :: '\n' :: rest) := by
    cases text with
    | nil => rfl
    | cons c later =>
      obtain ⟨first, more, form, other⟩ := quotedChar_eq_cons c
      rw [quoted, List.flatMap_cons, form, List.cons_append, List.cons_append, List.append_assoc,
        List.cons_append, readQuoted]
      · rfl
      · exact fun _ same => other (List.cons.inj same).1
  have value : readAnyValue fuel (quoted text ++ '\n' :: rest) =
      (readQuoted fuel (quoted text ++ '\n' :: rest)).map fun read =>
        (.text (String.ofList read.1), read.2) := rfl
  rw [value, single, readBasic_quoted]
  split <;> rfl

end Portamento.Toml
