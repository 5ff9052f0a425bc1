import Mathlib.Data.List.Induction
import Portamento.Proofs.Score.Balance
import Portamento.Proofs.Text.Bytes

/-!
# Where a text is unbalanced

A closing parenthesis without a partner is one with no balanced text between it and an opening one
in front, and an opening one without a partner one with none between it and a closing one behind. If
there is one of the first kind, the first of them is at fault for the text not being balanced; if
there is none, the last one of the second kind is.

The scan keeps the places of the groups that are open. What those places have to do with the text is
`Opens`: between two of them, and behind the last, the text is balanced.
-/

namespace Portamento

/-- A closing parenthesis behind the text has no partner in it. -/
def IsUnopened (front : List Char) : Prop :=
  ∀ before inside, front = before ++ '(' :: inside → ¬ Balanced inside

/-- An opening parenthesis in front of the text has no partner in it. -/
def IsUnclosed (back : List Char) : Prop :=
  ∀ inside after, back = inside ++ ')' :: after → ¬ Balanced inside

/-- The parenthesis that is at fault, between what stands in front of it and what stands behind. -/
inductive IsCulprit (front back : List Char) : Char → Prop where
  | closing (unopened : IsUnopened front)
      (first : ∀ before after, front ++ ')' :: back = before ++ ')' :: after →
        IsUnopened before → front.length ≤ before.length) : IsCulprit front back ')'
  | opening (unclosed : IsUnclosed back)
      (noneUnopened : ∀ before after, front ++ '(' :: back = before ++ ')' :: after →
        ¬ IsUnopened before)
      (last : ∀ before after, front ++ '(' :: back = before ++ '(' :: after →
        IsUnclosed after → before.length ≤ front.length) : IsCulprit front back '('

/-- A text that leaves groups open. Of each group there is what stands in front of it, the innermost
group first. -/
inductive Opens : List (List Char) → List Char → Prop where
  | none (text : List Char) (balanced : Balanced text) : Opens [] text
  | group (opened : List (List Char)) (front inside : List Char) (opens : Opens opened front)
      (balanced : Balanced inside) : Opens (front :: opened) (front ++ '(' :: inside)

namespace Opens

variable {opened outer : List (List Char)} {text front back : List Char}

theorem append (opens : Opens opened front) (balanced : Balanced back) :
    Opens opened (front ++ back) := by
  cases opens with
  | none _ balanced' => exact .none _ (balanced'.append balanced)
  | group opened before inside opens balanced' =>
    rw [List.append_assoc, List.cons_append]
    exact .group opened before _ opens (balanced'.append balanced)

theorem openGroup (opens : Opens opened front) : Opens (front :: opened) (front ++ ['(']) :=
  .group opened front [] opens .nil

theorem closeGroup {before : List Char} (opens : Opens (before :: outer) front) :
    Opens outer (front ++ [')']) := by
  cases opens with
  | group _ _ inside opens balanced =>
    have parts : before ++ '(' :: inside ++ [')'] = before ++ ('(' :: inside ++ [')']) := by simp
    rw [parts]
    exact opens.append balanced.wrap

theorem other {x : Char} (opens : Opens opened front) (notOpen : x ≠ '(') (notClose : x ≠ ')') :
    Opens opened (front ++ [x]) :=
  opens.append (.other x [] notOpen notClose .nil)

/-- Behind the text its groups are still open. -/
theorem isBalanced_append (opens : Opens opened front) (rest : List Char) :
    Stage.isBalanced 0 (front ++ rest) = Stage.isBalanced opened.length rest := by
  induction opens generalizing rest with
  | none text balanced => exact balanced.isBalanced_append 0 rest
  | group opened before inside _ balanced ih =>
    rw [List.append_assoc, ih, List.cons_append, Stage.isBalanced_open,
      balanced.isBalanced_append]
    rfl

/-- As many closing parentheses as there are groups close them all. -/
theorem isBalanced_replicate (depth : Nat) :
    Stage.isBalanced depth (List.replicate depth ')') = true := by
  induction depth with
  | zero => rfl
  | succ depth ih => rwa [List.replicate_succ, Stage.isBalanced_close_succ]

/-- No closing parenthesis in the text is behind a balanced one. -/
theorem not_balanced (opens : Opens opened (front ++ ')' :: back)) : ¬ Balanced front := by
  intro balanced
  have closed := opens.isBalanced_append (List.replicate opened.length ')')
  rw [isBalanced_replicate, List.append_assoc, balanced.isBalanced_append, List.cons_append,
    Stage.isBalanced_close_zero] at closed
  cases closed

/-- A text either leaves groups open, perhaps none, or closes one that it has not opened. -/
theorem or_closes (text : List Char) : (∃ opened, Opens opened text) ∨
    ∃ front back, text = front ++ ')' :: back ∧ Balanced front := by
  induction text using List.reverseRecOn with
  | nil => exact .inl ⟨[], .none [] .nil⟩
  | append_singleton text x ih =>
    rcases ih with ⟨opened, opens⟩ | ⟨front, back, rfl, balanced⟩
    · by_cases isOpen : x = '('
      · rw [isOpen]
        exact .inl ⟨_, opens.openGroup⟩
      by_cases isClose : x = ')'
      · rw [isClose]
        cases opened with
        | nil =>
          cases opens with
          | none _ balanced => exact .inr ⟨text, [], rfl, balanced⟩
        | cons before outer => exact .inl ⟨_, opens.closeGroup⟩
      · exact .inl ⟨_, opens.other isOpen isClose⟩
    · exact .inr ⟨front, back ++ [x], by simp, balanced⟩

/-- What a text begins with leaves groups open too. -/
theorem of_append (opens : Opens opened (front ++ back)) : ∃ opened, Opens opened front := by
  rcases or_closes front with before | ⟨before, after, rfl, balanced⟩
  · exact before
  · rw [List.append_assoc] at opens
    exact absurd balanced opens.not_balanced

/-- Behind the text a closing parenthesis has no partner if no group is open. -/
theorem isUnopened_iff (opens : Opens opened front) : IsUnopened front ↔ Balanced front := by
  constructor
  · intro unopened
    cases opens with
    | none _ balanced => exact balanced
    | group opened before inside _ balanced => exact absurd balanced (unopened before inside rfl)
  · rintro balanced before inside rfl inner
    obtain ⟨opened, opens'⟩ := of_append (.none _ balanced)
    have closed := (Opens.group opened before inside opens' inner).isBalanced_append []
    rw [List.append_nil, (Balanced.isBalanced_iff _).mpr balanced] at closed
    cases closed

end Opens

namespace Balanced

variable {front back : List Char}

/-- Each closing parenthesis of a balanced text has a partner. -/
theorem not_isUnopened (balanced : Balanced (front ++ ')' :: back)) : ¬ IsUnopened front := by
  have opens : Opens [] (front ++ ')' :: back) := .none _ balanced
  obtain ⟨opened, before⟩ := opens.of_append
  exact mt before.isUnopened_iff.mp opens.not_balanced

/-- Each opening parenthesis of a balanced text has a partner. -/
theorem not_isUnclosed (balanced : Balanced (front ++ '(' :: back)) : ¬ IsUnclosed back := by
  intro unclosed
  obtain ⟨opened, before⟩ := Opens.of_append (.none _ balanced)
  have accepted := (isBalanced_iff _).mpr balanced
  rw [before.isBalanced_append, Stage.isBalanced_open] at accepted
  cases closes_of_isBalanced accepted with
  | close _ inside after balanced' => exact unclosed inside after rfl balanced'

end Balanced

section Culprit

variable {front back : List Char}

/-- A closing parenthesis behind a balanced text is at fault. -/
theorem isCulprit_closing (balanced : Balanced front) : IsCulprit front back ')' := by
  refine .closing ((Opens.none _ balanced).isUnopened_iff.mpr balanced) ?_
  intro before after same unopened
  rcases List.append_eq_append_iff.mp same with ⟨more, rfl, -⟩ | ⟨more, rfl, behind⟩
  · simp
  · cases more with
    | nil => simp
    | cons x later =>
      obtain ⟨rfl, -⟩ := List.cons.inj behind
      exact absurd unopened balanced.not_isUnopened

/-- The innermost group that a text leaves open is at fault. -/
theorem isCulprit_opening {outer : List (List Char)} (before : Opens outer front)
    (balanced : Balanced back) : IsCulprit front back '(' := by
  have opens := Opens.group outer front back before balanced
  refine .opening ?_ ?_ ?_
  · rintro inside after rfl
    exact (Opens.none _ balanced).not_balanced
  · intro before after same
    rw [same] at opens
    obtain ⟨opened, before'⟩ := opens.of_append
    exact mt before'.isUnopened_iff.mp opens.not_balanced
  · intro before after same unclosed
    rcases List.append_eq_append_iff.mp same with ⟨more, rfl, behind⟩ | ⟨more, rfl, -⟩
    · cases more with
      | nil => simp
      | cons x later =>
        obtain ⟨rfl, rfl⟩ := List.cons.inj behind
        exact absurd unclosed balanced.not_isUnclosed
    · simp

variable {front' back' : List Char} {x x' : Char}

/-- One parenthesis only is at fault. -/
theorem IsCulprit.unique (culprit : IsCulprit front back x) (culprit' : IsCulprit front' back' x')
    (same : front ++ x :: back = front' ++ x' :: back') : front = front' ∧ x = x' := by
  have of_length {front front' back back' : List Char} {x : Char}
      (same : front ++ x :: back = front' ++ x :: back') (length : front.length = front'.length) :
      front = front' ∧ x = x := ⟨(List.append_inj same length).1, rfl⟩
  cases culprit with
  | closing unopened first =>
    cases culprit' with
    | closing unopened' first' =>
      have order := first _ _ same unopened'
      have order' := first' _ _ same.symm unopened
      exact of_length same (Nat.le_antisymm order order')
    | opening _ noneUnopened' _ => exact absurd unopened (noneUnopened' _ _ same.symm)
  | opening unclosed noneUnopened last =>
    cases culprit' with
    | closing unopened' _ => exact absurd unopened' (noneUnopened _ _ same)
    | opening unclosed' _ last' =>
      have order := last' _ _ same.symm unclosed
      have order' := last _ _ same unclosed'
      exact of_length same (Nat.le_antisymm order order')

/-- Where a parenthesis is at fault the text is not balanced. -/
theorem IsCulprit.not_balanced (culprit : IsCulprit front back x) :
    ¬ Balanced (front ++ x :: back) := by
  intro balanced
  cases culprit with
  | closing unopened _ => exact balanced.not_isUnopened unopened
  | opening unclosed _ _ => exact balanced.not_isUnclosed unclosed

end Culprit

namespace Token

open Text

/-- What the scan finds behind a text, given the places of the groups that the text leaves open. -/
theorem isCulprit_of_unmatched? {opened : List (List Char)} {front : List Char}
    (opens : Opens opened front) (rest : List Char) {position : Nat}
    (found : unmatched? (opened.map byteLength) (significant (byteLength front) rest) =
      some position) : ∃ before x after, front ++ rest = before ++ x :: after ∧
        IsCulprit before after x ∧ byteLength before = position := by
  -- the invariant is that the places on the stack are those of the groups left open
  induction rest generalizing opened front with
  | nil =>
    cases opens with
    | none => cases found
    | group outer before inside opens balanced =>
      cases found
      exact ⟨before, '(', inside, List.append_nil _, isCulprit_opening opens balanced, rfl⟩
  | cons x later ih =>
    have next : byteLength front + x.utf8Size = byteLength (front ++ [x]) := by simp
    have behind : front ++ x :: later = front ++ [x] ++ later := by simp
    rw [significant, next] at found
    by_cases isOpen : x = '('
    · subst isOpen
      exact behind ▸ ih opens.openGroup found
    by_cases isClose : x = ')'
    · subst isClose
      cases opened with
      | nil =>
        cases opens with
        | none _ balanced =>
          cases found
          exact ⟨front, ')', later, rfl, isCulprit_closing balanced, rfl⟩
      | cons before outer => exact behind ▸ ih opens.closeGroup found
    · have opens' := opens.other isOpen isClose
      rw [behind]
      split at found
      · exact ih opens' found
      · rw [unmatched?.eq_def] at found
        simp only [if_neg isOpen, if_neg isClose] at found
        exact ih opens' found

variable {α : Type} {text : List Char}

theorem ofText_eq_error {fault : ScoreFault α} : ofText text = .error fault ↔
    ∃ position, unmatched? [] (significant 0 text) = some position ∧
      fault = .unbalancedGroup position := by
  unfold ofText
  dsimp only
  split
  · next position found => simp [found, eq_comm]
  · next found => simp [found]

/-- A text has no tokens exactly if it is not balanced. -/
theorem exists_error_iff (text : List Char) :
    (∃ fault, ofText (α := α) text = .error fault) ↔ ¬ Balanced text := by
  cases tokens : ofText (α := α) text with
  | error fault =>
    refine iff_of_true ⟨fault, rfl⟩ fun balanced => ?_
    rw [ofText_eq_ok.mpr ⟨balanced, rfl⟩] at tokens
    cases tokens
  | ok tokens' =>
    refine iff_of_false (fun ⟨_, refused⟩ => nomatch refused) fun unbalanced => ?_
    exact unbalanced (ofText_eq_ok.mp tokens).1

/-- The fault of a text names the parenthesis that is at fault. -/
theorem exists_isCulprit {fault : ScoreFault α} (refused : ofText text = .error fault) :
    ∃ front x back, text = front ++ x :: back ∧ IsCulprit front back x ∧
      fault = .unbalancedGroup (byteLength front) := by
  obtain ⟨position, found, rfl⟩ := ofText_eq_error.mp refused
  obtain ⟨front, x, back, rfl, culprit, rfl⟩ :=
    isCulprit_of_unmatched? (.none [] .nil) text found
  exact ⟨front, x, back, rfl, culprit, rfl⟩

theorem ofText_eq_error_iff {fault : ScoreFault α} : ofText text = .error fault ↔
    ∃ front x back, text = front ++ x :: back ∧ IsCulprit front back x ∧
      fault = .unbalancedGroup (byteLength front) := by
  refine ⟨exists_isCulprit, ?_⟩
  rintro ⟨front, x, back, rfl, culprit, rfl⟩
  obtain ⟨fault, refused⟩ := (exists_error_iff (α := α) _).mpr culprit.not_balanced
  obtain ⟨front', x', back', same, culprit', rfl⟩ := exists_isCulprit refused
  obtain ⟨rfl, -⟩ := culprit.unique culprit' same
  exact refused

end Token

/-- What is at fault is a parenthesis, and one without a partner. -/
theorem IsCulprit.lone {front back : List Char} {x : Char} (culprit : IsCulprit front back x) :
    x = ')' ∧ IsUnopened front ∨ x = '(' ∧ IsUnclosed back := by
  cases culprit with
  | closing unopened _ => exact .inl ⟨rfl, unopened⟩
  | opening unclosed _ _ => exact .inr ⟨rfl, unclosed⟩

/-- A text has no tokens exactly if it is not balanced, that is if a parenthesis in it has no
partner. The fault then names the byte of the text at which the culprit stands, and that byte is
the parenthesis. -/
theorem Token.culprit_is_located {α : Type} (text : List Char) :
    ((∃ fault, ofText (α := α) text = .error fault) ↔ ¬ Balanced text) ∧
    (¬ Balanced text ↔ ∃ front x back, text = front ++ x :: back ∧
      (x = ')' ∧ IsUnopened front ∨ x = '(' ∧ IsUnclosed back)) ∧
    ∀ fault, ofText (α := α) text = .error fault ↔
      ∃ front x back, text = front ++ x :: back ∧ IsCulprit front back x ∧
        fault = .unbalancedGroup (Text.byteLength front) ∧
        (Text.bytes text)[Text.byteLength front]? = some (UInt8.ofNat x.toNat) := by
  refine ⟨exists_error_iff text, ⟨fun unbalanced => ?_, ?_⟩, fun fault => ?_⟩
  · obtain ⟨fault, refused⟩ := (exists_error_iff (α := α) text).mpr unbalanced
    obtain ⟨front, x, back, same, culprit, -⟩ := exists_isCulprit refused
    exact ⟨front, x, back, same, culprit.lone⟩
  · rintro ⟨front, x, back, rfl, ⟨rfl, unopened⟩ | ⟨rfl, unclosed⟩⟩ balanced
    · exact balanced.not_isUnopened unopened
    · exact balanced.not_isUnclosed unclosed
  · rw [ofText_eq_error_iff]
    constructor
    · rintro ⟨front, x, back, rfl, culprit, rfl⟩
      have small : x.toNat < 128 := by
        rcases culprit.lone with ⟨rfl, -⟩ | ⟨rfl, -⟩ <;> decide
      exact ⟨front, x, back, rfl, culprit, rfl, Text.getElem?_bytes small front back⟩
    · rintro ⟨front, x, back, same, culprit, fault, -⟩
      exact ⟨front, x, back, same, culprit, fault⟩

/-- The outer of two groups is not closed; in front of it there are two bytes for one character,
white space and a run of delimiters. -/
example : Token.ofText (α := Nat) ['é', ' ', ',', ',', '(', '(', ')'] =
    .error (.unbalancedGroup 5) := by decide

end Portamento
