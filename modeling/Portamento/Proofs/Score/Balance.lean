import Portamento.Score.Chord

/-!
# Balanced parentheses

A text is balanced if its parentheses pair up. Two parts of the notation look for that, one with the
depth and one with the positions of the groups that are open; both come to the same.
-/

namespace Portamento

namespace Stage

variable (depth : Nat) (rest : List Char)

theorem isBalanced_open : isBalanced depth ('(' :: rest) = isBalanced (depth + 1) rest := by
  rw [isBalanced.eq_def]
  rfl

theorem isBalanced_close_zero : isBalanced 0 (')' :: rest) = false := by
  rw [isBalanced.eq_def]
  rfl

theorem isBalanced_close_succ : isBalanced (depth + 1) (')' :: rest) = isBalanced depth rest := by
  rw [isBalanced.eq_def]
  rfl

theorem isBalanced_other {x : Char} (opens : x ≠ '(') (closes : x ≠ ')') :
    isBalanced depth (x :: rest) = isBalanced depth rest := by
  rw [isBalanced.eq_def]
  simp only [if_neg opens, if_neg closes]

end Stage

/-- A text whose parentheses pair up. -/
inductive Balanced : List Char → Prop where
  | nil : Balanced []
  | other (x : Char) (rest : List Char) (opens : x ≠ '(') (closes : x ≠ ')')
      (balanced : Balanced rest) : Balanced (x :: rest)
  | group (inner rest : List Char) (inside : Balanced inner) (balanced : Balanced rest) :
      Balanced ('(' :: inner ++ ')' :: rest)

namespace Balanced

theorem append {text rest : List Char} (first : Balanced text) (second : Balanced rest) :
    Balanced (text ++ rest) := by
  induction first with
  | nil => exact second
  | other x later opens closes _ ih => exact .other x _ opens closes ih
  | group inner later inside _ _ ih =>
    rw [List.append_assoc, List.cons_append]
    exact .group inner (later ++ rest) inside ih

theorem wrap {text : List Char} (balanced : Balanced text) :
    Balanced ('(' :: text ++ [')']) :=
  .group text [] balanced .nil

/-- A text without parentheses is balanced. -/
theorem of_plain {text : List Char} (plain : ∀ x ∈ text, x ≠ '(' ∧ x ≠ ')') : Balanced text := by
  induction text with
  | nil => exact .nil
  | cons x rest ih =>
    obtain ⟨opens, closes⟩ := plain x List.mem_cons_self
    exact .other x rest opens closes (ih fun y member => plain y (List.mem_cons_of_mem _ member))

/-- The depth is the same before and after a balanced text. -/
theorem isBalanced_append {text : List Char} (balanced : Balanced text) (depth : Nat)
    (rest : List Char) :
    Stage.isBalanced depth (text ++ rest) = Stage.isBalanced depth rest := by
  induction balanced generalizing depth rest with
  | nil => rfl
  | other x later opens closes _ ih =>
    rw [List.cons_append, Stage.isBalanced_other _ _ opens closes, ih]
  | group inner later _ _ ih ih' =>
    have parts : '(' :: inner ++ ')' :: later ++ rest =
        '(' :: (inner ++ ')' :: (later ++ rest)) := by simp
    rw [parts, Stage.isBalanced_open, ih, Stage.isBalanced_close_succ, ih']

/-- A text that closes so many groups more than it opens, and closes no other. -/
inductive Closes : Nat → List Char → Prop where
  | done (text : List Char) (balanced : Balanced text) : Closes 0 text
  | close (depth : Nat) (text rest : List Char) (balanced : Balanced text)
      (closes : Closes depth rest) : Closes (depth + 1) (text ++ ')' :: rest)

theorem Closes.prepend {depth : Nat} {text rest : List Char} (balanced : Balanced text)
    (closes : Closes depth rest) : Closes depth (text ++ rest) := by
  cases closes with
  | done _ balanced' => exact .done _ (balanced.append balanced')
  | close depth inner later balanced' closes =>
    rw [← List.append_assoc]
    exact .close depth _ later (balanced.append balanced') closes

theorem closes_of_isBalanced {depth : Nat} {text : List Char}
    (balanced : Stage.isBalanced depth text = true) : Closes depth text := by
  induction text generalizing depth with
  | nil =>
    obtain rfl : depth = 0 := by simpa [Stage.isBalanced] using balanced
    exact .done [] .nil
  | cons x rest ih =>
    by_cases opens : x = '('
    · subst opens
      rw [Stage.isBalanced_open] at balanced
      cases ih balanced with
      | close _ inner later inside closes =>
        have parts : '(' :: (inner ++ ')' :: later) = ('(' :: inner ++ [')']) ++ later := by simp
        rw [parts]
        exact closes.prepend inside.wrap
    · by_cases closes : x = ')'
      · subst closes
        cases depth with
        | zero =>
          rw [Stage.isBalanced_close_zero] at balanced
          cases balanced
        | succ outer =>
          rw [Stage.isBalanced_close_succ] at balanced
          exact .close outer [] rest .nil (ih balanced)
      · rw [Stage.isBalanced_other _ _ opens closes] at balanced
        exact (ih balanced).prepend (.other x [] opens closes .nil)

/-- To count the open groups finds out whether a text is balanced. -/
theorem isBalanced_iff (text : List Char) : Stage.isBalanced 0 text = true ↔ Balanced text := by
  constructor
  · intro balanced
    cases closes_of_isBalanced balanced with
    | done _ balanced => exact balanced
  · intro balanced
    have accepted := balanced.isBalanced_append 0 []
    rw [List.append_nil] at accepted
    rw [accepted]
    rfl

end Balanced

namespace Token

/-- To remember where the open groups stand finds out the same. -/
theorem unmatched?_eq_none_iff (opened : List Nat) (marks : List (Nat × Char)) :
    unmatched? opened marks = none ↔
      Stage.isBalanced opened.length (marks.map Prod.snd) = true := by
  induction marks generalizing opened with
  | nil => cases opened <;> simp [unmatched?, Stage.isBalanced]
  | cons mark rest ih =>
    obtain ⟨position, x⟩ := mark
    rw [unmatched?.eq_def, List.map_cons]
    by_cases opens : x = '('
    · subst opens
      rw [Stage.isBalanced_open]
      exact ih (position :: opened)
    · by_cases closes : x = ')'
      · subst closes
        cases opened with
        | nil => simp [Stage.isBalanced_close_zero]
        | cons _ outer =>
          rw [List.length_cons, Stage.isBalanced_close_succ]
          exact ih outer
      · rw [Stage.isBalanced_other _ _ opens closes]
        simp only [if_neg opens, if_neg closes]
        exact ih opened

/-- White space is no parenthesis, and so makes no difference to the balance. -/
theorem isBalanced_significant (depth position : Nat) (text : List Char) :
    Stage.isBalanced depth ((significant position text).map Prod.snd) =
      Stage.isBalanced depth text := by
  induction text generalizing depth position with
  | nil => rfl
  | cons x rest ih =>
    rw [significant]
    split
    · next blank =>
      have opens : x ≠ '(' := by
        rintro rfl
        cases blank
      have closes : x ≠ ')' := by
        rintro rfl
        cases blank
      rw [ih, Stage.isBalanced_other _ _ opens closes]
    · rw [List.map_cons]
      by_cases opens : x = '('
      · rw [opens, Stage.isBalanced_open, Stage.isBalanced_open, ih]
      · by_cases closes : x = ')'
        · subst closes
          cases depth with
          | zero => rw [Stage.isBalanced_close_zero, Stage.isBalanced_close_zero]
          | succ outer => rw [Stage.isBalanced_close_succ, Stage.isBalanced_close_succ, ih]
        · rw [Stage.isBalanced_other _ _ opens closes, Stage.isBalanced_other _ _ opens closes, ih]

/-- The tokens of a text, whether it is balanced or not. -/
def split (text : List Char) : List (List Char) :=
  (pieces 0 (squeeze ((significant 0 text).map Prod.snd))).filter fun piece => !piece.isEmpty

/-- A text has tokens exactly if it is balanced. -/
theorem ofText_eq_ok {α : Type} {text : List Char} {tokens : List (List Char)} :
    ofText (α := α) text = .ok tokens ↔ Balanced text ∧ split text = tokens := by
  have balance := unmatched?_eq_none_iff [] (significant 0 text)
  rw [List.length_nil, isBalanced_significant, Balanced.isBalanced_iff] at balance
  unfold ofText
  dsimp only
  split
  · next position found =>
    have unbalanced : ¬ Balanced text := by
      intro balanced
      rw [balance.mpr balanced] at found
      cases found
    simp [unbalanced]
  · next found =>
    simp only [Except.ok.injEq, balance.mp found, true_and]
    rfl

end Token

end Portamento
