import Portamento.Proofs.Score.Balance

/-!
# Pieces between delimiters

A text is taken apart at the delimiters that stand outside of all parentheses. Where a balanced text
ends in front of such a delimiter, the text behind it is taken apart on its own. That runs of
delimiters are reduced before the splitting makes no difference to this: the tokens are those pieces
of the visible text that are not empty, each of them with its own runs reduced.
-/

namespace Portamento

namespace Token

/-- A text without its white space. -/
def visible (text : List Char) : List Char := text.filter fun x => !Text.isBlank x

theorem map_snd_significant (position : Nat) (text : List Char) :
    (significant position text).map Prod.snd = visible text := by
  induction text generalizing position with
  | nil => rfl
  | cons x rest ih =>
    rw [significant, visible, List.filter_cons]
    by_cases blank : Text.isBlank x = true
    · simp only [blank, if_true, Bool.not_true, Bool.false_eq_true, if_false]
      exact ih _
    · rw [Bool.not_eq_true] at blank
      simp only [blank, Bool.not_false, if_true, Bool.false_eq_true, if_false, List.map_cons]
      exact congrArg _ (ih _)

theorem split_eq_pieces (text : List Char) :
    split text = (pieces 0 (squeeze (visible text))).filter fun piece => !piece.isEmpty := by
  rw [split, map_snd_significant]

theorem visible_append (text rest : List Char) :
    visible (text ++ rest) = visible text ++ visible rest :=
  List.filter_append ..

/-- How many groups are open behind a character. -/
def depthBehind (depth : Nat) (x : Char) : Nat :=
  if x = '(' then depth + 1 else if x = ')' then depth - 1 else depth

theorem depthBehind_delimiter (depth : Nat) : depthBehind depth delimiter = depth := rfl

section Pieces

variable {depth : Nat} {x : Char} {text rest : List Char}

theorem isBalanced_cons (possible : ¬ (x = ')' ∧ depth = 0)) (rest : List Char) :
    Stage.isBalanced depth (x :: rest) = Stage.isBalanced (depthBehind depth x) rest := by
  unfold depthBehind
  by_cases opens : x = '('
  · rw [if_pos opens, opens, Stage.isBalanced_open]
  · rw [if_neg opens]
    by_cases closes : x = ')'
    · obtain ⟨outer, rfl⟩ := Nat.exists_eq_succ_of_ne_zero fun zero => possible ⟨closes, zero⟩
      rw [if_pos closes, closes, Stage.isBalanced_close_succ]
      rfl
    · rw [if_neg closes, Stage.isBalanced_other _ _ opens closes]

/-- No balanced text closes a group that is not open. -/
theorem possible_of_isBalanced (balanced : Stage.isBalanced depth (x :: rest) = true) :
    ¬ (x = ')' ∧ depth = 0) := by
  rintro ⟨rfl, rfl⟩
  rw [Stage.isBalanced_close_zero] at balanced
  cases balanced

theorem isBalanced_behind (balanced : Stage.isBalanced depth (x :: rest) = true) :
    Stage.isBalanced (depthBehind depth x) rest = true := by
  rwa [isBalanced_cons (possible_of_isBalanced balanced)] at balanced

theorem pieces_ne_nil (depth : Nat) (text : List Char) : pieces depth text ≠ [] := by
  cases text with
  | nil => exact List.cons_ne_nil _ _
  | cons x rest =>
    unfold pieces
    split
    · exact List.cons_ne_nil _ _
    · dsimp only
      split <;> exact List.cons_ne_nil _ _

/-- A delimiter outside of all parentheses begins another piece. -/
theorem pieces_delimiter (rest : List Char) :
    pieces 0 (delimiter :: rest) = [] :: pieces 0 rest := by
  rw [pieces, if_pos ⟨rfl, rfl⟩]

/-- Any other character goes to the first piece. -/
theorem pieces_cons (inside : ¬ (x = delimiter ∧ depth = 0)) (rest : List Char) :
    pieces depth (x :: rest) = (pieces (depthBehind depth x) rest).modifyHead (List.cons x) := by
  obtain ⟨piece, later, found⟩ :=
    List.exists_cons_of_ne_nil (pieces_ne_nil (depthBehind depth x) rest)
  rw [pieces, if_neg inside, found]
  unfold depthBehind at found
  simp only [found, List.modifyHead_cons]

/-- The text behind a balanced text and a delimiter is taken apart on its own. -/
theorem pieces_append (balanced : Stage.isBalanced depth text = true) (rest : List Char) :
    pieces depth (text ++ delimiter :: rest) = pieces depth text ++ pieces 0 rest := by
  induction text generalizing depth with
  | nil =>
    obtain rfl : depth = 0 := by simpa [Stage.isBalanced] using balanced
    exact pieces_delimiter rest
  | cons x later ih =>
    have behind := ih (isBalanced_behind balanced)
    by_cases outside : x = delimiter ∧ depth = 0
    · obtain ⟨rfl, rfl⟩ := outside
      rw [depthBehind_delimiter] at behind
      rw [List.cons_append, pieces_delimiter, pieces_delimiter, behind, List.cons_append]
    · rw [List.cons_append, pieces_cons outside, pieces_cons outside, behind]
      cases found : pieces (depthBehind depth x) later with
      | nil => exact absurd found (pieces_ne_nil _ _)
      | cons piece others => rfl

/-- The pieces make up the text again. -/
theorem intercalate_pieces (depth : Nat) (text : List Char) :
    [delimiter].intercalate (pieces depth text) = text := by
  induction text generalizing depth with
  | nil => rfl
  | cons x rest ih =>
    by_cases outside : x = delimiter ∧ depth = 0
    · obtain ⟨rfl, rfl⟩ := outside
      rw [pieces_delimiter, List.intercalate_cons_of_ne_nil (pieces_ne_nil 0 rest), ih]
      rfl
    · have behind := ih (depthBehind depth x)
      rw [pieces_cons outside]
      cases found : pieces (depthBehind depth x) rest with
      | nil => exact absurd found (pieces_ne_nil _ _)
      | cons piece later =>
        rw [found] at behind
        rw [List.modifyHead_cons, List.intercalate_cons_cons_left, behind]

end Pieces

section Squeeze

theorem dropWhile_delimiter (rest : List Char) : (delimiter :: rest).dropWhile (· == delimiter) =
    rest.dropWhile (· == delimiter) := rfl

theorem dropWhile_other {x : Char} (other : x ≠ delimiter) (rest : List Char) :
    (x :: rest).dropWhile (· == delimiter) = x :: rest := by
  rw [List.dropWhile_cons, if_neg]
  simpa using other

theorem squeeze_delimiter (rest : List Char) :
    squeeze (delimiter :: rest) = delimiter :: (squeeze rest).dropWhile (· == delimiter) := by
  rw [squeeze]
  rfl

theorem squeeze_other {x : Char} (other : x ≠ delimiter) (rest : List Char) :
    squeeze (x :: rest) = x :: squeeze rest := by
  rw [squeeze]
  exact if_neg other

theorem isEmpty_squeeze (text : List Char) : (squeeze text).isEmpty = text.isEmpty := by
  cases text with
  | nil => rfl
  | cons x rest =>
    by_cases delimits : x = delimiter
    · rw [delimits, squeeze_delimiter]
      rfl
    · rw [squeeze_other delimits]
      rfl

/-- Delimiters in front of a text give empty pieces only, if they stand outside of all
parentheses. -/
theorem pieces_zero_dropWhile (text : List Char) :
    (pieces 0 (text.dropWhile (· == delimiter))).filter (fun piece => !piece.isEmpty) =
      (pieces 0 text).filter fun piece => !piece.isEmpty := by
  induction text with
  | nil => rfl
  | cons x rest ih =>
    by_cases delimits : x = delimiter
    · subst delimits
      rw [pieces_delimiter, dropWhile_delimiter, ih]
      rfl
    · rw [dropWhile_other delimits]

/-- Within parentheses they belong to the first piece. -/
theorem pieces_succ_dropWhile (depth : Nat) (text : List Char) :
    pieces (depth + 1) (text.dropWhile (· == delimiter)) =
      (pieces (depth + 1) text).modifyHead fun piece => piece.dropWhile (· == delimiter) := by
  have inside (x : Char) : ¬ (x = delimiter ∧ depth + 1 = 0) := by omega
  induction text with
  | nil => rfl
  | cons x rest ih =>
    rw [pieces_cons (inside x), List.modifyHead_modifyHead]
    by_cases delimits : x = delimiter
    · subst delimits
      rw [dropWhile_delimiter, ih, depthBehind_delimiter]
      rfl
    · rw [dropWhile_other delimits, pieces_cons (inside x)]
      congr 1
      funext piece
      exact (dropWhile_other delimits piece).symm

/-- To reduce the runs of a text is to reduce those of its pieces, apart from pieces that are empty
and not the first. -/
theorem pieces_squeeze (depth : Nat) (text : List Char) : ∃ piece later later',
    pieces depth text = piece :: later ∧ pieces depth (squeeze text) = squeeze piece :: later' ∧
      later'.filter (fun piece => !piece.isEmpty) =
        (later.filter fun piece => !piece.isEmpty).map squeeze := by
  -- the first piece is kept apart, for the runs in it may go on from what stands in front
  induction text generalizing depth with
  | nil => exact ⟨[], [], [], rfl, rfl, rfl⟩
  | cons x rest ih =>
    obtain ⟨piece, later, later', found, found', same⟩ := ih (depthBehind depth x)
    by_cases delimits : x = delimiter
    · subst delimits
      rw [depthBehind_delimiter] at found found'
      rw [squeeze_delimiter]
      cases depth with
      | zero =>
        refine ⟨[], piece :: later, _, ?_, pieces_delimiter _, ?_⟩
        · rw [pieces_delimiter, found]
        · rw [pieces_zero_dropWhile, found', List.filter_cons, List.filter_cons, isEmpty_squeeze,
            same]
          split <;> rfl
      | succ outer =>
        have inside : ¬ (delimiter = delimiter ∧ outer + 1 = 0) := by omega
        refine ⟨delimiter :: piece, later, later', ?_, ?_, same⟩
        · rw [pieces_cons inside, depthBehind_delimiter, found]
          rfl
        · rw [pieces_cons inside, depthBehind_delimiter, pieces_succ_dropWhile, found',
            squeeze_delimiter]
          rfl
    · have inside : ¬ (x = delimiter ∧ depth = 0) := fun both => delimits both.1
      refine ⟨x :: piece, later, later', ?_, ?_, same⟩
      · rw [pieces_cons inside, found]
        rfl
      · rw [squeeze_other delimits, pieces_cons inside, found', squeeze_other delimits]
        rfl

end Squeeze

/-- The tokens are the pieces of the visible text that are not empty, each with its runs reduced. -/
theorem split_eq_map_squeeze (text : List Char) :
    split text = ((pieces 0 (visible text)).filter fun piece => !piece.isEmpty).map squeeze := by
  obtain ⟨piece, later, later', found, found', same⟩ := pieces_squeeze 0 (visible text)
  rw [split_eq_pieces, found, found', List.filter_cons, List.filter_cons, isEmpty_squeeze, same]
  split <;> rfl

/-- White space is no parenthesis. -/
theorem isBalanced_visible (depth : Nat) (text : List Char) :
    Stage.isBalanced depth (visible text) = Stage.isBalanced depth text := by
  rw [← map_snd_significant 0, isBalanced_significant]

/-- **Tokens at a seam.** What stands behind a balanced text and a delimiter has its own tokens. -/
theorem split_append {text : List Char} (balanced : Balanced text) (rest : List Char) :
    split (text ++ delimiter :: rest) = split text ++ split rest := by
  have seam : visible (text ++ delimiter :: rest) =
      visible text ++ delimiter :: visible rest := visible_append text (delimiter :: rest)
  have balanced' : Stage.isBalanced 0 (visible text) = true := by
    rw [isBalanced_visible]
    exact (Balanced.isBalanced_iff text).mpr balanced
  simp only [split_eq_map_squeeze, seam, pieces_append balanced', List.filter_append,
    List.map_append]

end Token

end Portamento
