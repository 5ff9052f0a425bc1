import Mathlib.Data.List.Destutter
import Mathlib.Data.List.DropRight
import Portamento.Proofs.Scalar.Exact
import Portamento.Proofs.Score.Pieces
import Portamento.Proofs.Score.Reading

/-!
# The tokens of a text as its normal form

Nothing of a text is lost in its tokens but white space and superfluous delimiters, and nothing is
added: with delimiters between them they are the text in a normal form. A token of a text is the
only token of itself, and so the normal form has the same tokens and reads as the same score.
-/

namespace Portamento

namespace Token

/-- Whether two characters may stand side by side in a normal form: not if both are delimiters. -/
def Apart (x y : Char) : Prop := ¬ (x = delimiter ∧ y = delimiter)

instance instDecidableApart : DecidableRel Apart := fun x y =>
  inferInstanceAs (Decidable (¬ (x = delimiter ∧ y = delimiter)))

/-- A text without its white space, each run of delimiters collapsed to one, and none left at the
ends. -/
def normalForm (text : List Char) : List Char :=
  (((visible text).destutter Apart).dropWhile (· == delimiter)).rdropWhile (· == delimiter)

/-- Tokens with a delimiter between any two. -/
def join (tokens : List (List Char)) : List Char := [delimiter].intercalate tokens

/-- What a text must be like to be one token. -/
structure IsToken (token : List Char) : Prop where
  present : token ≠ []
  noBlank : ∀ x ∈ token, Text.isBlank x = false
  balanced : Balanced token
  /-- Every delimiter stands within parentheses. -/
  enclosed : ∀ front back, token = front ++ delimiter :: back → ¬ Balanced front
  /-- No two delimiters stand side by side. -/
  apart : token.IsChain Apart

section Collapse

theorem destutter'_eq_squeeze (x : Char) (text : List Char) :
    text.destutter' Apart x = squeeze (x :: text) := by
  induction text generalizing x with
  | nil =>
    by_cases delimits : x = delimiter
    · rw [delimits, squeeze_delimiter]
      rfl
    · rw [squeeze_other delimits]
      rfl
  | cons y later ih =>
    -- the library looks ahead from the last character kept, the program back from the rest
    rw [List.destutter'_cons]
    by_cases delimits : x = delimiter
    · subst delimits
      by_cases delimits' : y = delimiter
      · subst delimits'
        rw [if_neg fun apart => apart ⟨rfl, rfl⟩, ih, squeeze_delimiter (delimiter :: later),
          squeeze_delimiter, dropWhile_delimiter, List.dropWhile_idempotent]
      · have apart : Apart delimiter y := fun both => delimits' both.2
        rw [if_pos apart, ih, squeeze_delimiter, squeeze_other delimits', dropWhile_other delimits']
    · have apart : Apart x y := fun both => delimits both.1
      rw [if_pos apart, ih, squeeze_other delimits]

/-- To reduce each run of delimiters to its first is to drop the delimiters behind a delimiter. -/
theorem squeeze_eq_destutter (text : List Char) : squeeze text = text.destutter Apart := by
  cases text with
  | nil => rfl
  | cons x rest => exact (destutter'_eq_squeeze x rest).symm

theorem isChain_squeeze (text : List Char) : (squeeze text).IsChain Apart := by
  rw [squeeze_eq_destutter]
  exact List.isChain_destutter Apart text

/-- No delimiter is a parenthesis. -/
theorem isBalanced_delimiter (depth : Nat) (text : List Char) :
    Stage.isBalanced depth (delimiter :: text) = Stage.isBalanced depth text :=
  Stage.isBalanced_other _ _ (by decide) (by decide)

theorem isBalanced_dropWhile (depth : Nat) (text : List Char) :
    Stage.isBalanced depth (text.dropWhile (· == delimiter)) = Stage.isBalanced depth text := by
  induction text with
  | nil => rfl
  | cons x rest ih =>
    by_cases delimits : x = delimiter
    · rw [delimits, dropWhile_delimiter, ih, isBalanced_delimiter]
    · rw [dropWhile_other delimits]

/-- What is put behind the first character makes no difference to the balance if it made none to
the balance of the rest. -/
theorem isBalanced_cons_congr {text rest : List Char}
    (same : ∀ depth, Stage.isBalanced depth text = Stage.isBalanced depth rest) (x : Char)
    (depth : Nat) : Stage.isBalanced depth (x :: text) = Stage.isBalanced depth (x :: rest) := by
  by_cases possible : x = ')' ∧ depth = 0
  · rw [possible.1, possible.2, Stage.isBalanced_close_zero, Stage.isBalanced_close_zero]
  · rw [isBalanced_cons possible, isBalanced_cons possible, same]

theorem isBalanced_squeeze (depth : Nat) (text : List Char) :
    Stage.isBalanced depth (squeeze text) = Stage.isBalanced depth text := by
  induction text generalizing depth with
  | nil => rfl
  | cons x rest ih =>
    by_cases delimits : x = delimiter
    · rw [delimits, squeeze_delimiter, isBalanced_delimiter, isBalanced_delimiter,
        isBalanced_dropWhile, ih]
    · rw [squeeze_other delimits]
      exact isBalanced_cons_congr ih x depth

theorem isBalanced_concat_delimiter (depth : Nat) (text : List Char) :
    Stage.isBalanced depth (text ++ [delimiter]) = Stage.isBalanced depth text := by
  induction text generalizing depth with
  | nil => rfl
  | cons x rest ih => exact isBalanced_cons_congr ih x depth

end Collapse

section Whole

/-- A text that closes the groups that are open in front of it, and that is not to be taken apart
before it has. -/
structure Whole (depth : Nat) (piece : List Char) : Prop where
  balanced : Stage.isBalanced depth piece = true
  enclosed : ∀ front back, piece = front ++ delimiter :: back →
    Stage.isBalanced depth front = false

variable {depth : Nat} {x : Char} {piece text : List Char}

theorem whole_nil : Whole 0 [] where
  balanced := rfl
  enclosed front back parts := by simp at parts

theorem Whole.cons (whole : Whole (depthBehind depth x) piece)
    (possible : ¬ (x = ')' ∧ depth = 0)) (inside : ¬ (x = delimiter ∧ depth = 0)) :
    Whole depth (x :: piece) where
  balanced := by
    rw [isBalanced_cons possible]
    exact whole.balanced
  enclosed front back parts := by
    cases front with
    | nil =>
      obtain ⟨rfl, -⟩ := List.cons_eq_cons.mp parts
      exact decide_eq_false fun zero => inside ⟨rfl, zero⟩
    | cons y front =>
      obtain ⟨rfl, behind⟩ := List.cons_eq_cons.mp parts
      rw [isBalanced_cons possible]
      exact whole.enclosed front back behind

theorem Whole.of_cons (whole : Whole depth (x :: piece)) :
    Whole (depthBehind depth x) piece ∧ ¬ (x = delimiter ∧ depth = 0) := by
  have possible := possible_of_isBalanced whole.balanced
  refine ⟨⟨isBalanced_behind whole.balanced, fun front back parts => ?_⟩, ?_⟩
  · rw [← isBalanced_cons possible]
    exact whole.enclosed (x :: front) back (congrArg (List.cons x) parts)
  · rintro ⟨rfl, rfl⟩
    have outside := whole.enclosed [] piece rfl
    cases outside

/-- The pieces of a balanced text are whole. -/
theorem whole_of_pieces (balanced : Stage.isBalanced depth text = true) : ∃ piece later,
    pieces depth text = piece :: later ∧ Whole depth piece ∧ ∀ other ∈ later, Whole 0 other := by
  -- only the first piece can begin within parentheses; the others begin behind a delimiter
  induction text generalizing depth with
  | nil =>
    obtain rfl : depth = 0 := by simpa [Stage.isBalanced] using balanced
    exact ⟨[], [], rfl, whole_nil, List.forall_mem_nil _⟩
  | cons x rest ih =>
    obtain ⟨piece, later, found, whole, wholes⟩ := ih (isBalanced_behind balanced)
    by_cases outside : x = delimiter ∧ depth = 0
    · obtain ⟨rfl, rfl⟩ := outside
      rw [depthBehind_delimiter] at found whole
      refine ⟨[], piece :: later, ?_, whole_nil, List.forall_mem_cons.mpr ⟨whole, wholes⟩⟩
      rw [pieces_delimiter, found]
    · refine ⟨x :: piece, later, ?_, whole.cons (possible_of_isBalanced balanced) outside, wholes⟩
      rw [pieces_cons outside, found]
      rfl

/-- What is whole is its own only piece. -/
theorem Whole.pieces_eq (whole : Whole depth piece) : pieces depth piece = [piece] := by
  induction piece generalizing depth with
  | nil => rfl
  | cons x rest ih =>
    obtain ⟨whole', inside⟩ := whole.of_cons
    rw [pieces_cons inside, ih whole']
    rfl

/-- No delimiter stands at an end of a whole piece. -/
theorem Whole.head?_ne (whole : Whole 0 piece) : piece.head? ≠ some delimiter := by
  intro head
  obtain ⟨rest, rfl⟩ := List.head?_eq_some_iff.mp head
  have outside := whole.enclosed [] rest rfl
  cases outside

theorem Whole.getLast?_ne (whole : Whole 0 piece) : piece.getLast? ≠ some delimiter := by
  intro last
  obtain ⟨front, rfl⟩ := List.getLast?_eq_some_iff.mp last
  have inside := whole.enclosed front [] rfl
  have balanced := whole.balanced
  rw [isBalanced_concat_delimiter, inside] at balanced
  cases balanced

end Whole

section Join

variable {text piece token : List Char} {tokens later : List (List Char)}

theorem join_singleton (token : List Char) : join [token] = token := List.intercalate_singleton

theorem join_cons (present : later ≠ []) :
    join (token :: later) = token ++ delimiter :: join later := by
  rw [join, List.intercalate_cons_of_ne_nil present, List.append_assoc]
  rfl

/-- A delimiter is put in front of others if these are not empty. -/
theorem join_cons_of_present (present : ∀ token ∈ later, token ≠ []) :
    join (piece :: later) =
      if join later = [] then piece else piece ++ delimiter :: join later := by
  cases later with
  | nil => exact join_singleton piece
  | cons token rest =>
    have something : join (token :: rest) ≠ [] := by
      obtain ⟨x, token, rfl⟩ := List.exists_cons_of_ne_nil (present token List.mem_cons_self)
      rw [join, List.intercalate_cons_cons_left]
      exact List.cons_ne_nil _ _
    rw [if_neg something, join_cons (List.cons_ne_nil _ _)]

/-- Each of the parts stands somewhere in the whole. -/
theorem infix_join (member : token ∈ tokens) : token <:+: join tokens := by
  induction tokens with
  | nil => cases member
  | cons first later ih =>
    by_cases alone : later = []
    · obtain rfl : token = first := by simpa [alone] using member
      rw [alone, join_singleton]
    · rw [join_cons alone]
      rcases List.mem_cons.mp member with rfl | behind
      · exact (List.prefix_append ..).isInfix
      · exact (ih behind).trans ⟨first ++ [delimiter], [], by simp⟩

theorem dropWhile_of_head? (head : text.head? ≠ some delimiter) :
    text.dropWhile (· == delimiter) = text := by
  cases text with
  | nil => rfl
  | cons x rest =>
    refine dropWhile_other ?_ rest
    rintro rfl
    exact head rfl

theorem rdropWhile_of_getLast? (last : text.getLast? ≠ some delimiter) :
    text.rdropWhile (· == delimiter) = text := by
  rw [List.rdropWhile, dropWhile_of_head? (by rwa [List.head?_reverse]), List.reverse_reverse]

/-- No other delimiter stands behind a delimiter. -/
theorem behind_of_apart (apart : (delimiter :: text).IsChain Apart) :
    text.IsChain Apart ∧ text.head? ≠ some delimiter := by
  obtain ⟨next, behind⟩ := List.isChain_cons.mp apart
  exact ⟨behind, fun head => next delimiter head ⟨rfl, rfl⟩⟩

/-- The delimiters at the end of a text are those at the end of what stands behind a delimiter and,
if nothing else stands there, that delimiter. -/
theorem rdropWhile_seam (last : piece.getLast? ≠ some delimiter) (text : List Char) :
    (piece ++ delimiter :: text).rdropWhile (· == delimiter) =
      if text.rdropWhile (· == delimiter) = [] then piece
      else piece ++ delimiter :: text.rdropWhile (· == delimiter) := by
  have front : (piece.reverse.dropWhile (· == delimiter)).reverse = piece :=
    rdropWhile_of_getLast? last
  have back : (piece ++ delimiter :: text).reverse =
      text.reverse ++ delimiter :: piece.reverse := by simp
  rw [List.rdropWhile, List.rdropWhile, back, List.dropWhile_append]
  simp only [List.isEmpty_iff, List.reverse_eq_nil_iff]
  split
  · rw [dropWhile_delimiter, front]
  · simp

/-- Without the empty ones, pieces of a text with no delimiter in front are joined to the text with
no delimiter at its end either. -/
theorem join_filter_of_head? {ps : List (List Char)} (wholes : ∀ piece ∈ ps, Whole 0 piece)
    (apart : (join ps).IsChain Apart) (head : (join ps).head? ≠ some delimiter) :
    join (ps.filter fun piece => !piece.isEmpty) = (join ps).rdropWhile (· == delimiter) := by
  induction ps with
  | nil => rfl
  | cons piece later ih =>
    obtain ⟨whole, wholes⟩ := List.forall_mem_cons.mp wholes
    by_cases alone : later = []
    · rw [alone, join_singleton, rdropWhile_of_getLast? whole.getLast?_ne]
      cases piece with
      | nil => rfl
      | cons x rest => exact join_singleton _
    · rw [join_cons alone] at apart head ⊢
      obtain ⟨behind, head'⟩ := behind_of_apart (List.IsChain.right_of_append apart)
      -- an empty piece would leave a delimiter in front
      have present : piece.isEmpty = false := by
        cases piece with
        | nil => exact absurd rfl head
        | cons x rest => rfl
      have filled : ∀ token ∈ later.filter (fun piece => !piece.isEmpty), token ≠ [] := by
        intro token member
        simpa using (List.mem_filter.mp member).2
      rw [rdropWhile_seam whole.getLast?_ne, ← ih wholes behind head', List.filter_cons, present,
        ← join_cons_of_present filled]
      rfl

/-- In front of a delimiter that a text begins with there is an empty piece. -/
theorem exists_of_head?_join {ps : List (List Char)} (wholes : ∀ piece ∈ ps, Whole 0 piece)
    (head : (join ps).head? = some delimiter) : ∃ later, ps = [] :: later ∧ later ≠ [] := by
  match ps with
  | [] => cases head
  | [] :: later =>
    refine ⟨later, rfl, ?_⟩
    rintro rfl
    cases head
  | (x :: rest) :: later =>
    rw [join, List.intercalate_cons_cons_left] at head
    exact absurd head (wholes _ List.mem_cons_self).head?_ne

/-- Without the empty ones, pieces of a text are joined to the text with no delimiter at its
ends. -/
theorem join_filter {ps : List (List Char)} (wholes : ∀ piece ∈ ps, Whole 0 piece)
    (apart : (join ps).IsChain Apart) :
    join (ps.filter fun piece => !piece.isEmpty) =
      ((join ps).dropWhile (· == delimiter)).rdropWhile (· == delimiter) := by
  by_cases head : (join ps).head? = some delimiter
  -- the delimiter in front goes with the empty piece in front of it
  · obtain ⟨later, rfl, present⟩ := exists_of_head?_join wholes head
    have split : join ([] :: later) = delimiter :: join later := join_cons present
    rw [split] at apart ⊢
    obtain ⟨behind, head'⟩ := behind_of_apart apart
    rw [dropWhile_delimiter, dropWhile_of_head? head',
      ← join_filter_of_head? (List.forall_mem_cons.mp wholes).2 behind head']
    rfl
  · rw [dropWhile_of_head? head, join_filter_of_head? wholes apart head]

/-- A balanced text is taken apart into whole pieces. -/
theorem whole_of_mem_pieces (balanced : Balanced text)
    (member : piece ∈ pieces 0 (squeeze (visible text))) : Whole 0 piece := by
  have balanced' : Stage.isBalanced 0 (squeeze (visible text)) = true := by
    rw [isBalanced_squeeze, isBalanced_visible]
    exact (Balanced.isBalanced_iff text).mpr balanced
  obtain ⟨first, later, found, whole, wholes⟩ := whole_of_pieces balanced'
  rw [found] at member
  exact List.forall_mem_cons.mpr ⟨whole, wholes⟩ piece member

/-- The tokens of a text with delimiters between them are the text in its normal form. -/
theorem join_split (balanced : Balanced text) : join (split text) = normalForm text := by
  have joined : join (pieces 0 (squeeze (visible text))) = squeeze (visible text) :=
    intercalate_pieces 0 _
  have apart : (join (pieces 0 (squeeze (visible text)))).IsChain Apart := by
    rw [joined]
    exact isChain_squeeze _
  rw [split_eq_pieces, normalForm, ← squeeze_eq_destutter,
    join_filter (fun _ member => whole_of_mem_pieces balanced member) apart, joined]

end Join

section Tokens

variable {α : Type} {text other token : List Char} {tokens : List (List Char)}

/-- The tokens of a balanced text are such as a token must be. -/
theorem isToken_of_mem_split (balanced : Balanced text) (member : token ∈ split text) :
    IsToken token := by
  rw [split_eq_pieces] at member
  obtain ⟨member, filled⟩ := List.mem_filter.mp member
  have part : token <:+: squeeze (visible text) := by
    rw [← intercalate_pieces 0 (squeeze (visible text))]
    exact infix_join member
  have whole := whole_of_mem_pieces balanced member
  constructor
  case present => simpa using filled
  case noBlank =>
    intro x mem
    have kept : x ∈ visible text := by
      have sublist := List.destutter_sublist Apart (visible text)
      rw [← squeeze_eq_destutter] at sublist
      exact sublist.subset (part.subset mem)
    simpa using (List.mem_filter.mp kept).2
  case balanced => exact (Balanced.isBalanced_iff token).mp whole.balanced
  case enclosed =>
    intro front back parts balanced
    have inside := whole.enclosed front back parts
    rw [(Balanced.isBalanced_iff front).mpr balanced] at inside
    cases inside
  case apart => exact List.IsChain.infix (isChain_squeeze (visible text)) part

theorem IsToken.whole (is : IsToken token) : Whole 0 token where
  balanced := (Balanced.isBalanced_iff token).mpr is.balanced
  enclosed front back parts := by
    rw [Bool.eq_false_iff]
    exact fun balanced => is.enclosed front back parts ((Balanced.isBalanced_iff front).mp balanced)

/-- A token is the only token of itself. -/
theorem IsToken.split_eq (is : IsToken token) : split token = [token] := by
  have same : visible token = token := by
    refine List.filter_eq_self.mpr fun x member => ?_
    rw [is.noBlank x member]
    rfl
  have present : (!token.isEmpty) = true := by
    simpa using is.present
  rw [split_eq_pieces, same, squeeze_eq_destutter, List.destutter_of_isChain Apart _ is.apart,
    is.whole.pieces_eq, List.filter_cons, if_pos present]
  rfl

/-- Joined tokens are split again. -/
theorem split_join (are : ∀ token ∈ tokens, IsToken token) :
    Balanced (join tokens) ∧ split (join tokens) = tokens := by
  induction tokens with
  | nil => exact ⟨.nil, rfl⟩
  | cons token later ih =>
    obtain ⟨is, are⟩ := List.forall_mem_cons.mp are
    obtain ⟨balanced, same⟩ := ih are
    by_cases alone : later = []
    · rw [alone, join_singleton]
      exact ⟨is.balanced, is.split_eq⟩
    · rw [join_cons alone, split_append is.balanced, is.split_eq, same]
      exact ⟨is.balanced.append (.other delimiter _ (by decide) (by decide) balanced), rfl⟩

theorem ofText_join (found : ofText (α := α) text = .ok tokens) :
    ofText (α := α) (join tokens) = .ok tokens := by
  obtain ⟨balanced, rfl⟩ := ofText_eq_ok.mp found
  exact ofText_eq_ok.mpr (split_join fun _ member => isToken_of_mem_split balanced member)

/-- White space makes no difference to the tokens, nor to whether there are any. -/
theorem ofText_eq_ok_congr (same : visible text = visible other) :
    ofText (α := α) text = .ok tokens ↔ ofText (α := α) other = .ok tokens := by
  have balance : Balanced text ↔ Balanced other := by
    rw [← Balanced.isBalanced_iff, ← Balanced.isBalanced_iff, ← isBalanced_visible, same,
      isBalanced_visible]
  rw [ofText_eq_ok, ofText_eq_ok, balance, split_eq_pieces, split_eq_pieces, same]

end Tokens

end Token

namespace Score

variable {α : Type} [Scalar α]

/-- The chords of a score keep the tokens they were read from. -/
theorem sources_eq {tempo : α} {tokens : List (List Char)} {chords : List (Chord α)}
    (reads : List.Forall₂ (fun token chord => Chord.read token tempo = .ok chord) tokens chords) :
    chords.map Chord.source = tokens := by
  induction reads with
  | nil => rfl
  | cons read _ ih =>
    obtain ⟨_, _, _, _, _, _, source, -⟩ := Chord.read_eq_ok.mp read
    rw [List.map_cons, source, ih]

/-- How a text, its tokens and the score it is read as are bound to each other. -/
structure Normalizes (α : Type) [Scalar α] (text : List Char) : Prop where
  /-- Only a parenthesis without its partner keeps a text from having tokens. -/
  has_tokens : (∃ tokens, Token.ofText (α := α) text = .ok tokens) ↔ Balanced text
  tokens_are : ∀ tokens, Token.ofText (α := α) text = .ok tokens →
    ∀ token ∈ tokens, Token.IsToken token
  /-- Nothing is lost, and nothing is there twice. -/
  join_tokens : ∀ tokens, Token.ofText (α := α) text = .ok tokens →
    Token.join tokens = Token.normalForm text
  tokens_join : ∀ tokens, Token.ofText (α := α) text = .ok tokens →
    Token.ofText (α := α) (Token.join tokens) = .ok tokens
  blanks : ∀ other, Token.visible other = Token.visible text →
    (∃ tokens, Token.ofText (α := α) text = .ok tokens ∧
      Token.ofText (α := α) other = .ok tokens) ∨
    (∃ fault fault', Token.ofText (α := α) text = .error fault ∧
      Token.ofText (α := α) other = .error fault')
  /-- A score is written down by the sources of its chords. -/
  read_sources : ∀ (tempo : α) score, read text tempo = .ok score →
    read (Token.join (score.chords.map Chord.source)) tempo = .ok score

/-- The tokens of a text are a normal form of it, with which nothing is lost. -/
theorem normal_form_law (text : List Char) : Normalizes α text where
  has_tokens := by
    simp only [Token.ofText_eq_ok, exists_and_left, exists_eq', and_true]
  tokens_are tokens found token member := by
    obtain ⟨balanced, rfl⟩ := Token.ofText_eq_ok.mp found
    exact Token.isToken_of_mem_split balanced member
  join_tokens tokens found := by
    obtain ⟨balanced, rfl⟩ := Token.ofText_eq_ok.mp found
    exact Token.join_split balanced
  tokens_join tokens found := Token.ofText_join found
  blanks other same := by
    cases found : Token.ofText (α := α) text with
    | ok tokens => exact .inl ⟨tokens, rfl, (Token.ofText_eq_ok_congr same).mpr found⟩
    | error fault =>
      cases found' : Token.ofText (α := α) other with
      | error fault' => exact .inr ⟨fault, fault', rfl, rfl⟩
      | ok tokens =>
        rw [(Token.ofText_eq_ok_congr same).mp found'] at found
        cases found
  read_sources tempo score reads := by
    obtain ⟨finite, positive, tokens, found, present, tempo_eq, chords⟩ := read_eq_ok.mp reads
    rw [sources_eq chords]
    exact read_eq_ok.mpr
      ⟨finite, positive, tokens, Token.ofText_join found, present, tempo_eq, chords⟩

/-- With delimiters at both ends, and runs of them inside a group and outside. -/
theorem normal_form_law_rests :
    Normalizes ℝ [',', '-', ' ', ',', ',', '(', '-', ',', ',', '-', ')', ','] ∧
      Token.ofText (α := ℝ) [',', '-', ' ', ',', ',', '(', '-', ',', ',', '-', ')', ','] =
        .ok [['-'], ['(', '-', ',', '-', ')']] ∧
      Token.normalForm [',', '-', ' ', ',', ',', '(', '-', ',', ',', '-', ')', ','] =
        ['-', ',', '(', '-', ',', '-', ')'] ∧
      ∃ score, read [',', '-', ' ', ',', ',', '(', '-', ',', ',', '-', ')', ','] (60 : ℝ) =
          .ok score ∧
        read ['-', ',', '(', '-', ',', '-', ')'] (60 : ℝ) = .ok score := by
  have law := normal_form_law (α := ℝ) [',', '-', ' ', ',', ',', '(', '-', ',', ',', '-', ')', ',']
  have tokens : Token.ofText (α := ℝ) [',', '-', ' ', ',', ',', '(', '-', ',', ',', '-', ')', ','] =
      .ok [['-'], ['(', '-', ',', '-', ')']] := rfl
  have positive : ¬ (60 : ℝ) ≤ Scalar.ofNat 0 := by norm_num
  have rest : Chord.read ['-'] (60 : ℝ) = .ok ⟨['-'], chordSeconds none 60, []⟩ := by
    refine Chord.read_eq_ok.mpr ⟨['-'], none, [[.rest]], rfl, ?_, rfl, rfl, rfl, rfl⟩
    unfold Stage.readAll Stage.ungroup
    rfl
  have group : Chord.read ['(', '-', ',', '-', ')'] (60 : ℝ) =
      .ok ⟨['(', '-', ',', '-', ')'], chordSeconds none 60, []⟩ := by
    refine Chord.read_eq_ok.mpr
      ⟨['(', '-', ',', '-', ')'], none, [[.rest, .rest]], rfl, ?_, rfl, rfl, rfl, rfl⟩
    unfold Stage.readAll Stage.ungroup
    rfl
  have score : read [',', '-', ' ', ',', ',', '(', '-', ',', ',', '-', ')', ','] (60 : ℝ) =
      .ok ⟨60, [⟨['-'], chordSeconds none 60, []⟩,
        ⟨['(', '-', ',', '-', ')'], chordSeconds none 60, []⟩]⟩ :=
    read_eq_ok.mpr ⟨rfl, positive, _, tokens, List.cons_ne_nil _ _, rfl,
      .cons rest (.cons group .nil)⟩
  exact ⟨law, tokens, (law.join_tokens _ tokens).symm, _, score, law.read_sources 60 _ score⟩

end Score

end Portamento
