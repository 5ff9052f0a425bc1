import Portamento.Proofs.Scalar.Exact
import Portamento.Proofs.Score.Pieces
import Portamento.Proofs.Score.Reading

/-!
# One text behind another

Two texts with a delimiter between them are read like the two on their own: the tokens and chords of
the second stand behind those of the first, and a fault of the second is reported where it is found
in the whole. That the first text is balanced is all that this takes.
-/

namespace Portamento

/-- The same fault when so many chords and bytes stand in front of the text. -/
def ScoreFault.behind {α : Type} (chords bytes : Nat) : ScoreFault α → ScoreFault α
  | .unbalancedGroup position => .unbalancedGroup (position + bytes)
  | .chord index token fault => .chord (index + chords) token fault
  | fault => fault

namespace Token

section Positions

/-- The mark of the same character when so many bytes stand in front of the text. -/
def markBehind (bytes : Nat) (mark : Nat × Char) : Nat × Char := (mark.1 + bytes, mark.2)

theorem significant_behind (bytes position : Nat) (text : List Char) :
    significant (position + bytes) text = (significant position text).map (markBehind bytes) := by
  induction text generalizing position with
  | nil => rfl
  | cons x rest ih =>
    have next : position + bytes + x.utf8Size = position + x.utf8Size + bytes := by omega
    simp only [significant, next, ih]
    split <;> rfl

theorem significant_append (position : Nat) (text rest : List Char) :
    significant position (text ++ rest) =
      significant position text ++ significant (position + Text.byteLength text) rest := by
  induction text generalizing position with
  | nil => rfl
  | cons x later ih =>
    have bytes : position + x.utf8Size + Text.byteLength later =
        position + Text.byteLength (x :: later) := Nat.add_assoc ..
    simp only [List.cons_append, significant, ih, bytes]
    split <;> rfl

/-- A text in which nothing is unmatched leaves those groups open that were open in front of it. -/
theorem unmatched?_append {opened : List Nat} {marks : List (Nat × Char)}
    (matched : unmatched? opened marks = none) (outer : List Nat) (rest : List (Nat × Char)) :
    unmatched? (opened ++ outer) (marks ++ rest) = unmatched? outer rest := by
  induction marks generalizing opened with
  | nil =>
    obtain rfl := List.head?_eq_none_iff.mp matched
    rfl
  | cons mark later ih =>
    obtain ⟨position, x⟩ := mark
    rw [unmatched?.eq_def] at matched
    rw [List.cons_append, unmatched?.eq_def]
    by_cases opens : x = '('
    · simp only [opens, if_true] at matched ⊢
      exact ih matched
    · by_cases closes : x = ')'
      · simp only [closes, Char.reduceEq, if_true, if_false] at matched ⊢
        cases opened with
        | nil => cases matched
        | cons _ inner => exact ih matched
      · simp only [opens, closes, if_false] at matched ⊢
        exact ih matched

theorem unmatched?_behind (bytes : Nat) (opened : List Nat) (marks : List (Nat × Char)) :
    unmatched? (opened.map (· + bytes)) (marks.map (markBehind bytes)) =
      (unmatched? opened marks).map (· + bytes) := by
  induction marks generalizing opened with
  | nil => exact List.head?_map
  | cons mark later ih =>
    obtain ⟨position, x⟩ := mark
    rw [List.map_cons, unmatched?.eq_def, unmatched?.eq_def]
    by_cases opens : x = '('
    · simp only [markBehind, opens, if_true]
      exact ih (position :: opened)
    · by_cases closes : x = ')'
      · simp only [markBehind, closes, Char.reduceEq, if_true, if_false]
        cases opened with
        | nil => rfl
        | cons _ inner => exact ih inner
      · simp only [markBehind, opens, closes, if_false]
        exact ih opened

/-- What is unmatched behind a text in which nothing is, and a delimiter. -/
theorem unmatched?_seam {text : List Char} (matched : unmatched? [] (significant 0 text) = none)
    (rest : List Char) :
    unmatched? [] (significant 0 (text ++ delimiter :: rest)) =
      (unmatched? [] (significant 0 rest)).map (· + (Text.byteLength text + 1)) := by
  have seam : significant 0 (text ++ delimiter :: rest) = significant 0 text ++
      (Text.byteLength text, delimiter) ::
        (significant 0 rest).map (markBehind (Text.byteLength text + 1)) := by
    rw [significant_append, ← significant_behind, Nat.zero_add, Nat.zero_add]
    rfl
  calc unmatched? [] (significant 0 (text ++ delimiter :: rest))
      = unmatched? [] ((Text.byteLength text, delimiter) ::
          (significant 0 rest).map (markBehind (Text.byteLength text + 1))) := by
        rw [seam]
        exact unmatched?_append matched [] _
    _ = unmatched? [] ((significant 0 rest).map (markBehind (Text.byteLength text + 1))) := rfl
    _ = _ := unmatched?_behind _ [] _

end Positions

variable {α : Type}

theorem ofText_eq (text : List Char) : ofText (α := α) text =
    match unmatched? [] (significant 0 text) with
    | some position => .error (.unbalancedGroup position)
    | none => .ok (split text) := rfl

theorem ofText_append {text : List Char} {tokens : List (List Char)}
    (reads : ofText (α := α) text = .ok tokens) (rest : List Char) :
    ofText (α := α) (text ++ delimiter :: rest) =
      ((ofText rest).map (tokens ++ ·)).mapError
        (ScoreFault.behind tokens.length (Text.byteLength text + 1)) := by
  obtain ⟨balanced, rfl⟩ := ofText_eq_ok.mp reads
  rw [ofText_eq] at reads
  cases matched : unmatched? [] (significant 0 text) with
  | some position =>
    rw [matched] at reads
    cases reads
  | none =>
    rw [ofText_eq, ofText_eq, unmatched?_seam matched, split_append balanced]
    cases unmatched? [] (significant 0 rest) <;> rfl

end Token

namespace Score

variable {α : Type} [Scalar α]

/-- A fault is found at the index of its chord, wherever the counting begins. -/
theorem readChords_behind (tempo : α) (chords bytes index : Nat) (tokens : List (List Char)) :
    readChords tempo (index + chords) tokens =
      (readChords tempo index tokens).mapError (ScoreFault.behind chords bytes) := by
  induction tokens generalizing index with
  | nil => rfl
  | cons token later ih =>
    have next : index + chords + 1 = index + 1 + chords := by omega
    rw [readChords, readChords]
    cases Chord.read token tempo with
    | error fault => rfl
    | ok chord =>
      simp only [next, ih]
      cases readChords tempo (index + 1) later <;> rfl

theorem readChords_append {tempo : α} {index : Nat} {tokens : List (List Char)}
    {chords : List (Chord α)} (reads : readChords tempo index tokens = .ok chords)
    (later : List (List Char)) :
    readChords tempo index (tokens ++ later) =
      (readChords tempo (index + tokens.length) later).map (chords ++ ·) := by
  induction tokens generalizing index chords with
  | nil =>
    cases reads
    rw [List.nil_append, List.length_nil, Nat.add_zero]
    cases readChords tempo index later <;> rfl
  | cons token rest ih =>
    rw [readChords] at reads
    rw [List.cons_append, readChords]
    cases read : Chord.read token tempo with
    | error fault =>
      rw [read] at reads
      cases reads
    | ok chord =>
      simp only [read] at reads
      cases others : readChords tempo (index + 1) rest with
      | error fault =>
        rw [others] at reads
        cases reads
      | ok chords' =>
        rw [others] at reads
        cases reads
        have behind : index + 1 + rest.length = index + (token :: rest).length := by
          rw [List.length_cons]
          omega
        simp only [ih others, behind]
        cases readChords tempo (index + (token :: rest).length) later <;> rfl

/-- Reading at a tempo that can be played. -/
theorem read_eq {tempo : α} (finite : Scalar.isFinite tempo = true)
    (positive : ¬ tempo ≤ Scalar.ofNat 0) (text : List Char) : read text tempo =
      match Token.ofText text with
      | .error fault => .error fault
      | .ok [] => .error .noChords
      | .ok (token :: later) => (readChords tempo 0 (token :: later)).map (⟨tempo, ·⟩) := by
  have accepted : ¬ (¬ Scalar.isFinite tempo ∨ tempo ≤ Scalar.ofNat 0) := by
    rintro (infinite | negative)
    · exact infinite finite
    · exact positive negative
  rw [read, if_neg accepted]
  cases Token.ofText (α := α) text with
  | error fault => rfl
  | ok tokens =>
    cases tokens with
    | nil => rfl
    | cons token later =>
      simp only [bind, Except.bind, List.isEmpty_cons, Bool.false_eq_true, if_false]
      cases readChords tempo 0 (token :: later) <;> rfl

/-- A text that reads as a score has a token for each chord, and these are read as the chords. -/
theorem exists_tokens_of_read {text : List Char} {tempo : α} {score : Score α}
    (reads : read text tempo = .ok score) : Scalar.isFinite tempo = true ∧
      ¬ tempo ≤ Scalar.ofNat 0 ∧ ∃ token later,
        Token.ofText (α := α) text = .ok (token :: later) ∧
        readChords tempo 0 (token :: later) = .ok score.chords ∧ score.tempo = tempo ∧
        (token :: later).length = score.chords.length := by
  obtain ⟨finite, positive, tokens, found, present, same, chords⟩ := read_eq_ok.mp reads
  obtain ⟨token, later, rfl⟩ := List.exists_cons_of_ne_nil present
  exact ⟨finite, positive, token, later, found, (readChords_eq_ok 0).mpr chords, same,
    chords.length_eq⟩

/-- What follows a delimiter behind a text that reads as a score is read on its own. -/
theorem read_append {text : List Char} {tempo : α} {first : Score α}
    (reads : read text tempo = .ok first) (rest : List Char) :
    read (text ++ Token.delimiter :: rest) tempo =
      match Token.ofText rest with
      | .error fault =>
        .error (fault.behind first.chords.length (Text.byteLength text + 1))
      | .ok tokens => ((readChords tempo 0 tokens).mapError
          (ScoreFault.behind first.chords.length (Text.byteLength text + 1))).map
            fun chords => { first with chords := first.chords ++ chords } := by
  obtain ⟨finite, positive, token, later, found, chords, rfl, count⟩ := exists_tokens_of_read reads
  rw [read_eq finite positive, Token.ofText_append found rest, ← count]
  cases Token.ofText (α := α) rest with
  | error fault => rfl
  | ok tokens =>
    have counted := readChords_behind first.tempo (token :: later).length
      (Text.byteLength text + 1) 0 tokens
    have both := readChords_append chords tokens
    simp only [List.cons_append] at both
    simp only [Except.map, Except.mapError, List.cons_append, both, counted]
    cases readChords first.tempo 0 tokens <;> rfl

/-- How a text is read behind a delimiter, if the text in front of it has the given tokens. -/
structure Concatenates (α : Type) [Scalar α] (text : List Char) (tokens : List (List Char))
    (rest : List Char) : Prop where
  tokens_append : ∀ later, Token.ofText (α := α) rest = .ok later →
    Token.ofText (α := α) (text ++ Token.delimiter :: rest) = .ok (tokens ++ later)
  /-- A parenthesis without its partner is found at its byte in the whole. -/
  position_behind : ∀ position, Token.ofText (α := α) rest = .error (.unbalancedGroup position) →
    Token.ofText (α := α) (text ++ Token.delimiter :: rest) =
      .error (.unbalancedGroup (position + Text.byteLength text + 1))
  chords_append : ∀ (tempo : α) first second, read text tempo = .ok first →
    read rest tempo = .ok second → read (text ++ Token.delimiter :: rest) tempo =
      .ok { first with chords := first.chords ++ second.chords }
  /-- Behind the delimiter there may be nothing. -/
  chords_alone : ∀ (tempo : α) first, read text tempo = .ok first →
    Token.ofText (α := α) rest = .ok [] →
    read (text ++ Token.delimiter :: rest) tempo = .ok first
  /-- A fault is found at its chord, or at its byte, in the whole. -/
  fault_behind : ∀ (tempo : α) first fault, read text tempo = .ok first →
    Token.ofText (α := α) rest ≠ .ok [] → read rest tempo = .error fault →
    read (text ++ Token.delimiter :: rest) tempo =
      .error (fault.behind first.chords.length (Text.byteLength text + 1))

/-- Behind a balanced text and a delimiter every text is read as it is on its own, whatever
delimiters and white space stand at the seam. -/
theorem concatenation_law (text : List Char) (tokens : List (List Char))
    (reads : Token.ofText (α := α) text = .ok tokens) (rest : List Char) :
    Concatenates α text tokens rest where
  tokens_append later found := by
    rw [Token.ofText_append reads, found]
    rfl
  position_behind position found := by
    rw [Token.ofText_append reads, found]
    rfl
  chords_append tempo first second first_eq second_eq := by
    obtain ⟨-, -, token, later, found, chords, -⟩ := exists_tokens_of_read second_eq
    rw [read_append first_eq, found]
    simp only [chords]
    rfl
  chords_alone tempo first first_eq found := by
    rw [read_append first_eq, found]
    simp only [readChords, Except.mapError, Except.map, List.append_nil]
  fault_behind tempo first fault first_eq several fault_eq := by
    obtain ⟨finite, positive, -⟩ := exists_tokens_of_read first_eq
    rw [read_eq finite positive] at fault_eq
    rw [read_append first_eq]
    cases found : Token.ofText (α := α) rest with
    | error reason =>
      rw [found] at fault_eq
      cases fault_eq
      rfl
    | ok later =>
      rw [found] at several fault_eq
      cases later with
      | nil => exact absurd rfl several
      | cons token later =>
        dsimp only at fault_eq
        cases chords : readChords tempo 0 (token :: later) with
        | error reason =>
          rw [chords] at fault_eq
          cases fault_eq
          simp only [chords]
          rfl
        | ok found' =>
          rw [chords] at fault_eq
          cases fault_eq

/-- Where a rest, a delimiter, a wide blank and another delimiter are followed by a text that begins
with a delimiter, too, and opens a group. -/
theorem concatenation_law_blank :
    Token.ofText (α := ℝ) ['-', ',', '\u3000', ','] = .ok [['-']] ∧
      Token.ofText (α := ℝ) [',', '(', 'd'] = .error (.unbalancedGroup 1) ∧
      Concatenates ℝ ['-', ',', '\u3000', ','] [['-']] [',', '(', 'd'] ∧
      (∃ score, read ['-', ',', '\u3000', ','] (60 : ℝ) = .ok score) ∧
      read ['-', ',', '\u3000', ',', ',', ',', '(', 'd'] (60 : ℝ) =
        .error (.unbalancedGroup 8) := by
  have tokens : Token.ofText (α := ℝ) ['-', ',', '\u3000', ','] = .ok [['-']] := rfl
  have fault : Token.ofText (α := ℝ) [',', '(', 'd'] = .error (.unbalancedGroup 1) := rfl
  have law := concatenation_law ['-', ',', '\u3000', ','] [['-']] tokens [',', '(', 'd']
  have positive : ¬ (60 : ℝ) ≤ Scalar.ofNat 0 := by norm_num
  have stages : Stage.readAll ['-'] = .ok [[.rest]] := by
    unfold Stage.readAll Stage.ungroup
    rfl
  have length : splitLength ['-'] = .ok (['-'], none) := rfl
  have chord : Chord.read ['-'] (60 : ℝ) = .ok ⟨['-'], beatSeconds 60, []⟩ := by
    simp only [Chord.read, length, stages, bind, Except.bind]
    rfl
  have first : read ['-', ',', '\u3000', ','] (60 : ℝ) =
      .ok ⟨60, [⟨['-'], beatSeconds 60, []⟩]⟩ := by
    rw [read_eq rfl positive, tokens]
    simp only [readChords, chord]
    rfl
  have several : Token.ofText (α := ℝ) [',', '(', 'd'] ≠ .ok [] := by
    rw [fault]
    simp
  have second : read [',', '(', 'd'] (60 : ℝ) = .error (.unbalancedGroup 1) := by
    rw [read_eq rfl positive, fault]
  exact ⟨tokens, fault, law, ⟨_, first⟩,
    law.fault_behind 60 _ _ first several second⟩

end Score

end Portamento
