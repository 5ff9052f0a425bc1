import Portamento.Score.Fault
import Portamento.Text.Blank

/-!
# From a text to chord tokens

The text of a score is a list of chords with commas between them. White space means nothing, a run
of commas counts as one, and a comma inside parentheses belongs to the chord. The stages below do
one of these things each; a character keeps the byte at which it starts in the whole text, by which
an unmatched parenthesis is reported.
-/

namespace Portamento.Token

/-- The character between chords, and between the notes of a stage. -/
def delimiter : Char := ','

/-- The characters of a text that mean something, each with the byte at which it starts. -/
def significant (position : Nat) : List Char → List (Nat × Char)
  | [] => []
  | x :: rest =>
    let later := significant (position + x.utf8Size) rest
    if Text.isBlank x then later else (position, x) :: later

/-- The position of the first closing parenthesis that nothing opens or, if there is none, of the
last opening one that nothing closes. The list holds the positions of the groups that are open, the
innermost first. -/
def unmatched? (opened : List Nat) : List (Nat × Char) → Option Nat
  | [] => opened.head?
  | (position, x) :: rest =>
    if x = '(' then unmatched? (position :: opened) rest
    else if x = ')' then
      match opened with
      | [] => some position
      | _ :: outer => unmatched? outer rest
    else unmatched? opened rest

/-- The text with each run of delimiters reduced to its first. -/
def squeeze : List Char → List Char
  | [] => []
  | x :: rest =>
    let later := squeeze rest
    if x = delimiter then x :: later.dropWhile (· == delimiter) else x :: later

/-- The pieces between the delimiters that stand outside all parentheses, empty ones included. The
number counts the groups that are open. -/
def pieces (depth : Nat) : List Char → List (List Char)
  | [] => [[]]
  | x :: rest =>
    if x = delimiter ∧ depth = 0 then [] :: pieces depth rest
    else
      let depth := if x = '(' then depth + 1 else if x = ')' then depth - 1 else depth
      match pieces depth rest with
      | [] => [[x]]
      | piece :: later => (x :: piece) :: later

def ofText {α : Type} (text : List Char) : Except (ScoreFault α) (List (List Char)) :=
  let marks := significant 0 text
  match unmatched? [] marks with
  | some position => .error (.unbalancedGroup position)
  | none =>
    .ok ((pieces 0 (squeeze (marks.map Prod.snd))).filter fun piece => !piece.isEmpty)

end Portamento.Token
