import Portamento.Decimal.Reading

/-!
# The characters of a configuration file

Blanks, ends of lines, comments and runs of digits. A reader takes something from the front of a
text and gives it with what is left, or refuses the text.
-/

namespace Portamento.Toml

/-- A function that reads something from the front of a text. One that has to go round takes a
number as well, of rounds that no text of that length needs. -/
abbrev Reader (β : Type) := List Char → Option (β × List Char)

def expect (c : Char) : List Char → Option (List Char)
  | x :: later => if x = c then some later else none
  | [] => none

/-- Whether a character separates words within a line. -/
def isBlank (c : Char) : Bool := c == ' ' || c == '\t'

/-- Whether a character may stand in a comment or in a quotation: no control but the tabulator. -/
def isPrintable (c : Char) : Bool := c == '\t' || (0x20 ≤ c.toNat && c.toNat != 0x7F)

def skipBlanks (text : List Char) : List Char := text.dropWhile isBlank

/-- What follows an end of line: a line feed, perhaps with a carriage return before it. -/
def newline? : List Char → Option (List Char)
  | '\n' :: later => some later
  | '\r' :: '\n' :: later => some later
  | _ => none

def skipComment : List Char → List Char
  | '#' :: later => later.dropWhile isPrintable
  | text => text

/-- What follows the rest of a line that says nothing more: blanks, perhaps a comment, and an end of
line or the end of the text. -/
def lineEnd? (text : List Char) : Option (List Char) :=
  match skipComment (skipBlanks text) with
  | [] => some []
  | later => newline? later

/-- Skips blanks, comments and ends of lines, as far as they go. Each round takes an end of line. -/
def skipLines (fuel : Nat) (text : List Char) : List Char :=
  match fuel with
  | 0 => text
  | fuel + 1 =>
    let text := skipBlanks text
    match newline? (skipComment text) with
    | some later => skipLines fuel later
    | none => text

def isHexDigit (c : Char) : Bool :=
  c.isDigit || ('a' ≤ c && c ≤ 'f') || ('A' ≤ c && c ≤ 'F')

def digitValue (c : Char) : Nat :=
  if c.isDigit then c.toNat - '0'.toNat
  else if 'a' ≤ c then c.toNat - 'a'.toNat + 10
  else c.toNat - 'A'.toNat + 10

def valueInBase (base : Nat) (digits : List Char) : Nat :=
  digits.foldl (fun n c => base * n + digitValue c) 0

/-- Reads exactly so many decimal digits, as their value. -/
def fixedDigits (count : Nat) : Reader Nat := fun text =>
  let digits := (text.take count).takeWhile Char.isDigit
  if digits.length = count then some (Decimal.digitsValue digits, text.drop count) else none

/-- Further digits, each perhaps after an underscore, and what follows them. -/
def moreDigits (isDigit : Char → Bool) : List Char → List Char × List Char
  | [] => ([], [])
  | '_' :: c :: later =>
    if isDigit c then
      let (digits, rest) := moreDigits isDigit later
      (c :: digits, rest)
    else ([], '_' :: c :: later)
  | c :: later =>
    if isDigit c then
      let (digits, rest) := moreDigits isDigit later
      (c :: digits, rest)
    else ([], c :: later)

/-- Reads a run of digits; between two of them may stand an underscore. -/
def digitRun (isDigit : Char → Bool) : Reader (List Char)
  | [] => none
  | c :: later =>
    if isDigit c then
      let (digits, rest) := moreDigits isDigit later
      some (c :: digits, rest)
    else none

end Portamento.Toml
