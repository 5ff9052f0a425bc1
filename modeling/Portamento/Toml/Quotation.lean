import Portamento.Toml.Lexical

/-!
# Quoted texts of a configuration file

A text stands between double quotes, with escapes, or between single quotes, without any. Three
quotes instead of one allow more than one line: an end of line behind the opening quotes is dropped,
every other one is a line feed, and a backslash at the end of a line joins the line with what
follows.
-/

namespace Portamento.Toml

def escaped? : Char → Option Char
  | 'b' => some '\x08'
  | 't' => some '\t'
  | 'n' => some '\n'
  | 'f' => some '\x0c'
  | 'r' => some '\r'
  | '"' => some '"'
  | '\\' => some '\\'
  | _ => none

def scalar? (digits : List Char) : Option Char :=
  let n := valueInBase 16 digits
  if digits.all isHexDigit ∧ n.isValidChar then some (Char.ofNat n) else none

/-- Puts a character that was read before the rest of a text. -/
def before (c : Char) : Option (List Char × List Char) → Option (List Char × List Char)
  | some (content, rest) => some (c :: content, rest)
  | none => none

/-- Reads a text in double quotes up to its end, without the opening quote. -/
def readBasic : Reader (List Char)
  | [] => none
  | '"' :: later => some ([], later)
  | '\\' :: 'u' :: a :: b :: c :: d :: later =>
    match scalar? [a, b, c, d] with
    | some x => before x (readBasic later)
    | none => none
  | '\\' :: 'U' :: a :: b :: c :: d :: e :: f :: g :: h :: later =>
    match scalar? [a, b, c, d, e, f, g, h] with
    | some x => before x (readBasic later)
    | none => none
  | '\\' :: c :: later =>
    match escaped? c with
    | some x => before x (readBasic later)
    | none => none
  | c :: later => if c = '\\' ∨ ¬ isPrintable c then none else before c (readBasic later)

/-- Reads a text in single quotes up to its end, without the opening quote. -/
def readLiteral : Reader (List Char)
  | [] => none
  | '\'' :: later => some ([], later)
  | c :: later => if isPrintable c then before c (readLiteral later) else none

def readEscape : Reader Char
  | 'u' :: later =>
    if (later.take 4).length = 4 then
      (scalar? (later.take 4)).map fun x => (x, later.drop 4)
    else none
  | 'U' :: later =>
    if (later.take 8).length = 8 then
      (scalar? (later.take 8)).map fun x => (x, later.drop 8)
    else none
  | c :: later => (escaped? c).map fun x => (x, later)
  | [] => none

def skipSpace (fuel : Nat) (text : List Char) : List Char :=
  match fuel with
  | 0 => text
  | fuel + 1 =>
    let text := skipBlanks text
    match newline? text with
    | some later => skipSpace fuel later
    | none => text

/-- Reads a text in triple quotes up to its end, without the opening quotes. Up to two quotes may
stand anywhere in the text, also right before the closing ones. -/
def readLong (quote : Char) (escapes : Bool) (fuel : Nat) : Reader (List Char) := fun text =>
  match fuel with
  | 0 => none
  | fuel + 1 =>
    match text with
    | [] => none
    | c :: later =>
      if c = quote then
        let quotes := min (text.takeWhile (· == quote)).length 5
        if quotes < 3 then
          (readLong quote escapes fuel (text.drop quotes)).map fun (content, rest) =>
            (List.replicate quotes quote ++ content, rest)
        else some (List.replicate (quotes - 3) quote, text.drop quotes)
      else if c = '\\' ∧ escapes then
        match newline? (skipBlanks later) with
        | some joined => readLong quote escapes fuel (skipSpace fuel joined)
        | none =>
          match readEscape later with
          | some (x, rest) => before x (readLong quote escapes fuel rest)
          | none => none
      else
        match newline? text with
        | some rest => before '\n' (readLong quote escapes fuel rest)
        | none => if isPrintable c then before c (readLong quote escapes fuel later) else none

/-- Reads a text in triple quotes, without the opening quotes; an end of line behind them is
dropped. -/
def readLongText (quote : Char) (escapes : Bool) (fuel : Nat) : Reader (List Char) := fun text =>
  readLong quote escapes fuel ((newline? text).getD text)

def readQuoted (fuel : Nat) : Reader (List Char)
  | '"' :: '"' :: '"' :: later => readLongText '"' true fuel later
  | '\'' :: '\'' :: '\'' :: later => readLongText '\'' false fuel later
  | '"' :: later => readBasic later
  | '\'' :: later => readLiteral later
  | _ => none

/-- Whether a character may stand in a name without quotes. -/
def isBare (c : Char) : Bool := c.isAlphanum || c == '_' || c == '-'

def readName : Reader String := fun text =>
  match text with
  | '"' :: later => (readBasic later).map fun (name, rest) => (String.ofList name, rest)
  | '\'' :: later => (readLiteral later).map fun (name, rest) => (String.ofList name, rest)
  | _ =>
    let name := text.takeWhile isBare
    if name.isEmpty then none else some (String.ofList name, text.dropWhile isBare)

/-- Names joined by dots: the first ones, and the last. -/
structure NamePath where
  parents : List String
  last : String
  deriving DecidableEq, Repr

/-- Reads names with dots between them and blanks around them. -/
def readNames (fuel : Nat) : Reader NamePath := fun text =>
  match fuel with
  | 0 => none
  | fuel + 1 => do
    let (name, text) ← readName (skipBlanks text)
    match skipBlanks text with
    | '.' :: later =>
      let (path, rest) ← readNames fuel later
      return (⟨name :: path.parents, path.last⟩, rest)
    | rest => return (⟨[], name⟩, rest)

/-- How many tables a value can be nested in. -/
def depthLimit : Nat := 80

/-- Reads a path of names, unless it is too long. -/
def readPath : Reader NamePath := fun text => do
  let (path, rest) ← readNames depthLimit text
  if path.parents.length + 1 < depthLimit then return (path, rest) else none

end Portamento.Toml
