import Portamento.Decimal.Layout

/-!
# Documents for other programs

Values in the notation that other programs read: on one line, or over many lines with two spaces for
each level. A number that is not finite has no notation and is written as nothing; a document
without such a number reads back as it was.
-/

namespace Portamento

inductive Document where
  | nothing
  | flag (b : Bool)
  | count (n : Nat)
  | number (x : Float)
  | text (text : List Char)
  | list (items : List Document)
  | record (fields : List (String × Document))

namespace Document

def hexDigit (n : Nat) : Char := Nat.digitChar n

/-- How one character stands between the quotes. -/
def quotedChar (c : Char) : List Char :=
  if c = '"' then ['\\', '"']
  else if c = '\\' then ['\\', '\\']
  else if c = '\x08' then ['\\', 'b']
  else if c = '\x0c' then ['\\', 'f']
  else if c = '\n' then ['\\', 'n']
  else if c = '\r' then ['\\', 'r']
  else if c = '\t' then ['\\', 't']
  else if c.toNat < 0x20 then
    ['\\', 'u', '0', '0', hexDigit (c.toNat / 16), hexDigit (c.toNat % 16)]
  else [c]

def quoted (text : List Char) : String := String.ofList ('"' :: (text.flatMap quotedChar ++ ['"']))

def simple : Document → String
  | .nothing => "null"
  | .flag b => if b then "true" else "false"
  | .count n => Nat.repr n
  | .number x => Decimal.interchange.show x
  | .text content => quoted content
  | .list _ => "[]"
  | .record _ => "\x7b\x7d"

/-- The name of a field, with the mark behind it. -/
def label (name : String) (mark : String) : String := quoted name.toList ++ mark

/-- The line break and the indentation of a level. -/
def newLine (level : Nat) : String := "\n" ++ String.ofList (List.replicate (2 * level) ' ')

mutual

/-- A document on one line. -/
def compact : Document → String
  | .list items => "[" ++ compactItems items ++ "]"
  | .record fields => "\x7b" ++ compactFields fields ++ "\x7d"
  | .nothing => simple .nothing
  | .flag b => simple (.flag b)
  | .count n => simple (.count n)
  | .number x => simple (.number x)
  | .text content => simple (.text content)

def compactItems : List Document → String
  | [] => ""
  | [item] => compact item
  | item :: next :: later => compact item ++ "," ++ compactItems (next :: later)

def compactFields : List (String × Document) → String
  | [] => ""
  | [(name, value)] => label name ":" ++ compact value
  | (name, value) :: next :: later =>
    label name ":" ++ compact value ++ "," ++ compactFields (next :: later)

end

mutual

/-- A document over many lines, at a level of indentation. -/
def indented (level : Nat) : Document → String
  | .list [] => simple (.list [])
  | .record [] => simple (.record [])
  | .list (item :: later) =>
    "[" ++ indentedItems (level + 1) (item :: later) ++ newLine level ++ "]"
  | .record (field :: later) =>
    "\x7b" ++ indentedFields (level + 1) (field :: later) ++ newLine level ++ "\x7d"
  | .nothing => simple .nothing
  | .flag b => simple (.flag b)
  | .count n => simple (.count n)
  | .number x => simple (.number x)
  | .text content => simple (.text content)

def indentedItems (level : Nat) : List Document → String
  | [] => ""
  | [item] => newLine level ++ indented level item
  | item :: next :: later =>
    newLine level ++ indented level item ++ "," ++ indentedItems level (next :: later)

def indentedFields (level : Nat) : List (String × Document) → String
  | [] => ""
  | [(name, value)] => newLine level ++ label name ": " ++ indented level value
  | (name, value) :: next :: later =>
    newLine level ++ label name ": " ++ indented level value ++ "," ++
      indentedFields level (next :: later)

end

def pretty (document : Document) : String := indented 0 document

mutual

/-- Whether every number in a document is finite, so that the document reads back as it was. -/
def isReadable : Document → Bool
  | .number x => x.isFinite
  | .list items => areReadable items
  | .record fields => haveReadable fields
  | .nothing => true
  | .flag _ => true
  | .count _ => true
  | .text _ => true

def areReadable : List Document → Bool
  | [] => true
  | item :: later => isReadable item && areReadable later

def haveReadable : List (String × Document) → Bool
  | [] => true
  | (_, value) :: later => isReadable value && haveReadable later

end

end Document

end Portamento
