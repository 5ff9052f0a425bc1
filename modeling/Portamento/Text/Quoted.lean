import Portamento.Text.Hidden

/-!
# Quoted texts

How an error message, a printed setting or a log line shows a text: between double quotes, with a
backslash before a quote or a backslash, short names for the usual controls, and the code point in
braces for every other character that is not shown.
-/

namespace Portamento.Text

/-- The hexadecimal digits of a number, in lower case, at least one. -/
def hexDigits (n : Nat) : List Char := Nat.toDigits 16 n

/-- How one character stands between the quotes. -/
def quotedChar (c : Char) : List Char :=
  if c = '"' then ['\\', '"']
  else if c = '\\' then ['\\', '\\']
  else if c = '\n' then ['\\', 'n']
  else if c = '\r' then ['\\', 'r']
  else if c = '\t' then ['\\', 't']
  else if c = '\x00' then ['\\', '0']
  else if isHidden c then ['\\', 'u', '\x7b'] ++ hexDigits c.toNat ++ ['\x7d']
  else [c]

def quoted (text : List Char) : List Char := '"' :: (text.flatMap quotedChar ++ ['"'])

def quote (text : String) : String := String.ofList (quoted text.toList)

end Portamento.Text
