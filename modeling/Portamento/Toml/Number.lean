import Portamento.Toml.Value

/-!
# Numbers of a configuration file

Integers of sixty-four bits, in decimal with a sign or in three other bases without one, and
doubles. A double has a fraction or an exponent; one that is too great is refused, but a negative
one becomes the negative infinity.
-/

namespace Portamento.Toml

/-- The least positive integer that does not fit into sixty-four bits with a sign. -/
def integerBound : Int := 9223372036854775808

/-- An integer of sixty-four bits with a sign. -/
def integer? (n : Int) : Option Value :=
  if -integerBound ≤ n ∧ n < integerBound then some (.integer n) else none

/-- Reads the whole part of a number: a single zero, or digits that begin with another one. -/
def readWhole : Reader (List Char) := fun text =>
  match text with
  | '0' :: later => some (['0'], later)
  | _ => digitRun Char.isDigit text

/-- Reads an exponent, without the letter before it. -/
def readPower : Reader Int := fun text =>
  match text with
  | '-' :: later => (digitRun Char.isDigit later).map fun (digits, rest) =>
    (-(Decimal.digitsValue digits : Int), rest)
  | '+' :: later => (digitRun Char.isDigit later).map fun (digits, rest) =>
    (Decimal.digitsValue digits, rest)
  | _ => (digitRun Char.isDigit text).map fun (digits, rest) => (Decimal.digitsValue digits, rest)

def readExponent? : Reader (Option Int) := fun text =>
  match text with
  | 'e' :: later | 'E' :: later => (readPower later).map fun (n, rest) => (some n, rest)
  | _ => some (none, text)

def readFraction? : Reader (Option (List Char)) := fun text =>
  match text with
  | '.' :: later => (digitRun Char.isDigit later).map fun (digits, rest) => (some digits, rest)
  | _ => some (none, text)

def float? (negative : Bool) (whole fraction : List Char) (exponent : Int) : Option Value :=
  let size := Decimal.nearestDoubleOf (whole ++ fraction) (exponent - fraction.length)
  if negative then some (.float (-size))
  else if size.isInf then none
  else some (.float size)

/-- Reads a decimal number without its sign. -/
def readDecimal (negative : Bool) : Reader Value := fun text => do
  let (whole, text) ← readWhole text
  let (fraction, text) ← readFraction? text
  let (exponent, text) ← readExponent? text
  let value ← match fraction, exponent with
    | none, none =>
      (Decimal.valueUpTo? integerBound.toNat whole).bind fun (n : Nat) =>
        integer? (if negative then -n else n)
    | _, _ => float? negative whole (fraction.getD []) (exponent.getD 0)
  return (value, text)

/-- Reads a number without its sign, or a word for what is no finite number. -/
def readUnsigned (negative : Bool) : Reader Value := fun text =>
  match text with
  | 'i' :: 'n' :: 'f' :: later =>
    some (.float (if negative then -1.0 / 0.0 else 1.0 / 0.0), later)
  | 'n' :: 'a' :: 'n' :: later => some (.float (0.0 / 0.0), later)
  | _ => readDecimal negative text

def readInBase (base : Nat) (isDigit : Char → Bool) : Reader Value := fun text => do
  let (digits, text) ← digitRun isDigit text
  let value ← integer? (valueInBase base digits)
  return (value, text)

def readNumber : Reader Value := fun text =>
  match text with
  | '+' :: later => readUnsigned false later
  | '-' :: later => readUnsigned true later
  | '0' :: 'x' :: later => readInBase 16 isHexDigit later
  | '0' :: 'o' :: later => readInBase 8 (fun c => '0' ≤ c && c ≤ '7') later
  | '0' :: 'b' :: later => readInBase 2 (fun c => c == '0' || c == '1') later
  | _ => readUnsigned false text

end Portamento.Toml
