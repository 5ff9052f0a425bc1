import Portamento.Text.Blank

/-!
# Numbers as people type them

The numbers that a command line or an environment variable may hold. A fractional number has an
optional sign, digits with at most one point among or beside them, and an optional exponent; the
words for infinity and for no number are accepted in either case. A whole number has an optional
plus sign.
-/

namespace Portamento.Decimal

/-- The value of a number with another digit behind it. -/
def appendDigit (value : Nat) (d : Char) : Nat := 10 * value + (d.toNat - '0'.toNat)

def digitsValue (digits : List Char) : Nat := digits.foldl appendDigit 0

/-- The value of a number with further digits behind it, given up as soon as it passes a limit. -/
def extendUpTo? (limit value : Nat) : List Char → Option Nat
  | [] => if value ≤ limit then some value else none
  | d :: later => if value ≤ limit then extendUpTo? limit (appendDigit value d) later else none

/-- The value of a run of digits, unless it is beyond a limit. -/
def valueUpTo? (limit : Nat) (digits : List Char) : Option Nat := extendUpTo? limit 0 digits

/-- Further digits never make a value less. -/
theorem le_foldl_appendDigit (value : Nat) (digits : List Char) :
    value ≤ digits.foldl appendDigit value := by
  induction digits generalizing value with
  | nil => simp
  | cons d later ih =>
    have h := ih (appendDigit value d)
    simp only [List.foldl_cons, appendDigit] at h ⊢
    omega

/-- A value is given up only if it is beyond the limit in the end. -/
theorem extendUpTo?_eq (limit value : Nat) (digits : List Char) :
    extendUpTo? limit value digits =
      if digits.foldl appendDigit value ≤ limit then some (digits.foldl appendDigit value)
      else none := by
  induction digits generalizing value with
  | nil => rfl
  | cons d later ih =>
    have hle := le_foldl_appendDigit value (d :: later)
    by_cases h : value ≤ limit
    · rw [extendUpTo?, if_pos h, ih]
      rfl
    · have hbig : ¬ (d :: later).foldl appendDigit value ≤ limit := by omega
      rw [extendUpTo?, if_neg h, if_neg hbig]

/-- The double nearest to `coefficient * 10 ^ exponent`. Decimals far beyond the largest or far
below the smallest double are answered without forming the power of ten. -/
def nearestDouble (coefficient : Nat) (exponent : Int) : Float :=
  let magnitude := exponent + (Nat.toDigits 10 coefficient).length
  if coefficient = 0 ∨ magnitude < -400 then 0.0
  else if 400 < magnitude then 1.0 / 0.0
  else Float.ofScientific coefficient (exponent < 0) exponent.natAbs

/-- A number of digits that no double, and no number half way between two doubles, goes beyond. -/
def decisiveDigits : Nat := 800

/-- The double nearest to a run of digits times a power of ten. Of digits beyond the decisive ones
it matters only whether they are all zero. -/
def nearestDoubleOf (digits : List Char) (exponent : Int) : Float :=
  if digits.length ≤ decisiveDigits then nearestDouble (digitsValue digits) exponent
  else
    let significant := digits.dropWhile (· == '0')
    let later := significant.drop decisiveDigits
    let last := if later.all (· == '0') then '0' else '1'
    nearestDouble (digitsValue (significant.take decisiveDigits ++ [last]))
      (exponent + later.length - 1)

/-- The exponent behind the letter, or zero if there is none. -/
def readExponent? : List Char → Option Int
  | [] => some 0
  | mark :: rest =>
    if mark.toLower ≠ 'e' then none
    else
      let (negative, digits) := match rest with
        | '-' :: digits => (true, digits)
        | '+' :: digits => (false, digits)
        | digits => (false, digits)
      if digits.isEmpty ∨ !digits.all Char.isDigit then none
      else
        let n : Int := digitsValue digits
        some (if negative then -n else n)

def readUnsigned? (text : List Char) : Option Float :=
  let word := String.ofList (Text.lower text)
  if word = "inf" ∨ word = "infinity" then some (1.0 / 0.0)
  else if word = "nan" then some (0.0 / 0.0)
  else
    let whole := text.takeWhile Char.isDigit
    let (fraction, rest) := match text.dropWhile Char.isDigit with
      | '.' :: rest => (rest.takeWhile Char.isDigit, rest.dropWhile Char.isDigit)
      | rest => ([], rest)
    if whole.isEmpty ∧ fraction.isEmpty then none
    else (readExponent? rest).map fun exponent =>
      nearestDoubleOf (whole ++ fraction) (exponent - fraction.length)

def readFloat? (text : List Char) : Option Float :=
  match text with
  | '-' :: rest => (readUnsigned? rest).map fun x => -x
  | '+' :: rest => readUnsigned? rest
  | _ => readUnsigned? text

/-- A natural number up to a limit, with an optional plus sign. -/
def readNatural? (limit : Nat) (text : List Char) : Option Nat :=
  let digits := match text with
    | '+' :: rest => rest
    | _ => text
  if digits.isEmpty ∨ !digits.all Char.isDigit then none
  else valueUpTo? limit digits

end Portamento.Decimal
