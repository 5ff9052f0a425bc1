import Portamento.Decimal.Reading
import Portamento.Toml.Lexical

/-!
# Dates and times

A moment is a date, a time of day, or both; one that is both may have an offset from universal time.
This module reads the notation and writes it in one normal form: a capital `T` between date and
time, no zeros at the end of a fraction, `Z` or a signed offset. The hours of a time, and those of
an offset, are the hours of one day.
-/

namespace Portamento.Toml

structure Date where
  year : Nat
  month : Nat
  day : Nat
  deriving DecidableEq, Repr

structure TimeOfDay where
  hour : Nat
  minute : Nat
  second : Nat
  nanosecond : Nat
  deriving DecidableEq, Repr

inductive Offset where
  | universal
  /-- So many minutes ahead, or behind if negative. -/
  | minutes (n : Int)
  deriving DecidableEq, Repr

inductive Moment where
  | date (date : Date)
  | time (time : TimeOfDay)
  | both (date : Date) (time : TimeOfDay) (offset : Option Offset)
  deriving DecidableEq, Repr

/-- A number with at least so many digits. -/
def padded (width n : Nat) : List Char :=
  let digits := Nat.toDigits 10 n
  List.replicate (width - digits.length) '0' ++ digits

/-- Whether a year has a twenty-ninth of February. -/
def isLeapYear (year : Nat) : Bool := year % 4 = 0 ∧ (year % 100 ≠ 0 ∨ year % 400 = 0)

/-- The length of a month, counted from one. -/
def daysInMonth (year month : Nat) : Nat :=
  if month = 2 then if isLeapYear year then 29 else 28
  else if month = 4 ∨ month = 6 ∨ month = 9 ∨ month = 11 then 30
  else 31

namespace Date

def chars (d : Date) : List Char :=
  padded 4 d.year ++ ['-'] ++ padded 2 d.month ++ ['-'] ++ padded 2 d.day

def read : Reader Date := fun text => do
  let (year, text) ← fixedDigits 4 text
  let text ← expect '-' text
  let (month, text) ← fixedDigits 2 text
  let text ← expect '-' text
  let (day, text) ← fixedDigits 2 text
  if 1 ≤ month ∧ month ≤ 12 ∧ 1 ≤ day ∧ day ≤ daysInMonth year month then
    some (⟨year, month, day⟩, text)
  else none

end Date

namespace TimeOfDay

/-- The digits of a fraction of a second, without the zeros at its end. -/
def fractionChars (nanosecond : Nat) : List Char :=
  if nanosecond = 0 then []
  else '.' :: ((padded 9 nanosecond).reverse.dropWhile (· == '0')).reverse

def chars (t : TimeOfDay) : List Char :=
  padded 2 t.hour ++ [':'] ++ padded 2 t.minute ++ [':'] ++ padded 2 t.second ++
    fractionChars t.nanosecond

def readMinute : Reader (Nat × Nat) := fun text => do
  let (hour, text) ← fixedDigits 2 text
  let text ← expect ':' text
  let (minute, text) ← fixedDigits 2 text
  return ((hour, minute), text)

/-- The nanoseconds of a fraction, from its digits; what is finer than a nanosecond is cut off. -/
def nanosecondsOf (digits : List Char) : Nat :=
  let kept := digits.take 9
  Decimal.digitsValue kept * Nat.pow 10 (9 - kept.length)

/-- Reads a time of day. A minute may have a sixty-first second. -/
def read : Reader TimeOfDay := fun text => do
  let ((hour, minute), text) ← readMinute text
  let text ← expect ':' text
  let (second, text) ← fixedDigits 2 text
  if 23 < hour ∨ 59 < minute ∨ 60 < second then none
  else
    match text with
    | '.' :: fraction =>
      let digits := fraction.takeWhile Char.isDigit
      if digits.isEmpty then none
      else
        some (⟨hour, minute, second, nanosecondsOf digits⟩, fraction.dropWhile Char.isDigit)
    | _ => some (⟨hour, minute, second, 0⟩, text)

end TimeOfDay

namespace Offset

def chars : Offset → List Char
  | .universal => ['Z']
  | .minutes n =>
    (if n < 0 then '-' else '+') :: padded 2 (n.natAbs / 60) ++ [':'] ++ padded 2 (n.natAbs % 60)

/-- Reads hours and minutes of an offset, as minutes. -/
def readSpan : Reader Nat := fun text => do
  let ((hour, minute), text) ← TimeOfDay.readMinute text
  if hour ≤ 23 ∧ minute ≤ 59 then return (60 * hour + minute, text) else none

def read? : Reader (Option Offset) := fun text =>
  match text with
  | 'Z' :: later | 'z' :: later => some (some .universal, later)
  | '+' :: later => (readSpan later).map fun (n, later) => (some (.minutes n), later)
  | '-' :: later => (readSpan later).map fun (n, later) => (some (.minutes (-n)), later)
  | _ => some (none, text)

end Offset

namespace Moment

def offsetChars (offset : Option Offset) : List Char := (offset.map Offset.chars).getD []

def chars : Moment → List Char
  | .date d => d.chars
  | .time t => t.chars
  | .both d t offset => d.chars ++ 'T' :: t.chars ++ offsetChars offset

def text (moment : Moment) : String := String.ofList moment.chars

/-- Whether a character stands between a date and a time. -/
def isSeparator (c : Char) : Bool := c == 'T' || c == 't' || c == ' '

/-- What follows a date: a time and an offset, or no time. A blank that no time follows is not part
of the moment; any other separator calls for a time. -/
def afterDate (day : Date) : Reader Moment := fun text =>
  match text with
  | [] => some (.date day, text)
  | c :: later =>
    if isSeparator c then
      match TimeOfDay.read later with
      | some (clock, later) => do
        let (offset, later) ← Offset.read? later
        return (.both day clock offset, later)
      | none => if c = ' ' then some (.date day, text) else none
    else some (.date day, text)

def read : Reader Moment := fun text =>
  match Date.read text with
  | some (day, later) => afterDate day later
  | none => (TimeOfDay.read text).map fun (clock, later) => (.time clock, later)

def ofText? (text : String) : Option Moment :=
  match read text.toList with
  | some (moment, []) => some moment
  | _ => none

end Moment

end Portamento.Toml
