/-!
# The numbers that time and sound are computed with

Times, amplitudes and frequencies are computed in one kind of number throughout. What the
computations need of it is collected in two classes, so that the definitions that follow can be run
on doubles and read, without a change, as arithmetic on the reals.
-/

namespace Portamento

/-- Numbers for times, amplitudes and frequencies. -/
class Scalar (α : Type) extends Add α, Sub α, Mul α, Div α, LT α, LE α where
  /-- The number that equals a count. -/
  ofNat : Nat → α
  decidableLT : DecidableLT α
  decidableLE : DecidableLE α
  /-- Whether the value is a number at all, and not an infinite one. -/
  isFinite : α → Bool
  /-- What is left of the first number after taking the second away as often as it goes. -/
  remainder : α → α → α
  /-- The greatest count that is not above the number; zero for a negative number. -/
  floorCount : α → Nat
  /-- The least count that is not below the number; zero for a negative number. -/
  ceilCount : α → Nat
  /-- The count nearest to the number, the greater of two; zero for a negative number. -/
  nearestCount : α → Nat
  /-- A number of seconds, not negative, in whole nanoseconds: the nearest, the even one of two. -/
  nanoseconds : α → Nat

instance Scalar.instDecidableLT {α : Type} [Scalar α] : DecidableLT α := Scalar.decidableLT

instance Scalar.instDecidableLE {α : Type} [Scalar α] : DecidableLE α := Scalar.decidableLE

/-- Numbers that a sine wave can be computed with. -/
class Tonal (α : Type) extends Scalar α where
  sin : α → α
  /-- The angle of a full turn. -/
  turn : α
  /-- The nearest number of the precision in which samples are kept. -/
  sample : α → α

namespace Scalar

variable {α : Type} [Scalar α]

def ratio (upper lower : Nat) : α := ofNat upper / ofNat lower

/-- The greater of two numbers, the second if they are equal. What is no number gives way to the
other argument. -/
def max (a b : α) : α := if b < a then a else if b ≤ b then b else a

/-- The smaller of two numbers, the second if they are equal. What is no number gives way to the
other argument. -/
def min (a b : α) : α := if a < b then a else if b ≤ b then b else a

/-- The number with its sign taken away, also from a zero. -/
def magnitude (a : α) : α := if a ≤ ofNat 0 then ofNat 0 - a else a

/-- A power, by repeated squaring. -/
def power (base : α) (n : Nat) : α :=
  if _h : n = 0 then ofNat 1
  else
    let half := power (base * base) (n / 2)
    if n % 2 = 0 then half else half * base
termination_by n
decreasing_by omega

/-- Two to an integer power, as a factor that moves a pitch by so many octaves. -/
def octaves (n : Int) : α :=
  if 0 ≤ n then power (ofNat 2) n.toNat else ofNat 1 / power (ofNat 2) (-n).toNat

def sum (xs : List α) : α := xs.foldl (· + ·) (ofNat 0)

def ofNanoseconds (n : Nat) : α :=
  ofNat (n / 1000000000) + ofNat (n % 1000000000) / ofNat 1000000000

end Scalar

end Portamento
