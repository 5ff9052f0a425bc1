/-!
# What the bits of a double stand for

A finite double is a natural number times a power of two, with a sign. Everything in this folder
that turns a double into digits works on that pair in exact arithmetic.
-/

namespace Portamento.Decimal

/-- The absolute value `coefficient * 2 ^ exponent` of a finite double. -/
structure Magnitude where
  coefficient : Nat
  exponent : Int
  deriving DecidableEq, Repr

/-- What a double stands for. -/
inductive Content where
  | notANumber
  | infinite (negative : Bool)
  | finite (negative : Bool) (magnitude : Magnitude)
  deriving DecidableEq, Repr

/-- Reads the sign, the eleven bits of the exponent and the fifty-two of the fraction. -/
def Content.ofBits (bits : UInt64) : Content :=
  let n : Nat := bits.toNat
  let negative := n / Nat.pow 2 63 == 1
  let exponent : Nat := n / Nat.pow 2 52 % Nat.pow 2 11
  let fraction : Nat := n % Nat.pow 2 52
  if exponent = Nat.pow 2 11 - 1 then
    if fraction = 0 then .infinite negative else .notANumber
  else if exponent = 0 then .finite negative ⟨fraction, -1074⟩
  else .finite negative ⟨Nat.pow 2 52 + fraction, Int.ofNat exponent - 1075⟩

def Content.ofFloat (x : Float) : Content := .ofBits x.toBits

/-- Whether the next smaller magnitude is only half as far away as the next greater one: the case of
a power of two, except the least of them that has full precision. -/
def Magnitude.narrowBelow (x : Magnitude) : Bool :=
  x.coefficient = Nat.pow 2 52 && x.exponent != -1074

/-- A fraction of two naturals; the lower one is never zero in the values built here. -/
structure Ratio where
  upper : Nat
  lower : Nat
  deriving DecidableEq, Repr

def Ratio.power (base : Nat) (exponent : Int) : Ratio :=
  ⟨Nat.pow base exponent.toNat, Nat.pow base (-exponent).toNat⟩

def Ratio.scale (n : Nat) (r : Ratio) : Ratio := ⟨n * r.upper, r.lower⟩

/-- The order of two fractions, by cross multiplication. -/
def Ratio.order (a b : Ratio) : Ordering := compare (a.upper * b.lower) (b.upper * a.lower)

def Magnitude.ratio (x : Magnitude) : Ratio := .scale x.coefficient (.power 2 x.exponent)

/-- Which neighbour a number half way between two takes. -/
inductive Tie where
  | toEven
  | upward
  deriving DecidableEq, Repr

def Ratio.nearest (tie : Tie) (r : Ratio) : Nat :=
  let whole := r.upper / r.lower
  match compare (2 * (r.upper % r.lower)) r.lower with
  | .lt => whole
  | .gt => whole + 1
  | .eq =>
    match tie with
    | .upward => whole + 1
    | .toEven => whole + whole % 2

end Portamento.Decimal
