import Portamento.Scalar.Basic

/-!
# Numbers that are compared as an order compares them

What playback needs of its comparisons, apart from any arithmetic. Doubles have these properties,
what is no number included: such a value is in no relation to anything. The exact reading of the
numbers has them too, and there they are proved.
-/

namespace Portamento

/-- Numbers whose comparisons are those of an order, and whose clock readings follow the clock. -/
class Scalar.Ordered (α : Type) [Scalar α] : Prop where
  le_trans (a b c : α) : a ≤ b → b ≤ c → a ≤ c
  lt_trans (a b c : α) : a < b → b < c → a < c
  lt_of_le_of_lt (a b c : α) : a ≤ b → b < c → a < c
  not_lt_of_le (a b : α) : a ≤ b → ¬ b < a
  ofNanoseconds_le (m n : Nat) : m ≤ n → (Scalar.ofNanoseconds m : α) ≤ Scalar.ofNanoseconds n

/-- Numbers of which no two above zero compare as equal. For doubles that takes the condition: the
two zeros do so. -/
class Scalar.Antisymmetric (α : Type) [Scalar α] : Prop where
  eq_of_le_of_le (a b : α) : ¬ a ≤ Scalar.ofNat 0 → a ≤ b → b ≤ a → a = b

end Portamento
