import Portamento.Proofs.Decimal.Rounding

/-!
# Doubles and magnitudes

A finite double is a sign and a magnitude, in this library as in the model of the doubles, which
keeps both in sixty-four bits. What a magnitude is packed into is unpacked again, and a double is
what its own sign and magnitude are packed into.
-/

namespace Portamento.Decimal

open Float.Model Float.Model.UnpackedFloat

section Bits

theorem toNat_unpackMantissa (b : BitVec 64) :
    (@unpackMantissa .binary64 b).toNat = b.toNat % 2 ^ 52 := by
  simp [unpackMantissa]

theorem toNat_unpackExponent (b : BitVec 64) :
    (@unpackExponent .binary64 b).toNat = b.toNat / 2 ^ 52 % 2 ^ 11 := by
  simp [unpackExponent, Nat.shiftRight_eq_div_pow]

theorem toNat_unpackSign (b : BitVec 64) :
    (@unpackSign .binary64 b).toNat = b.toNat / 2 ^ 63 := by
  have bound : b.toNat < 2 ^ 64 := b.isLt
  simp [unpackSign, Nat.shiftRight_eq_div_pow]
  omega

theorem toNat_packComponents (sign : Sign) (exponent : BitVec 11) (mantissa : BitVec 52) :
    (packComponents Format.binary64 sign exponent mantissa).toNat =
      sign.toBitVec.toNat * 2 ^ 63 + exponent.toNat * 2 ^ 52 + mantissa.toNat := by
  have first : (sign.toBitVec ++ exponent).toNat =
      sign.toBitVec.toNat * 2 ^ 11 + exponent.toNat := by
    rw [BitVec.toNat_append, ← Nat.shiftLeft_add_eq_or_of_lt exponent.isLt, Nat.shiftLeft_eq]
  show (sign.toBitVec ++ exponent ++ mantissa).toNat = _
  rw [BitVec.toNat_append, ← Nat.shiftLeft_add_eq_or_of_lt mantissa.isLt, Nat.shiftLeft_eq, first]
  ring

end Bits

/-- The sign of the model. -/
def signOf (negative : Bool) : Sign := if negative then .negative else .positive

/-- A magnitude with a sign, as the model keeps it. -/
def Magnitude.unpacked (x : Magnitude) (sign : Sign) : UnpackedFloat :=
  if h : x.coefficient = 0 then .zero sign
  else .finite sign x.coefficient x.exponent (Nat.pos_of_ne_zero h)

/-- The number whose binary digits keep a magnitude with a sign. -/
def Magnitude.code (x : Magnitude) (negative : Bool) : Nat :=
  (if negative then 2 ^ 63 else 0) +
    if 2 ^ 52 ≤ x.coefficient then (x.exponent + 1074).toNat * 2 ^ 52 + x.coefficient
    else x.coefficient

namespace Magnitude

variable {x : Magnitude}

theorem unpacked_eq (positive : 0 < x.coefficient) (sign : Sign) :
    x.unpacked sign = .finite sign x.coefficient x.exponent positive := dif_neg positive.ne'

/-- What the model unpacks, in terms of the number that the bits are. -/
theorem unpack_eq (b : BitVec 64) : UnpackedFloat.unpack .binary64 b =
    if b.toNat / 2 ^ 52 % 2 ^ 11 = 2 ^ 11 - 1 then
      if b.toNat % 2 ^ 52 = 0 then .infinity (signOf (b.toNat / 2 ^ 63 == 1)) else .notANumber
    else if b.toNat / 2 ^ 52 % 2 ^ 11 = 0 then
      Magnitude.unpacked ⟨b.toNat % 2 ^ 52, -1074⟩ (signOf (b.toNat / 2 ^ 63 == 1))
    else
      Magnitude.unpacked ⟨2 ^ 52 + b.toNat % 2 ^ 52,
        Int.ofNat (b.toNat / 2 ^ 52 % 2 ^ 11) - 1075⟩ (signOf (b.toNat / 2 ^ 63 == 1)) := by
  have bound : b.toNat < 2 ^ 64 := b.isLt
  have sign : Sign.ofBitVec (@unpackSign .binary64 b) =
      signOf (b.toNat / 2 ^ 63 == 1) := by
    have zero : (@unpackSign .binary64 b = 0#1) ↔ b.toNat / 2 ^ 63 = 0 := by
      rw [← BitVec.toNat_inj, toNat_unpackSign]
      rfl
    have bit : b.toNat / 2 ^ 63 = 0 ∨ b.toNat / 2 ^ 63 = 1 := by omega
    simp only [Sign.ofBitVec, signOf, zero]
    rcases bit with bit | bit <;> rw [bit] <;> rfl
  have exponent : (@unpackExponent .binary64 b = -1#_) ↔
      b.toNat / 2 ^ 52 % 2 ^ 11 = 2 ^ 11 - 1 := by
    rw [← BitVec.toNat_inj, toNat_unpackExponent]
    rfl
  have least : (@unpackExponent .binary64 b = 0#_) ↔
      b.toNat / 2 ^ 52 % 2 ^ 11 = 0 := by
    rw [← BitVec.toNat_inj, toNat_unpackExponent]
    rfl
  have mantissa : (@unpackMantissa .binary64 b = 0#_) ↔ b.toNat % 2 ^ 52 = 0 := by
    rw [← BitVec.toNat_inj, toNat_unpackMantissa]
    rfl
  have full : (1#1 ++ @unpackMantissa .binary64 b).toNat =
      2 ^ 52 + b.toNat % 2 ^ 52 := by
    rw [BitVec.toNat_append, ← Nat.shiftLeft_add_eq_or_of_lt (BitVec.isLt _),
      toNat_unpackMantissa]
    rfl
  unfold UnpackedFloat.unpack
  simp only [exponent, least, mantissa, sign, full, toNat_unpackMantissa, toNat_unpackExponent]
  split
  · rfl
  · split
    · next zero =>
      unfold Magnitude.unpacked
      simp only [zero]
      rfl
    · unfold Magnitude.unpacked
      rw [dif_neg (by simp)]
      rfl

/-- What bits stand for and what the model unpacks from them are the same. -/
theorem unpack_of_content {bits : UInt64} {negative : Bool}
    (content : Content.ofBits bits = .finite negative x) :
    x.IsDouble ∧ bits.toNat = x.code negative ∧
      UnpackedFloat.unpack .binary64 bits.toBitVec = x.unpacked (signOf negative) := by
  have bound : bits.toNat < 2 ^ 64 := bits.toBitVec.isLt
  have same : bits.toBitVec.toNat = bits.toNat := rfl
  have sign : (if bits.toNat / 2 ^ 63 == 1 then 2 ^ 63 else 0) = bits.toNat / 2 ^ 63 * 2 ^ 63 := by
    have bit : bits.toNat / 2 ^ 63 = 0 ∨ bits.toNat / 2 ^ 63 = 1 := by omega
    rcases bit with bit | bit <;> rw [bit] <;> rfl
  rw [unpack_eq, same]
  unfold Content.ofBits at content
  simp only [Nat.pow_eq] at content
  split at content
  · split at content <;> cases content
  · next finite =>
    split at content
    · next least =>
      cases content
      have less : bits.toNat % 2 ^ 52 < 2 ^ 52 := Nat.mod_lt _ (by norm_num)
      refine ⟨⟨by dsimp only; omega, le_rfl, by norm_num, .inr rfl⟩, ?_, ?_⟩
      · rw [code, if_neg less.not_ge, sign]
        dsimp only
        omega
      · rw [if_neg finite, if_pos least]
    · next normal =>
      cases content
      have less : bits.toNat % 2 ^ 52 < 2 ^ 52 := Nat.mod_lt _ (by norm_num)
      have double : Magnitude.IsDouble ⟨2 ^ 52 + bits.toNat % 2 ^ 52,
          Int.ofNat (bits.toNat / 2 ^ 52 % 2 ^ 11) - 1075⟩ := by
        constructor <;> simp only [Int.ofNat_eq_natCast] <;> omega
      refine ⟨double, ?_, ?_⟩
      · rw [code, if_pos (Nat.le_add_right _ _), sign]
        simp only [Int.ofNat_eq_natCast]
        omega
      · rw [if_neg finite, if_neg normal]

theorem toNat_pack (double : x.IsDouble) (negative : Bool) :
    (UnpackedFloat.pack .binary64 (x.unpacked (signOf negative))).toNat = x.code negative := by
  have sign : (signOf negative).toBitVec.toNat * 2 ^ 63 = if negative then 2 ^ 63 else 0 := by
    cases negative <;> rfl
  obtain ⟨bits, least, greatest, full⟩ := double
  unfold unpacked
  split
  · next none =>
    unfold UnpackedFloat.pack packedZero code
    rw [toNat_packComponents, sign, none]
    rfl
  · next some =>
    have biased : (x.exponent + Format.binary64.exponentBias +
        Format.binary64.mantissaBitsWithoutImplicit).toNat = (x.exponent + 1075).toNat := by
      have bias : (Format.binary64.exponentBias : ℤ) = 1023 := rfl
      rw [bias]
      congr 1
      push_cast
      ring
    have fits : ¬ 2 ^ Format.binary64.exponentBits ≤ (x.exponent + 1075).toNat + 1 := by
      show ¬ 2 ^ 11 ≤ _
      omega
    unfold UnpackedFloat.pack code
    simp only [biased, if_neg fits]
    have top : x.coefficient.log2 < 53 := (Nat.log2_lt some).mpr bits
    by_cases normal : 2 ^ 52 ≤ x.coefficient
    · have places : x.coefficient.log2 + 1 = Format.binary64.mantissaBits := by
        have bottom := (Nat.le_log2 some).mpr normal
        show _ = 53
        omega
      rw [if_pos places, if_pos normal, toNat_packComponents, sign, BitVec.toNat_ofNat,
        BitVec.toNat_ofNat]
      omega
    · have places : ¬ x.coefficient.log2 + 1 = Format.binary64.mantissaBits := by
        have bottom := (Nat.log2_lt some).mpr (Nat.not_le.mp normal)
        show ¬ _ = 53
        omega
      rw [if_neg places, if_neg normal, toNat_packComponents, sign, BitVec.toNat_ofNat,
        BitVec.toNat_ofNat]
      omega

/-- The bits of a magnitude stand for it. -/
theorem content_of_code (double : x.IsDouble) (positive : 0 < x.coefficient) {bits : UInt64}
    {negative : Bool} (same : bits.toNat = x.code negative) :
    Content.ofBits bits = .finite negative x := by
  obtain ⟨bits', least, greatest, full⟩ := double
  obtain ⟨sign, term, bit, small⟩ : ∃ sign, (if negative then 2 ^ 63 else 0) = sign * 2 ^ 63 ∧
      (sign == 1) = negative ∧ sign < 2 := by
    cases negative
    · exact ⟨0, rfl, rfl, by norm_num⟩
    · exact ⟨1, rfl, rfl, by norm_num⟩
  rw [code, term] at same
  unfold Content.ofBits
  simp only [Nat.pow_eq]
  by_cases normal : 2 ^ 52 ≤ x.coefficient
  · rw [if_pos normal] at same
    have first : bits.toNat / 2 ^ 63 = sign := by omega
    have exponent : bits.toNat / 2 ^ 52 % 2 ^ 11 = (x.exponent + 1075).toNat := by omega
    have fraction : bits.toNat % 2 ^ 52 = x.coefficient - 2 ^ 52 := by omega
    have finite : ¬ (x.exponent + 1075).toNat = 2 ^ 11 - 1 := by omega
    have some : ¬ (x.exponent + 1075).toNat = 0 := by omega
    have magnitude : (⟨2 ^ 52 + (x.coefficient - 2 ^ 52),
        Int.ofNat (x.exponent + 1075).toNat - 1075⟩ : Magnitude) = x := by
      rw [Magnitude.mk.injEq, Int.ofNat_eq_natCast]
      omega
    rw [first, exponent, fraction, if_neg finite, if_neg some, bit, magnitude]
  · rw [if_neg normal] at same
    have first : bits.toNat / 2 ^ 63 = sign := by omega
    have exponent : bits.toNat / 2 ^ 52 % 2 ^ 11 = 0 := by omega
    have fraction : bits.toNat % 2 ^ 52 = x.coefficient := by omega
    have magnitude : (⟨x.coefficient, -1074⟩ : Magnitude) = x := by
      rw [← full.resolve_left normal]
    rw [first, exponent, fraction, if_neg (by norm_num), if_pos rfl, bit, magnitude]

end Magnitude

/-- The double with a sign and a magnitude. -/
def ofMagnitude (negative : Bool) (x : Magnitude) : Float :=
  .ofModel (.pack (x.unpacked (signOf negative)))

section Float

/-- A double that is neither infinite nor no number at all has a sign and a magnitude. -/
theorem exists_content_of_isFinite {value : Float} (finite : value.isFinite = true) :
    ∃ negative x, Content.ofFloat value = .finite negative x := by
  have unpacked : value.isFinite =
      (UnpackedFloat.unpack .binary64 value.toBits.toBitVec).isFinite := rfl
  have same : value.toBits.toBitVec.toNat = value.toBits.toNat := rfl
  rw [unpacked, Magnitude.unpack_eq, same] at finite
  unfold Content.ofFloat Content.ofBits
  simp only [Nat.pow_eq]
  split
  · next top =>
    rw [if_pos top] at finite
    split at finite <;> cases finite
  · split
    · exact ⟨_, _, rfl⟩
    · exact ⟨_, _, rfl⟩

variable {x : Magnitude} {negative : Bool}

/-- A finite double is the one with its sign and its magnitude. -/
theorem eq_ofMagnitude {value : Float} (content : Content.ofFloat value = .finite negative x) :
    x.IsDouble ∧ value = ofMagnitude negative x := by
  obtain ⟨double, code, -⟩ := Magnitude.unpack_of_content content
  refine ⟨double, ?_⟩
  obtain ⟨⟨bits, valid⟩⟩ := value
  have same :
      bits = UInt64.ofBitVec (UnpackedFloat.pack .binary64 (x.unpacked (signOf negative))) :=
    UInt64.toNat_inj.mp (code.trans (Magnitude.toNat_pack double negative).symm)
  subst same
  rfl

theorem content_ofMagnitude (double : x.IsDouble) (positive : 0 < x.coefficient) :
    Content.ofFloat (ofMagnitude negative x) = .finite negative x :=
  Magnitude.content_of_code double positive (Magnitude.toNat_pack double negative)

theorem unpack_ofMagnitude (double : x.IsDouble) :
    (ofMagnitude negative x).toModel.unpack = x.unpacked (signOf negative) := by
  rcases Nat.eq_zero_or_pos x.coefficient with none | positive
  · have zero : x.unpacked (signOf negative) = .zero (signOf negative) := dif_pos none
    rw [ofMagnitude, zero]
    cases negative <;> rfl
  · exact (Magnitude.unpack_of_content (content_ofMagnitude double positive)).2.2

theorem neg_ofMagnitude (double : x.IsDouble) :
    -(ofMagnitude false x) = ofMagnitude true x := by
  have neg : -(ofMagnitude false x) =
      .ofModel (.pack (ofMagnitude false x).toModel.unpack.neg) := rfl
  rw [neg, unpack_ofMagnitude double, ofMagnitude]
  unfold Magnitude.unpacked
  split <;> rfl

theorem isInf_ofMagnitude (double : x.IsDouble) : (ofMagnitude negative x).isInf = false := by
  have inf : (ofMagnitude negative x).isInf = (ofMagnitude negative x).toModel.unpack.isInf := rfl
  rw [inf, unpack_ofMagnitude double]
  unfold Magnitude.unpacked
  split <;> rfl

end Float

end Portamento.Decimal
