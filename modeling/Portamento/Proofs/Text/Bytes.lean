import Portamento.Text.Blank

/-!
# The bytes of a text

A text is kept in UTF-8, and a place in it is a number of bytes. A character may take several, so
that not every such number is the place of a character, and a text can be cut only where one begins.
-/

namespace Portamento.Text

/-- The bytes of a text. -/
def bytes (text : List Char) : List UInt8 := text.flatMap String.utf8EncodeChar

/-- The characters of a text, each with the byte at which it begins. -/
def charIndices (position : Nat) : List Char → List (Nat × Char)
  | [] => []
  | x :: rest => (position, x) :: charIndices (position + x.utf8Size) rest

/-- The text in front of a byte and the text from there on, or nothing if no character begins at
that byte and the text does not end there. -/
def cutAt? : Nat → List Char → Option (List Char × List Char)
  | 0, text => some ([], text)
  | _ + 1, [] => none
  | offset + 1, x :: rest =>
    if offset + 1 < x.utf8Size then none
    else (cutAt? (offset + 1 - x.utf8Size) rest).map fun (front, back) => (x :: front, back)

variable {text front back : List Char} {offset : Nat}

@[simp] theorem byteLength_nil : byteLength [] = 0 := rfl

@[simp] theorem byteLength_cons (x : Char) (rest : List Char) :
    byteLength (x :: rest) = x.utf8Size + byteLength rest := rfl

@[simp] theorem byteLength_append (text rest : List Char) :
    byteLength (text ++ rest) = byteLength text + byteLength rest := by
  induction text with
  | nil => simp
  | cons x later ih => simp [ih, Nat.add_assoc]

@[simp] theorem length_bytes (text : List Char) : (bytes text).length = byteLength text := by
  induction text with
  | nil => rfl
  | cons x rest ih =>
    rw [bytes, List.flatMap_cons, List.length_append, String.length_utf8EncodeChar]
    exact congrArg _ ih

theorem bytes_append (text rest : List Char) : bytes (text ++ rest) = bytes text ++ bytes rest :=
  List.flatMap_append ..

/-- The byte at which a character of one byte stands is that character. -/
theorem getElem?_bytes {x : Char} (small : x.toNat < 128) (front back : List Char) :
    (bytes (front ++ x :: back))[byteLength front]? = some (UInt8.ofNat x.toNat) := by
  have encoded : String.utf8EncodeChar x = [UInt8.ofNat x.toNat] := if_pos (Nat.le_of_lt_succ small)
  rw [bytes_append, ← length_bytes front, List.getElem?_append_right (Nat.le_refl _), Nat.sub_self,
    bytes, List.flatMap_cons, encoded]
  rfl

theorem charIndices_append (position : Nat) (text rest : List Char) :
    charIndices position (text ++ rest) =
      charIndices position text ++ charIndices (position + byteLength text) rest := by
  induction text generalizing position with
  | nil => rfl
  | cons x later ih =>
    rw [List.cons_append, charIndices, charIndices, ih, List.cons_append, Nat.add_assoc]
    rfl

theorem map_snd_charIndices (position : Nat) (text : List Char) :
    (charIndices position text).map Prod.snd = text := by
  induction text generalizing position with
  | nil => rfl
  | cons x rest ih => exact congrArg _ (ih _)

/-- A text is cut into two texts that make it up. -/
theorem cutAt?_eq_some :
    cutAt? offset text = some (front, back) ↔ text = front ++ back ∧ byteLength front = offset := by
  constructor
  · intro cuts
    fun_induction cutAt? offset text generalizing front with
    | case1 text =>
      cases cuts
      exact ⟨rfl, rfl⟩
    | case2 => cases cuts
    | case3 => cases cuts
    | case4 offset x rest room ih =>
      obtain ⟨⟨front', back'⟩, cuts', same⟩ := Option.map_eq_some_iff.mp cuts
      cases same
      obtain ⟨rfl, length⟩ := ih cuts'
      refine ⟨rfl, ?_⟩
      rw [byteLength_cons, length]
      omega
  · rintro ⟨rfl, rfl⟩
    induction front with
    | nil => cases back <;> rfl
    | cons x rest ih =>
      obtain ⟨size, positive⟩ := Nat.exists_eq_add_one.mpr x.utf8Size_pos
      have next : byteLength (x :: rest) = size + byteLength rest + 1 := by
        rw [byteLength_cons, positive]
        omega
      have inside : ¬ size + byteLength rest + 1 < x.utf8Size := by omega
      have left : size + byteLength rest + 1 - x.utf8Size = byteLength rest := by omega
      rw [next, List.cons_append, cutAt?, if_neg inside, left, ih]
      rfl

/-- A text can be cut at its character boundaries and nowhere else. -/
theorem isSome_cutAt?_iff : (cutAt? offset text).isSome = true ↔
    (⟨offset⟩ : String.Pos.Raw).IsValid (String.ofList text) := by
  rw [Option.isSome_iff_exists, String.Pos.Raw.isValid_iff_exists_append]
  have size (front : List Char) : (String.ofList front).utf8ByteSize = byteLength front := by
    rw [← length_bytes]
    exact List.size_toByteArray
  constructor
  · rintro ⟨⟨front, back⟩, cuts⟩
    obtain ⟨rfl, length⟩ := cutAt?_eq_some.mp cuts
    exact ⟨String.ofList front, String.ofList back, String.ofList_append,
      String.Pos.Raw.ext (length.symm.trans (size front).symm)⟩
  · rintro ⟨front, back, parts, same⟩
    refine ⟨(front.toList, back.toList), cutAt?_eq_some.mpr ⟨?_, ?_⟩⟩
    · rw [← String.toList_append, ← parts, String.toList_ofList]
    · have length := congrArg String.Pos.Raw.byteIdx same
      rw [String.byteIdx_rawEndPos, ← String.ofList_toList (s := front), size] at length
      exact length.symm

end Portamento.Text
