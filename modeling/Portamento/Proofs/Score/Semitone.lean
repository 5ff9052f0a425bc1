import Portamento.Proofs.Decimal.Literal
import Portamento.Proofs.Scalar.Ranged
import Portamento.Proofs.Score.Language
import Portamento.Proofs.Score.Suffix

/-!
# Notes and their semitones

A note is read from a letter, an accidental and the digits of an octave, and each of these moves it
by so many semitones. Counted from the C of octave 0, that number alone decides how the pitch
sounds: its remainder by twelve is the place in the table of pitch classes, and its quotient is the
octave. The respelling of flats and of the two sharps that are letters, and the octaves that two of
these cross into, come to the same.
-/

namespace Portamento

/-- The semitones from the C of an octave up to a letter in it. -/
def Letter.semitones : Letter → Int
  | .c => 0
  | .d => 2
  | .e => 4
  | .f => 5
  | .g => 7
  | .a => 9
  | .b => 11

/-- The semitones that an accidental moves a letter by. -/
def Accidental.semitones : Option Accidental → Int
  | none => 0
  | some .sharp => 1
  | some .flat => -1

/-- The semitones from the C of octave 0 up to a pitch, which lies in octave 4 if no other is
written. -/
def semitone (letter : Letter) (accidental : Option Accidental) (octave : Option Nat) : Int :=
  12 * (octave.getD 4 : Nat) + letter.semitones + Accidental.semitones accidental

namespace PitchClass

/-- The place of a pitch class in the table. -/
def index (p : PitchClass) : Int := all.idxOf p

/-- The pitch class of a semitone. -/
def ofSemitone (n : Int) : PitchClass := all.getD (n % 12).toNat .c

theorem index_range (p : PitchClass) : 0 ≤ p.index ∧ p.index < 12 := by
  cases p <;> decide

theorem ofSemitone_add (octave : Int) (p : PitchClass) :
    ofSemitone (12 * octave + p.index) = p := by
  have remainder : (12 * octave + p.index) % 12 = p.index := by
    have range := p.index_range
    omega
  rw [ofSemitone, remainder]
  cases p <;> rfl

/-- Every semitone is that of a pitch class in some octave. -/
theorem exists_index (n : Int) : ∃ octave p, n = 12 * octave + index p := by
  have small : (n % 12).toNat < 12 := by omega
  have place : ∀ k < 12, index (all.getD k .c) = k := by decide
  refine ⟨n / 12, ofSemitone n, ?_⟩
  rw [ofSemitone, place _ small]
  omega

/-- Behind each pitch class but the last there is another. -/
theorem eq_b_or_exists_index (p : PitchClass) : p = b ∨ ∃ q, p.index + 1 = index q := by
  by_cases last : p = b
  · exact .inl last
  · refine .inr ⟨ofSemitone (p.index + 1), ?_⟩
    revert last
    cases p <;> decide

/-- The table ascends from each pitch class to the next. -/
theorem centihertz_lt {p q : PitchClass} (next : p.index + 1 = q.index) :
    p.centihertz < q.centihertz := by
  cases p <;> cases q <;> revert next <;> decide

end PitchClass

theorem PitchClass.frequency_real (p : PitchClass) :
    (p.frequency : ℝ) = p.centihertz / 100 := by
  rw [frequency, Scalar.ratio_real]
  norm_num

/-- The frequency of a semitone: that of its pitch class in the table, moved from octave 4 to its
own. -/
noncomputable def semitoneHertz (n : Int) : ℝ :=
  (PitchClass.ofSemitone n).frequency * 2 ^ (n / 12 - 4)

theorem semitoneHertz_add (octave : Int) (p : PitchClass) :
    semitoneHertz (12 * octave + p.index) = p.frequency * 2 ^ (octave - 4) := by
  have quotient : (12 * octave + p.index) / 12 = octave := by
    have range := p.index_range
    omega
  rw [semitoneHertz, PitchClass.ofSemitone_add, quotient]

/-- A semitone higher is a higher frequency, also from one octave to the next. -/
theorem strictMono_semitoneHertz : StrictMono semitoneHertz := by
  refine strictMono_int_of_lt_succ fun n => ?_
  obtain ⟨octave, p, rfl⟩ := PitchClass.exists_index n
  have scale : (0 : ℝ) < 2 ^ (octave - 4) := zpow_pos two_pos _
  rw [semitoneHertz_add]
  rcases p.eq_b_or_exists_index with rfl | ⟨q, next⟩
  · have above : 12 * octave + PitchClass.b.index + 1 = 12 * (octave + 1) + PitchClass.c.index := by
      have ends : PitchClass.b.index = 11 ∧ PitchClass.c.index = 0 := by decide
      omega
    have octaves : (2 : ℝ) ^ (octave + 1 - 4) = 2 * 2 ^ (octave - 4) := by
      rw [← zpow_one_add₀ two_ne_zero]
      congr 1
      ring
    rw [above, semitoneHertz_add, octaves]
    simp only [PitchClass.frequency_real, PitchClass.centihertz]
    linarith
  · have above : 12 * octave + p.index + 1 = 12 * octave + q.index := by omega
    rw [above, semitoneHertz_add]
    refine mul_lt_mul_of_pos_right ?_ scale
    rw [PitchClass.frequency_real, PitchClass.frequency_real]
    have ascends : (p.centihertz : ℝ) < q.centihertz := mod_cast PitchClass.centihertz_lt next
    linarith

section Pitch

variable {limit : ℝ}

/-- The respelling keeps the semitone. -/
theorem spell_semitones (letter : Letter) (accidental : Option Accidental) :
    12 * (spell letter accidental).octaveShift + (spell letter accidental).pitchClass.index =
      letter.semitones + Accidental.semitones accidental := by
  rcases accidental with _ | _ | _ <;> cases letter <;> rfl

theorem semitone_eq_index (letter : Letter) (accidental : Option Accidental)
    (octave : Option Nat) : semitone letter accidental octave =
      12 * ((octave.getD 4 : Nat) + (spell letter accidental).octaveShift) +
        (spell letter accidental).pitchClass.index := by
  have spelled := spell_semitones letter accidental
  unfold semitone
  omega

/-- The frequency that a pitch is written with is that of its semitone. -/
theorem Note.value_hertz (letter : Letter) (accidental : Option Accidental) (octave : Option Nat) :
    ((Note.pitch letter accidental octave).hertz : Ranged limit).value =
      semitoneHertz (semitone letter accidental octave) := by
  have written : ((Note.pitch letter accidental octave).hertz : Ranged limit) =
      (spell letter accidental).frequency *
        Scalar.octaves ((octave.getD 4 : Nat) - referenceOctave) := by
    cases octave <;> rfl
  have spelled : ((spell letter accidental).frequency : Ranged limit).value =
      (spell letter accidental).pitchClass.frequency * 2 ^ (spell letter accidental).octaveShift :=
    congrArg (_ * ·) (Ranged.value_octaves _)
  rw [written, Ranged.value_mul, Ranged.value_octaves, spelled, semitone_eq_index,
    semitoneHertz_add, mul_assoc, ← zpow_add₀ two_ne_zero, referenceOctave]
  congr 2
  ring

theorem semitoneHertz_pos (n : Int) : 0 < semitoneHertz n := by
  obtain ⟨octave, p, rfl⟩ := PitchClass.exists_index n
  rw [semitoneHertz_add, PitchClass.frequency_real]
  have positive : 0 < p.centihertz := by cases p <;> decide
  positivity

/-- A pitch can be played if its semitone is within the range. -/
theorem Note.isPlayable_iff {letter : Letter} {accidental : Option Accidental}
    {octave : Option Nat} : (Note.pitch letter accidental octave).IsPlayable (Ranged limit) ↔
      semitoneHertz (semitone letter accidental octave) ≤ limit := by
  have positive := semitoneHertz_pos (semitone letter accidental octave)
  rw [Note.IsPlayable, Ranged.isFinite_iff, Ranged.lt_iff, Note.value_hertz, Ranged.value_ofNat,
    Nat.cast_zero, abs_of_pos positive, and_iff_left positive]

/-- What a pitch is accepted with, and when it is. -/
theorem Note.frequency_eq_ok {letter : Letter} {accidental : Option Accidental}
    {octave : Option Nat} {found : Ranged limit} :
    Note.frequency (.pitch letter accidental octave) = .ok (some found) ↔
      semitoneHertz (semitone letter accidental octave) ≤ limit ∧
        found.value = semitoneHertz (semitone letter accidental octave) := by
  rw [frequency_pitch_eq_ok, isPlayable_iff, Option.some_inj, Ranged.ext_iff, value_hertz]
  exact and_congr_right fun _ => eq_comm

end Pitch

section Written

variable {note : Note} {front digits : List Char}

/-- A run of digits is the decimal number that it looks like. -/
theorem digitsValue_eq_ofDigits (digits : List Char) : Decimal.digitsValue digits =
    Nat.ofDigits 10 (digits.reverse.map fun d => d.toNat - '0'.toNat) := by
  induction digits using List.reverseRecOn with
  | nil => rfl
  | append_singleton digits d ih =>
    rw [List.reverse_concat, List.map_cons, Nat.ofDigits_cons, ← ih, Decimal.digitsValue,
      List.foldl_append]
    exact Nat.add_comm _ _

/-- Zeros in front of digits do not count. -/
theorem digitsValue_zeros_append {zeros : List Char} (areZeros : ∀ x ∈ zeros, x = '0')
    (digits : List Char) : Decimal.digitsValue (zeros ++ digits) = Decimal.digitsValue digits := by
  rw [List.eq_replicate_of_mem areZeros, Decimal.digitsValue_append, Decimal.digitsValue_zeros,
    Nat.mul_zero, Nat.zero_add]

theorem Letter.IsNamedBy.not_isDigit {letter : Letter} {x : Char} (named : letter.IsNamedBy x) :
    x.isDigit = false := by
  rcases named with rfl | rfl <;> cases letter <;> rfl

theorem AccidentalText.not_isDigit {accidental : Option Accidental} {sign : List Char}
    (signed : AccidentalText accidental sign) : ∀ x ∈ sign, x.isDigit = false := by
  cases signed <;> simp

/-- What stands in front of the digits of a note is a letter and perhaps the sign of an
accidental. -/
theorem noteText_append_digits (noDigit : ∀ x ∈ front, x.isDigit = false) (present : digits ≠ [])
    (areDigits : digits.all Char.isDigit = true) : NoteText note (front ++ digits) ↔
      Decimal.digitsValue digits ≤ greatestOctave ∧ ∃ x sign letter accidental,
        front = x :: sign ∧ letter.IsNamedBy x ∧ AccidentalText accidental sign ∧
        note = .pitch letter accidental (some (Decimal.digitsValue digits)) := by
  have plain {text : List Char} (noDigit : ∀ x ∈ text, x.isDigit = false) :
      ∀ x ∈ text.getLast?, x.isDigit = false := fun x last => noDigit x (List.mem_of_getLast? last)
  constructor
  · generalize whole : front ++ digits = text
    intro is
    cases is with
    | rest =>
      have mark : ∀ x ∈ ['-'], x.isDigit = false := List.forall_mem_singleton.mpr rfl
      have bare : front ++ digits = ['-'] ++ [] := whole
      exact absurd (append_digits_unique areDigits (plain noDigit) rfl (plain mark) bare).2 present
    | pitch x letter named accidental sign signed octave digits' numbered =>
      have noDigit' : ∀ y ∈ x :: sign, y.isDigit = false :=
        List.forall_mem_cons.mpr ⟨named.not_isDigit, signed.not_isDigit⟩
      have areDigits' : digits'.all Char.isDigit = true := by
        cases numbered with
        | usual => rfl
        | written _ _ are => exact are
      obtain ⟨rfl, rfl⟩ := append_digits_unique areDigits (plain noDigit) areDigits'
        (plain noDigit') whole
      cases numbered with
      | usual => exact absurd rfl present
      | written _ _ _ fits => exact ⟨fits, x, sign, letter, accidental, rfl, named, signed, rfl⟩
  · rintro ⟨fits, x, sign, letter, accidental, rfl, named, signed, rfl⟩
    exact .pitch x letter named accidental sign signed _ digits
      (.written digits present areDigits fits)

/-- Zeros in front of the digits of a note make no difference. -/
theorem noteText_zeros {zeros : List Char} (noDigit : ∀ x ∈ front, x.isDigit = false)
    (areZeros : ∀ x ∈ zeros, x = '0') (present : digits ≠ [])
    (areDigits : digits.all Char.isDigit = true) :
    NoteText note (front ++ (zeros ++ digits)) ↔ NoteText note (front ++ digits) := by
  have zerosAreDigits : (zeros ++ digits).all Char.isDigit = true := by
    rw [List.all_append, areDigits, Bool.and_true, List.all_eq_true]
    intro x member
    rw [areZeros x member]
    rfl
  rw [noteText_append_digits noDigit (List.append_ne_nil_of_right_ne_nil zeros present)
    zerosAreDigits, noteText_append_digits noDigit present areDigits,
    digitsValue_zeros_append areZeros]

/-- A letter b behind a letter is a flat. -/
theorem NoteText.isFlat {x y : Char} {rest : List Char} (is : NoteText note (x :: y :: rest))
    (flat : y = 'b' ∨ y = 'B') :
    ∃ letter octave, note = .pitch letter (some .flat) octave := by
  revert is
  generalize whole : x :: y :: rest = text
  intro is
  cases is with
  | rest => cases whole
  | pitch x' letter named accidental sign signed octave digits numbered =>
    obtain ⟨-, behind⟩ := List.cons.inj whole
    cases signed with
    | natural =>
      cases numbered with
      | usual => cases behind
      | written _ _ areDigits =>
        have first : y :: rest = digits := behind
        have isDigit : y.isDigit = true :=
          List.all_eq_true.mp areDigits y (first ▸ List.mem_cons_self)
        rcases flat with rfl | rfl <;> cases isDigit
    | sharp =>
      obtain ⟨rfl, -⟩ := List.cons.inj behind
      rcases flat with impossible | impossible <;> cases impossible
    | flat => exact ⟨letter, octave, rfl⟩
    | capitalFlat => exact ⟨letter, octave, rfl⟩

/-- The octave of a note, with its number and the bound on it in plain terms. -/
theorem octaveText_iff {octave : Option Nat} : OctaveText octave digits ↔
    digits = [] ∧ octave = none ∨ digits ≠ [] ∧ digits.all Char.isDigit = true ∧
      ∃ n ≤ 2147483647, n = Nat.ofDigits 10 (digits.reverse.map fun d => d.toNat - '0'.toNat) ∧
        octave = some n := by
  simp only [← digitsValue_eq_ofDigits]
  constructor
  · intro is
    cases is with
    | usual => exact .inl ⟨rfl, rfl⟩
    | written _ present areDigits fits => exact .inr ⟨present, areDigits, _, fits, rfl, rfl⟩
  · rintro (⟨rfl, rfl⟩ | ⟨present, areDigits, _, fits, rfl, rfl⟩)
    · exact .usual
    · exact .written digits present areDigits fits

theorem Note.read_eq_error {text : List Char} {fault : ChordFault} :
    Note.read text = .error fault ↔ fault = .unknownNote text ∧ ∀ note, ¬ NoteText note text := by
  simp only [← Note.read?_eq_some]
  unfold Note.read
  cases Note.read? text <;> simp [eq_comm]

end Written

section Order

variable {limit : ℝ} {m n : Int} {found found' : Ranged limit}

/-- Frequencies of semitones are equal, and ordered, as the semitones are. -/
theorem ordered_as_semitones (value : found.value = semitoneHertz m)
    (value' : found'.value = semitoneHertz n) :
    (found = found' ↔ m = n) ∧ (found < found' ↔ m < n) := by
  rw [Ranged.ext_iff, Ranged.lt_iff, value, value']
  exact ⟨strictMono_semitoneHertz.injective.eq_iff, strictMono_semitoneHertz.lt_iff_lt⟩

end Order

/-- A text is read as a note exactly if it is a rest or a letter with an accidental and an octave,
of which a letter b is a flat and leading zeros do not count. A pitch is accepted up to the limit of
the numbers, with the frequency of its semitone; so pitches sound the same exactly if they have the
same semitone, and the one with the higher semitone sounds higher. -/
theorem Note.read_and_sound :
    (∀ text note, Note.read text = .ok note ↔ NoteText note text) ∧
    (∀ text fault, Note.read text = .error fault ↔
      fault = .unknownNote text ∧ ∀ note, ¬ NoteText note text) ∧
    (∀ octave digits, OctaveText octave digits ↔
      digits = [] ∧ octave = none ∨ digits ≠ [] ∧ digits.all Char.isDigit = true ∧
        ∃ n ≤ 2147483647, n = Nat.ofDigits 10 (digits.reverse.map fun d => d.toNat - '0'.toNat) ∧
          octave = some n) ∧
    (∀ x y rest note, y = 'b' ∨ y = 'B' → Note.read (x :: y :: rest) = .ok note →
      ∃ letter octave, note = .pitch letter (some .flat) octave) ∧
    (∀ front zeros digits note, (∀ x ∈ front, x.isDigit = false) → (∀ x ∈ zeros, x = '0') →
      digits ≠ [] → digits.all Char.isDigit = true →
      (Note.read (front ++ (zeros ++ digits)) = .ok note ↔
        Note.read (front ++ digits) = .ok note)) ∧
    (∀ limit letter accidental octave (found : Ranged limit),
      Note.frequency (.pitch letter accidental octave) = .ok (some found) ↔
        semitoneHertz (semitone letter accidental octave) ≤ limit ∧
          found.value = semitoneHertz (semitone letter accidental octave)) ∧
    ∀ limit letter accidental octave letter' accidental' octave' (found found' : Ranged limit),
      Note.frequency (.pitch letter accidental octave) = .ok (some found) →
      Note.frequency (.pitch letter' accidental' octave') = .ok (some found') →
      (found = found' ↔
        semitone letter accidental octave = semitone letter' accidental' octave') ∧
      (found < found' ↔
        semitone letter accidental octave < semitone letter' accidental' octave') := by
  refine ⟨fun _ _ => Note.read_eq_ok, fun _ _ => Note.read_eq_error, fun _ _ => octaveText_iff,
    ?_, ?_, fun _ _ _ _ _ => Note.frequency_eq_ok, ?_⟩
  · intro x y rest note flat reads
    exact (Note.read_eq_ok.mp reads).isFlat flat
  · intro front zeros digits note noDigit areZeros present areDigits
    rw [Note.read_eq_ok, Note.read_eq_ok]
    exact noteText_zeros noDigit areZeros present areDigits
  · intro limit letter accidental octave letter' accidental' octave' found found' accepted accepted'
    exact ordered_as_semitones (Note.frequency_eq_ok.mp accepted).2
      (Note.frequency_eq_ok.mp accepted').2

/-- A C flat, with a flat in upper case and a zero in front of its octave, is the B below it. -/
theorem Note.read_and_sound_cFlat :
    (∀ x ∈ ['c', 'B'], x.isDigit = false) ∧ (∀ x ∈ ['0'], x = '0') ∧ ['5'] ≠ [] ∧
    ['5'].all Char.isDigit = true ∧
    Note.read ['c', 'B', '0', '5'] = .ok (.pitch .c (some .flat) (some 5)) ∧
    Note.read ['c', 'B', '5'] = .ok (.pitch .c (some .flat) (some 5)) ∧
    (∃ letter octave, Note.pitch .c (some .flat) (some 5) = .pitch letter (some .flat) octave) ∧
    ∃ found found' : Ranged 1000,
      Note.frequency (.pitch .c (some .flat) (some 5)) = .ok (some found) ∧
      Note.frequency (.pitch .b none none) = .ok (some found') ∧ found = found' := by
  obtain ⟨-, -, -, flats, zeros, sounds, order⟩ := Note.read_and_sound
  have noDigit : ∀ x ∈ ['c', 'B'], x.isDigit = false :=
    List.forall_mem_cons.mpr ⟨rfl, List.forall_mem_singleton.mpr rfl⟩
  have areZeros : ∀ x ∈ ['0'], x = '0' := List.forall_mem_singleton.mpr rfl
  have reads : Note.read ['c', 'B', '0', '5'] = .ok (.pitch .c (some .flat) (some 5)) := rfl
  have within : semitoneHertz (12 * 4 + PitchClass.b.index) ≤ 1000 := by
    rw [semitoneHertz_add, PitchClass.frequency_real]
    norm_num [PitchClass.centihertz]
  have accepted : Note.frequency (.pitch .c (some .flat) (some 5)) =
      .ok (some (⟨_⟩ : Ranged 1000)) := (sounds _ _ _ _ _).mpr ⟨within, rfl⟩
  have accepted' : Note.frequency (.pitch .b none none) = .ok (some (⟨_⟩ : Ranged 1000)) :=
    (sounds _ _ _ _ _).mpr ⟨within, rfl⟩
  exact ⟨noDigit, areZeros, by decide, rfl, reads,
    (zeros ['c', 'B'] ['0'] ['5'] _ noDigit areZeros (by decide) rfl).mp reads,
    flats 'c' 'B' ['0', '5'] _ (.inr rfl) reads, _, _, accepted, accepted',
    (order _ _ _ _ _ _ _ _ _ accepted accepted').1.mpr rfl⟩

end Portamento
