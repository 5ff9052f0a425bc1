import Mathlib
import Portamento.Live.Loop
import Portamento.Proofs.Decimal.Positive
import Portamento.Proofs.Timeline.Layout

/-!
# Lengths in doubles

A chord lasts a beat, or a beat times or by a number up to nine, and a pass lasts as long as its
chords together. In doubles such a length is never zero and always a number. But it is infinite if
it leaves the range, as it does at tempos that are positive and finite, though very slow. If the
length of a pass is finite, all passes of a live loop begin at times that are numbers; if it is
infinite, not even the first does, since zero times infinity is no number.
-/

namespace Portamento

open Decimal

section Beats

variable {tempo : Float} {t b : Magnitude} {change : Option LengthChange}

/-- The beat of any tempo is a positive length, and not a very small one. -/
theorem isRounding_beat (holds : Holds tempo t) :
    IsRounding (beatSeconds tempo) (60 / t.value) ∧ 2 ^ (-1019 : ℤ) ≤ 60 / t.value := by
  have positive := Magnitude.value_pos holds.positive
  have usual : (2 : ℝ) ^ (-1019 : ℤ) ≤ 60 / t.value := by
    have power : (2 : ℝ) ^ (-1019 : ℤ) * 2 ^ (1024 : ℤ) = 32 := by
      rw [← zpow_add₀ (by norm_num)]
      norm_num
    rw [le_div_iff₀ positive]
    calc (2 : ℝ) ^ (-1019 : ℤ) * t.value ≤ 2 ^ (-1019 : ℤ) * 2 ^ (1024 : ℤ) := by
          gcongr
          exact holds.double.value_lt.le
      _ ≤ 60 := by rw [power]; norm_num
  have least : (2 : ℝ) ^ (-1074 : ℤ) ≤ 60 / t.value :=
    (zpow_le_zpow_right₀ (by norm_num) (by norm_num)).trans usual
  have sixty : (Magnitude.ofCount 60 0).value = 60 := value_ofCount_zero
  rw [← sixty] at least
  have quotient := (holds_ofNat (by norm_num) (by norm_num)).div holds least
  rw [sixty] at quotient
  exact ⟨quotient, usual⟩

section Factors

variable {n : Nat} (beat : Holds (beatSeconds tempo) b) (usual : 2 ^ (-1019 : ℤ) ≤ b.value)
  (least : 1 ≤ n) (greatest : n ≤ 9)
include beat usual least greatest

theorem isRounding_divide :
    IsRounding (chordSeconds (some (.divide n)) tempo) (b.value / n) := by
  have exact := holds_ofNat least (by omega)
  have high : (n : ℝ) ≤ 9 := by exact_mod_cast greatest
  have low : (0 : ℝ) < n := by exact_mod_cast least
  rw [← value_ofCount_zero]
  refine beat.div exact ?_
  rw [value_ofCount_zero, le_div_iff₀ low]
  calc (2 : ℝ) ^ (-1074 : ℤ) * n ≤ 2 ^ (-1074 : ℤ) * 2 ^ 55 := by gcongr; linarith
    _ = 2 ^ (-1019 : ℤ) := by
      rw [← Magnitude.zpow_add_natCast]
      norm_num
    _ ≤ b.value := usual

theorem isRounding_multiply :
    IsRounding (chordSeconds (some (.multiply n)) tempo) (b.value * n) := by
  have exact := holds_ofNat least (by omega)
  have low : (1 : ℝ) ≤ n := by exact_mod_cast least
  rw [← value_ofCount_zero]
  refine beat.mul exact (beat.double.isRounded.full_of_le ?_) ?_
  · exact (zpow_le_zpow_right₀ (by norm_num) (by norm_num)).trans usual
  · rw [value_ofCount_zero]
    calc (2 : ℝ) ^ (-1074 : ℤ) ≤ 2 ^ (-1019 : ℤ) :=
          zpow_le_zpow_right₀ (by norm_num) (by norm_num)
      _ ≤ b.value := usual
      _ ≤ b.value * n := le_mul_of_one_le_right (Magnitude.value_pos beat.positive).le low

end Factors

/-- From a beat that is finite, a length is what some real is rounded to, which is at most nine
beats. -/
theorem exists_isRounding (beat : Holds (beatSeconds tempo) b) (usual : 2 ^ (-1019 : ℤ) ≤ b.value)
    (factors : ∀ c ∈ change, 1 ≤ c.factor ∧ c.factor ≤ 9) :
    ∃ v, IsRounding (chordSeconds change tempo) v ∧ v ≤ 9 * b.value := by
  have positive := Magnitude.value_pos beat.positive
  rcases change with _ | n | n
  · exact ⟨b.value, beat.isRounding, by linarith⟩
  · obtain ⟨least, greatest⟩ := factors _ rfl
    have low : (1 : ℝ) ≤ n := by exact_mod_cast least
    refine ⟨_, isRounding_divide beat usual least greatest, ?_⟩
    exact (div_le_self positive.le low).trans (by linarith)
  · obtain ⟨least, greatest⟩ := factors _ rfl
    have high : (n : ℝ) ≤ 9 := by exact_mod_cast greatest
    refine ⟨_, isRounding_multiply beat usual least greatest, ?_⟩
    rw [mul_comm 9]
    gcongr

/-- From an infinite beat every length is infinite. -/
theorem isInfinite_chordSeconds (infinite : IsInfinite (beatSeconds tempo))
    (factors : ∀ c ∈ change, 1 ≤ c.factor ∧ c.factor ≤ 9) :
    IsInfinite (chordSeconds change tempo) := by
  rcases change with _ | n | n
  · exact infinite
  · obtain ⟨least, greatest⟩ := factors _ rfl
    exact infinite.div (holds_ofNat least (greatest.trans_lt (by norm_num)))
  · obtain ⟨least, greatest⟩ := factors _ rfl
    exact infinite.mul (holds_ofNat least (greatest.trans_lt (by norm_num)))

/-- The beat is a double that is not very small, or infinite. -/
theorem beat_cases (holds : Holds tempo t) : IsInfinite (beatSeconds tempo) ∨
    ∃ b, Holds (beatSeconds tempo) b ∧ b.Nears (60 / t.value) ∧ 2 ^ (-1019 : ℤ) ≤ b.value := by
  obtain ⟨rounding, usual⟩ := isRounding_beat holds
  refine rounding.cases.imp_right fun ⟨b, beat, nears⟩ => ⟨b, beat, nears, ?_⟩
  have power : (Magnitude.ofCount 1 (-1019)).value = 2 ^ (-1019 : ℤ) := by
    rw [value_ofCount, Nat.cast_one, one_mul]
  rw [← power] at usual ⊢
  exact nears.above _ (Magnitude.isRounded_ofCount one_pos (by norm_num) (by norm_num)) usual

/-- Every length is positive. -/
theorem chordSeconds_pos (holds : Holds tempo t)
    (factors : ∀ c ∈ change, 1 ≤ c.factor ∧ c.factor ≤ 9) :
    Scalar.ofNat 0 < chordSeconds change tempo := by
  rcases beat_cases holds with infinite | ⟨b, beat, -, usual⟩
  · exact pos_iff.mpr (.inl (isInfinite_chordSeconds infinite factors))
  · obtain ⟨v, rounding, -⟩ := exists_isRounding beat usual factors
    exact rounding.pos

/-- At the slowest tempos every length is infinite. -/
theorem isInfinite_of_slow (holds : Holds tempo t) (slow : t.value ≤ 2 ^ (-1019 : ℤ))
    (factors : ∀ c ∈ change, 1 ≤ c.factor ∧ c.factor ≤ 9) :
    IsInfinite (chordSeconds change tempo) := by
  refine isInfinite_chordSeconds ((isRounding_beat holds).1.isInfinite_of_le ?_) factors
  rw [le_div_iff₀ (Magnitude.value_pos holds.positive)]
  calc (2 : ℝ) ^ (1024 : ℤ) * t.value ≤ 2 ^ (1024 : ℤ) * 2 ^ (-1019 : ℤ) := by gcongr
    _ = 2 ^ (5 : ℤ) := by
      rw [← zpow_add₀ (by norm_num)]
      norm_num
    _ ≤ 60 := by norm_num

/-- Unless the tempo is very slow, a length is a double, of at most nine beats. -/
theorem holds_chordSeconds (holds : Holds tempo t) {k : ℤ} (most : k ≤ 1014) (least : 0 ≤ k)
    (quick : 2 ^ (-k) ≤ t.value) (factors : ∀ c ∈ change, 1 ≤ c.factor ∧ c.factor ≤ 9) :
    ∃ x, Holds (chordSeconds change tempo) x ∧ x.value ≤ 540 * 2 ^ k := by
  have sixty : (Magnitude.ofCount 60 k).value = 60 * 2 ^ k := value_ofCount
  have ninefold : (Magnitude.ofCount 540 k).value = 540 * 2 ^ k := value_ofCount
  have rounded := Magnitude.isRounded_ofCount (n := 60) (e := k) (by norm_num) (by norm_num)
    (by omega)
  have rounded' := Magnitude.isRounded_ofCount (n := 540) (e := k) (by norm_num) (by norm_num)
    (by omega)
  have range : (Magnitude.ofCount 60 k).value < 2 ^ (1024 : ℤ) :=
    Magnitude.value_ofCount_lt (by norm_num : 60 < 2 ^ 10) (by push_cast; omega)
  have range' : (Magnitude.ofCount 540 k).value < 2 ^ (1024 : ℤ) :=
    Magnitude.value_ofCount_lt (by norm_num : 540 < 2 ^ 10) (by push_cast; omega)
  have short : 60 / t.value ≤ (Magnitude.ofCount 60 k).value := by
    rw [sixty, div_le_iff₀ (Magnitude.value_pos holds.positive)]
    have unit : (2 : ℝ) ^ k * 2 ^ (-k) = 1 := by
      rw [← zpow_add₀ (by norm_num), add_neg_cancel, zpow_zero]
    calc (60 : ℝ) = 60 * 2 ^ k * 2 ^ (-k) := by rw [mul_assoc, unit, mul_one]
      _ ≤ 60 * 2 ^ k * t.value := by gcongr
  rcases beat_cases holds with infinite | ⟨b, beat, nears, usual⟩
  · obtain ⟨b, beat, -⟩ := (isRounding_beat holds).1.holds_of_le rounded short range
    exact absurd infinite beat.not_isInfinite
  · have below := nears.below _ rounded short
    obtain ⟨v, rounding, most⟩ := exists_isRounding beat usual factors
    rw [← ninefold]
    refine rounding.holds_of_le rounded' ?_ range'
    rw [ninefold]
    linarith

end Beats

section Passes

variable {start : Float} {lengths : List Float}

/-- A sum of positive lengths is positive. -/
theorem foldl_pos (positive : Scalar.ofNat 0 < start)
    (lasting : ∀ length ∈ lengths, Scalar.ofNat 0 < length) :
    Scalar.ofNat 0 < lengths.foldl (· + ·) start := by
  induction lengths generalizing start with
  | nil => exact positive
  | cons length later ih =>
    obtain ⟨first, rest⟩ := List.forall_mem_cons.mp lasting
    exact ih (add_pos positive first) rest

/-- Lengths that are not too long, nor too many, have a sum that is a double. -/
theorem exists_holds_foldl {places : ℕ} (some : places ≤ 43) {i : ℕ} {y : Magnitude}
    (holds : Holds start y) (below : y.value ≤ i * (540 * 2 ^ (1014 - places : ℤ)))
    (bounded : ∀ length ∈ lengths,
      ∃ x, Holds length x ∧ x.value ≤ 540 * 2 ^ (1014 - places : ℤ))
    (few : i + lengths.length ≤ 2 ^ places) :
    ∃ z, Holds (lengths.foldl (· + ·) start) z := by
  induction lengths generalizing start i y with
  | nil => exact ⟨y, holds⟩
  | cons length later ih =>
    obtain ⟨⟨x, first, short⟩, rest⟩ := List.forall_mem_cons.mp bounded
    rw [List.length_cons] at few
    have value : (Magnitude.ofCount ((i + 1) * 540) (1014 - places)).value =
        (i + 1 : ℕ) * (540 * 2 ^ (1014 - places : ℤ)) := by
      rw [value_ofCount]
      push_cast
      ring
    have count : i + 1 ≤ 2 ^ places := by omega
    have many : 2 ^ places ≤ 2 ^ 43 := Nat.pow_le_pow_right (by norm_num) some
    have rounded := Magnitude.isRounded_ofCount (n := (i + 1) * 540) (e := 1014 - places)
      (by positivity) (by omega) (by omega)
    have sum : y.value + x.value ≤ (Magnitude.ofCount ((i + 1) * 540) (1014 - places)).value := by
      rw [value]
      push_cast
      linarith
    have range : (Magnitude.ofCount ((i + 1) * 540) (1014 - places)).value < 2 ^ (1024 : ℤ) :=
      Magnitude.value_ofCount_lt
        (by rw [pow_add]; omega : (i + 1) * 540 < 2 ^ (places + 10)) (by push_cast; omega)
    obtain ⟨z, next, below⟩ := (holds.add first).holds_of_le rounded sum range
    rw [value] at below
    exact ih next below rest (by omega)

end Passes

section Scores

variable {score : Score Float} {first : Chord Float} {later : List (Chord Float)}

theorem totalSeconds_cons (chords : score.chords = first :: later) : score.totalSeconds =
    (later.map Chord.seconds).foldl (· + ·) (Scalar.ofNat 0 + first.seconds) := by
  rw [Score.totalSeconds, chords]
  rfl

/-- The length of a score whose chords all have positive lengths is positive. -/
theorem totalSeconds_pos (present : score.chords ≠ [])
    (lasting : ∀ chord ∈ score.chords, Scalar.ofNat 0 < chord.seconds) :
    Scalar.ofNat 0 < score.totalSeconds := by
  obtain ⟨first, later, chords⟩ := List.exists_cons_of_ne_nil present
  rw [chords] at lasting
  obtain ⟨one, rest⟩ := List.forall_mem_cons.mp lasting
  rw [totalSeconds_cons chords]
  exact foldl_pos (pos_congr one (unpack_zero_add one).1) (List.forall_mem_map.mpr rest)

/-- The length of a score is a double if its chords are not too many for how long they are. -/
theorem exists_holds_totalSeconds (present : score.chords ≠ []) {places : ℕ} (some : places ≤ 43)
    (bounded : ∀ chord ∈ score.chords,
      ∃ x, Holds chord.seconds x ∧ x.value ≤ 540 * 2 ^ (1014 - places : ℤ))
    (few : score.chords.length ≤ 2 ^ places) : ∃ z, Holds score.totalSeconds z := by
  obtain ⟨first, later, chords⟩ := List.exists_cons_of_ne_nil present
  rw [chords] at bounded few
  obtain ⟨⟨x, holds, short⟩, rest⟩ := List.forall_mem_cons.mp bounded
  have one := holds.congr (unpack_zero_add (pos_iff.mpr (.inr ⟨x, holds⟩))).1
  rw [totalSeconds_cons chords]
  refine exists_holds_foldl some (i := 1) one (by rwa [Nat.cast_one, one_mul])
    (List.forall_mem_map.mpr rest) ?_
  rw [List.length_map, Nat.add_comm]
  exact few

end Scores

section Starts

variable {origin length : Float} {l : Magnitude}

/-- A positive number of lengths is positive, although perhaps infinite. -/
theorem mul_ofNat_pos (holds : Holds length l) {n : ℕ} (some : 0 < n) :
    Scalar.ofNat 0 < Scalar.ofNat n * length := by
  rcases (isRounding_ofNat some).cases with infinite | ⟨c, count, nears⟩
  · exact pos_iff.mpr (.inl (infinite.mul holds))
  · have unit : (Magnitude.ofCount 1 0).value = 1 := value_ofCount_zero.trans Nat.cast_one
    have one : 1 ≤ c.value := by
      rw [← unit]
      refine nears.above _ (Magnitude.isRounded_ofCount one_pos (by norm_num) (by norm_num)) ?_
      rw [unit]
      exact_mod_cast some
    have full : (2 : ℝ) ^ (-1021 : ℤ) ≤ c.value :=
      (zpow_le_one_of_nonpos₀ (by norm_num) (by norm_num)).trans one
    refine (count.mul holds (count.double.isRounded.full_of_le full) ?_).pos
    exact (holds.double.le_value holds.positive).trans
      (le_mul_of_one_le_left (Magnitude.value_pos holds.positive).le one)

/-- From a finite time, any number of finite lengths leads to a number. -/
theorem isNumber_start (finite : Scalar.isFinite origin = true) (holds : Holds length l) (n : ℕ) :
    Scalar.IsNumber (origin + Scalar.ofNat n * length) := by
  have forward : (Scalar.ofNat 0 : Float) ≤ Scalar.ofNat n * length := by
    rcases Nat.eq_zero_or_pos n with rfl | some
    · rw [le_iff_place, unpack_mul, zero_unpacks, holds.unpacks]
      exact ⟨_, _, rfl, congrArg place? (unpack_pack_of_isUnpacked (.zero .positive)), le_rfl⟩
    · exact Scalar.Compared.le_of_lt _ _ (mul_ofNat_pos holds some)
  have number := Scalar.Advancing.isNumber_of_isFinite origin finite
  have later := Scalar.Advancing.le_add origin origin _ finite number forward
  exact (Scalar.Advancing.isNumber_of_le _ _ later).2

/-- No infinite lengths at all do not lead to a number. -/
theorem not_isNumber_start (infinite : IsInfinite length) :
    ¬ Scalar.IsNumber (origin + Scalar.ofNat 0 * length) := by
  have product : (Scalar.ofNat 0 * length).toModel.unpack = .notANumber := by
    rw [unpack_mul, zero_unpacks, infinite]
    exact unpack_pack_of_isUnpacked .notANumber
  have sum : (origin + Scalar.ofNat 0 * length).toModel.unpack = .notANumber := by
    rw [unpack_add, product]
    cases origin.toModel.unpack <;> exact unpack_pack_of_isUnpacked .notANumber
  rw [Scalar.isNumber_iff_place, sum]
  rintro ⟨_, found⟩
  cases found

/-- A loop over a score that begins at zero has passes as long as the score. -/
theorem unpack_passLength {score : Score Float} (total : Scalar.ofNat 0 < score.totalSeconds)
    {loop : LiveLoop Float} {shape : EnvelopeShape Float}
    (pass : loop.plan.pass = Timeline.ofScore shape score (Scalar.ofNat 0)) :
    loop.passLength.toModel.unpack = score.totalSeconds.toModel.unpack := by
  have difference : loop.passLength = score.totalSeconds - Scalar.ofNat 0 := by
    rw [LiveLoop.passLength, pass, ← Timeline.finish_ofScore_zero shape]
    rfl
  rw [difference]
  exact (unpack_zero_add total).2

/-- The passes of a loop begin at numbers exactly if they are of finite length. -/
theorem isNumber_passStart {loop : LiveLoop Float} (finite : Scalar.isFinite loop.origin = true)
    (long : Scalar.ofNat 0 < loop.passLength) :
    (Scalar.isFinite loop.passLength = true → ∀ n, Scalar.IsNumber (loop.passStart n)) ∧
      (Scalar.isFinite loop.passLength = false → ¬ Scalar.IsNumber (loop.passStart 0)) := by
  rcases pos_iff.mp long with infinite | ⟨l, holds⟩
  · rw [infinite.isFinite_eq_false]
    exact ⟨nofun, fun _ => not_isNumber_start infinite⟩
  · rw [holds.isFinite]
    exact ⟨fun _ n => isNumber_start finite holds n, nofun⟩

end Starts

/-- A tempo that is accepted is a positive magnitude. -/
theorem exists_holds_tempo {tempo : Float} (finite : Scalar.isFinite tempo = true)
    (positive : ¬ tempo ≤ Scalar.ofNat 0) : ∃ t, Holds tempo t := by
  have number := Scalar.Advancing.isNumber_of_isFinite tempo finite
  have above := (Scalar.Compared.le_or_lt tempo (Scalar.ofNat 0) number
    (Scalar.Advancing.isNumber_of_isFinite _ rfl)).resolve_left positive
  refine (pos_iff.mp above).resolve_left fun infinite => ?_
  rw [infinite.isFinite_eq_false] at finite
  cases finite

/-- In doubles, the chords that are read and the pass that they make always have positive lengths.
These are finite unless the tempo is below a power of two, which for a pass depends on how many
chords there are, and infinite if the tempo is far below. The passes of a live loop begin at times
that are numbers if the length of a pass is finite, and otherwise not even the first does. -/
theorem Score.lengths_usable_unless_slow (text : List Char) (tempo : Float) (score : Score Float)
    (reads : Score.read text tempo = .ok score) :
    (∀ chord ∈ score.chords, Scalar.ofNat 0 < chord.seconds) ∧
    Scalar.ofNat 0 < score.totalSeconds ∧
    (2 ^ (-1014 : ℤ) ≤ valueOf tempo →
      ∀ chord ∈ score.chords, Scalar.isFinite chord.seconds = true) ∧
    (∀ places : ℕ, places ≤ 43 → score.chords.length ≤ 2 ^ places →
      2 ^ (places - 1014 : ℤ) ≤ valueOf tempo → Scalar.isFinite score.totalSeconds = true) ∧
    (valueOf tempo ≤ 2 ^ (-1019 : ℤ) →
      ∀ chord ∈ score.chords, Scalar.isFinite chord.seconds = false) ∧
    ∀ (loop : LiveLoop Float) (shape : EnvelopeShape Float),
      loop.plan.pass = Timeline.ofScore shape score (Scalar.ofNat 0) →
      Scalar.isFinite loop.origin = true →
      Scalar.ofNat 0 < loop.passLength ∧
      Scalar.isFinite loop.passLength = Scalar.isFinite score.totalSeconds ∧
      (Scalar.isFinite score.totalSeconds = true → ∀ n, Scalar.IsNumber (loop.passStart n)) ∧
      (Scalar.isFinite score.totalSeconds = false → ¬ Scalar.IsNumber (loop.passStart 0)) := by
  obtain ⟨finite, positive, -⟩ := Score.read_eq_ok.mp reads
  obtain ⟨t, holds⟩ := exists_holds_tempo finite positive
  have present := Score.chords_ne_nil reads
  have lengths (chord : Chord Float) (member : chord ∈ score.chords) :
      ∃ change : Option LengthChange, (∀ c ∈ change, 1 ≤ c.factor ∧ c.factor ≤ 9) ∧
        chord.seconds = chordSeconds change tempo := by
    obtain ⟨token, read⟩ := Score.exists_read_of_mem reads member
    exact Chord.exists_change_of_read read
  have bounded (places : ℕ) (some : places ≤ 43) (quick : 2 ^ (places - 1014 : ℤ) ≤ valueOf tempo)
      (chord : Chord Float) (member : chord ∈ score.chords) :
      ∃ x, Holds chord.seconds x ∧ x.value ≤ 540 * 2 ^ (1014 - places : ℤ) := by
    obtain ⟨change, factors, seconds⟩ := lengths chord member
    rw [holds.valueOf_eq, ← neg_sub] at quick
    rw [seconds]
    exact holds_chordSeconds holds (by omega) (by omega) quick factors
  have lasting (chord : Chord Float) (member : chord ∈ score.chords) :
      Scalar.ofNat 0 < chord.seconds := by
    obtain ⟨change, factors, seconds⟩ := lengths chord member
    rw [seconds]
    exact chordSeconds_pos holds factors
  have total := totalSeconds_pos present lasting
  refine ⟨lasting, total, ?_, ?_, ?_, ?_⟩
  · intro quick chord member
    obtain ⟨x, is, -⟩ := bounded 0 (by norm_num) quick chord member
    exact is.isFinite
  · intro places some few quick
    obtain ⟨z, is⟩ := exists_holds_totalSeconds present some (bounded places some quick) few
    exact is.isFinite
  · intro slow chord member
    obtain ⟨change, factors, seconds⟩ := lengths chord member
    rw [holds.valueOf_eq] at slow
    rw [seconds]
    exact (isInfinite_of_slow holds slow factors).isFinite_eq_false
  · intro loop shape pass origin
    have unpacks := unpack_passLength total pass
    have same : Scalar.isFinite loop.passLength = Scalar.isFinite score.totalSeconds :=
      congrArg Float.Model.UnpackedFloat.isFinite unpacks
    have long := pos_congr total unpacks
    refine ⟨long, same, ?_⟩
    rw [← same]
    exact isNumber_passStart origin long

/-- A live loop over a score, with its first pass at time zero. -/
def loopOver (score : Score Float) : LiveLoop Float :=
  ⟨⟨Timeline.ofScore (.ofRamps 0.005 0.005) score (Scalar.ofNat 0), Scalar.ofNat 0, true, 0.1⟩,
    Scalar.ofNat 0, 0, .entering, false⟩

/-- At a usual tempo two chords make a pass that can be begun any number of times. -/
theorem Score.lengths_usable_unless_slow_twoChords : ∃ score : Score Float,
    Score.read ['c', '*', '9', ',', 'd'] (120 : Float) = .ok score ∧
    (∀ chord ∈ score.chords, Scalar.isFinite chord.seconds = true) ∧
    Scalar.isFinite score.totalSeconds = true ∧
    ∀ n, Scalar.IsNumber ((loopOver score).passStart n) := by
  have reads : Score.read ['c', '*', '9', ',', 'd'] (120 : Float) = .ok ⟨120,
      [⟨['c', '*', '9'], 4.5, [[261.63]]⟩, ⟨['d'], 0.5, [[293.66]]⟩]⟩ :=
    eq_ok_of_toOption (by decide +kernel)
  have usual : valueOf 120 = 120 := by
    have count : (120 : Float) = Scalar.ofNat 120 := by decide +kernel
    rw [count, (holds_ofNat (n := 120) (by norm_num) (by norm_num)).valueOf_eq, value_ofCount_zero]
    norm_num
  have quick (e : ℤ) (low : e ≤ 0) : (2 : ℝ) ^ e ≤ valueOf 120 := by
    rw [usual]
    exact (zpow_le_one_of_nonpos₀ (by norm_num) low).trans (by norm_num)
  obtain ⟨-, -, chords, total, -, loops⟩ := Score.lengths_usable_unless_slow _ _ _ reads
  have finite := total 1 (by norm_num) (by decide) (quick _ (by norm_num))
  exact ⟨_, reads, chords (quick _ (by norm_num)), finite,
    (loops (loopOver _) _ rfl rfl).2.2.1 finite⟩

/-- At a tempo that is positive and finite, a chord of one beat is infinitely long, and the first
pass of a live loop over it begins at no time at all. -/
theorem Score.accepts_endless_beat : ∃ score : Score Float,
    Score.read ['c'] (1e-307 : Float) = .ok score ∧
    (∃ chord ∈ score.chords, Scalar.isFinite chord.seconds = false) ∧
    Scalar.isFinite score.totalSeconds = false ∧
    ¬ Scalar.IsNumber ((loopOver score).passStart 0) := by
  refine ⟨⟨1e-307, [⟨['c'], 60 / 1e-307, [[261.63]]⟩]⟩, eq_ok_of_toOption ?_,
    ⟨_, List.mem_cons_self, ?_⟩, ?_, ?_⟩
  · decide +kernel
  · decide +kernel
  · decide +kernel
  · unfold Scalar.IsNumber
    decide +kernel

end Portamento
