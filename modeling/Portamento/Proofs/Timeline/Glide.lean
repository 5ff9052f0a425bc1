import Portamento.Proofs.Scalar.Checked
import Portamento.Proofs.Timeline.Notes

/-!
# Where a glide is at a time

The stages of a glide are reached one after the other, an equal time apart, and between two of them
the frequency goes along a line. So the search for the line that a time falls to finds the one
between the stages around it, and where two lines meet it makes no difference which of them is
found.

What is said here of the points of a path holds of any points that are reached one later than the
other; only in the end are they those of a glide.
-/

namespace Portamento

namespace FrequencyPath

/-! ## The line between two points -/

section Between

variable {a b : ControlPoint ℝ} {t : ℝ}

/-- Between two points of which the second is the later one the frequency is interpolated. -/
theorem between_eq_lineMap (forward : a.time < b.time) (t : ℝ) :
    between a b t =
      AffineMap.lineMap a.frequency b.frequency ((t - a.time) / (b.time - a.time)) := by
  have span : ¬ b.time - a.time ≤ Scalar.ofNat 0 := by
    rw [Scalar.ofNat_real, Nat.cast_zero, not_le]
    exact sub_pos.mpr forward
  rw [between, if_neg span, AffineMap.lineMap_apply, vsub_eq_sub, vadd_eq_add, smul_eq_mul,
    mul_div_assoc, mul_comm (b.frequency - a.frequency), add_comm]

theorem between_left (forward : a.time < b.time) : between a b a.time = a.frequency := by
  rw [between_eq_lineMap forward, sub_self, zero_div, AffineMap.lineMap_apply_zero]

theorem between_right (forward : a.time < b.time) : between a b b.time = b.frequency := by
  rw [between_eq_lineMap forward, div_self (sub_pos.mpr forward).ne', AffineMap.lineMap_apply_one]

theorem continuous_between (forward : a.time < b.time) : Continuous (between a b) := by
  have line : between a b = fun t =>
      AffineMap.lineMap a.frequency b.frequency ((t - a.time) / (b.time - a.time)) :=
    funext (between_eq_lineMap forward)
  rw [line]
  exact AffineMap.lineMap_continuous.comp ((continuous_id.sub continuous_const).div_const _)

/-- The line lies where its ends do. -/
theorem between_mem {s : Set ℝ} (convex : Convex ℝ s) (inside : a.frequency ∈ s)
    (inside' : b.frequency ∈ s) (begun : a.time ≤ t) (ahead : t < b.time) : between a b t ∈ s := by
  have forward : a.time < b.time := begun.trans_lt ahead
  rw [between_eq_lineMap forward]
  refine convex.lineMap_mem inside inside' ⟨?_, ?_⟩
  · exact div_nonneg (sub_nonneg.mpr begun) (sub_pos.mpr forward).le
  · exact (div_le_one (sub_pos.mpr forward)).mpr (sub_le_sub_right ahead.le _)

end Between

/-! ## The search along the points -/

section Along

variable {a : ControlPoint ℝ} {later : List (ControlPoint ℝ)} {t : ℝ}

theorem along_self (forward : (a :: later).Pairwise fun p q => p.time < q.time) :
    along a.time a later = a.frequency := by
  cases later with
  | nil => rfl
  | cons b later =>
    have order : a.time < b.time := List.rel_of_pairwise_cons forward List.mem_cons_self
    rw [along, if_pos order, between_left order]

theorem time_le_of_mem (forward : (a :: later).Pairwise fun p q => p.time < q.time)
    {p : ControlPoint ℝ} (member : p ∈ a :: later) : a.time ≤ p.time := by
  rcases List.mem_cons.mp member with rfl | further
  · exact le_refl _
  · exact (List.rel_of_pairwise_cons forward further).le

/-- The search passes over the points that have been left behind. -/
theorem along_eq_lineMap (forward : (a :: later).Pairwise fun p q => p.time < q.time) {k : Nat}
    {p q : ControlPoint ℝ} (at_k : (a :: later)[k]? = some p) (next : later[k]? = some q)
    (begun : p.time ≤ t) (ahead : t ≤ q.time) :
    along t a later =
      AffineMap.lineMap p.frequency q.frequency ((t - p.time) / (q.time - p.time)) := by
  induction later generalizing a k with
  | nil => cases next
  | cons b later ih =>
    obtain ⟨before, rest⟩ := List.pairwise_cons.mp forward
    have order : a.time < b.time := before b List.mem_cons_self
    cases k with
    | zero =>
      cases at_k
      cases next
      rw [along, ← between_eq_lineMap order]
      rcases ahead.lt_or_eq with ahead | rfl
      · rw [if_pos ahead]
      · rw [if_neg (lt_irrefl _), along_self rest, between_right order]
    | succ k =>
      have at_k : (b :: later)[k]? = some p := at_k
      have behind := time_le_of_mem rest (List.mem_of_getElem? at_k)
      rw [along, if_neg (behind.trans begun).not_gt]
      exact ih rest at_k next

/-- The search comes through every point. -/
theorem along_time (forward : (a :: later).Pairwise fun p q => p.time < q.time)
    {p : ControlPoint ℝ} (member : p ∈ a :: later) : along p.time a later = p.frequency := by
  induction later generalizing a with
  | nil =>
    obtain rfl := List.mem_singleton.mp member
    rfl
  | cons b later ih =>
    rcases List.mem_cons.mp member with rfl | further
    · exact along_self forward
    · have rest := (List.pairwise_cons.mp forward).2
      rw [along, if_neg (time_le_of_mem rest further).not_gt]
      exact ih rest further

/-- Behind the last point its frequency holds. -/
theorem along_eq_last (forward : (a :: later).Pairwise fun p q => p.time < q.time)
    {last : ControlPoint ℝ} (at_last : (a :: later).getLast? = some last) (past : last.time ≤ t) :
    along t a later = last.frequency := by
  induction later generalizing a with
  | nil =>
    cases at_last
    rfl
  | cons b later ih =>
    have rest := (List.pairwise_cons.mp forward).2
    rw [List.getLast?_cons_cons] at at_last
    have behind := time_le_of_mem rest (List.mem_of_getLast? at_last)
    rw [along, if_neg (behind.trans past).not_gt]
    exact ih rest at_last

/-- The lines meet at the points. -/
theorem continuous_along (forward : (a :: later).Pairwise fun p q => p.time < q.time) :
    Continuous fun t => along t a later := by
  induction later generalizing a with
  | nil => exact continuous_const
  | cons b later ih =>
    obtain ⟨before, rest⟩ := List.pairwise_cons.mp forward
    have order : a.time < b.time := before b List.mem_cons_self
    have search : (fun t => along t a (b :: later)) =
        fun t => if b.time ≤ t then along t b later else between a b t := by
      funext t
      simp only [along, ← not_le, ite_not]
    rw [search]
    refine Continuous.if_le (ih rest) (continuous_between order) continuous_const continuous_id
      fun t meet => ?_
    rw [← meet, along_self rest, between_right order]

/-- What is found lies where the frequencies of the points do. -/
theorem along_mem {s : Set ℝ} (convex : Convex ℝ s) (inside : ∀ p ∈ a :: later, p.frequency ∈ s)
    (begun : a.time ≤ t) : along t a later ∈ s := by
  induction later generalizing a with
  | nil => exact inside a List.mem_cons_self
  | cons b later ih =>
    obtain ⟨first, rest⟩ := List.forall_mem_cons.mp inside
    rw [along]
    split
    · next ahead => exact between_mem convex first (rest b List.mem_cons_self) begun ahead
    · next passed => exact ih rest (not_lt.mp passed)

end Along

/-! ## The frequency of a path -/

section Path

variable {path : FrequencyPath ℝ} {t : ℝ}

theorem frequencyAt_cons (first : ControlPoint ℝ) (later : List (ControlPoint ℝ)) (t : ℝ) :
    frequencyAt ⟨first :: later⟩ t =
      if t ≤ first.time then first.frequency else along t first later := rfl

/-- Up to the first point its frequency holds. -/
theorem frequencyAt_of_le {first : ControlPoint ℝ} (at_first : path.points.head? = some first)
    (early : t ≤ first.time) : path.frequencyAt t = first.frequency := by
  obtain ⟨_ | ⟨a, later⟩⟩ := path
  · cases at_first
  · cases at_first
    exact if_pos early

/-- The frequency of a path lies where those of its points do. -/
theorem frequencyAt_mem {s : Set ℝ} (convex : Convex ℝ s) (present : path.points ≠ [])
    (inside : ∀ p ∈ path.points, p.frequency ∈ s) (t : ℝ) : path.frequencyAt t ∈ s := by
  obtain ⟨_ | ⟨first, later⟩⟩ := path
  · exact absurd rfl present
  · rw [frequencyAt_cons]
    split
    · exact inside first List.mem_cons_self
    · next begun => exact along_mem convex inside (not_le.mp begun).le

/-- From the first point on the frequency is found along the points. -/
theorem frequencyAt_eq_along {first : ControlPoint ℝ} {later : List (ControlPoint ℝ)}
    (forward : (first :: later).Pairwise fun p q => p.time < q.time) (begun : first.time ≤ t) :
    frequencyAt ⟨first :: later⟩ t = along t first later := by
  rw [frequencyAt_cons]
  split
  · next early => rw [early.antisymm begun, along_self forward]
  · rfl

variable (forward : path.points.Pairwise fun p q => p.time < q.time)
include forward

theorem frequencyAt_time {p : ControlPoint ℝ} (member : p ∈ path.points) :
    path.frequencyAt p.time = p.frequency := by
  obtain ⟨_ | ⟨first, later⟩⟩ := path
  · exact absurd member List.not_mem_nil
  · rw [frequencyAt_eq_along forward (time_le_of_mem forward member), along_time forward member]

theorem frequencyAt_eq_lineMap {k : Nat} {p q : ControlPoint ℝ} (at_k : path.points[k]? = some p)
    (next : path.points[k + 1]? = some q) (begun : p.time ≤ t) (ahead : t ≤ q.time) :
    path.frequencyAt t =
      AffineMap.lineMap p.frequency q.frequency ((t - p.time) / (q.time - p.time)) := by
  obtain ⟨_ | ⟨first, later⟩⟩ := path
  · cases at_k
  · have behind := time_le_of_mem forward (List.mem_of_getElem? at_k)
    rw [frequencyAt_eq_along forward (behind.trans begun),
      along_eq_lineMap forward at_k next begun ahead]

theorem frequencyAt_eq_last {last : ControlPoint ℝ} (at_last : path.points.getLast? = some last)
    (past : last.time ≤ t) : path.frequencyAt t = last.frequency := by
  obtain ⟨_ | ⟨first, later⟩⟩ := path
  · cases at_last
  · have behind := time_le_of_mem forward (List.mem_of_getLast? at_last)
    rw [frequencyAt_eq_along forward (behind.trans past), along_eq_last forward at_last past]

theorem continuous_frequencyAt : Continuous path.frequencyAt := by
  obtain ⟨_ | ⟨first, later⟩⟩ := path
  · exact continuous_const
  · refine Continuous.if_le continuous_const (continuous_along forward) continuous_id
      continuous_const fun t meet => ?_
    rw [show t = first.time from meet, along_self forward]

end Path

/-! ## Divisions -/

section Divisions

open Checked

/-- The same path in other numbers. -/
def map {α β : Type} (f : α → β) (path : FrequencyPath α) : FrequencyPath β :=
  ⟨path.points.map fun point => ⟨f point.time, f point.frequency⟩⟩

/-- The stages are spread without a division by zero, however many there are. -/
theorem spread_value (stages : List ℝ) (start duration : ℝ) :
    spread (stages.map value) (value start) (value duration) =
      (spread stages start duration).map value := by
  have points (step : ℝ) (index : Nat) : stepped (value start) (value step) index
      (stages.map value) =
        (stepped start step index stages).map fun point =>
          ⟨value point.time, value point.frequency⟩ := by
    induction stages generalizing index with
    | nil => rfl
    | cons frequency later ih =>
      rw [List.map_cons, stepped, ih]
      rfl
  have count : ((max stages.length 1 : Nat) : ℝ) ≠ 0 :=
    Nat.cast_ne_zero.mpr (Nat.one_le_iff_ne_zero.mp (le_max_right _ _))
  have step : value duration / Scalar.ofNat (max (stages.map value).length 1) =
      value (duration / Scalar.ofNat (max stages.length 1)) := by
    rw [List.length_map]
    exact value_div count
  rw [spread, step, points]
  rfl

theorem between_value (a b : ControlPoint ℝ) (t : ℝ) :
    between ⟨value a.time, value a.frequency⟩ ⟨value b.time, value b.frequency⟩ (value t) =
      value (between a b t) := by
  simp only [between, value_sub, value_mul, value_le, Checked.ofNat_eq, Scalar.ofNat_real]
  split_ifs with jump
  · rfl
  · have span : b.time - a.time ≠ 0 := by
      rw [Nat.cast_zero, not_le] at jump
      exact jump.ne'
    rw [value_div span, value_add]

/-- A frequency is found without a division by zero, on every path and at every time. -/
theorem frequencyAt_value (path : FrequencyPath ℝ) (t : ℝ) :
    (path.map value).frequencyAt (value t) = value (path.frequencyAt t) := by
  have search (a : ControlPoint ℝ) (later : List (ControlPoint ℝ)) :
      along (value t) ⟨value a.time, value a.frequency⟩
          (later.map fun point => ⟨value point.time, value point.frequency⟩) =
        value (along t a later) := by
    induction later generalizing a with
    | nil => rfl
    | cons b later ih =>
      simp only [List.map_cons, along, value_lt, between_value, ih]
      split_ifs <;> rfl
  obtain ⟨_ | ⟨first, later⟩⟩ := path
  · exact Checked.ofNat_eq 0
  · simp only [map, List.map_cons, frequencyAt, value_le, search]
    split_ifs <;> rfl

end Divisions

/-! ## Glides -/

/-- The time at which a stage of a glide is reached. -/
noncomputable def stageTime (stages : List ℝ) (start duration : ℝ) (k : Nat) : ℝ :=
  start + k * duration / stages.length

/-- What it is for a path to glide through stages that are reached an equal part of a length of time
apart, from a start on. -/
structure Interpolates (path : FrequencyPath ℝ) (stages : List ℝ) (start duration : ℝ) :
    Prop where
  before : ∀ first, stages.head? = some first → ∀ t ≤ start, path.frequencyAt t = first
  reaches : ∀ (k : Nat) (frequency : ℝ), stages[k]? = some frequency →
    path.frequencyAt (stageTime stages start duration k) = frequency
  /-- From a stage to the next one the frequency goes along a line. -/
  line : ∀ (k : Nat) (a b : ℝ), stages[k]? = some a → stages[k + 1]? = some b →
    ∀ t ∈ Set.Icc (stageTime stages start duration k) (stageTime stages start duration (k + 1)),
      path.frequencyAt t = AffineMap.lineMap a b ((t - stageTime stages start duration k) /
        (stageTime stages start duration (k + 1) - stageTime stages start duration k))
  after : ∀ last, stages.getLast? = some last →
    ∀ t, stageTime stages start duration (stages.length - 1) ≤ t → path.frequencyAt t = last
  continuous : Continuous path.frequencyAt
  bounded : ∀ low high, stages.min? = some low → stages.max? = some high →
    ∀ t, low ≤ path.frequencyAt t ∧ path.frequencyAt t ≤ high
  /-- Neither spreading the stages nor finding the frequency at a time makes a quotient by zero. -/
  defined : spread (stages.map .value) (.value start) (.value duration) = path.map Checked.value ∧
    ∀ t, (path.map Checked.value).frequencyAt (.value t) = .value (path.frequencyAt t)

section Spread

variable {stages : List ℝ} {start duration : ℝ}

theorem stageTime_zero (stages : List ℝ) (start duration : ℝ) :
    stageTime stages start duration 0 = start := by
  rw [stageTime, Nat.cast_zero, zero_mul, zero_div, add_zero]

theorem stageTime_lt (present : stages ≠ []) (lasting : 0 < duration) {j k : Nat} (order : j < k) :
    stageTime stages start duration j < stageTime stages start duration k := by
  have count : (0 : ℝ) < stages.length := Nat.cast_pos.mpr (List.length_pos_iff.mpr present)
  unfold stageTime
  gcongr

theorem points_spread : (spread stages start duration).points =
    stages.mapIdx fun k frequency => ⟨stageTime stages start duration k, frequency⟩ := by
  refine List.ext_getElem? fun k => ?_
  rw [getElem?_spread, List.getElem?_mapIdx]
  rfl

theorem points_spread_ne_nil (present : stages ≠ []) :
    (spread stages start duration).points ≠ [] := by
  rwa [points_spread, Ne, List.mapIdx_eq_nil_iff]

theorem pairwise_spread (stages : List ℝ) (start : ℝ) (lasting : 0 < duration) :
    (spread stages start duration).points.Pairwise fun p q => p.time < q.time := by
  rw [points_spread, List.pairwise_iff_getElem]
  intro i j inside inside' order
  simp only [List.getElem_mapIdx]
  refine stageTime_lt ?_ lasting order
  rintro rfl
  exact absurd inside (Nat.not_lt_zero i)

/-- Its frequencies are the stages. -/
theorem frequency_mem_of_mem_spread {p : ControlPoint ℝ}
    (member : p ∈ (spread stages start duration).points) : p.frequency ∈ stages := by
  rw [points_spread] at member
  obtain ⟨k, inside, rfl⟩ := List.mem_mapIdx.mp member
  exact List.getElem_mem inside

theorem interpolates_spread (present : stages ≠ []) (lasting : 0 < duration) :
    (spread stages start duration).Interpolates stages start duration := by
  have forward := pairwise_spread stages start lasting
  have at_index {k : Nat} {frequency : ℝ} (found : stages[k]? = some frequency) :
      (spread stages start duration).points[k]? =
        some ⟨stageTime stages start duration k, frequency⟩ := by
    rw [points_spread, List.getElem?_mapIdx, found, Option.map_some]
  refine ⟨fun first at_first t early => ?before, fun k frequency found => ?reaches,
    fun k a b at_k next t within => ?line, fun last at_last t past => ?after,
    continuous_frequencyAt forward, fun low high least greatest t => ?bounded,
    spread_value stages start duration, frequencyAt_value _⟩
  case before =>
    rw [List.head?_eq_getElem?] at at_first
    have head := at_index at_first
    rw [← List.head?_eq_getElem?, stageTime_zero] at head
    exact frequencyAt_of_le head early
  case reaches => exact frequencyAt_time forward (List.mem_of_getElem? (at_index found))
  case line =>
    exact frequencyAt_eq_lineMap forward (at_index at_k) (at_index next) within.1 within.2
  case after =>
    rw [List.getLast?_eq_getElem?] at at_last
    have final := at_index at_last
    have length : (spread stages start duration).points.length = stages.length := by
      rw [points_spread, List.length_mapIdx]
    rw [← length, ← List.getLast?_eq_getElem?, length] at final
    exact frequencyAt_eq_last forward final past
  case bounded =>
    obtain ⟨-, least⟩ := List.min?_eq_some_iff.mp least
    obtain ⟨-, greatest⟩ := List.max?_eq_some_iff.mp greatest
    exact frequencyAt_mem (convex_Icc low high) (points_spread_ne_nil present) (fun p member =>
      have inside := frequency_mem_of_mem_spread member
      ⟨least _ inside, greatest _ inside⟩) t

end Spread

end FrequencyPath

/-! ## The notes of a chord -/

namespace Chord

/-- A note that a chord has goes through at least one stage. -/
theorem notePath_ne_nil {chord : Chord ℝ} {note : Nat} (inside : note < chord.noteCount) :
    chord.notePath note ≠ [] := by
  obtain ⟨source, seconds, _ | ⟨first, later⟩⟩ := chord
  · exact absurd inside (Nat.not_lt_zero note)
  · have here : first[note]? = some first[note] := List.getElem?_eq_getElem inside
    rw [notePath, List.filterMap_cons, here]
    exact List.cons_ne_nil _ _

variable {token : List Char} {tempo : ℝ} {chord : Chord ℝ}
  (reads : Chord.read token tempo = .ok chord)
include reads

/-- No frequency of a chord that has been read is zero or below. -/
theorem pos_of_mem_stages {stage : List ℝ} (member : stage ∈ chord.stages) {frequency : ℝ}
    (inside : frequency ∈ stage) : 0 < frequency := by
  obtain ⟨-, -, playable⟩ := stages_of_read reads
  simpa using (playable stage member frequency inside).2

/-- Nor does a note of it ever come to one on its way. -/
theorem frequencyAt_pos {shape : EnvelopeShape ℝ} {index : Nat} {start : ℝ} {event : Event ℝ}
    (member : event ∈ chord.events shape index start) (t : ℝ) : 0 < event.path.frequencyAt t := by
  obtain ⟨note, inside, rfl⟩ := List.mem_map.mp member
  have present := notePath_ne_nil (List.mem_range.mp inside)
  refine FrequencyPath.frequencyAt_mem (convex_Ioi 0)
    (FrequencyPath.points_spread_ne_nil present) (fun p member => ?_) t
  obtain ⟨stage, here, at_note⟩ :=
    List.mem_filterMap.mp (FrequencyPath.frequency_mem_of_mem_spread member)
  exact pos_of_mem_stages reads here (List.mem_of_getElem? at_note)

end Chord

/-- Through whatever stages it goes, a glide interpolates between them; so the notes of a chord that
has been read never lose their pitch. -/
theorem FrequencyPath.glides_interpolate (stages : List ℝ) (start duration : ℝ)
    (present : stages ≠ []) (lasting : 0 < duration) :
    (spread stages start duration).Interpolates stages start duration ∧
    ∀ (token : List Char) (tempo : ℝ) (chord : Chord ℝ), Chord.read token tempo = .ok chord →
      ∀ (shape : EnvelopeShape ℝ) (index : Nat) (begin : ℝ),
        ∀ event ∈ chord.events shape index begin, ∀ t, 0 < event.path.frequencyAt t :=
  ⟨interpolates_spread present lasting, fun _ _ _ reads _ _ _ _ member =>
    Chord.frequencyAt_pos reads member⟩

/-- Three stages that go up and down again, and the first note of a chord that has been read. -/
theorem FrequencyPath.glides_interpolate_peak : [440, 880, 330] ≠ ([] : List ℝ) ∧ (0 : ℝ) < 3 / 2 ∧
    (spread [440, 880, 330] 0 (3 / 2) : FrequencyPath ℝ).Interpolates [440, 880, 330] 0 (3 / 2) ∧
    ∃ token chord event, Chord.read token (60 : ℝ) = .ok chord ∧ event ∈ chord.events .usual 0 0 ∧
      0 < event.path.frequencyAt (1 / 2) := by
  have present : [440, 880, 330] ≠ ([] : List ℝ) := List.cons_ne_nil _ _
  have lasting : (0 : ℝ) < 3 / 2 := by norm_num
  obtain ⟨interpolates, positive⟩ := glides_interpolate [440, 880, 330] 0 (3 / 2) present lasting
  let chord : Chord ℝ :=
    ⟨Timeline.listedGlide, chordSeconds none 60, bareGlideStages.map (List.map Note.hertz)⟩
  obtain ⟨token, reads⟩ : ∃ token, Chord.read token 60 = .ok chord :=
    Score.exists_read_of_mem Timeline.read_glideScore List.mem_cons_self
  have sounds : Timeline.noteEvent .usual chord 0 0 0 ∈ chord.events .usual 0 0 :=
    List.mem_map.mpr ⟨0, List.mem_range.mpr Nat.two_pos, rfl⟩
  exact ⟨present, lasting, interpolates, token, chord, _, reads, sounds,
    positive token 60 chord reads .usual 0 0 _ sounds (1 / 2)⟩

end Portamento
