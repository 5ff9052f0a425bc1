import Portamento.Proofs.Scalar.Advancing
import Portamento.Proofs.Score.Reading
import Portamento.Timeline.Basic

/-!
# How chords lie on a timeline

Chords are laid end to end: each begins where the one before it ends, and its notes all last as long
as it does. So two notes of one pass that sound at one time belong to one chord, and two passes of
which one begins no earlier than the other ends have no sounding time in common.
-/

namespace Portamento

/-- A chord that has been read lasts some time. -/
theorem Chord.seconds_pos {token : List Char} {tempo : ℝ} {chord : Chord ℝ} (positive : 0 < tempo)
    (reads : Chord.read token tempo = .ok chord) : 0 < chord.seconds := by
  obtain ⟨change, factors, seconds⟩ := Chord.exists_change_of_read reads
  have beat : (0 : ℝ) < beatSeconds tempo := by
    simp only [beatSeconds, Scalar.ofNat_real]
    positivity
  rw [seconds]
  cases change with
  | none => exact beat
  | some change =>
    have factor : (0 : ℝ) < change.factor := Nat.cast_pos.mpr (factors change rfl).1
    cases change with
    | divide n => exact div_pos beat factor
    | multiply n => exact mul_pos beat factor

/-- A score that has been read has chords, and they all last some time. -/
theorem Score.seconds_pos {text : List Char} {tempo : ℝ} {score : Score ℝ}
    (reads : Score.read text tempo = .ok score) :
    score.chords ≠ [] ∧ ∀ chord ∈ score.chords, 0 < chord.seconds := by
  have positive : 0 < tempo := by simpa using (Score.read_eq_ok.mp reads).2.1
  refine ⟨Score.chords_ne_nil reads, fun chord member => ?_⟩
  obtain ⟨token, read⟩ := Score.exists_read_of_mem reads member
  exact Chord.seconds_pos positive read

theorem Score.seconds_nonneg {text : List Char} {tempo : ℝ} {score : Score ℝ}
    (reads : Score.read text tempo = .ok score) : ∀ chord ∈ score.chords, 0 ≤ chord.seconds :=
  fun chord member => ((Score.seconds_pos reads).2 chord member).le

namespace Timeline

section Laid

variable {α : Type} [Scalar α]

/-- The time at which a chord begins when the chords are laid from a time on. -/
def chordStart (start : α) : List (Chord α) → Nat → α
  | [], _ => start
  | _ :: _, 0 => start
  | chord :: later, k + 1 => chordStart (start + chord.seconds) later k

theorem chordStart_zero (start : α) (chords : List (Chord α)) :
    chordStart start chords 0 = start := by
  cases chords <;> rfl

/-- Each chord begins where the one before it ends. -/
theorem chordStart_succ {start : α} {chords : List (Chord α)} {k : Nat} {chord : Chord α}
    (found : chords[k]? = some chord) :
    chordStart start chords (k + 1) = chordStart start chords k + chord.seconds := by
  induction chords generalizing start k with
  | nil => simp at found
  | cons first later ih =>
    cases k with
    | zero =>
      cases found
      exact chordStart_zero _ later
    | succ k => exact ih found

theorem lay_finish (shape : EnvelopeShape α) (index : Nat) (start : α) (chords : List (Chord α)) :
    (lay shape index start chords).1 = chordStart start chords chords.length := by
  induction chords generalizing index start with
  | nil => rfl
  | cons chord later ih => exact ih (index + 1) (start + chord.seconds)

/-- The last chord ends after the lengths of all. -/
theorem chordStart_length (start : α) (chords : List (Chord α)) :
    chordStart start chords chords.length =
      (chords.map Chord.seconds).foldl (· + ·) start := by
  induction chords generalizing start with
  | nil => rfl
  | cons chord later ih => exact ih (start + chord.seconds)

/-- A pass that is laid from zero on ends at the length of the score. -/
theorem finish_ofScore_zero (shape : EnvelopeShape α) (score : Score α) :
    (ofScore shape score (Scalar.ofNat 0)).finish = score.totalSeconds :=
  (lay_finish shape 0 _ score.chords).trans (chordStart_length _ score.chords)

/-- Each chord has one slot, from where it begins to where the next one does. -/
theorem slots_lay (shape : EnvelopeShape α) (index : Nat) (start : α) (chords : List (Chord α)) :
    (lay shape index start chords).2.1 = chords.mapIdx fun k chord =>
      ⟨index + k, chordStart start chords k, chordStart start chords (k + 1), chord.isRest⟩ := by
  induction chords generalizing index start with
  | nil => rfl
  | cons first later ih =>
    have next : chordStart start (first :: later) (0 + 1) = start + first.seconds :=
      chordStart_zero _ later
    have slots : (lay shape index start (first :: later)).2.1 =
        ⟨index, start, start + first.seconds, first.isRest⟩ ::
          (lay shape (index + 1) (start + first.seconds) later).2.1 := rfl
    rw [slots, ih, List.mapIdx_cons, next, chordStart_zero]
    simp only [Nat.add_right_comm index 1, Nat.add_assoc, chordStart]
    rfl

/-- The events of chords that are laid are those of each chord, laid where it begins. -/
theorem mem_lay {shape : EnvelopeShape α} {index : Nat} {start : α} {chords : List (Chord α)}
    {event : Event α} :
    event ∈ (lay shape index start chords).2.2 ↔ ∃ (k : Nat) (chord : Chord α),
      chords[k]? = some chord ∧
        event ∈ chord.events shape (index + k) (chordStart start chords k) := by
  induction chords generalizing index start with
  | nil => simp [lay]
  | cons first later ih =>
    have split : (lay shape index start (first :: later)).2.2 = first.events shape index start ++
      (lay shape (index + 1) (start + first.seconds) later).2.2 := rfl
    rw [split, List.mem_append, ih]
    constructor
    · rintro (head | ⟨k, chord, found, tail⟩)
      · exact ⟨0, first, rfl, head⟩
      · refine ⟨k + 1, chord, found, ?_⟩
        rwa [← Nat.add_assoc, Nat.add_right_comm]
    · rintro ⟨_ | k, chord, found, member⟩
      · cases found
        exact .inl member
      · refine .inr ⟨k, chord, found, ?_⟩
        rwa [Nat.add_right_comm, Nat.add_assoc]

/-- Every note of a chord lasts as long as the chord, at an equal part of the full amplitude. -/
theorem mem_events {shape : EnvelopeShape α} {chord : Chord α} {index : Nat} {start : α}
    {event : Event α} (member : event ∈ chord.events shape index start) :
    event.chord = index ∧ event.start = start ∧ event.finish = start + chord.seconds ∧
      event.amplitude = Scalar.ofNat 1 / Scalar.ofNat chord.noteCount ∧
      event.envelope = shape.fit event.amplitude event.start event.finish := by
  obtain ⟨note, -, rfl⟩ := List.mem_map.mp member
  exact ⟨rfl, rfl, rfl, rfl, rfl⟩

/-- A chord has one event for each of its notes, and there is no other event of that chord. -/
theorem length_filter_lay (shape : EnvelopeShape α) (index : Nat) (start : α)
    (chords : List (Chord α)) {k : Nat} {chord : Chord α} (found : chords[k]? = some chord) :
    ((lay shape index start chords).2.2.filter fun event => event.chord == index + k).length =
      chord.noteCount := by
  induction chords generalizing index start k with
  | nil => simp at found
  | cons first later ih =>
    have split : (lay shape index start (first :: later)).2.2 = first.events shape index start ++
      (lay shape (index + 1) (start + first.seconds) later).2.2 := rfl
    rw [split, List.filter_append, List.length_append]
    cases k with
    | zero =>
      cases found
      have all : (chord.events shape index start).filter (fun event => event.chord == index + 0) =
          chord.events shape index start :=
        List.filter_eq_self.mpr fun event member => by simp [(mem_events member).1]
      have others : (lay shape (index + 1) (start + chord.seconds) later).2.2.filter
          (fun event => event.chord == index + 0) = [] := by
        refine List.filter_eq_nil_iff.mpr fun event member => ?_
        obtain ⟨j, other, -, inside⟩ := mem_lay.mp member
        simp only [(mem_events inside).1, beq_iff_eq]
        omega
      rw [all, others, List.length_nil, Nat.add_zero, Chord.events, List.length_map,
        List.length_range]
    | succ k =>
      have others : (first.events shape index start).filter
          (fun event => event.chord == index + (k + 1)) = [] := by
        refine List.filter_eq_nil_iff.mpr fun event member => ?_
        simp only [(mem_events member).1, beq_iff_eq]
        omega
      have rest := ih (index + 1) (start + first.seconds) (k := k) found
      rw [Nat.add_right_comm, Nat.add_assoc] at rest
      rw [others, rest, List.length_nil, Nat.zero_add]

theorem length_eventsOf (shape : EnvelopeShape α) (score : Score α) (offset : α) {k : Nat}
    {chord : Chord α} (found : score.chords[k]? = some chord) :
    ((ofScore shape score offset).eventsOf k).length = chord.noteCount := by
  have length := length_filter_lay shape 0 offset score.chords found
  rwa [Nat.zero_add] at length

end Laid

section Advancing

variable {α : Type} [Scalar α] [Scalar.Advancing α] {low start : α} {chords : List (Chord α)}

/-- From a finite time on, or a later one, no chord begins before one that is in front of it. -/
theorem chordStart_le (finite : Scalar.isFinite low = true) (above : low ≤ start)
    (lasting : ∀ chord ∈ chords, Scalar.ofNat 0 ≤ chord.seconds) {j k : Nat} (order : j ≤ k) :
    chordStart start chords j ≤ chordStart start chords k := by
  induction chords generalizing start j k with
  | nil => exact (Scalar.Advancing.isNumber_of_le low start above).2
  | cons first later ih =>
    have rest : ∀ chord ∈ later, Scalar.ofNat 0 ≤ chord.seconds :=
      fun chord member => lasting chord (List.mem_cons_of_mem _ member)
    have step : start ≤ start + first.seconds :=
      Scalar.Advancing.le_add low start _ finite above (lasting first List.mem_cons_self)
    have above' : low ≤ start + first.seconds := Scalar.Advancing.le_trans above step
    cases k with
    | zero =>
      rw [Nat.le_zero.mp order]
      exact (Scalar.Advancing.isNumber_of_le low start above).2
    | succ k =>
      cases j with
      | zero =>
        have later_le := ih above' rest (Nat.zero_le k)
        rw [chordStart_zero] at later_le
        exact Scalar.Advancing.le_trans step later_le
      | succ j => exact ih above' rest (Nat.le_of_succ_le_succ order)

/-- No chord begins before the first one. -/
theorem le_chordStart (finite : Scalar.isFinite low = true) (above : low ≤ start)
    (lasting : ∀ chord ∈ chords, Scalar.ofNat 0 ≤ chord.seconds) (k : Nat) :
    start ≤ chordStart start chords k := by
  have first := chordStart_le finite above lasting (Nat.zero_le k)
  rwa [chordStart_zero] at first

end Advancing

theorem chordStart_mono {start : ℝ} {chords : List (Chord ℝ)}
    (long : ∀ chord ∈ chords, 0 ≤ chord.seconds) {j k : Nat} (order : j ≤ k) :
    chordStart start chords j ≤ chordStart start chords k :=
  chordStart_le rfl (le_refl start) (by simpa using long) order

/-- A pass of chords that all last some time lasts some time, if it has any. -/
theorem duration_pos (shape : EnvelopeShape ℝ) {score : Score ℝ} (offset : ℝ)
    (present : score.chords ≠ []) (long : ∀ chord ∈ score.chords, 0 < chord.seconds) :
    0 < (ofScore shape score offset).duration := by
  have finish : (ofScore shape score offset).finish =
      chordStart offset score.chords score.chords.length := lay_finish shape 0 offset score.chords
  have several : 1 ≤ score.chords.length := List.length_pos_iff.mpr present
  have last : chordStart offset score.chords 1 ≤
      chordStart offset score.chords score.chords.length :=
    chordStart_mono (fun chord member => (long chord member).le) several
  have first : offset < chordStart offset score.chords 1 := by
    obtain ⟨chord, found⟩ : ∃ chord, score.chords[0]? = some chord :=
      ⟨_, List.getElem?_eq_getElem several⟩
    rw [chordStart_succ found, chordStart_zero]
    exact lt_add_of_pos_right offset (long chord (List.mem_of_getElem? found))
  rw [duration, finish]
  exact sub_pos.mpr (first.trans_le last)

/-- Chords that lie end to end, each with the notes that share its time and its amplitude. -/
structure EndToEnd (timeline : Timeline ℝ) : Prop where
  inside : ∀ event ∈ timeline.events,
    timeline.start ≤ event.start ∧ event.finish ≤ timeline.finish
  /-- A chord ends before the chords behind it begin. -/
  apart : ∀ event ∈ timeline.events, ∀ other ∈ timeline.events, event.chord < other.chord →
    event.finish ≤ other.start
  /-- The notes of a chord together have the full amplitude at most. -/
  shared : ∀ event ∈ timeline.events, 0 ≤ event.amplitude ∧
    (timeline.eventsOf event.chord).length * event.amplitude ≤ 1
  shaped : ∀ event ∈ timeline.events, event.envelope.start = event.start ∧
    event.envelope.finish = event.finish ∧ event.envelope.amplitude = event.amplitude

theorem endToEnd_ofScore (shape : EnvelopeShape ℝ) (score : Score ℝ) (offset : ℝ)
    (long : ∀ chord ∈ score.chords, 0 ≤ chord.seconds) :
    EndToEnd (ofScore shape score offset) where
  inside event member := by
    obtain ⟨k, chord, found, inside⟩ := mem_lay.mp member
    obtain ⟨-, start, finish, -⟩ := mem_events inside
    obtain ⟨short, -⟩ := List.getElem?_eq_some_iff.mp found
    have first : chordStart offset score.chords 0 ≤ event.start := by
      rw [start]
      exact chordStart_mono long (Nat.zero_le k)
    have last : event.finish ≤ (lay shape 0 offset score.chords).1 := by
      rw [finish, ← chordStart_succ found, lay_finish]
      exact chordStart_mono long short
    rw [chordStart_zero] at first
    exact ⟨first, last⟩
  apart event member other member' order := by
    obtain ⟨k, chord, found, inside⟩ := mem_lay.mp member
    obtain ⟨k', chord', -, inside'⟩ := mem_lay.mp member'
    obtain ⟨index, -, finish, -⟩ := mem_events inside
    obtain ⟨index', start', -⟩ := mem_events inside'
    rw [finish, start', ← chordStart_succ found]
    exact chordStart_mono long (by omega)
  shared event member := by
    obtain ⟨k, chord, found, inside⟩ := mem_lay.mp member
    obtain ⟨index, -, -, amplitude, -⟩ := mem_events inside
    have count : ((ofScore shape score offset).eventsOf event.chord).length = chord.noteCount := by
      rw [index, Nat.zero_add]
      exact length_eventsOf shape score offset found
    rw [count, amplitude]
    simp only [Scalar.ofNat_real, Nat.cast_one]
    refine ⟨by positivity, ?_⟩
    rw [mul_one_div]
    exact div_self_le_one _
  shaped event member := by
    obtain ⟨k, chord, -, inside⟩ := mem_lay.mp member
    obtain ⟨-, -, -, -, envelope⟩ := mem_events inside
    rw [envelope]
    exact ⟨rfl, rfl, rfl⟩

/-- However a text is laid out, its chords lie end to end. -/
theorem endToEnd_of_read {text : List Char} {tempo : ℝ} {score : Score ℝ}
    (reads : Score.read text tempo = .ok score) (shape : EnvelopeShape ℝ) (offset : ℝ) :
    EndToEnd (ofScore shape score offset) :=
  endToEnd_ofScore shape score offset (Score.seconds_nonneg reads)

/-- Moved in time, chords still lie end to end. -/
theorem EndToEnd.shifted {timeline : Timeline ℝ} (laid : EndToEnd timeline) (offset : ℝ) :
    EndToEnd (timeline.shifted offset) where
  inside event member := by
    obtain ⟨before, inside, rfl⟩ := List.mem_map.mp member
    obtain ⟨first, last⟩ := laid.inside before inside
    exact ⟨add_le_add_left first offset, add_le_add_left last offset⟩
  apart event member other member' order := by
    obtain ⟨before, inside, rfl⟩ := List.mem_map.mp member
    obtain ⟨before', inside', rfl⟩ := List.mem_map.mp member'
    exact add_le_add_left (laid.apart before inside before' inside' order) offset
  shared event member := by
    obtain ⟨before, inside, rfl⟩ := List.mem_map.mp member
    have count : ((timeline.shifted offset).eventsOf (before.shifted offset).chord).length =
        (timeline.eventsOf before.chord).length := by
      simp only [eventsOf, Timeline.shifted, List.filter_map, List.length_map]
      rfl
    rw [count]
    exact laid.shared before inside
  shaped event member := by
    obtain ⟨before, inside, rfl⟩ := List.mem_map.mp member
    obtain ⟨start, finish, amplitude⟩ := laid.shaped before inside
    exact ⟨congrArg (· + offset) start, congrArg (· + offset) finish, amplitude⟩

end Timeline

end Portamento
