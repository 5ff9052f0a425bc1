import Portamento.Proofs.Score.Matrix
import Portamento.Proofs.Timeline.Layout

/-!
# What a pass holds at a time

The slots of a pass tile its time: every time from the beginning of the pass to its end lies in one
slot, and what sounds then are the notes of that chord, all of them and no others. A rest is a slot
without notes. A note that is moved in time has at each time the frequency and the gain that it had
so much earlier.
-/

namespace Portamento

section Moved

variable (offset t : ℝ)

theorem FrequencyPath.along_moved (a : ControlPoint ℝ) (later : List (ControlPoint ℝ)) :
    along (t + offset) { a with time := a.time + offset }
        (later.map fun point => { point with time := point.time + offset }) = along t a later := by
  induction later generalizing a with
  | nil => rfl
  | cons b later ih =>
    have moved : between { a with time := a.time + offset } { b with time := b.time + offset }
        (t + offset) = between a b t := by
      simp only [between, add_sub_add_right_eq_sub]
    simp only [List.map_cons, along, add_lt_add_iff_right, moved, ih]

theorem FrequencyPath.frequencyAt_shifted (path : FrequencyPath ℝ) :
    (path.shifted offset).frequencyAt (t + offset) = path.frequencyAt t := by
  obtain ⟨points⟩ := path
  cases points with
  | nil => rfl
  | cons first later =>
    simp only [frequencyAt, shifted, List.map_cons, add_le_add_iff_right, along_moved]

theorem Envelope.gainAt_shifted (e : Envelope ℝ) :
    (e.shifted offset).gainAt (t + offset) = e.gainAt t := by
  have rising : t + offset < (e.shifted offset).attackEnd ↔ t < e.attackEnd := by
    simp only [attackEnd, shifted]
    constructor <;> intro <;> linarith
  have falling : (e.shifted offset).releaseStart < t + offset ↔ e.releaseStart < t := by
    simp only [releaseStart, shifted]
    constructor <;> intro <;> linarith
  simp only [gainAt, rising, falling]
  simp only [shifted, add_lt_add_iff_right, add_le_add_iff_right, add_sub_add_right_eq_sub]

end Moved

theorem Scalar.sum_real (xs : List ℝ) : Scalar.sum xs = xs.sum := by
  rw [List.sum_eq_foldl]
  exact congrArg (List.foldl (· + ·) · xs) Nat.cast_zero

/-- Whether a time lies within the note; its end does not. -/
def Event.isSoundingAt {α : Type} [Scalar α] (event : Event α) (t : α) : Bool :=
  event.start ≤ t ∧ t < event.finish

theorem Event.isSoundingAt_iff {event : Event ℝ} {t : ℝ} :
    event.isSoundingAt t = true ↔ event.start ≤ t ∧ t < event.finish := decide_eq_true_iff

@[simp] theorem Event.isSoundingAt_shifted (event : Event ℝ) (offset t : ℝ) :
    (event.shifted offset).isSoundingAt t = event.isSoundingAt (t - offset) := by
  rw [Bool.eq_iff_iff, isSoundingAt_iff, isSoundingAt_iff, le_sub_iff_add_le, sub_lt_iff_lt_add]
  rfl

theorem Slot.contains_iff {α : Type} [Scalar α] {slot : Slot α} {t : α} :
    slot.contains t = true ↔ slot.start ≤ t ∧ t < slot.finish := decide_eq_true_iff

namespace Timeline

/-- The notes that sound at a time. -/
def soundingAt {α : Type} [Scalar α] (timeline : Timeline α) (t : α) : List (Event α) :=
  timeline.events.filter fun event => event.isSoundingAt t

/-- What sounds in a pass that has been moved sounded so much earlier before. -/
theorem soundingAt_shifted (timeline : Timeline ℝ) (offset t : ℝ) :
    (timeline.shifted offset).soundingAt t =
      (timeline.soundingAt (t - offset)).map fun event => event.shifted offset := by
  simp only [soundingAt, shifted, List.filter_map, Function.comp_def, Event.isSoundingAt_shifted]

/-- Outside of a pass nothing of it sounds. -/
theorem soundingAt_eq_nil {timeline : Timeline ℝ} (laid : EndToEnd timeline) {t : ℝ}
    (outside : t < timeline.start ∨ timeline.finish ≤ t) : timeline.soundingAt t = [] := by
  refine List.filter_eq_nil_iff.mpr fun event member sounding => ?_
  obtain ⟨reached, running⟩ := Event.isSoundingAt_iff.mp sounding
  obtain ⟨first, last⟩ := laid.inside event member
  rcases outside with early | late <;> linarith

/-- A time within chords that are laid end to end lies in the slot of one of them, and in no slot
before that. -/
theorem exists_slot_of_lay {α : Type} [Scalar α] [Scalar.Advancing α] {shape : EnvelopeShape α}
    {index : Nat} {low start t : α} {chords : List (Chord α)}
    (finite : Scalar.isFinite low = true) (above : low ≤ start)
    (lasting : ∀ chord ∈ chords, Scalar.ofNat 0 ≤ chord.seconds) (begun : start ≤ t)
    (running : t < (lay shape index start chords).1) :
    ∃ (k : Nat) (chord : Chord α), chords[k]? = some chord ∧
      chordStart start chords k ≤ t ∧ t < chordStart start chords (k + 1) ∧
      (lay shape index start chords).2.1.find? (fun slot => slot.contains t) =
        some ⟨index + k, chordStart start chords k, chordStart start chords (k + 1),
          chord.isRest⟩ := by
  induction chords generalizing index start with
  | nil => exact absurd running (Scalar.Compared.not_lt_of_le start t begun)
  | cons first later ih =>
    have slots : (lay shape index start (first :: later)).2.1 =
        ⟨index, start, start + first.seconds, first.isRest⟩ ::
          (lay shape (index + 1) (start + first.seconds) later).2.1 := rfl
    have next : chordStart start (first :: later) 1 = start + first.seconds :=
      chordStart_zero _ later
    have step : start ≤ start + first.seconds :=
      Scalar.Advancing.le_add low start _ finite above (lasting first List.mem_cons_self)
    rcases Scalar.Compared.le_or_lt (start + first.seconds) t
      (Scalar.Advancing.isNumber_of_le start _ step).2
      (Scalar.Advancing.isNumber_of_le start t begun).2 with passed | here
    · obtain ⟨k, chord, found, reached, within, slot⟩ :=
        ih (Scalar.Advancing.le_trans above step)
          (fun chord member => lasting chord (List.mem_cons_of_mem _ member)) passed running
      have outside : (⟨index, start, start + first.seconds, first.isRest⟩ : Slot α).contains t =
          false := Bool.eq_false_iff.mpr fun inside =>
        Scalar.Compared.not_lt_of_le _ _ passed (Slot.contains_iff.mp inside).2
      refine ⟨k + 1, chord, found, reached, within, ?_⟩
      rw [slots, List.find?_cons, outside, slot, Nat.add_right_comm]
      rfl
    · rw [← next] at here
      refine ⟨0, first, rfl, begun, here, ?_⟩
      rw [slots, List.find?_cons, ← next, Slot.contains_iff.mpr ⟨begun, here⟩]
      rfl

section Laid

variable {shape : EnvelopeShape ℝ} {index : Nat} {start t : ℝ} {chords : List (Chord ℝ)}

/-- What sounds while a chord lasts are its notes. -/
theorem isSoundingAt_of_mem_lay (long : ∀ chord ∈ chords, 0 ≤ chord.seconds) {k : Nat}
    (begun : chordStart start chords k ≤ t) (running : t < chordStart start chords (k + 1))
    {event : Event ℝ} (member : event ∈ (lay shape index start chords).2.2) :
    event.isSoundingAt t = (event.chord == index + k) := by
  obtain ⟨j, chord, found, inside⟩ := mem_lay.mp member
  obtain ⟨chord_eq, start_eq, finish_eq, -⟩ := mem_events inside
  rw [← chordStart_succ found] at finish_eq
  rw [Bool.eq_iff_iff, Event.isSoundingAt_iff, start_eq, finish_eq, chord_eq, beq_iff_eq,
    Nat.add_left_cancel_iff]
  constructor
  · rintro ⟨reached, within⟩
    have order {i i' : Nat} (le : i ≤ i') :
        chordStart start chords i ≤ chordStart start chords i' := chordStart_mono long le
    rcases Nat.lt_trichotomy j k with before | same | behind
    · linarith [order (Nat.succ_le_of_lt before)]
    · exact same
    · linarith [order (Nat.succ_le_of_lt behind)]
  · rintro rfl
    exact ⟨begun, running⟩

end Laid

/-- Every time within one pass of a score lies in the slot of one chord, whose notes are what sounds
then; there are none if the chord is a rest. -/
theorem exists_slotAt? {text : List Char} {tempo : ℝ} {score : Score ℝ}
    (reads : Score.read text tempo = .ok score) (shape : EnvelopeShape ℝ) {start t : ℝ}
    (begun : start ≤ t) (running : t < (ofScore shape score start).finish) :
    ∃ slot, (ofScore shape score start).slotAt? t = some slot ∧
      (ofScore shape score start).soundingAt t =
        (ofScore shape score start).eventsOf slot.index ∧
      (slot.isRest = true ↔ (ofScore shape score start).eventsOf slot.index = []) := by
  have long := Score.seconds_nonneg reads
  have before : t < (lay shape 0 start score.chords).1 := running
  obtain ⟨k, chord, found, reached, within, slot⟩ :=
    exists_slot_of_lay rfl (le_refl start) (by simpa using long) begun before
  obtain ⟨token, read⟩ := Score.exists_read_of_mem reads (List.mem_of_getElem? found)
  have rest := Chord.isRest_iff_of_read read
  refine ⟨_, slot, List.filter_congr fun event member =>
    isSoundingAt_of_mem_lay long reached within member, rest.trans ?_⟩
  rw [← List.length_eq_zero_iff]
  exact (length_filter_lay shape 0 start score.chords found).symm ▸ Iff.rfl

/-- A pass lasts as long as its chords together. -/
theorem duration_ofScore (shape : EnvelopeShape ℝ) (score : Score ℝ) (start : ℝ) :
    (ofScore shape score start).duration = score.totalSeconds := by
  have finish : (ofScore shape score start).finish =
      chordStart start score.chords score.chords.length := lay_finish shape 0 start score.chords
  have total (chords : List (Chord ℝ)) (first : ℝ) :
      chordStart first chords chords.length = first + (chords.map Chord.seconds).sum := by
    induction chords generalizing first with
    | nil => exact (add_zero first).symm
    | cons chord later ih =>
      rw [List.map_cons, List.sum_cons, ← add_assoc]
      exact ih (first + chord.seconds)
  rw [duration, finish, total, Score.totalSeconds, Scalar.sum_real]
  exact add_sub_cancel_left start _

end Timeline

/-- A score that has been read lasts no negative time. -/
theorem Score.totalSeconds_nonneg {text : List Char} {tempo : ℝ} {score : Score ℝ}
    (reads : Score.read text tempo = .ok score) : 0 ≤ score.totalSeconds := by
  obtain ⟨present, long⟩ := Score.seconds_pos reads
  rw [← Timeline.duration_ofScore .usual score 0]
  exact (Timeline.duration_pos .usual 0 present long).le

end Portamento
