import Portamento.Proofs.Timeline.Slots

/-!
# How slots tile a pass

The slots of a pass follow each other without a gap and without an overlap, from the beginning of
the pass to its end: each ends at the very value at which the next one begins, so that a time of the
pass lies in exactly one of them. No sum need be exact for that. Lengths that are not negative must
not lead back, and the times must be in one order; so it holds of doubles as it does of reals.
-/

namespace Portamento.Timeline

variable {α : Type} [Scalar α]

/-- What it is for the slots of a timeline to tile a pass of some chords from an offset on. -/
structure IsTiled (timeline : Timeline α) (chords : List (Chord α)) (offset : α) : Prop where
  length_eq : timeline.slots.length = chords.length
  /-- The slot of a chord lasts as long as the chord, and is a rest if that has no stages. -/
  of_chord : ∀ (k : Nat) (slot : Slot α) (chord : Chord α), timeline.slots[k]? = some slot →
    chords[k]? = some chord → slot.index = k ∧ slot.finish = slot.start + chord.seconds ∧
      (slot.isRest = true ↔ chord.stages = [])
  start_eq : timeline.start = offset
  first : ∀ slot, timeline.slots.head? = some slot → slot.start = offset
  meets : ∀ (k : Nat) (slot next : Slot α), timeline.slots[k]? = some slot →
    timeline.slots[k + 1]? = some next → slot.finish = next.start
  last : ∀ slot, timeline.slots.getLast? = some slot → slot.finish = timeline.finish
  empty : timeline.slots = [] → timeline.finish = offset
  /-- The times that lie in a slot are those of the pass. -/
  covers : ∀ t, (∃ slot, timeline.slotAt? t = some slot) ↔
    timeline.start ≤ t ∧ t < timeline.finish
  /-- Of all slots only the one that is found contains the time. -/
  alone : ∀ t slot, timeline.slotAt? t = some slot → timeline.slots[slot.index]? = some slot ∧
    ∀ (k : Nat) (other : Slot α), timeline.slots[k]? = some other →
      (other.start ≤ t ∧ t < other.finish ↔ k = slot.index)

section Slots

variable (shape : EnvelopeShape α) (score : Score α) (offset : α)

theorem slots_ofScore : (ofScore shape score offset).slots =
    score.chords.mapIdx fun k chord =>
      ⟨k, chordStart offset score.chords k, chordStart offset score.chords (k + 1),
        chord.isRest⟩ := by
  have slots := slots_lay shape 0 offset score.chords
  simp only [Nat.zero_add] at slots
  exact slots

theorem finish_ofScore : (ofScore shape score offset).finish =
    chordStart offset score.chords score.chords.length := lay_finish shape 0 offset score.chords

/-- Each slot is that of a chord, from where the chord begins to where the next one does. -/
theorem getElem?_slots_ofScore {k : Nat} {slot : Slot α} :
    (ofScore shape score offset).slots[k]? = some slot ↔ ∃ chord, score.chords[k]? = some chord ∧
      slot = ⟨k, chordStart offset score.chords k, chordStart offset score.chords (k + 1),
        chord.isRest⟩ := by
  rw [slots_ofScore, List.getElem?_mapIdx, Option.map_eq_some_iff]
  exact exists_congr fun chord => and_congr_right fun _ => eq_comm

/-- The slot that is found at a time is that of a chord which has begun by then and not ended. -/
theorem exists_chord_of_slotAt? {t : α} {slot : Slot α}
    (found : (ofScore shape score offset).slotAt? t = some slot) :
    ∃ (k : Nat) (chord : Chord α), score.chords[k]? = some chord ∧
      chordStart offset score.chords k ≤ t ∧ t < chordStart offset score.chords (k + 1) ∧
      slot = ⟨k, chordStart offset score.chords k, chordStart offset score.chords (k + 1),
        chord.isRest⟩ := by
  rw [slotAt?] at found
  obtain ⟨k, at_k⟩ := List.mem_iff_getElem?.mp (List.mem_of_find?_eq_some found)
  have inside := List.find?_some found
  obtain ⟨begun, running⟩ := Slot.contains_iff.mp inside
  obtain ⟨chord, present, rfl⟩ := (getElem?_slots_ofScore shape score offset).mp at_k
  exact ⟨k, chord, present, begun, running, rfl⟩

end Slots

section Order

variable [Scalar.Advancing α] {offset t : α} {chords : List (Chord α)}

/-- No time lies in the slots of two chords. -/
theorem eq_of_chordStart (finite : Scalar.isFinite offset = true)
    (lasting : ∀ chord ∈ chords, Scalar.ofNat 0 ≤ chord.seconds) {j k : Nat}
    (begun : chordStart offset chords j ≤ t) (running : t < chordStart offset chords (j + 1))
    (begun' : chordStart offset chords k ≤ t) (running' : t < chordStart offset chords (k + 1)) :
    j = k := by
  have number := Scalar.Advancing.isNumber_of_isFinite offset finite
  have apart {i i' : Nat} (order : i + 1 ≤ i') (before : t < chordStart offset chords (i + 1))
      (behind : chordStart offset chords i' ≤ t) : False :=
    Scalar.Compared.not_lt_of_le _ _ behind
      (Scalar.Advancing.lt_of_lt_of_le before (chordStart_le finite number lasting order))
  rcases Nat.lt_trichotomy j k with before | same | behind
  · exact (apart before running begun').elim
  · exact same
  · exact (apart behind running' begun).elim

variable (shape : EnvelopeShape α) {score : Score α}

/-- The times at which there is a slot are those of the pass. -/
theorem exists_slotAt?_iff (finite : Scalar.isFinite offset = true)
    (lasting : ∀ chord ∈ score.chords, Scalar.ofNat 0 ≤ chord.seconds) :
    (∃ slot, (ofScore shape score offset).slotAt? t = some slot) ↔
      offset ≤ t ∧ t < (ofScore shape score offset).finish := by
  have number := Scalar.Advancing.isNumber_of_isFinite offset finite
  constructor
  · rintro ⟨slot, at_t⟩
    obtain ⟨k, chord, present, begun, running, -⟩ := exists_chord_of_slotAt? shape score offset at_t
    obtain ⟨some, -⟩ := List.getElem?_eq_some_iff.mp present
    rw [finish_ofScore]
    exact ⟨Scalar.Advancing.le_trans (le_chordStart finite number lasting k) begun,
      Scalar.Advancing.lt_of_lt_of_le running (chordStart_le finite number lasting some)⟩
  · rintro ⟨begun, running⟩
    obtain ⟨_, _, -, -, -, slot⟩ := exists_slot_of_lay finite number lasting begun running
    exact ⟨_, slot⟩

/-- The slot that is found at a time is the one that contains it. -/
theorem contains_iff_of_slotAt? (finite : Scalar.isFinite offset = true)
    (lasting : ∀ chord ∈ score.chords, Scalar.ofNat 0 ≤ chord.seconds) {slot : Slot α}
    (found : (ofScore shape score offset).slotAt? t = some slot) :
    (ofScore shape score offset).slots[slot.index]? = some slot ∧
      ∀ (k : Nat) (other : Slot α), (ofScore shape score offset).slots[k]? = some other →
        (other.start ≤ t ∧ t < other.finish ↔ k = slot.index) := by
  obtain ⟨j, chord, present, begun, running, rfl⟩ :=
    exists_chord_of_slotAt? shape score offset found
  refine ⟨(getElem?_slots_ofScore shape score offset).mpr ⟨chord, present, rfl⟩,
    fun k other at_k => ?_⟩
  obtain ⟨chord', -, rfl⟩ := (getElem?_slots_ofScore shape score offset).mp at_k
  constructor
  · rintro ⟨begun', running'⟩
    exact (eq_of_chordStart finite lasting begun running begun' running').symm
  · rintro rfl
    exact ⟨begun, running⟩

end Order

/-- The slots of chords that last no negative time tile their pass, from any finite offset on. -/
theorem slots_tile_the_pass [Scalar.Advancing α] (shape : EnvelopeShape α) (score : Score α)
    (offset : α) (finite : Scalar.isFinite offset = true)
    (lasting : ∀ chord ∈ score.chords, Scalar.ofNat 0 ≤ chord.seconds) :
    (ofScore shape score offset).IsTiled score.chords offset := by
  have at_index {k : Nat} {slot : Slot α} := @getElem?_slots_ofScore _ _ shape score offset k slot
  have length := congrArg List.length (slots_ofScore shape score offset)
  rw [List.length_mapIdx] at length
  have finish := finish_ofScore shape score offset
  refine ⟨length, ?of_chord, rfl, ?first, ?meets, ?last, ?empty,
    fun t => exists_slotAt?_iff shape finite lasting,
    fun t slot at_t => contains_iff_of_slotAt? shape finite lasting at_t⟩
  case of_chord =>
    intro k slot chord at_k chord_at_k
    obtain ⟨chord', chord_at_k', rfl⟩ := at_index.mp at_k
    obtain rfl := Option.some.inj (chord_at_k.symm.trans chord_at_k')
    exact ⟨rfl, chordStart_succ chord_at_k, List.isEmpty_iff⟩
  case first =>
    intro slot at_head
    rw [List.head?_eq_getElem?] at at_head
    obtain ⟨chord, -, rfl⟩ := at_index.mp at_head
    exact chordStart_zero offset score.chords
  case meets =>
    intro k slot next at_k at_next
    obtain ⟨chord, -, rfl⟩ := at_index.mp at_k
    obtain ⟨chord', -, rfl⟩ := at_index.mp at_next
    rfl
  case last =>
    intro slot at_last
    rw [List.getLast?_eq_getElem?, length] at at_last
    obtain ⟨chord, present, rfl⟩ := at_index.mp at_last
    obtain ⟨some, -⟩ := List.getElem?_eq_some_iff.mp present
    rw [finish]
    exact congrArg _ (Nat.sub_add_cancel (Nat.one_le_of_lt some))
  case empty =>
    intro none
    rw [none, List.length_nil] at length
    rw [finish, ← length, chordStart_zero]

/-- A note, nothing and a rest, of lengths that are no exact doubles. -/
def raggedScore : Score Float :=
  ⟨60, [⟨['a'], 0.1, [[440]]⟩, ⟨['a'], 0, [[440]]⟩, ⟨['-'], 0.2, []⟩]⟩

/-- Where its sums are rounded its slots tile the pass too. -/
theorem slots_tile_the_pass_ragged : Scalar.isFinite (0.1 : Float) = true ∧
    (∀ chord ∈ raggedScore.chords, Scalar.ofNat 0 ≤ chord.seconds) ∧
    (ofScore .usual raggedScore 0.1).IsTiled raggedScore.chords 0.1 := by
  have finite : Scalar.isFinite (0.1 : Float) = true := by decide +kernel
  have lasting : ∀ chord ∈ raggedScore.chords, Scalar.ofNat 0 ≤ chord.seconds := by decide +kernel
  exact ⟨finite, lasting, slots_tile_the_pass .usual raggedScore 0.1 finite lasting⟩

end Portamento.Timeline
