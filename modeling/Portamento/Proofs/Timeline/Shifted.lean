import Portamento.Proofs.Timeline.Slots

/-!
# Moving a pass in time

A pass that is laid at one time and then moved is the pass that would have been laid at the later
time to begin with. Moving adds to the absolute times alone: the slots, the notes, the points of
their paths and the ends of their envelopes. The lengths in between are differences of such times,
so that laying finds the same ones at either place, and the ramps that were fitted to them.
-/

namespace Portamento

/-- A ramp is fitted to the length of a note, wherever the note is. -/
theorem EnvelopeShape.fit_shifted (shape : EnvelopeShape ℝ) (amplitude start finish shift : ℝ) :
    (shape.fit amplitude start finish).shifted shift =
      shape.fit amplitude (start + shift) (finish + shift) := by
  simp only [fit, Envelope.shifted, add_sub_add_right_eq_sub]

namespace FrequencyPath

theorem stepped_shifted (start step : ℝ) (index : Nat) (stages : List ℝ) (shift : ℝ) :
    (stepped start step index stages).map
        (fun point => { point with time := point.time + shift }) =
      stepped (start + shift) step index stages := by
  induction stages generalizing index with
  | nil => rfl
  | cons frequency later ih =>
    rw [stepped, stepped, List.map_cons, ih, add_right_comm]

theorem spread_shifted (stages : List ℝ) (start duration shift : ℝ) :
    (spread stages start duration).shifted shift = spread stages (start + shift) duration :=
  congrArg FrequencyPath.mk (stepped_shifted start _ 0 stages shift)

end FrequencyPath

/-- The notes of a chord are those of the chord at its later time. -/
theorem Chord.events_shifted (shape : EnvelopeShape ℝ) (chord : Chord ℝ) (index : Nat)
    (start shift : ℝ) :
    (chord.events shape index start).map (fun event => event.shifted shift) =
      chord.events shape index (start + shift) := by
  have finish : start + chord.seconds + shift = start + shift + chord.seconds :=
    add_right_comm start chord.seconds shift
  rw [events, events, List.map_map]
  refine List.map_congr_left fun note _ => ?_
  simp only [Function.comp_apply, Event.shifted, FrequencyPath.spread_shifted,
    EnvelopeShape.fit_shifted, finish]

@[simp] theorem Slot.contains_shifted (slot : Slot ℝ) (shift t : ℝ) :
    (slot.shifted shift).contains (t + shift) = slot.contains t := by
  simp only [contains, shifted, add_le_add_iff_right, add_lt_add_iff_right]

namespace Timeline

/-- Chords that are laid from a later time on have their end, slots and events so much later. -/
theorem lay_shifted (shape : EnvelopeShape ℝ) (index : Nat) (start : ℝ) (chords : List (Chord ℝ))
    (shift : ℝ) :
    lay shape index (start + shift) chords =
      ((lay shape index start chords).1 + shift,
        (lay shape index start chords).2.1.map fun slot => slot.shifted shift,
        (lay shape index start chords).2.2.map fun event => event.shifted shift) := by
  induction chords generalizing index start with
  | nil => rfl
  | cons chord later ih =>
    simp only [lay, add_right_comm start shift, ih, List.map_cons, List.map_append,
      Chord.events_shifted]
    rfl

/-- To lay a score and to move the pass is to lay the score later. -/
theorem ofScore_shifted (shape : EnvelopeShape ℝ) (score : Score ℝ) (offset shift : ℝ) :
    (ofScore shape score offset).shifted shift = ofScore shape score (offset + shift) := by
  simp only [ofScore, lay_shifted, shifted]

theorem slotAt?_shifted (timeline : Timeline ℝ) (shift t : ℝ) :
    (timeline.shifted shift).slotAt? (t + shift) =
      (timeline.slotAt? t).map fun slot => slot.shifted shift := by
  simp only [slotAt?, shifted, List.find?_map, Function.comp_def, Slot.contains_shifted]

/-- Moving in time goes with laying and with looking: a pass that has been laid and moved is the
pass laid later, in all its slots and notes with their paths and envelopes; and what a pass, a path
or an envelope has at a time it has so much later when it has been moved. -/
theorem moving_is_laying_later (shape : EnvelopeShape ℝ) (score : Score ℝ) (offset shift : ℝ) :
    (ofScore shape score offset).shifted shift = ofScore shape score (offset + shift) ∧
    (∀ (timeline : Timeline ℝ) (t : ℝ), (timeline.shifted shift).slotAt? (t + shift) =
      (timeline.slotAt? t).map fun slot => slot.shifted shift) ∧
    (∀ (path : FrequencyPath ℝ) (t : ℝ),
      (path.shifted shift).frequencyAt (t + shift) = path.frequencyAt t) ∧
    (∀ (envelope : Envelope ℝ) (t : ℝ),
      (envelope.shifted shift).gainAt (t + shift) = envelope.gainAt t) :=
  ⟨ofScore_shifted shape score offset shift, fun timeline => slotAt?_shifted timeline shift,
    fun path => path.frequencyAt_shifted shift, fun envelope => envelope.gainAt_shifted shift⟩

end Timeline

end Portamento
