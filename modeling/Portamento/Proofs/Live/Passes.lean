import Portamento.Proofs.Live.Ledger
import Portamento.Proofs.Timeline.Layout

/-!
# The passes of a loop in time

Each pass of a live loop begins where the one before it ends, and none begins before the origin. So
events of one loop that have a time in common are notes of one chord of one pass.
-/

namespace Portamento

/-- A plan that a loop can play: a pass of some length whose chords lie end to end from zero on. -/
structure LivePlan.Proper (plan : LivePlan ℝ) : Prop where
  laid : plan.pass.EndToEnd
  starts : plan.pass.start = 0
  long : 0 < plan.pass.duration
  leadIn : 0 ≤ plan.leadIn

/-- One pass of a score that has been read: chords end to end from zero on, of some length. -/
theorem LivePlan.laid_ofScore {text : List Char} {tempo : ℝ} {score : Score ℝ}
    (reads : Score.read text tempo = .ok score) {plan : LivePlan ℝ} (shape : EnvelopeShape ℝ)
    (pass : plan.pass = Timeline.ofScore shape score (Scalar.ofNat 0)) :
    plan.pass.EndToEnd ∧ plan.pass.start = 0 ∧ 0 < plan.pass.duration := by
  obtain ⟨some, long⟩ := Score.seconds_pos reads
  refine ⟨?_, ?_, ?_⟩
  · rw [pass]
    exact Timeline.endToEnd_of_read reads shape _
  · rw [pass]
    exact Nat.cast_zero
  · rw [pass]
    exact Timeline.duration_pos _ _ some long

/-- A score that has been read makes a plan that can be played. -/
theorem LivePlan.proper_ofScore {text : List Char} {tempo : ℝ} {score : Score ℝ}
    (reads : Score.read text tempo = .ok score) {plan : LivePlan ℝ} (shape : EnvelopeShape ℝ)
    (pass : plan.pass = Timeline.ofScore shape score (Scalar.ofNat 0)) (leadIn : 0 ≤ plan.leadIn) :
    plan.Proper := by
  obtain ⟨laid, starts, long⟩ := laid_ofScore reads shape pass
  exact ⟨laid, starts, long, leadIn⟩

namespace LiveLoop

variable {loop : LiveLoop ℝ}

/-- One pass in the time of the device. -/
noncomputable def passTimeline (loop : LiveLoop ℝ) (pass : Nat) : Timeline ℝ :=
  loop.plan.pass.shifted (loop.passStart pass)

theorem passStart_succ (loop : LiveLoop ℝ) (pass : Nat) :
    loop.passStart (pass + 1) = loop.passStart pass + loop.passLength := by
  simp only [passStart, Scalar.ofNat_real]
  push_cast
  ring

theorem passStart_mono (proper : loop.plan.Proper) {pass later : Nat} (order : pass ≤ later) :
    loop.passStart pass ≤ loop.passStart later := by
  have length : 0 ≤ loop.passLength := proper.long.le
  simp only [passStart, Scalar.ofNat_real]
  gcongr

theorem origin_le_passStart (proper : loop.plan.Proper) (pass : Nat) :
    loop.origin ≤ loop.passStart pass := by
  have first : loop.passStart 0 = loop.origin := by simp [passStart]
  rw [← first]
  exact passStart_mono proper (Nat.zero_le pass)

/-- The events of a pass lie between its beginning and that of the next pass. -/
theorem passEvents_inside (proper : loop.plan.Proper) {pass : Nat} {event : Event ℝ}
    (member : event ∈ loop.passEvents pass) :
    loop.passStart pass ≤ event.start ∧ event.finish ≤ loop.passStart (pass + 1) := by
  obtain ⟨first, last⟩ := (proper.laid.shifted (loop.passStart pass)).inside event member
  have length : loop.passLength = loop.plan.pass.finish := by
    rw [passLength, Timeline.duration, proper.starts, sub_zero]
  rw [passStart_succ, length, add_comm (loop.passStart pass)]
  simp only [Timeline.shifted, proper.starts, zero_add] at first last
  exact ⟨first, last⟩

/-- Events of one loop that have a time in common belong to one pass. -/
theorem pass_eq_of_overlap (proper : loop.plan.Proper) {pass other : Nat} {event event' : Event ℝ}
    (member : event ∈ loop.passEvents pass) (member' : event' ∈ loop.passEvents other)
    (begun : event.start < event'.finish) (running : event'.start < event.finish) :
    pass = other := by
  obtain ⟨first, last⟩ := passEvents_inside proper member
  obtain ⟨first', last'⟩ := passEvents_inside proper member'
  rcases Nat.lt_trichotomy pass other with before | same | behind
  · have order := passStart_mono proper (Nat.succ_le_of_lt before)
    linarith
  · exact same
  · have order := passStart_mono proper (Nat.succ_le_of_lt behind)
    linarith

/-- Events of one pass that have a time in common belong to one chord. -/
theorem chord_eq_of_overlap (proper : loop.plan.Proper) {pass : Nat} {event event' : Event ℝ}
    (member : event ∈ loop.passEvents pass) (member' : event' ∈ loop.passEvents pass)
    (begun : event.start < event'.finish) (running : event'.start < event.finish) :
    event.chord = event'.chord := by
  have apart := (proper.laid.shifted (loop.passStart pass)).apart
  rcases Nat.lt_trichotomy event.chord event'.chord with before | same | behind
  · linarith [apart event member event' member' before]
  · exact same
  · linarith [apart event' member' event member behind]

/-- Among the events of many passes there are those of a chord once for each pass. -/
theorem length_filter_passesUpTo (loop : LiveLoop ℝ) (passes pass chord : Nat) :
    ((loop.passesUpTo passes).filter fun laid => laid.1 == pass && laid.2.chord == chord).length =
      if pass < passes then ((loop.passTimeline pass).eventsOf chord).length else 0 := by
  induction passes with
  | zero => rfl
  | succ passes ih =>
    rw [passesUpTo_succ, List.filter_append, List.length_append, ih, List.filter_map,
      List.length_map]
    rcases Nat.lt_trichotomy pass passes with before | rfl | behind
    · have other : (passes == pass) = false := by
        rw [beq_eq_false_iff_ne]
        omega
      simp [Function.comp_def, other, before, Nat.lt_succ_of_lt before]
    · simp only [Function.comp_def, lt_irrefl, if_false, beq_self_eq_true, Bool.true_and, zero_add,
        Nat.lt_succ_self, if_true]
      rfl
    · have other : (passes == pass) = false := by
        rw [beq_eq_false_iff_ne]
        omega
      simp [Function.comp_def, other, Nat.not_lt.mpr behind.le, Nat.not_lt.mpr behind]

/-- A loop that has laid something has opened. -/
theorem Ledger.phase_ne_fresh {laid : List (Nat × Event ℝ)} (ledger : Ledger loop laid)
    (present : laid ≠ []) : loop.phase ≠ .fresh := by
  intro fresh
  rw [ledger.whole (by simp [isMidPass, fresh]), ledger.none_fresh fresh] at present
  exact present rfl

end LiveLoop

end Portamento
