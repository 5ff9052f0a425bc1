import Portamento.Proofs.Live.Ledger

/-!
# What a live loop returns with

A loop that returns by itself, or because it has been told to, returns the number of the passes that
it has laid. One that the device refuses something, or that it breaks off, returns at once with the
answer of the device: that was its last call, and none before it has failed.
-/

namespace Portamento.LiveLoop

variable {α : Type}

theorem outcome?_eq_some_iff {loop : LiveLoop α} {outcome : Except SoundFault Nat} :
    loop.outcome? = some outcome ↔ loop.phase = .ended outcome := by
  unfold outcome?
  cases loop.phase <;> simp

/-- What the calls that a loop has made on the device have to do with its result. -/
structure Reports (loop : LiveLoop α) (calls : List (SinkCall α)) : Prop where
  counted : ∀ passes, loop.phase = .ended (.ok passes) → passes = loop.passes
  granted : (∀ fault, loop.phase ≠ .ended (.error fault)) → ∀ call ∈ calls, call.isGranted = true
  refused : ∀ fault, loop.phase = .ended (.error fault) → ∃ front call, calls = front ++ [call] ∧
    call.fault? = some fault ∧ ∀ call ∈ front, call.isGranted = true

variable {loop next : LiveLoop α} {calls : List (SinkCall α)}

/-- A call that has failed was the last one, and its fault is the result. -/
theorem Reports.phase_eq (reports : loop.Reports calls) {call : SinkCall α} (member : call ∈ calls)
    {fault : SoundFault} (failed : call.fault? = some fault) :
    loop.phase = .ended (.error fault) := by
  have refused : ¬ call.isGranted = true := by simp [SinkCall.isGranted, failed]
  by_cases broken : ∃ reason, loop.phase = .ended (.error reason)
  · obtain ⟨reason, ended⟩ := broken
    obtain ⟨front, last, rfl, failed', granted⟩ := reports.refused reason ended
    rcases List.mem_append.mp member with before | here
    · exact absurd (granted call before) refused
    · obtain rfl := List.mem_singleton.mp here
      rw [failed] at failed'
      cases failed'
      exact ended
  · have running : ∀ reason, loop.phase ≠ .ended (.error reason) :=
      fun reason ended => broken ⟨reason, ended⟩
    exact absurd (reports.granted running call member) refused

/-- To be told to stop changes nothing of what has been asked for. -/
theorem Reports.cancel (reports : loop.Reports calls) : loop.cancel.Reports calls :=
  ⟨reports.counted, reports.granted, reports.refused⟩

variable [Tonal α]

/-- A loop that has done nothing has asked for nothing. -/
theorem Reports.ofPlan (plan : LivePlan α) : (LiveLoop.ofPlan plan).Reports [] where
  counted _ ended := nomatch ended
  granted _ _ member := nomatch member
  refused _ ended := nomatch ended

namespace Step

variable {instant : Nat} {device after : Device α}

/-- A loop returns with a fault only when the device refuses it a tone. -/
theorem refusal_of_ended (step : Step instant loop device next after) {fault : SoundFault}
    (ended : next.phase = .ended (.error fault)) :
    ∃ event later, loop.phase = .laying (event :: later) ∧ device.refusal? = some fault := by
  have broken : next.isMidPass = true := by simp only [isMidPass, ended]
  cases step with
  | fails event later refusal laying refuses =>
    cases ended
    exact ⟨event, later, laying, refuses⟩
  | opens =>
    rcases loop.begin_eq_or (device.now instant) with eq | eq <;> rw [eq] at ended <;> cases ended
  | looks target closing =>
    obtain ⟨phase, eq, -, between⟩ :=
      loop.check_eq_phase instant (device.now instant) target closing
    rw [eq, between] at broken
    cases broken
  | completes =>
    unfold passLaid at ended
    dsimp only at ended
    split at ended <;> cases ended
  | _ => cases ended

/-- A loop returns with the number of its passes. -/
theorem passes_of_ended (step : Step instant loop device next after)
    (unbegun : loop.phase = .fresh → loop.passes = 0) {passes : Nat}
    (ended : next.phase = .ended (.ok passes)) : passes = next.passes := by
  cases step with
  | opens fresh =>
    rcases loop.begin_eq_or (device.now instant) with eq | eq <;> rw [eq] at ended ⊢ <;>
      cases ended
    exact (unbegun fresh).symm
  | looks target closing =>
    unfold check at ended ⊢
    dsimp only at ended ⊢
    split at ended
    · next reached =>
      rw [if_pos reached]
      rcases loop.arrive_eq_or closing with ⟨eq, -⟩ | ⟨eq, -⟩ <;> rw [eq] at ended ⊢ <;> cases ended
      rfl
    · cases ended
  | completes =>
    unfold passLaid at ended
    dsimp only at ended
    split at ended <;> cases ended
  | quits =>
    cases ended
    rfl
  | turnsBack =>
    cases ended
    rfl
  | _ => cases ended

/-- Every step keeps it so, with the calls that the loop makes. -/
theorem reports (step : Step instant loop device next after)
    (unbegun : loop.phase = .fresh → loop.passes = 0) (before : loop.Reports calls) :
    next.Reports (calls ++ loop.calls device) := by
  have granted := before.granted fun fault => step.phase_ne_ended (.error fault)
  refine ⟨fun passes ended => step.passes_of_ended unbegun ended, fun running call member => ?_,
    fun fault ended => ?_⟩
  · rcases List.mem_append.mp member with old | new
    · exact granted call old
    · cases failed : call.fault? with
      | none => simp only [SinkCall.isGranted, failed, Option.isNone_none]
      | some fault => exact absurd (step.calls_refused new failed) (running fault)
  · obtain ⟨event, later, laying, refuses⟩ := step.refusal_of_ended ended
    refine ⟨calls, .tone event.path event.start event.finish (.error fault), ?_, rfl, granted⟩
    simp only [LiveLoop.calls, laying, Device.calls_of_refusal refuses]

end Step

end Portamento.LiveLoop
