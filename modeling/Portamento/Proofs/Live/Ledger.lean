import Portamento.Proofs.Live.Step

/-!
# What a live loop has laid

The ledger of a live loop lists the events that the device has taken from it. Between passes it
holds the passes laid in full, each from its first event to its last; in the middle of a pass, and
after a request has been refused there, it also holds the front of that pass. Every step keeps it
so.
-/

namespace Portamento

variable {α : Type} [Tonal α]

namespace LiveLoop

/-- The events of so many passes, from the first on, each with its pass. -/
def passesUpTo (loop : LiveLoop α) (passes : Nat) : List (Nat × Event α) :=
  (List.range passes).flatMap fun pass => (loop.passEvents pass).map (pass, ·)

/-- What the list of events laid so far has to do with where the loop stands. -/
structure Ledger (loop : LiveLoop α) (laid : List (Nat × Event α)) : Prop where
  none_fresh : loop.phase = .fresh → loop.passes = 0
  laid_eq : ∃ part later, part ++ later = loop.passEvents loop.passes ∧
    laid = loop.passesUpTo loop.passes ++ part.map (loop.passes, ·) ∧
    (∀ rest, loop.phase = .laying rest → rest = later) ∧
    (part ≠ [] → loop.isMidPass = true)

theorem passesUpTo_succ (loop : LiveLoop α) (passes : Nat) :
    loop.passesUpTo (passes + 1) =
      loop.passesUpTo passes ++ (loop.passEvents passes).map (passes, ·) := by
  simp [passesUpTo, List.range_succ]

namespace Ledger

variable {loop next : LiveLoop α} {laid : List (Nat × Event α)}

/-- A loop that is not in the middle of a pass has laid whole passes. -/
theorem whole (ledger : Ledger loop laid) (between : loop.isMidPass = false) :
    laid = loop.passesUpTo loop.passes := by
  obtain ⟨part, later, -, laid_eq, -, begun⟩ := ledger.laid_eq
  cases part with
  | nil => simpa only [List.map_nil, List.append_nil] using laid_eq
  | cons event rest =>
    rw [begun (List.cons_ne_nil event rest)] at between
    cases between

/-- The ledger of a loop that has laid whole passes. -/
theorem of_whole (fresh : loop.phase = .fresh → loop.passes = 0)
    (rest : ∀ later, loop.phase = .laying later → later = loop.passEvents loop.passes)
    (laid_eq : laid = loop.passesUpTo loop.passes) : Ledger loop laid where
  none_fresh := fresh
  laid_eq := ⟨[], loop.passEvents loop.passes, rfl, by simpa using laid_eq, rest, by simp⟩

/-- Nothing is laid by a loop that has done nothing. -/
theorem ofPlan (plan : LivePlan α) : Ledger (LiveLoop.ofPlan plan) [] :=
  of_whole (fun _ => rfl) (fun _ laying => nomatch laying) rfl

/-- To be told to stop changes nothing of what has been laid. -/
theorem cancel (ledger : Ledger loop laid) : Ledger loop.cancel laid :=
  ⟨ledger.none_fresh, ledger.laid_eq⟩

/-- Every event that has been laid is one of the pass under which it is listed, and that pass has
been begun. -/
theorem mem_passEvents (ledger : Ledger loop laid) {pass : Nat} {event : Event α}
    (member : (pass, event) ∈ laid) : event ∈ loop.passEvents pass := by
  obtain ⟨part, later, joined, laid_eq, -⟩ := ledger.laid_eq
  rw [laid_eq] at member
  simp only [passesUpTo, List.mem_append, List.mem_flatMap, List.mem_map, Prod.mk.injEq] at member
  rcases member with ⟨n, -, e, inside, rfl, rfl⟩ | ⟨e, inside, rfl, rfl⟩
  · exact inside
  · rw [← joined]
    exact List.mem_append_left _ inside

/-- What has been laid is the front of the passes, one after the other. -/
theorem isPrefix (ledger : Ledger loop laid) : laid <+: loop.passesUpTo (loop.passes + 1) := by
  obtain ⟨part, later, joined, laid_eq, -⟩ := ledger.laid_eq
  rw [laid_eq, passesUpTo_succ, ← joined, List.map_append, ← List.append_assoc]
  exact List.prefix_append _ _

end Ledger

/-- A step adds to the ledger what the device grants with it. -/
theorem Step.ledger {instant : Nat} {loop next : LiveLoop α} {device after : Device α}
    {laid : List (Nat × Event α)} (step : Step instant loop device next after)
    (ledger : Ledger loop laid) :
    Ledger next (laid ++ (loop.granted device).map (loop.passes, ·)) := by
  cases step with
  | opens fresh =>
    have unbegun := ledger.none_fresh fresh
    have between : loop.isMidPass = false := by simp [isMidPass, fresh]
    have empty : laid = [] := by
      rw [ledger.whole between, unbegun]
      rfl
    rw [append_granted between, empty]
    rcases loop.begin_eq_or (device.now instant) with eq | eq <;> rw [eq]
    · exact .of_whole (fun _ => unbegun) (by simp) (by simp [unbegun, passesUpTo])
    · exact .of_whole (fun _ => unbegun) (by simp) (by simp [unbegun, passesUpTo])
  | looks target closing checking =>
    have before : loop.isMidPass = false := by simp [isMidPass, checking]
    obtain ⟨phase, eq, begun, between⟩ :=
      loop.check_eq_phase instant (device.now instant) target closing
    rw [append_granted before, eq]
    refine .of_whole (fun fresh => absurd fresh begun) (fun later laying => ?_)
      (ledger.whole before)
    obtain rfl : phase = .laying later := laying
    cases between
  | quits wake target closing resting =>
    have between : loop.isMidPass = false := by simp [isMidPass, resting]
    rw [append_granted between]
    exact .of_whole (by simp [leave]) (by simp [leave]) (ledger.whole between)
  | turnsBack entering =>
    have between : loop.isMidPass = false := by simp [isMidPass, entering]
    rw [append_granted between]
    exact .of_whole (by simp [leave]) (by simp [leave]) (ledger.whole between)
  | wakes wake target closing resting =>
    have between : loop.isMidPass = false := by simp [isMidPass, resting]
    rw [append_granted between]
    exact .of_whole (by simp) (by simp) (ledger.whole between)
  | enters entering =>
    have between : loop.isMidPass = false := by simp [isMidPass, entering]
    rw [append_granted between]
    exact .of_whole (by simp)
      (fun _ laying => (LivePhase.laying.inj laying).symm) (ledger.whole between)
  | completes laying =>
    obtain ⟨part, later, joined, laid_eq, rest, -⟩ := ledger.laid_eq
    have all : part = loop.passEvents loop.passes := by
      rw [← joined, ← rest [] laying, List.append_nil]
    refine .of_whole (fun fresh => ?_) (fun later h => ?_) ?_
    · simp only [passLaid] at fresh
      split at fresh <;> cases fresh
    · simp only [passLaid] at h
      split at h <;> cases h
    · simp only [granted, laying, List.map_nil, List.append_nil, laid_eq, all]
      exact (passesUpTo_succ loop loop.passes).symm
  | lays event later laying takes =>
    obtain ⟨part, remaining, joined, laid_eq, rest, -⟩ := ledger.laid_eq
    refine ⟨by simp, part ++ [event], later, ?_, ?_, ?_, ?_⟩
    · rw [List.append_assoc, List.singleton_append, rest _ laying]
      exact joined
    · simp only [granted, laying, Device.create_of_no_refusal takes, laid_eq, List.append_assoc,
        List.map_append, List.map_cons, List.map_nil]
      rfl
    · exact fun _ laying => (LivePhase.laying.inj laying).symm
    · exact fun _ => rfl
  | fails event later fault laying refuses =>
    obtain ⟨part, remaining, joined, laid_eq, rest, -⟩ := ledger.laid_eq
    refine ⟨by simp, part, remaining, joined, ?_, ?_, ?_⟩
    · simp only [granted, laying, Device.create_of_refusal refuses, List.map_nil, List.append_nil]
      exact laid_eq
    · simp
    · exact fun _ => rfl

/-- What the device grants with a step is an event of the pass that the loop stands in. -/
theorem Step.mem_passEvents {instant : Nat} {loop next : LiveLoop α} {device after : Device α}
    {laid : List (Nat × Event α)} (step : Step instant loop device next after)
    (ledger : Ledger loop laid) {event : Event α} (granted : event ∈ loop.granted device) :
    event ∈ next.passEvents loop.passes :=
  (step.ledger ledger).mem_passEvents (List.mem_append_right _ (List.mem_map_of_mem granted))

end LiveLoop

end Portamento
