import Portamento.Live.Loop
import Portamento.Proofs.Sound.Request

/-!
# The steps of a live loop, one by one

A step of a live loop is one of nine. Everything that is said about runs of loops is said about
these nine steps first.
-/

namespace Portamento

variable {α : Type}

namespace LiveLoop

/-- Whether the loop stands in the middle of a pass: it is laying one, or has broken off there. -/
def isMidPass (loop : LiveLoop α) : Bool :=
  match loop.phase with
  | .laying _ => true
  | .ended (.error _) => true
  | _ => false

theorem holdsDevice_of_not_isMidPass {loop : LiveLoop α} (idle : loop.isMidPass = false) :
    loop.holdsDevice = false := by
  unfold isMidPass at idle
  unfold holdsDevice
  split
  · next laying => simp only [laying, Bool.true_eq_false] at idle
  · rfl

theorem isFinished_of_holdsDevice {loop : LiveLoop α} (holds : loop.holdsDevice = true) :
    loop.isFinished = false := by
  unfold holdsDevice at holds
  unfold isFinished
  split
  · next ended => simp only [ended, Bool.false_eq_true] at holds
  · rfl

/-- The events whose tone the device grants to the loop with the next step. -/
def granted (loop : LiveLoop α) (device : Device α) : List (Event α) :=
  match loop.phase with
  | .laying (event :: _) =>
    match (device.create event.path event.start event.finish).2 with
    | .ok _ => [event]
    | .error _ => []
  | _ => []

/-- The calls on the device that the loop makes with the next step. -/
def calls (loop : LiveLoop α) (device : Device α) : List (SinkCall α) :=
  match loop.phase with
  | .laying (event :: _) => device.calls event
  | _ => []

theorem granted_of_not_holdsDevice {loop : LiveLoop α} (idle : loop.holdsDevice = false)
    (device : Device α) : loop.granted device = [] := by
  unfold holdsDevice at idle
  unfold granted
  split at idle
  · cases idle
  · next other =>
    split
    · next laying => exact absurd laying (other _)
    · rfl

/-- Outside of a pass nothing is added to what has been laid. -/
theorem append_granted {loop : LiveLoop α} (between : loop.isMidPass = false) (device : Device α)
    (laid : List (Nat × Event α)) :
    laid ++ (loop.granted device).map (loop.passes, ·) = laid := by
  rw [granted_of_not_holdsDevice (holdsDevice_of_not_isMidPass between), List.map_nil,
    List.append_nil]

theorem calls_of_not_holdsDevice {loop : LiveLoop α} (idle : loop.holdsDevice = false)
    (device : Device α) : loop.calls device = [] := by
  unfold holdsDevice at idle
  unfold calls
  split at idle
  · cases idle
  · next other =>
    split
    · next laying => exact absurd laying (other _)
    · rfl

variable [Tonal α]

/-- What a step of a loop at an instant makes of the loop and of the device. -/
inductive Step (instant : Nat) (loop : LiveLoop α) (device : Device α) :
    LiveLoop α → Device α → Prop where
  | opens (fresh : loop.phase = .fresh) :
      Step instant loop device (loop.begin (device.now instant)) device
  | looks (target : α) (closing : Bool) (checking : loop.phase = .checking target closing) :
      Step instant loop device (loop.check instant (device.now instant) target closing) device
  | quits (wake : Nat) (target : α) (closing : Bool)
      (resting : loop.phase = .resting wake target closing) (told : loop.cancelled = true) :
      Step instant loop device loop.leave device
  | turnsBack (entering : loop.phase = .entering) (told : loop.cancelled = true) :
      Step instant loop device loop.leave device
  | wakes (wake : Nat) (target : α) (closing : Bool)
      (resting : loop.phase = .resting wake target closing) (due : wake ≤ instant) :
      Step instant loop device { loop with phase := .checking target closing } device
  | enters (entering : loop.phase = .entering) (free : loop.cancelled = false) :
      Step instant loop device { loop with phase := .laying (loop.passEvents loop.passes) } device
  | completes (laying : loop.phase = .laying []) : Step instant loop device loop.passLaid device
  | lays (event : Event α) (later : List (Event α)) (laying : loop.phase = .laying (event :: later))
      (takes : device.refusal? = none) :
      Step instant loop device { loop with phase := .laying later } (device.taken event)
  | fails (event : Event α) (later : List (Event α)) (fault : SoundFault)
      (laying : loop.phase = .laying (event :: later)) (refuses : device.refusal? = some fault) :
      Step instant loop device { loop with phase := .ended (.error fault) } device.refused

theorem step_of_step? {instant : Nat} {loop next : LiveLoop α} {device after : Device α}
    (taken : loop.step? instant device = some (next, after)) :
    Step instant loop device next after := by
  unfold step? at taken
  split at taken
  · next fresh =>
    cases taken
    exact .opens fresh
  · next target closing checking =>
    cases taken
    exact .looks target closing checking
  · next wake target closing resting =>
    split at taken
    · next told =>
      cases taken
      exact .quits wake target closing resting told
    · split at taken
      · next due =>
        cases taken
        exact .wakes wake target closing resting due
      · cases taken
  · next entering =>
    split at taken
    · next told =>
      cases taken
      exact .turnsBack entering told
    · next free =>
      cases taken
      exact .enters entering (by simpa using free)
  · next laying =>
    cases taken
    exact .completes laying
  · next event later laying =>
    cases refusal : device.refusal? with
    | none =>
      rw [Device.emit_of_no_refusal refusal] at taken
      cases taken
      exact .lays event later laying refusal
    | some fault =>
      rw [Device.emit_of_refusal refusal] at taken
      cases taken
      exact .fails event later fault laying refusal
  · cases taken

/-- An event of a pass is handed to a device that takes it. -/
theorem step?_of_takes {loop : LiveLoop α} {event : Event α} {later : List (Event α)}
    (laying : loop.phase = .laying (event :: later)) {device : Device α}
    (takes : device.refusal? = none) (instant : Nat) : loop.step? instant device =
      some ({ loop with phase := .laying later }, device.taken event) := by
  simp only [step?, laying, Device.emit_of_no_refusal takes]

/-- A loop breaks off with the fault of the device that refuses it an event. -/
theorem step?_of_refuses {loop : LiveLoop α} {event : Event α} {later : List (Event α)}
    (laying : loop.phase = .laying (event :: later)) {device : Device α} {fault : SoundFault}
    (refuses : device.refusal? = some fault) (instant : Nat) : loop.step? instant device =
      some ({ loop with phase := .ended (.error fault) }, device.refused) := by
  simp only [step?, laying, Device.emit_of_refusal refuses]

/-! A step changes little of what a loop carries: its plan and its mark never, its origin only when
it opens, its count of passes only when a pass is complete. -/

section Frame

variable (loop : LiveLoop α) (instant : Nat) (now target : α) (closing : Bool)

theorem begin_eq_or : loop.begin now = { loop with phase := .ended (.ok 0) } ∨
    loop.begin now = { loop with origin := now + loop.plan.leadIn, phase := .entering } := by
  unfold begin
  split
  · exact .inl rfl
  · exact .inr rfl

omit [Tonal α] in
theorem arrive_eq_or : loop.arrive closing = loop.leave ∧ closing = true ∨
    loop.arrive closing = { loop with phase := .entering } ∧ closing = false := by
  cases closing
  · exact .inr ⟨rfl, rfl⟩
  · exact .inl ⟨rfl, rfl⟩

/-- Looking at the clock changes the phase only, and begins no pass. -/
theorem check_eq_phase : ∃ phase, loop.check instant now target closing = { loop with phase } ∧
    phase ≠ .fresh ∧ isMidPass { loop with phase } = false := by
  unfold check
  dsimp only
  split
  · rcases loop.arrive_eq_or closing with ⟨eq, -⟩ | ⟨eq, -⟩
    · exact ⟨_, eq, by simp, rfl⟩
    · exact ⟨_, eq, by simp, rfl⟩
  · exact ⟨_, rfl, by simp, rfl⟩

end Frame

namespace Step

variable {instant : Nat} {loop next : LiveLoop α} {device after : Device α}

theorem plan_eq (step : Step instant loop device next after) : next.plan = loop.plan := by
  cases step with
  | opens =>
    rcases loop.begin_eq_or (device.now instant) with eq | eq <;> rw [eq]
  | looks target closing =>
    obtain ⟨phase, eq, -⟩ := loop.check_eq_phase instant (device.now instant) target closing
    rw [eq]
  | _ => rfl

theorem cancelled_eq (step : Step instant loop device next after) :
    next.cancelled = loop.cancelled := by
  cases step with
  | opens =>
    rcases loop.begin_eq_or (device.now instant) with eq | eq <;> rw [eq]
  | looks target closing =>
    obtain ⟨phase, eq, -⟩ := loop.check_eq_phase instant (device.now instant) target closing
    rw [eq]
  | _ => rfl

/-- A loop that has been told to stop and does not hold the device never takes it again. -/
theorem retires (step : Step instant loop device next after) (told : loop.cancelled = true)
    (idle : loop.holdsDevice = false) : next.holdsDevice = false ∧ after = device := by
  cases step with
  | opens =>
    rcases loop.begin_eq_or (device.now instant) with eq | eq <;> rw [eq] <;> exact ⟨rfl, rfl⟩
  | looks target closing =>
    obtain ⟨phase, eq, -, between⟩ :=
      loop.check_eq_phase instant (device.now instant) target closing
    rw [eq]
    exact ⟨holdsDevice_of_not_isMidPass between, rfl⟩
  | quits => exact ⟨rfl, rfl⟩
  | turnsBack => exact ⟨rfl, rfl⟩
  | wakes => exact ⟨rfl, rfl⟩
  | enters _ free =>
    rw [told] at free
    cases free
  | completes laying =>
    simp only [holdsDevice, laying] at idle
    cases idle
  | lays event later laying =>
    simp only [holdsDevice, laying] at idle
    cases idle
  | fails event later fault laying =>
    simp only [holdsDevice, laying] at idle
    cases idle

/-- Only a loop that is about to take the device comes to hold it, and it has not been told to
stop. -/
theorem takes_device (step : Step instant loop device next after) (idle : loop.holdsDevice = false)
    (holds : next.holdsDevice = true) : loop.phase = .entering ∧ loop.cancelled = false := by
  cases told : loop.cancelled with
  | true =>
    rw [(step.retires told idle).1] at holds
    cases holds
  | false =>
    refine ⟨?_, rfl⟩
    cases step with
    | enters entering => exact entering
    | opens =>
      rcases loop.begin_eq_or (device.now instant) with eq | eq <;> rw [eq] at holds <;> cases holds
    | looks target closing =>
      obtain ⟨phase, eq, -, between⟩ :=
        loop.check_eq_phase instant (device.now instant) target closing
      rw [eq, holdsDevice_of_not_isMidPass between] at holds
      cases holds
    | quits => cases holds
    | turnsBack => cases holds
    | wakes => cases holds
    | completes laying => simp [holdsDevice, laying] at idle
    | lays event later laying => simp [holdsDevice, laying] at idle
    | fails event later fault laying => simp [holdsDevice, laying] at idle

/-- Outside of a pass a step leaves the device alone. Within one it completes the pass, or hands the
next event to the device, which takes or refuses it. -/
theorem idle_or_laying (step : Step instant loop device next after) :
    (loop.isMidPass = false ∧ loop.holdsDevice = false ∧ after = device) ∨
      (loop.phase = .laying [] ∧ next = loop.passLaid ∧ after = device) ∨
      ∃ event later, loop.phase = .laying (event :: later) ∧
        ((device.refusal? = none ∧ next = { loop with phase := .laying later } ∧
            after = device.taken event) ∨
          ∃ fault, device.refusal? = some fault ∧
            next = { loop with phase := .ended (.error fault) } ∧ after = device.refused) := by
  cases step with
  | opens fresh => exact .inl ⟨by simp [isMidPass, fresh], by simp [holdsDevice, fresh], rfl⟩
  | looks target closing checking =>
    exact .inl ⟨by simp [isMidPass, checking], by simp [holdsDevice, checking], rfl⟩
  | quits wake target closing resting =>
    exact .inl ⟨by simp [isMidPass, resting], by simp [holdsDevice, resting], rfl⟩
  | turnsBack entering =>
    exact .inl ⟨by simp [isMidPass, entering], by simp [holdsDevice, entering], rfl⟩
  | wakes wake target closing resting =>
    exact .inl ⟨by simp [isMidPass, resting], by simp [holdsDevice, resting], rfl⟩
  | enters entering =>
    exact .inl ⟨by simp [isMidPass, entering], by simp [holdsDevice, entering], rfl⟩
  | completes laying => exact .inr (.inl ⟨laying, rfl, rfl⟩)
  | lays event later laying takes =>
    exact .inr (.inr ⟨event, later, laying, .inl ⟨takes, rfl, rfl⟩⟩)
  | fails event later fault laying refuses =>
    exact .inr (.inr ⟨event, later, laying, .inr ⟨fault, refuses, rfl, rfl⟩⟩)

/-- The device grants the loop nothing with a step, or one event, to a loop that holds it. -/
theorem granted_or_not (step : Step instant loop device next after) :
    (loop.granted device = [] ∧ after.tones = device.tones) ∨
      ∃ event, loop.granted device = [event] ∧ after.tones = device.tones.add event ∧
        loop.holdsDevice = true := by
  rcases step.idle_or_laying with ⟨-, idle, rfl⟩ | ⟨laying, -, rfl⟩ |
    ⟨event, later, laying, ⟨takes, -, rfl⟩ | ⟨fault, refuses, -, rfl⟩⟩
  · exact .inl ⟨granted_of_not_holdsDevice idle _, rfl⟩
  · exact .inl ⟨by simp only [granted, laying], rfl⟩
  · refine .inr ⟨event, ?_, rfl, by simp only [holdsDevice, laying]⟩
    simp only [granted, laying, Device.create_of_no_refusal takes]
  · refine .inl ⟨?_, rfl⟩
    simp only [granted, laying, Device.create_of_refusal refuses]

/-- The tones on the device change by exactly the event that it has granted to the loop. -/
theorem tones_eq (step : Step instant loop device next after) :
    after.tones = (loop.granted device).foldl ToneList.add device.tones := by
  rcases step.granted_or_not with ⟨nothing, tones⟩ | ⟨event, granted, tones, -⟩
  · rw [nothing, tones, List.foldl_nil]
  · rw [granted, tones, List.foldl_cons, List.foldl_nil]

/-- The calls of a step that the device grants are those that hand over the granted events. -/
theorem calls_granted (step : Step instant loop device next after) :
    (loop.calls device).filter SinkCall.isGranted =
      SinkCall.script device.tones.nextId (loop.granted device) := by
  rcases step.idle_or_laying with ⟨-, idle, -⟩ | ⟨laying, -⟩ |
    ⟨event, later, laying, ⟨takes, -⟩ | ⟨fault, refuses, -⟩⟩
  · rw [granted_of_not_holdsDevice idle, calls_of_not_holdsDevice idle]
    rfl
  · simp only [calls, granted, laying]
    rfl
  · simp only [calls, granted, laying, Device.calls_of_no_refusal takes,
      Device.create_of_no_refusal takes, SinkCall.filter_script]
  · simp only [calls, granted, laying, Device.calls_of_refusal refuses,
      Device.create_of_refusal refuses]
    rfl

/-- A loop whose call has been refused returns with the refusal. -/
theorem calls_refused (step : Step instant loop device next after) {call : SinkCall α}
    {fault : SoundFault} (member : call ∈ loop.calls device) (failed : call.fault? = some fault) :
    next.phase = .ended (.error fault) := by
  rcases step.idle_or_laying with ⟨-, idle, -⟩ | ⟨laying, -⟩ |
    ⟨event, later, laying, ⟨takes, -⟩ | ⟨reason, refuses, rfl, -⟩⟩
  · rw [calls_of_not_holdsDevice idle] at member
    cases member
  · simp only [calls, laying] at member
    cases member
  · simp only [calls, laying, Device.calls_of_no_refusal takes] at member
    have granted := SinkCall.isGranted_of_mem_script member
    rw [SinkCall.isGranted, failed] at granted
    cases granted
  · simp only [calls, laying, Device.calls_of_refusal refuses, List.mem_singleton] at member
    subst member
    cases failed
    rfl

/-- A loop that has returned takes no step. -/
theorem phase_ne_ended (step : Step instant loop device next after)
    (outcome : Except SoundFault Nat) : loop.phase ≠ .ended outcome := by
  intro ended
  cases step <;> simp_all

/-- No step leads back to the state of a loop that has done nothing. -/
theorem phase_ne_fresh (step : Step instant loop device next after) : next.phase ≠ .fresh := by
  cases step with
  | opens =>
    rcases loop.begin_eq_or (device.now instant) with eq | eq <;> rw [eq] <;> simp
  | looks target closing =>
    obtain ⟨phase, eq, begun, -⟩ :=
      loop.check_eq_phase instant (device.now instant) target closing
    rw [eq]
    exact begun
  | completes =>
    unfold passLaid
    dsimp only
    split <;> simp
  | _ => simp [leave]

/-- The first step opens the loop. -/
theorem eq_begin (step : Step instant loop device next after) (fresh : loop.phase = .fresh) :
    next = loop.begin (device.now instant) ∧ after = device := by
  cases step with
  | opens => exact ⟨rfl, rfl⟩
  | _ => simp_all

/-- The first pass begins a lead-in behind the clock of the first step, if a pass has any length. -/
theorem origin_of_fresh (step : Step instant loop device next after) (fresh : loop.phase = .fresh)
    (measured : ¬ loop.passLength ≤ Scalar.ofNat 0) :
    next.origin = device.now instant + loop.plan.leadIn := by
  rw [(step.eq_begin fresh).1, begin, if_neg measured]

/-- The origin is set by the first step, and stays. -/
theorem origin_eq (step : Step instant loop device next after) (begun : loop.phase ≠ .fresh) :
    next.origin = loop.origin := by
  cases step with
  | opens fresh => exact absurd fresh begun
  | looks target closing =>
    obtain ⟨phase, eq, -⟩ := loop.check_eq_phase instant (device.now instant) target closing
    rw [eq]
  | _ => rfl

/-- A pass is begun by taking the device, and then is either complete or the one that the loop
stands in. -/
theorem begun_count (step : Step instant loop device next after) :
    (loop.passes + if loop.isMidPass then 1 else 0) +
        (if next.holdsDevice && !loop.holdsDevice then 1 else 0) =
      next.passes + if next.isMidPass then 1 else 0 := by
  cases step with
  | opens fresh =>
    rcases loop.begin_eq_or (device.now instant) with eq | eq <;> rw [eq] <;>
      simp [isMidPass, holdsDevice, fresh]
  | looks target closing checking =>
    obtain ⟨phase, eq, -, between⟩ :=
      loop.check_eq_phase instant (device.now instant) target closing
    rw [eq, between, holdsDevice_of_not_isMidPass between]
    simp [isMidPass, checking]
  | quits wake target closing resting => simp [isMidPass, holdsDevice, resting, leave]
  | turnsBack entering => simp [isMidPass, holdsDevice, entering, leave]
  | wakes wake target closing resting => simp [isMidPass, holdsDevice, resting]
  | enters entering => simp [isMidPass, holdsDevice, entering]
  | completes laying =>
    have between : loop.passLaid.isMidPass = false := by
      unfold passLaid
      split <;> rfl
    rw [between, holdsDevice_of_not_isMidPass between]
    simp [isMidPass, laying, passLaid]
  | lays event later laying => simp [isMidPass, holdsDevice, laying]
  | fails event later fault laying => simp [isMidPass, holdsDevice, laying]

/-- A step leaves the clock, the buffer and the limits of the device alone. -/
theorem device_frame (step : Step instant loop device next after) :
    after.clock = device.clock ∧ after.buffer = device.buffer := by
  cases step <;> exact ⟨rfl, rfl⟩

/-- Whatever is asked of a device, its renderer stays the same. -/
theorem rendererRate_eq (step : Step instant loop device next after) :
    after.rendererRate = device.rendererRate := by
  cases step <;> rfl

theorem rate_eq (step : Step instant loop device next after) : after.rate = device.rate := by
  cases step <;> rfl

end Step

end LiveLoop

end Portamento
