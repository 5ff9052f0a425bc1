import Portamento.Sound.Device

/-!
# What is asked of a device, and its answers

An event is handed to a device with two calls: one asks for its tone, the other gives the envelope
to the tone that the first one answered with. A device refuses calls of the first kind only, by its
limits; the second always finds the tone. So an event is either on the device in full, with the next
free number, or has left no trace but the count of requests.
-/

namespace Portamento

/-- A call on a sound device, with its answer. -/
inductive SinkCall (α : Type) where
  | tone (path : FrequencyPath α) (start finish : α) (answer : Except SoundFault Nat)
  | envelope (tone : Nat) (envelope : Envelope α) (answer : Except SoundFault Unit)

variable {α : Type}

namespace SinkCall

/-- Why a call has failed, if it has. -/
def fault? : SinkCall α → Option SoundFault
  | tone _ _ _ (.error fault) => some fault
  | envelope _ _ (.error fault) => some fault
  | _ => none

/-- Whether a call has done what it was made for. -/
def isGranted (call : SinkCall α) : Bool := call.fault?.isNone

/-- The calls that hand over events to a device which grants all of them, and which numbers the
tones from `id` on. -/
def script (id : Nat) : List (Event α) → List (SinkCall α)
  | [] => []
  | event :: later =>
    .tone event.path event.start event.finish (.ok id) :: .envelope id event.envelope (.ok ()) ::
      script (id + 1) later

theorem script_append (id : Nat) (events later : List (Event α)) :
    script id (events ++ later) = script id events ++ script (id + events.length) later := by
  induction events generalizing id with
  | nil => rfl
  | cons event rest ih =>
    simp only [List.cons_append, script, List.length_cons]
    rw [ih, show id + 1 + rest.length = id + (rest.length + 1) by omega]

theorem isGranted_of_mem_script {id : Nat} {events : List (Event α)} {call : SinkCall α}
    (member : call ∈ script id events) : call.isGranted = true := by
  induction events generalizing id with
  | nil => cases member
  | cons event later ih =>
    simp only [script, List.mem_cons] at member
    rcases member with rfl | rfl | member
    · rfl
    · rfl
    · exact ih member

theorem filter_script (id : Nat) (events : List (Event α)) :
    (script id events).filter isGranted = script id events :=
  List.filter_eq_self.mpr fun _ => isGranted_of_mem_script

end SinkCall

namespace ToneList

/-- The list with the tone of an event behind the others, its envelope attached. -/
def add (list : ToneList α) (event : Event α) : ToneList α :=
  ⟨⟨list.nextId, event.path, event.start, event.finish, some event.envelope⟩ :: list.newestFirst,
    list.nextId + 1⟩

theorem attach_create (list : ToneList α) (event : Event α) :
    (list.create event.path event.start event.finish).1.attach list.nextId event.envelope =
      .ok (list.add event) := by
  simp [create, attach, attachFirst, add]

theorem emit_eq (list : ToneList α) (event : Event α) : list.emit event = .ok (list.add event) :=
  attach_create list event

/-- Laying events never fails on a list of tones, and lays one after the other. -/
theorem foldlM_emit (list : ToneList α) (events : List (Event α)) :
    events.foldlM emit list = .ok (events.foldl add list) := by
  induction events generalizing list with
  | nil => rfl
  | cons event later ih =>
    rw [List.foldlM_cons, emit_eq, List.foldl_cons]
    exact ih (list.add event)

theorem emitAll_eq (list : ToneList α) (timeline : Timeline α) :
    list.emitAll timeline = .ok (timeline.events.foldl add list) :=
  foldlM_emit list timeline.events

theorem tones_add (list : ToneList α) (event : Event α) :
    (list.add event).tones = list.tones ++
      [⟨list.nextId, event.path, event.start, event.finish, some event.envelope⟩] := by
  simp [add, tones]

/-- The tones of further events stand behind the others, numbered on. -/
theorem tones_foldl_add (list : ToneList α) (events : List (Event α)) :
    (events.foldl add list).tones = list.tones ++ events.mapIdx fun k event =>
      ⟨list.nextId + k, event.path, event.start, event.finish, some event.envelope⟩ := by
  induction events generalizing list with
  | nil => exact (List.append_nil _).symm
  | cons event later ih =>
    have next : (list.add event).nextId = list.nextId + 1 := rfl
    rw [List.foldl_cons, ih, tones_add, List.append_assoc, List.mapIdx_cons, next]
    simp only [Nat.add_right_comm _ 1, Nat.add_assoc, Nat.add_zero, List.singleton_append]

theorem nextId_foldl_add (list : ToneList α) (events : List (Event α)) :
    (events.foldl add list).nextId = list.nextId + events.length := by
  induction events generalizing list with
  | nil => rfl
  | cons event later ih =>
    rw [List.foldl_cons, ih]
    simp only [add, List.length_cons]
    omega

end ToneList

namespace Device

/-- Why the next request for a tone will be refused, if it will. -/
def refusal? (device : Device α) : Option SoundFault :=
  if isBeyond (device.requests + 1) device.limits.breakAfter then some .brokenOff
  else if isBeyond (device.requests + 1) device.limits.refuseAfter then
    some (.deviceUnavailable "output lost")
  else none

/-- The device after a request for a tone that it refused. -/
def refused (device : Device α) : Device α := { device with requests := device.requests + 1 }

/-- The device after it has taken an event. -/
def taken (device : Device α) (event : Event α) : Device α :=
  { device with requests := device.requests + 1, tones := device.tones.add event }

/-- The calls that hand over an event, with the device's answers. -/
def calls (device : Device α) (event : Event α) : List (SinkCall α) :=
  match device.create event.path event.start event.finish with
  | (_, .error fault) => [.tone event.path event.start event.finish (.error fault)]
  | (after, .ok id) =>
    [.tone event.path event.start event.finish (.ok id),
      .envelope id event.envelope (after.attach id event.envelope).2]

/-- The device with other limits, which let requests fail or succeed from now on. -/
def limited (device : Device α) (limits : DeviceLimits) : Device α := { device with limits }

/-- Without limits no request is refused. -/
theorem refusal?_of_unlimited {device : Device α} (unlimited : device.limits = ⟨none, none⟩) :
    device.refusal? = none := by
  simp only [refusal?, unlimited, isBeyond, Bool.false_eq_true, if_false]

theorem create_of_refusal {device : Device α} {fault : SoundFault}
    (refuses : device.refusal? = some fault) (path : FrequencyPath α) (start finish : α) :
    device.create path start finish = (device.refused, .error fault) := by
  unfold refusal? at refuses
  unfold create
  split at refuses
  · next beyond => cases refuses; simp only [beyond, if_true]; rfl
  · next within =>
    split at refuses
    · next beyond =>
      cases refuses
      simp only [within, beyond, if_true, Bool.false_eq_true, if_false]
      rfl
    · cases refuses

theorem create_of_no_refusal {device : Device α} (takes : device.refusal? = none)
    (path : FrequencyPath α) (start finish : α) :
    device.create path start finish =
      ({ device with
          requests := device.requests + 1
          tones := (device.tones.create path start finish).1 }, .ok device.tones.nextId) := by
  unfold refusal? at takes
  unfold create
  split at takes
  · cases takes
  · next within =>
    split at takes
    · cases takes
    · next within' =>
      simp only [within, within', Bool.false_eq_true, if_false]
      rfl

theorem emit_of_refusal {device : Device α} {fault : SoundFault}
    (refuses : device.refusal? = some fault) (event : Event α) :
    device.emit event = (device.refused, .error fault) := by
  simp only [emit, create_of_refusal refuses]

theorem emit_of_no_refusal {device : Device α} (takes : device.refusal? = none)
    (event : Event α) : device.emit event = (device.taken event, .ok ()) := by
  simp only [emit, create_of_no_refusal takes, attach, ToneList.attach_create, taken]

theorem calls_of_refusal {device : Device α} {fault : SoundFault}
    (refuses : device.refusal? = some fault) (event : Event α) :
    device.calls event = [.tone event.path event.start event.finish (.error fault)] := by
  simp only [calls, create_of_refusal refuses]

theorem calls_of_no_refusal {device : Device α} (takes : device.refusal? = none)
    (event : Event α) : device.calls event = SinkCall.script device.tones.nextId [event] := by
  simp only [calls, create_of_no_refusal takes, attach, ToneList.attach_create, SinkCall.script]

end Device

end Portamento
