import Mathlib.Logic.Relation
import Portamento.Proofs.Scalar.Compared
import Portamento.Proofs.Sound.Request
import Portamento.Proofs.Sound.Time
import Portamento.Proofs.Timeline.Layout

/-!
# How a device keeps its tones

A device is used in any order: tones and envelopes are asked for one by one or a whole timeline at a
time, its clock runs and is suspended, it comes to refuse tones or takes them again, and everything
that is scheduled is cancelled. Whoever uses it notes the numbers that it has answered with, the
numbers that have gone with a cancellation, and the tones whose envelope came with an event of a
timeline.

`device_bookkeeping` says what the notes and the device have to do with each other after any such
use. It rests on comparisons alone, and so holds of doubles as it does of exact numbers.
-/

namespace Portamento

variable {α : Type}

/-- A timeline that a score is laid out on, perhaps moved in time. -/
inductive Timeline.IsScheduled [Scalar α] : Timeline α → Prop where
  | ofScore (shape : EnvelopeShape α) (score : Score α) (offset : α) :
      IsScheduled (.ofScore shape score offset)
  | shifted (timeline : Timeline α) (offset : α) (scheduled : IsScheduled timeline) :
      IsScheduled (timeline.shifted offset)

/-- An event is scheduled if it is one of such a timeline. -/
def Event.IsScheduled [Scalar α] (event : Event α) : Prop :=
  ∃ timeline : Timeline α, timeline.IsScheduled ∧ event ∈ timeline.events

/-- The envelope of an event spans the time of the event. -/
theorem Event.IsScheduled.envelope_eq [Scalar α] {event : Event α} (scheduled : event.IsScheduled) :
    event.envelope.start = event.start ∧ event.envelope.finish = event.finish := by
  obtain ⟨timeline, scheduled, member⟩ := scheduled
  induction scheduled generalizing event with
  | ofScore shape score offset =>
    obtain ⟨k, chord, -, inside⟩ := Timeline.mem_lay.mp member
    obtain ⟨-, -, -, -, envelope⟩ := Timeline.mem_events inside
    rw [envelope]
    exact ⟨rfl, rfl⟩
  | shifted timeline offset _ ih =>
    obtain ⟨before, inside, rfl⟩ := List.mem_map.mp member
    obtain ⟨start, finish⟩ := ih inside
    exact ⟨congrArg (· + offset) start, congrArg (· + offset) finish⟩

namespace Tone

/-- The tone with an envelope, if it has the given number. -/
def reshaped (id : Nat) (envelope : Envelope α) (tone : Tone α) : Tone α :=
  if tone.id = id then { tone with envelope := some envelope } else tone

theorem reshaped_id (id : Nat) (envelope : Envelope α) (tone : Tone α) :
    (tone.reshaped id envelope).id = tone.id := by
  unfold reshaped
  split <;> rfl

theorem reshaped_of_ne {id : Nat} (envelope : Envelope α) {tone : Tone α} (other : tone.id ≠ id) :
    tone.reshaped id envelope = tone := if_neg other

/-- A tone with an envelope that spans its time. -/
def IsShaped (tone : Tone α) : Prop :=
  ∃ envelope, tone.envelope = some envelope ∧ envelope.start = tone.start ∧
    envelope.finish = tone.finish

/-- A tone that was there before a cut at a time, and what the cut has made of it. -/
structure IsCutOf [Scalar α] (t : α) (old tone : Tone α) : Prop where
  unchanged : old.finish ≤ t → tone = old
  only_end : ∃ finish envelopeFinish, tone = { old with
    finish, envelope := old.envelope.map fun envelope =>
      { envelope with finish := envelopeFinish } }

section Cut

variable [Scalar α] [Scalar.Compared α] {tone : Tone α}

theorem isCutOf_cutAt (tone : Tone α) (t : α) : IsCutOf t tone (tone.cutAt t) where
  unchanged ended := if_neg (Scalar.Compared.not_lt_of_le _ _ ended)
  only_end := by
    obtain ⟨id, path, start, finish, envelope⟩ := tone
    unfold cutAt
    split
    · cases envelope with
      | none => exact ⟨t, t, rfl⟩
      | some envelope => exact ⟨t, _, rfl⟩
    · cases envelope with
      | none => exact ⟨finish, finish, rfl⟩
      | some envelope => exact ⟨finish, envelope.finish, rfl⟩

/-- After a cut nothing sounds any more. -/
theorem isSoundingAt_cutAt (tone : Tone α) {t later : α} (late : t ≤ later) :
    (tone.cutAt t).isSoundingAt later = false := by
  refine decide_eq_false fun sounding => ?_
  have running := sounding.2
  unfold cutAt at running
  split at running
  · exact Scalar.Compared.not_lt_of_le _ _ late running
  · next ended => exact ended (Scalar.Compared.lt_of_le_of_lt _ _ _ late running)

/-- A cut ends the envelope of a tone together with the tone. -/
theorem IsShaped.cutAt (shaped : tone.IsShaped) (t : α) : (tone.cutAt t).IsShaped := by
  obtain ⟨envelope, found, start, finish⟩ := shaped
  unfold Tone.cutAt
  split
  · next beyond =>
    have number : t ≤ t := Scalar.Compared.isNumber_of_lt _ _ beyond
    have before : ¬ tone.finish < t :=
      Scalar.Compared.not_lt_of_le _ _ (Scalar.Compared.le_of_lt _ _ beyond)
    refine ⟨{ envelope with finish := Scalar.min envelope.finish t }, ?_, start, ?_⟩
    · simp only [found, Option.map_some]
    · simp only [finish, Scalar.min, if_neg before, if_pos number]
  · exact ⟨envelope, found, start, finish⟩

/-- A tone whose envelope spans its time has no gain but while it sounds. -/
theorem IsShaped.isSoundingAt (shaped : tone.IsShaped) {t : α} (time : Scalar.IsNumber t)
    (start : Scalar.IsNumber tone.start) (finish : Scalar.IsNumber tone.finish)
    (heard : tone.gainAt t ≠ Scalar.ofNat 0) : tone.isSoundingAt t = true := by
  obtain ⟨envelope, found, starts, finishes⟩ := shaped
  have inside : ¬ (t < tone.start ∨ tone.finish ≤ t) := by
    intro outside
    rw [← starts, ← finishes] at outside
    simp only [gainAt, found, Envelope.gainAt, if_pos outside] at heard
    exact heard rfl
  obtain ⟨begun, running⟩ := not_or.mp inside
  refine decide_eq_true ⟨?_, ?_⟩
  · exact (Scalar.Compared.le_or_lt _ _ start time).resolve_right begun
  · exact (Scalar.Compared.le_or_lt _ _ finish time).resolve_left running

end Cut

end Tone

namespace ToneList

/-- The numbers of the tones, in their order. -/
def ids (list : ToneList α) : List Nat := list.tones.map Tone.id

theorem attachFirst_eq_none {id : Nat} (envelope : Envelope α) {tones : List (Tone α)}
    (missing : id ∉ tones.map Tone.id) : attachFirst id envelope tones = none := by
  induction tones with
  | nil => rfl
  | cons tone later ih =>
    rw [List.map_cons, List.mem_cons, not_or] at missing
    rw [attachFirst, if_neg (Ne.symm missing.1), ih missing.2, Option.map_none]

theorem attachFirst_eq_some {id : Nat} (envelope : Envelope α) {tones : List (Tone α)}
    (present : id ∈ tones.map Tone.id) (distinct : (tones.map Tone.id).Nodup) :
    attachFirst id envelope tones = some (tones.map (Tone.reshaped id envelope)) := by
  induction tones with
  | nil => cases present
  | cons tone later ih =>
    obtain ⟨apart, distinct⟩ := List.nodup_cons.mp distinct
    rw [attachFirst, List.map_cons]
    split
    · next here =>
      -- the tones behind have other numbers, and stay as they are
      have rest : later.map (Tone.reshaped id envelope) = later.map fun other => other :=
        List.map_congr_left fun other member => Tone.reshaped_of_ne envelope fun same =>
          apart (here ▸ same ▸ List.mem_map_of_mem member)
      rw [rest, List.map_id', Tone.reshaped, if_pos here]
    · next other =>
      have behind : id ∈ later.map Tone.id :=
        (List.mem_cons.mp present).resolve_left fun same => other same.symm
      rw [ih behind distinct, Option.map_some, Tone.reshaped_of_ne envelope other]

end ToneList

namespace Device

/-- Asks for the tones of the events of a timeline with their envelopes, one after the other, up to
the first request that fails. -/
def emitEach : List (Event α) → Device α → Device α × Except SoundFault Unit
  | [], device => (device, .ok ())
  | event :: later, device =>
    match device.emit event with
    | (device, .ok ()) => emitEach later device
    | (device, .error fault) => (device, .error fault)

/-- An envelope for a tone that is not there is refused. -/
theorem attach_of_missing {device : Device α} {id : Nat} (missing : id ∉ device.tones.ids)
    (envelope : Envelope α) : device.attach id envelope = (device, .error (.unknownTone id)) := by
  have absent : id ∉ device.tones.newestFirst.map Tone.id := by
    simpa [ToneList.ids, ToneList.tones] using missing
  simp only [attach, ToneList.attach, ToneList.attachFirst_eq_none envelope absent]

/-- An envelope for a tone that is there is given to it. -/
theorem attach_of_present {device : Device α} {id : Nat} (present : id ∈ device.tones.ids)
    (distinct : device.tones.ids.Nodup) (envelope : Envelope α) :
    device.attach id envelope =
      ({ device with tones := ⟨device.tones.newestFirst.map (Tone.reshaped id envelope),
        device.tones.nextId⟩ }, .ok ()) := by
  have member : id ∈ device.tones.newestFirst.map Tone.id := by
    simpa [ToneList.ids, ToneList.tones] using present
  have apart : (device.tones.newestFirst.map Tone.id).Nodup := by
    rw [ToneList.ids, ToneList.tones, List.map_reverse] at distinct
    exact List.nodup_reverse.mp distinct
  simp only [attach, ToneList.attach, ToneList.attachFirst_eq_some envelope member apart]

end Device

/-- A device at an instant, with what those who use it have noted. -/
structure Account (α : Type) where
  instant : Nat
  device : Device α
  /-- The numbers that requests for a tone have been answered with. -/
  issued : List Nat
  /-- The numbers of the tones that have gone with a cancellation. -/
  dropped : List Nat
  /-- The numbers of the tones whose envelope came with a scheduled event. -/
  scheduled : List Nat

namespace Account

/-- A device on which nothing has happened. -/
def opened (rate rendererRate : Nat) (limits : DeviceLimits) (instant : Nat) : Account α :=
  ⟨instant, .withRenderer rate rendererRate limits, [], [], []⟩

/-- The tones on the device. -/
def tones (u : Account α) : List (Tone α) := u.device.tones.tones

/-- The numbers of the tones on the device. -/
def ids (u : Account α) : List Nat := u.device.tones.ids

section Requests

/-- After a request for a tone. -/
def created (u : Account α) (path : FrequencyPath α) (start finish : α) : Account α :=
  match u.device.create path start finish with
  | (device, .ok id) => { u with device, issued := u.issued ++ [id] }
  | (device, .error _) => { u with device }

/-- After a request to give a tone an envelope. -/
def attached (u : Account α) (id : Nat) (envelope : Envelope α) : Account α :=
  match u.device.attach id envelope with
  | (device, .ok ()) => { u with device, scheduled := u.scheduled.filter (· != id) }
  | (device, .error _) => { u with device }

/-- After the two requests for an event of a timeline. -/
def emitted (u : Account α) (event : Event α) : Account α :=
  match u.device.create event.path event.start event.finish with
  | (device, .ok id) =>
    { u with
      device := (device.attach id event.envelope).1
      issued := u.issued ++ [id]
      scheduled := u.scheduled ++ [id] }
  | (device, .error _) => { u with device }

variable {u : Account α} {fault : SoundFault}

theorem created_of_no_refusal (takes : u.device.refusal? = none) (path : FrequencyPath α)
    (start finish : α) : u.created path start finish =
      { u with
        device := { u.device with
          requests := u.device.requests + 1
          tones := (u.device.tones.create path start finish).1 }
        issued := u.issued ++ [u.device.tones.nextId] } := by
  simp only [created, Device.create_of_no_refusal takes]

theorem created_of_refusal (refuses : u.device.refusal? = some fault) (path : FrequencyPath α)
    (start finish : α) : u.created path start finish = { u with device := u.device.refused } := by
  simp only [created, Device.create_of_refusal refuses]

theorem emitted_of_no_refusal (takes : u.device.refusal? = none) (event : Event α) :
    u.emitted event =
      { u with
        device := u.device.taken event
        issued := u.issued ++ [u.device.tones.nextId]
        scheduled := u.scheduled ++ [u.device.tones.nextId] } := by
  simp only [emitted, Device.create_of_no_refusal takes, Device.attach, ToneList.attach_create,
    Device.taken]

theorem emitted_of_refusal (refuses : u.device.refusal? = some fault) (event : Event α) :
    u.emitted event = { u with device := u.device.refused } := by
  simp only [emitted, Device.create_of_refusal refuses]

theorem emitted_device (u : Account α) (event : Event α) :
    (u.emitted event).device = (u.device.emit event).1 ∧
      (u.emitted event).instant = u.instant := by
  cases refusal : u.device.refusal? with
  | none =>
    rw [emitted_of_no_refusal refusal, Device.emit_of_no_refusal refusal]
    exact ⟨rfl, rfl⟩
  | some fault =>
    rw [emitted_of_refusal refusal, Device.emit_of_refusal refusal]
    exact ⟨rfl, rfl⟩

end Requests

/-- What every move keeps. -/
structure Kept (u : Account α) : Prop where
  issued_eq : u.issued = List.range u.device.tones.nextId
  listed : u.ids.Sublist u.issued
  counted : u.ids.length + u.device.cancelled = u.issued.length
  gone : ∀ id ∈ u.dropped, id ∈ u.issued ∧ id ∉ u.ids
  known : ∀ id ∈ u.scheduled, id ∈ u.issued
  shaped : ∀ tone ∈ u.tones, tone.id ∈ u.scheduled → tone.IsShaped

namespace Kept

variable {u v : Account α}

theorem opened (rate rendererRate : Nat) (limits : DeviceLimits) (instant : Nat) :
    Kept (opened rate rendererRate limits instant : Account α) where
  issued_eq := rfl
  listed := .slnil
  counted := rfl
  gone _ member := nomatch member
  known _ member := nomatch member
  shaped _ member := nomatch member

theorem distinct (kept : Kept u) : u.ids.Nodup :=
  kept.listed.nodup (kept.issued_eq ▸ List.nodup_range)

/-- The number that the next tone gets is new. -/
theorem nextId_not_mem (kept : Kept u) : u.device.tones.nextId ∉ u.issued := by
  rw [kept.issued_eq]
  exact List.not_mem_range_self

/-- With a tone more, behind the others and with the next number. -/
theorem add (kept : Kept u) (tone : Tone α) (numbered : tone.id = u.device.tones.nextId)
    (tones : v.device.tones =
      ⟨tone :: u.device.tones.newestFirst, u.device.tones.nextId + 1⟩)
    (cancelled : v.device.cancelled = u.device.cancelled)
    (issued : v.issued = u.issued ++ [u.device.tones.nextId])
    (dropped : v.dropped = u.dropped)
    (scheduled : ∀ id ∈ v.scheduled, id ∈ u.scheduled ∨
      id = u.device.tones.nextId ∧ tone.IsShaped) : Kept v := by
  have all : v.tones = u.tones ++ [tone] := by
    simp only [Account.tones, ToneList.tones, tones, List.reverse_cons]
  have ids : v.ids = u.ids ++ [u.device.tones.nextId] := by
    have mapped := congrArg (List.map Tone.id) all
    rwa [List.map_append, List.map_singleton, numbered] at mapped
  refine ⟨?_, ?_, ?_, fun id member => ?_, fun id member => ?_, fun other member named => ?_⟩
  · rw [issued, kept.issued_eq, tones, List.range_succ]
  · rw [ids, issued]
    exact kept.listed.append (.refl _)
  · have counted := kept.counted
    rw [ids, issued, cancelled, List.length_append, List.length_append]
    omega
  · rw [dropped] at member
    obtain ⟨old, missing⟩ := kept.gone id member
    rw [issued, ids]
    refine ⟨List.mem_append_left _ old, fun back => ?_⟩
    rcases List.mem_append.mp back with present | new
    · exact missing present
    · exact kept.nextId_not_mem (List.mem_singleton.mp new ▸ old)
  · rw [issued]
    rcases scheduled id member with old | ⟨rfl, -⟩
    · exact List.mem_append_left _ (kept.known id old)
    · exact List.mem_append_right _ (List.mem_singleton_self _)
  · rw [all] at member
    rcases List.mem_append.mp member with old | new
    · rcases scheduled other.id named with before | ⟨same, -⟩
      · exact kept.shaped other old before
      · have inside := kept.listed.subset (List.mem_map_of_mem old)
        exact absurd (same ▸ inside) kept.nextId_not_mem
    · obtain rfl := List.mem_singleton.mp new
      rcases scheduled other.id named with before | ⟨-, shaped⟩
      · exact absurd (numbered ▸ kept.known _ before) kept.nextId_not_mem
      · exact shaped

/-- When a tone has been given an envelope, or none was there to be given one. -/
theorem attach (kept : Kept u) (id : Nat) (envelope : Envelope α) :
    Kept (u.attached id envelope) := by
  by_cases present : id ∈ u.ids
  · have reshapes := Device.attach_of_present present kept.distinct envelope
    have same : (u.attached id envelope).ids = u.ids := by
      simp only [attached, reshapes, Account.ids, ToneList.ids, ToneList.tones, ← List.map_reverse,
        List.map_map]
      exact List.map_congr_left fun tone _ => tone.reshaped_id id envelope
    have form : u.attached id envelope = { u with
        device := { u.device with tones :=
          ⟨u.device.tones.newestFirst.map (Tone.reshaped id envelope), u.device.tones.nextId⟩ }
        scheduled := u.scheduled.filter (· != id) } := by
      simp only [attached, reshapes]
    rw [form] at same ⊢
    refine ⟨kept.issued_eq, same ▸ kept.listed, same ▸ kept.counted, same ▸ kept.gone,
      fun other member => kept.known other (List.mem_of_mem_filter member),
      fun tone member named => ?_⟩
    simp only [Account.tones, ToneList.tones, ← List.map_reverse] at member
    obtain ⟨old, before, rfl⟩ := List.mem_map.mp member
    rw [Tone.reshaped_id] at named
    obtain ⟨named, other⟩ := List.mem_filter.mp named
    rw [Tone.reshaped_of_ne envelope (by simpa using other)]
    exact kept.shaped old before named
  · simp only [attached, Device.attach_of_missing present]
    exact kept

end Kept

variable [Tonal α]

/-- The reading of the device's clock. -/
def now (u : Account α) : α := u.device.now u.instant

/-- After everything that is scheduled has been cancelled. -/
def cut (u : Account α) : Account α :=
  let device := u.device.cancelScheduled u.instant
  { u with device, dropped := u.dropped ++ u.ids.filter (· ∉ device.tones.ids) }

theorem tones_cut (u : Account α) : u.cut.tones =
    (u.tones.filter fun tone => tone.start ≤ u.now).map fun tone => tone.cutAt u.now :=
  ToneList.tones_cancelAfter _ _

theorem ids_cut (u : Account α) :
    u.cut.ids = (u.tones.filter fun tone => tone.start ≤ u.now).map Tone.id := by
  have mapped := congrArg (List.map Tone.id) u.tones_cut
  rw [List.map_map] at mapped
  exact mapped.trans (List.map_congr_left fun tone _ => tone.cutAt_id u.now)

/-- What can be done with a device. A timeline is handed over event by event; an event that no score
has been laid out on comes down to a tone and an envelope that are asked for. -/
inductive Move : Account α → Account α → Prop where
  | advance (u : Account α) (nanoseconds : Nat) :
      Move u { u with instant := u.instant + nanoseconds }
  | suspend (u : Account α) : Move u { u with device := u.device.suspend u.instant }
  | resume (u : Account α) : Move u { u with device := u.device.resume u.instant }
  | limit (u : Account α) (limits : DeviceLimits) :
      Move u { u with device := u.device.limited limits }
  | create (u : Account α) (path : FrequencyPath α) (start finish : α) :
      Move u (u.created path start finish)
  | attach (u : Account α) (id : Nat) (envelope : Envelope α) : Move u (u.attached id envelope)
  | emit (u : Account α) (event : Event α) (scheduled : event.IsScheduled) :
      Move u (u.emitted event)
  | cancel (u : Account α) : Move u u.cut

/-- Any number of moves, in any order. -/
abbrev Run : Account α → Account α → Prop := Relation.ReflTransGen Move

/-- To hand over events is a run, wherever it breaks off. -/
theorem run_emitEach (u : Account α) (events : List (Event α))
    (scheduled : ∀ event ∈ events, event.IsScheduled) :
    ∃ v, Run u v ∧ v.device = (Device.emitEach events u.device).1 ∧ v.instant = u.instant := by
  induction events generalizing u with
  | nil => exact ⟨u, .refl, rfl, rfl⟩
  | cons event later ih =>
    have first : Move u (u.emitted event) := .emit u event (scheduled event List.mem_cons_self)
    obtain ⟨device, instant⟩ := u.emitted_device event
    rw [Device.emitEach]
    split
    · next after granted =>
      rw [granted] at device
      obtain ⟨v, run, same, late⟩ :=
        ih (u.emitted event) fun other member => scheduled other (List.mem_cons_of_mem _ member)
      rw [device] at same
      exact ⟨v, .head first run, same, late.trans instant⟩
    · next after fault refused =>
      rw [refused] at device
      exact ⟨_, .single first, device, instant⟩

namespace Kept

variable {u v : Account α}

/-- When everything that is scheduled has been cancelled. -/
theorem cancel [Scalar.Compared α] (kept : Kept u) : Kept u.cut := by
  have left : u.cut.ids.Sublist u.ids := u.ids_cut ▸ List.filter_sublist.map Tone.id
  refine ⟨kept.issued_eq, left.trans kept.listed, ?_, fun id member => ?_, kept.known,
    fun tone member named => ?_⟩
  · have counted := kept.counted
    have fewer := left.length_le
    have cancelled : u.cut.device.cancelled =
        u.device.cancelled + (u.ids.length - u.cut.ids.length) := by
      simp only [Account.ids, ToneList.ids, List.length_map]
      rfl
    rw [cancelled]
    show _ = u.issued.length
    omega
  · rcases List.mem_append.mp member with before | now
    · obtain ⟨known, missing⟩ := kept.gone id before
      exact ⟨known, fun present => missing (left.subset present)⟩
    · obtain ⟨present, missing⟩ := List.mem_filter.mp now
      exact ⟨kept.listed.subset present, of_decide_eq_true missing⟩
  · rw [tones_cut] at member
    obtain ⟨old, before, rfl⟩ := List.mem_map.mp member
    rw [Tone.cutAt_id] at named
    exact (kept.shaped old (List.mem_of_mem_filter before) named).cutAt u.now

/-- Every move. -/
theorem move [Scalar.Compared α] (kept : Kept u) (move : Move u v) : Kept v := by
  cases move with
  | advance => exact { kept with }
  | suspend => exact { kept with }
  | resume => exact { kept with }
  | limit => exact { kept with }
  | create path start finish =>
    cases refusal : u.device.refusal? with
    | none =>
      rw [created_of_no_refusal refusal]
      exact kept.add ⟨u.device.tones.nextId, path, start, finish, none⟩ rfl rfl rfl rfl rfl
        fun id member => .inl member
    | some fault =>
      rw [created_of_refusal refusal]
      exact { kept with }
  | attach id envelope => exact kept.attach id envelope
  | emit event scheduled =>
    cases refusal : u.device.refusal? with
    | none =>
      rw [emitted_of_no_refusal refusal]
      obtain ⟨start, finish⟩ := scheduled.envelope_eq
      refine kept.add ⟨u.device.tones.nextId, event.path, event.start, event.finish,
        some event.envelope⟩ rfl rfl rfl rfl rfl fun id member => ?_
      rcases List.mem_append.mp member with old | new
      · exact .inl old
      · exact .inr ⟨List.mem_singleton.mp new, event.envelope, rfl, start, finish⟩
    | some fault =>
      rw [emitted_of_refusal refusal]
      exact { kept with }
  | cancel => exact kept.cancel

end Kept

/-- What has gone with a cancellation stays among what has gone. -/
theorem dropped_of_run {u v : Account α} (run : Run u v) {id : Nat} (gone : id ∈ u.dropped) :
    id ∈ v.dropped := by
  induction run with
  | refl => exact gone
  | tail _ move ih =>
    cases move with
    | advance | suspend | resume | limit => exact ih
    | create path start finish => rw [created]; split <;> exact ih
    | attach id envelope => rw [attached]; split <;> exact ih
    | emit event scheduled => rw [emitted]; split <;> exact ih
    | cancel => exact List.mem_append_left _ ih

/-- What the notes of an account and its device have to do with each other. -/
structure Bookkeeping (u : Account α) : Prop where
  increasing : u.ids.Pairwise (· < ·)
  below : ∀ id ∈ u.ids, id < u.issued.length
  counted : u.tones.length + u.device.cancelled = u.issued.length
  /-- What has gone with a cancellation does not come back. -/
  gone : ∀ id ∈ u.dropped, ∀ v, Run u v → id ∉ v.ids
  /-- An envelope for a tone that has gone, or that never was, is refused. -/
  refuses : ∀ id, id ∈ u.dropped ∨ id ∉ u.issued → ∀ envelope,
    u.device.attach id envelope = (u.device, .error (.unknownTone id))
  /-- An envelope for a tone that is there is given to it, and to no other. -/
  gives : ∀ id ∈ u.ids, ∀ envelope, ∃ tones : ToneList α,
    u.device.attach id envelope = ({ u.device with tones }, .ok ()) ∧
      tones.nextId = u.device.tones.nextId ∧ tones.tones = u.tones.map (Tone.reshaped id envelope)
  /-- After a cancellation nothing is still to begin. -/
  none_pending : (u.device.cancelScheduled u.instant).pending u.instant = 0
  /-- After a cancellation nothing sounds any more. -/
  silent : ∀ t, u.now ≤ t → (u.device.cancelScheduled u.instant).tones.soundingAt t = []
  /-- A cancellation leaves the tones that have begun, in order, and alters their ends only. -/
  ended : List.Forall₂ (Tone.IsCutOf u.now) (u.tones.filter fun tone => tone.start ≤ u.now)
    (u.device.cancelScheduled u.instant).tones.tones
  /-- A tone whose envelope came with an event is heard only while it sounds. -/
  heard : ∀ tone ∈ u.tones, tone.id ∈ u.scheduled →
    Scalar.IsNumber tone.start → Scalar.IsNumber tone.finish → ∀ t, Scalar.IsNumber t →
      tone.gainAt t ≠ Scalar.ofNat 0 → tone.isSoundingAt t = true

variable [Scalar.Compared α]

theorem Kept.run {u v : Account α} (kept : Kept u) (run : Run u v) : Kept v := by
  induction run with
  | refl => exact kept
  | tail _ move ih => exact ih.move move

/-- However a device is used, its account is in order: its tones are numbered upwards and counted,
envelopes reach the tones that are there and nothing else, a cancellation silences the device and
touches no tone but at its end, and a scheduled tone is heard only while it sounds. -/
theorem device_bookkeeping (rate rendererRate : Nat) (limits : DeviceLimits) (instant : Nat)
    (u : Account α) (run : Run (opened rate rendererRate limits instant) u) : Bookkeeping u := by
  have kept : Kept u := (Kept.opened rate rendererRate limits instant).run run
  have counted : u.ids.length = u.tones.length := List.length_map _
  have issued : u.issued.Pairwise (· < ·) := kept.issued_eq ▸ List.pairwise_lt_range
  have left : (u.device.cancelScheduled u.instant).tones.tones = _ := u.tones_cut
  refine ⟨issued.sublist kept.listed, fun id present => ?_, counted ▸ kept.counted,
    fun id gone v later => ?_, fun id away envelope => ?_, fun id present envelope => ?_, ?_,
    fun t late => ?_, ?_, fun tone member scheduled start finish t time audible => ?_⟩
  · have among := kept.listed.subset present
    rw [kept.issued_eq] at among ⊢
    rw [List.length_range]
    exact List.mem_range.mp among
  · exact ((kept.run later).gone id (dropped_of_run later gone)).2
  · refine Device.attach_of_missing (away.elim (fun gone => (kept.gone id gone).2) ?_) envelope
    exact fun never present => never (kept.listed.subset present)
  · refine ⟨_, Device.attach_of_present present kept.distinct envelope, rfl, ?_⟩
    exact List.map_reverse.symm
  · rw [Device.pending, ToneList.after, ToneList.select_eq_filter, left, List.length_eq_zero_iff,
      List.filter_eq_nil_iff]
    intro tone member
    obtain ⟨old, begun, rfl⟩ := List.mem_map.mp member
    rw [Tone.cutAt_start, decide_eq_true_eq]
    exact Scalar.Compared.not_lt_of_le _ _ (of_decide_eq_true (List.mem_filter.mp begun).2)
  · rw [ToneList.soundingAt_eq_filter, left, List.filter_eq_nil_iff]
    intro tone member
    obtain ⟨old, -, rfl⟩ := List.mem_map.mp member
    simp only [Tone.isSoundingAt_cutAt old late, Bool.false_eq_true, not_false_eq_true]
  · rw [left, List.forall₂_map_right_iff, List.forall₂_same]
    exact fun tone _ => tone.isCutOf_cutAt u.now
  · exact (kept.shaped tone member scheduled).isSoundingAt time start finish audible

/-- Two notes of a second each, one after the other. -/
noncomputable def twoNotes : Timeline ℝ :=
  .ofScore .usual ⟨Scalar.ofNat 60, [⟨['a'], 1, [[Scalar.ofNat 440]]⟩,
    ⟨['e'], 1, [[Scalar.ofNat 660]]⟩]⟩ 0

/-- The account at a cancellation in the middle of the first note, which drops the second. -/
theorem device_bookkeeping_twoNotes : ∃ u : Account ℝ,
    Run (opened 8 8 ⟨none, none⟩ 0) u ∧ u.issued = [0, 1] ∧ u.ids = [0] ∧ u.dropped = [1] ∧
      u.scheduled = [0, 1] ∧ Bookkeeping u := by
  let fresh : Account ℝ := opened 8 8 ⟨none, none⟩ 0
  let running : Account ℝ := { fresh with device := fresh.device.resume 0 }
  let handed : Account ℝ := twoNotes.events.foldl emitted running
  let later : Account ℝ := { handed with instant := handed.instant + 500000000 }
  have scheduled (event : Event ℝ) (member : event ∈ twoNotes.events) : event.IsScheduled :=
    ⟨twoNotes, .ofScore _ _ _, member⟩
  obtain ⟨event, other, both⟩ : ∃ event other, twoNotes.events = [event, other] := ⟨_, _, rfl⟩
  have run : Run fresh later.cut := by
    refine .tail (.tail (b := handed) ?_ (.advance handed 500000000)) (.cancel later)
    have emits : handed = (running.emitted event).emitted other := by
      simp only [handed, both, List.foldl_cons, List.foldl_nil]
    rw [both] at scheduled
    rw [emits]
    exact ((Relation.ReflTransGen.single (.resume _)).tail
      (.emit running event (scheduled event (by simp)))).tail
      (.emit _ other (scheduled other (by simp)))
  have now : later.now = 1 / 2 := by
    have elapsed : handed.device.clock.elapsed later.instant = later.instant - 0 :=
      Nat.zero_add _
    have instant : later.instant = 500000000 := Nat.zero_add _
    show (Scalar.ofNanoseconds (handed.device.clock.elapsed later.instant) : ℝ) = 1 / 2
    rw [elapsed, instant, Scalar.ofNanoseconds_real]
    norm_num
  obtain ⟨here, away, tones, begins, starts, first⟩ : ∃ here away : Tone ℝ,
      later.tones = [here, away] ∧ here.start = 0 ∧ away.start = 0 + 1 ∧ here.id = 0 :=
    ⟨_, _, rfl, rfl, rfl, rfl⟩
  have ids : later.cut.ids = [0] := by
    have begun : here.start ≤ 1 / 2 := by rw [begins]; norm_num
    have pending : ¬ away.start ≤ 1 / 2 := by rw [starts]; norm_num
    simp only [ids_cut, now, tones, List.filter_cons, begun, pending, decide_true, decide_false,
      if_true, Bool.false_eq_true, if_false, List.filter_nil, List.map_singleton, first]
  refine ⟨later.cut, run, rfl, ids, ?_, rfl,
    device_bookkeeping 8 8 ⟨none, none⟩ 0 later.cut run⟩
  show [] ++ later.ids.filter (fun id => id ∉ later.cut.ids) = [1]
  rw [ids]
  rfl

end Account

end Portamento
