import Portamento.Live.Loop
import Portamento.Score.Basic
import Portamento.Settings.Basic
import Portamento.Transport.Notice

/-!
# The transport

A transport plays the current text on an output device: one session at a time, which is begun,
paused, resumed and stopped. It gets its device on first use and keeps it. A score that has been
read, and the pass that has been rendered from it, are kept for as long as neither text nor tempo
changes.

An operation that does not fit the state does nothing. Beginning while a session is paused resumes
it; beginning while it plays, or after its loop has returned, ends it and begins anew.
-/

namespace Portamento

inductive TransportState where
  | idle
  | playing
  | paused
  deriving DecidableEq, Repr

def TransportState.name : TransportState → String
  | .idle => "idle"
  | .playing => "playing"
  | .paused => "paused"

inductive Playback (α : Type) where
  /-- A rendered pass that the device plays from a time on. -/
  | rendered (buffer : Buffer α) (startedAt : α)
  /-- A live loop, by its number. -/
  | live (loop : Nat)

/-- What has been begun and not yet stopped. -/
structure Session (α : Type) where
  playback : Playback α
  looping : Bool
  paused : Bool

/-- A score with the text and the tempo it was read from, and its pass once it has been rendered. -/
structure ReadScore (α : Type) where
  text : List Char
  tempo : α
  score : Score α
  pass : Option (Buffer α)

/-- Where the device comes from: the first requests may find none. -/
structure DeviceSource (α : Type) where
  device : Device α
  unavailable : Nat
  requests : Nat

inductive TransportFault (α : Type) where
  | score (fault : ScoreFault α)
  | sound (fault : SoundFault)

structure Transport (α : Type) where
  settings : Settings α
  shape : EnvelopeShape α
  text : List Char
  source : DeviceSource α
  device : Option (Device α)
  cache : Option (ReadScore α)
  session : Option (Session α)
  /-- Every live loop that has been begun, in the order of their numbers. -/
  loops : List (LiveLoop α)
  logged : Log α

def TransportFault.message : TransportFault Float → String
  | .score fault => fault.message
  | .sound fault => fault.message

namespace Playback

def isLive {α : Type} : Playback α → Bool
  | .live _ => true
  | .rendered _ _ => false

end Playback

namespace DeviceSource

def acquire {α : Type} (source : DeviceSource α) :
    DeviceSource α × Except SoundFault (Device α) :=
  let source := { source with requests := source.requests + 1 }
  if source.requests ≤ source.unavailable then (source, .error (.deviceUnavailable "no output"))
  else (source, .ok source.device)

end DeviceSource

namespace Transport

variable {α : Type} [Tonal α]

def new (settings : Settings α) (text : List Char) (source : DeviceSource α) : Transport α where
  settings
  shape := settings.shape
  text
  source
  device := none
  cache := none
  session := none
  loops := []
  logged := .empty

def log (t : Transport α) (notice : Notice α) : Transport α :=
  { t with logged := t.logged.add notice }

def notices (t : Transport α) : List (Notice α) := t.logged.notices

def onDevice (t : Transport α) (change : Device α → Device α) : Transport α :=
  { t with device := t.device.map change }

/-- The time on the device's clock, or zero before there is a device. -/
def now (t : Transport α) (instant : Nat) : α :=
  match t.device with
  | some device => device.now instant
  | none => Scalar.ofNat 0

def sessionLoop? (t : Transport α) : Option (LiveLoop α) :=
  match t.session with
  | some ⟨.live loop, _, _⟩ => t.loops[loop]?
  | _ => none

/-- Whether the session's live loop has returned. A rendered buffer never ends by itself. -/
def isFinished (t : Transport α) : Bool :=
  match t.sessionLoop? with
  | some loop => loop.isFinished
  | none => false

/-- The state. A session whose live loop has returned counts as none. -/
def state (t : Transport α) : TransportState :=
  match t.session with
  | none => .idle
  | some session =>
    if t.isFinished then .idle else if session.paused then .paused else .playing

/-- Another text, for the next beginning. -/
def setText (t : Transport α) (text : List Char) : Transport α := { t with text }

def setTempo (t : Transport α) (tempo : α) : Transport α :=
  { t with settings := { t.settings with tempo } }

/-- The score that is kept, if it was read from the current text at the current tempo. -/
def kept? (t : Transport α) : Option (ReadScore α) :=
  let tempo := t.settings.tempo
  t.cache.filter fun cache => cache.text = t.text ∧ cache.tempo ≤ tempo ∧ tempo ≤ cache.tempo

/-- The score of the current text at the current tempo, read anew only if one of them has changed.
-/
def resolve (t : Transport α) : Transport α × Except (ScoreFault α) (Score α) :=
  match t.kept? with
  | some cache => (t, .ok cache.score)
  | none =>
    match Score.read t.text t.settings.tempo with
    | .error fault => (t, .error fault)
    | .ok score => ({ t with cache := some ⟨t.text, t.settings.tempo, score, none⟩ }, .ok score)

/-- One pass on a timeline, after the lead-in. -/
def timeline (t : Transport α) : Transport α × Except (ScoreFault α) (Timeline α) :=
  let (t, score) := t.resolve
  (t, score.map fun score => Timeline.ofScore t.shape score t.settings.leadIn)

/-- The first half of ending a session: its live loop is told to stop. -/
def revoke (t : Transport α) : Transport α :=
  match t.session with
  | some ⟨.live loop, _, _⟩ => { t with loops := t.loops.modify loop LiveLoop.cancel }
  | _ => t

/-- The second half: the device plays no buffer any more, and its tones end. -/
def silence (t : Transport α) (instant : Nat) : Transport α :=
  { t.onDevice fun device => device.stopBuffer.cancelScheduled instant with session := none }

/-- Ends the session, if there is one. The loop is told first, so that it lays no pass after the
device has been silenced. -/
def teardown (t : Transport α) (instant : Nat) : Transport α :=
  match t.session with
  | none => t
  | some _ => t.revoke.silence instant

/-- The device, asked for on first use. -/
def acquire (t : Transport α) : Transport α × Except SoundFault (Device α) :=
  match t.device with
  | some device => (t, .ok device)
  | none =>
    match t.source.acquire with
    | (source, .error fault) => ({ t with source }, .error fault)
    | (source, .ok device) => ({ t with source, device := some device }, .ok device)

/-- The rendered pass of the score that has been read last, rendered only once. -/
def renderedPass (t : Transport α) (device : Device α) (score : Score α) :
    Transport α × Except SoundFault (Buffer α) :=
  match t.cache.bind ReadScore.pass with
  | some pass => (t, .ok pass)
  | none =>
    match Mixing.renderPass t.shape score device.rendererRate with
    | .error fault => (t, .error fault)
    | .ok pass =>
      ({ t with cache := t.cache.map fun cache => { cache with pass := some pass } }, .ok pass)

def begin (t : Transport α) (score : Score α) (playback : Playback α) : Transport α :=
  let settings := t.settings
  { t with session := some ⟨playback, settings.looping, false⟩ }.log
    (.started score.chords.length score.totalSeconds settings.mode settings.looping)

def startRendered (t : Transport α) (instant : Nat) (device : Device α) (score : Score α) :
    Transport α × Except (TransportFault α) Unit :=
  match t.renderedPass device score with
  | (t, .error fault) => (t, .error (.sound fault))
  | (t, .ok pass) =>
    let device := device.resume instant
    let startedAt := device.now instant + t.settings.leadIn
    match device.play pass startedAt t.settings.looping with
    | .error fault => ({ t with device := some device }, .error (.sound fault))
    | .ok device =>
      (({ t with device := some device }).begin score (.rendered pass startedAt), .ok ())

def livePlan (t : Transport α) (score : Score α) : LivePlan α where
  pass := Timeline.ofScore t.shape score (Scalar.ofNat 0)
  leadIn := t.settings.leadIn
  looping := t.settings.looping
  ahead := t.settings.ahead

def startLive (t : Transport α) (instant : Nat) (score : Score α) : Transport α :=
  let loop := LiveLoop.ofPlan (t.livePlan score)
  { t.onDevice fun device => device.resume instant with loops := t.loops ++ [loop] }.begin score
    (.live t.loops.length)

/-- Begins a session from the top, after the one before has been ended. -/
def startAnew (t : Transport α) (instant : Nat) : Transport α × Except (TransportFault α) Unit :=
  match t.acquire with
  | (t, .error fault) => (t, .error (.sound fault))
  | (t, .ok device) =>
    match t.resolve with
    | (t, .error fault) => (t, .error (.score fault))
    | (t, .ok score) =>
      match t.settings.mode with
      | .rendered => t.startRendered instant device score
      | .live => (t.startLive instant score, .ok ())

def setPaused (t : Transport α) (paused : Bool) : Transport α :=
  { t with session := t.session.map fun session => { session with paused } }

def pause (t : Transport α) (instant : Nat) : Transport α :=
  match t.state with
  | .playing =>
    let t := (t.onDevice fun device => device.suspend instant).setPaused true
    t.log (.paused (t.now instant))
  | _ => t

def resume (t : Transport α) (instant : Nat) : Transport α :=
  match t.state with
  | .paused =>
    let t := (t.onDevice fun device => device.resume instant).setPaused false
    t.log (.resumed (t.now instant))
  | _ => t

/-- Begins to play: resumes what is paused, or plays the current text from the top. -/
def start (t : Transport α) (instant : Nat) : Transport α × Except (TransportFault α) Unit :=
  match t.state with
  | .paused => (t.resume instant, .ok ())
  | _ => (t.teardown instant).startAnew instant

def stop (t : Transport α) (instant : Nat) : Transport α :=
  match t.session with
  | none => t
  | some _ =>
    let t := if t.isFinished then t.log .uncollected else t
    (t.teardown instant).log .stopped

/-- Collects the result of a live loop that has returned, and ends its session. -/
def pollLive (t : Transport α) (instant : Nat) :
    Transport α × Except SoundFault (Option Nat) :=
  match t.sessionLoop?.bind LiveLoop.outcome? with
  | none => (t, .ok none)
  | some (.ok passes) => ((t.teardown instant).log (.liveFinished passes), .ok (some passes))
  | some (.error fault) => ((t.teardown instant).log (.liveFailed fault), .error fault)

end Transport

end Portamento
