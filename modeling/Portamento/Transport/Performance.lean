import Portamento.Live.Ensemble
import Portamento.Transport.Basic

/-!
# Performances

A performance plays a text on a transport for a number of seconds, and logs what is heard: each tone
of a live loop as it begins, or each slot of a rendered pass as it is reached. It looks at the clock
at regular instants.
-/

namespace Portamento

namespace Transport

variable {α : Type} [Tonal α]

/-- Changes the device and the live loops, if there is a device. -/
def onEnsemble (t : Transport α) (change : Ensemble α → Ensemble α) : Transport α :=
  match t.device with
  | none => t
  | some device =>
    let e := change ⟨t.loops, device, t.logged⟩
    { t with loops := e.loops, device := some e.device, logged := e.logged }

/-- Lets the live loops take the steps that they can take at an instant. -/
def settle (t : Transport α) (instant : Nat) : Transport α :=
  t.onEnsemble fun e => e.settle instant

def sleep (t : Transport α) (instant target : Nat) : Transport α :=
  t.onEnsemble fun e => e.sleep instant target

end Transport

/-- A performance between two looks at the clock. -/
structure Performance (α : Type) where
  transport : Transport α
  /-- One pass that starts at zero. -/
  pass : Timeline α
  last : α
  /-- The slot that was heard at the last look. -/
  slot : Option Nat

namespace Performance

variable {α : Type} [Tonal α]

/-- The nanoseconds between two looks at the clock. -/
def interval : Nat := 50000000

def toneNotice (tone : Tone α) : Notice α :=
  .toneBegan tone.start tone.id tone.path.initialFrequency
    (if tone.path.isGlide then some tone.path.finalFrequency else none)

/-- Logs the tones that have begun since the last look. -/
def logTones (p : Performance α) (now : α) : Performance α :=
  match p.transport.device with
  | none => p
  | some device =>
    let begun := device.tones.startingBetween p.last now
    { p with
      transport :=
        { p.transport with logged := p.transport.logged.addAll (begun.map toneNotice) } }

def position? (p : Performance α) (now : α) : Option α :=
  p.transport.device.bind fun device => device.buffer.bind fun buffer => buffer.positionAt? now

/-- Logs the slot that is heard, if it is not the one of the last look. -/
def logSlot (p : Performance α) (now : α) : Performance α :=
  match p.position? now with
  | none => p
  | some position =>
    match p.pass.slotAt? position with
    | none => { p with slot := none }
    | some slot =>
      if p.slot = some slot.index then p
      else
        { p with
          slot := some slot.index
          transport := p.transport.log (.slotReached now slot.isRest slot.index position) }

/-- One look at the clock. A result ends the performance. -/
def look (p : Performance α) (seconds : α) (instant : Nat) :
    Performance α × Option (Except SoundFault Unit) :=
  let now := p.transport.now instant
  let p := match p.transport.settings.mode with
    | .live => p.logTones now
    | .rendered => p.logSlot now
  let p := { p with last := now }
  match p.transport.pollLive instant with
  | (transport, .error fault) => ({ p with transport }, some (.error fault))
  | (transport, .ok (some _)) => ({ p with transport }, some (.ok ()))
  | (transport, .ok none) =>
    ({ p with transport }, if seconds ≤ now then some (.ok ()) else none)

/-- Lets time pass from a look to the next one. The live loops take their steps after the look, and
until just before the next. -/
def wait (p : Performance α) (instant : Nat) : Performance α :=
  { p with transport := p.transport.sleep instant (instant + interval - 1) }

/-- Looks at the clock until a look ends the performance; with the result, and its instant. -/
def run (fuel : Nat) (p : Performance α) (seconds : α) (instant : Nat) :
    Performance α × Option (Except SoundFault Unit) × Nat :=
  match fuel with
  | 0 => (p, none, instant)
  | fuel + 1 =>
    match p.look seconds instant with
    | (p, some result) => (p, some result, instant)
    | (p, none) => run fuel (p.wait instant) seconds (instant + interval)

/-- More looks than any performance takes. -/
def patience : Nat := Nat.pow 2 62

def finish (p : Performance α) (instant : Nat) : Performance α :=
  { p with transport := p.transport.stop instant }

end Performance

/-- A transport for the given settings, with a device at the rate of the rendered passes. -/
def Transport.forPerformance {α : Type} [Tonal α] (settings : Settings α) (text : List Char) :
    Transport α :=
  .new settings text ⟨.new settings.sampleRate, 0, 0⟩

def Performance.begin {α : Type} [Tonal α] (settings : Settings α) (text : List Char)
    (instant : Nat) : Except (TransportFault α) (Performance α) :=
  match Score.read text settings.tempo with
  | .error fault => .error (.score fault)
  | .ok score =>
    match (Transport.forPerformance settings text).start instant with
    | (_, .error fault) => .error fault
    | (transport, .ok ()) =>
      .ok ⟨transport, .ofScore settings.shape score (Scalar.ofNat 0), Scalar.ofNat 0, none⟩

/-- Plays a text for a number of seconds, from the instant zero on: what is logged, and whether the
performance fails. -/
def Performance.play {α : Type} [Tonal α] (settings : Settings α) (text : List Char)
    (seconds : α) : List (Notice α) × Except (TransportFault α) Unit :=
  match Performance.begin settings text 0 with
  | .error fault => ([], .error fault)
  | .ok p =>
    match p.run patience seconds 0 with
    | (p, some (.error fault), _) => (p.transport.notices, .error (.sound fault))
    | (p, _, instant) => ((p.finish instant).transport.notices, .ok ())

end Portamento
