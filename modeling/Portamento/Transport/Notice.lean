import Portamento.Decimal.Fixed
import Portamento.Settings.Basic
import Portamento.Sound.Tone
import Portamento.Text.Padding

/-!
# Notices

What the program logs while it plays, as values. The wording, and the level under which a line is
logged, are decided in one place.
-/

namespace Portamento

inductive Notice (α : Type) where
  /-- Playback has begun: chords and seconds of one pass, and how it is played. -/
  | started (chords : Nat) (seconds : α) (mode : PlaybackMode) (looping : Bool)
  | paused (time : α)
  | resumed (time : α)
  | stopped
  /-- A live loop had returned before it was stopped, and nobody had asked for its result. -/
  | uncollected
  | loopFinished (passes : Nat)
  | liveFinished (passes : Nat)
  | liveFailed (fault : SoundFault)
  /-- A tone has begun, with its first frequency and, if that changes, its last. -/
  | toneBegan (start : α) (id : Nat) (first : α) (last : Option α)
  /-- Playback has come to another slot of the pass, at a place in the buffer. -/
  | slotReached (time : α) (isRest : Bool) (index : Nat) (position : α)
  | rendered (passes frames rate : Nat) (peak : α) (output : String)
  deriving DecidableEq, Repr

inductive Level where
  | info
  | warning
  | error
  deriving DecidableEq, Repr

def Level.name : Level → String
  | .info => "INFO"
  | .warning => "WARN"
  | .error => "ERROR"

namespace Notice

def level {α : Type} : Notice α → Level
  | .uncollected => .warning
  | .liveFailed _ => .error
  | _ => .info

def seconds (x : Float) : String := Decimal.fixed 3 x ++ "s"

/-- A time in the column that begins the lines of a performance. -/
def timeColumn (x : Float) : String := Text.padLeft 8 (Decimal.fixed 3 x) ++ "s  "

def message : Notice Float → String
  | .started chords length mode looping =>
    "Playback started: " ++ Nat.repr chords ++ " chords, " ++ seconds length ++ " per pass, " ++
      mode.name ++ " mode, loop=" ++ (if looping then "true" else "false")
  | .paused time => "Playback paused at " ++ seconds time
  | .resumed time => "Playback resumed at " ++ seconds time
  | .stopped => "Playback stopped"
  | .uncollected => "Live loop returned before stop; use poll_live to collect its result"
  | .loopFinished passes => "Live loop finished after " ++ Nat.repr passes ++ " passes"
  | .liveFinished passes => "Live playback finished after " ++ Nat.repr passes ++ " passes"
  | .liveFailed .brokenOff => "Live playback task panicked: task panicked"
  | .liveFailed fault => "Live playback failed: " ++ fault.message
  | .toneBegan start id first last =>
    timeColumn start ++ "tone " ++ toneName id ++ "  " ++ Decimal.fixed 2 first ++ " Hz" ++
      (match last with
        | some last => " -> " ++ Decimal.fixed 2 last ++ " Hz"
        | none => "")
  | .slotReached time isRest index position =>
    timeColumn time ++ (if isRest then "rest" else "chord") ++ " " ++ Nat.repr index ++ " (" ++
      seconds position ++ " into pass)"
  | .rendered passes frames rate peak output =>
    "Rendered " ++ Nat.repr passes ++ " pass(es), " ++ Nat.repr frames ++ " frames at " ++
      Nat.repr rate ++ " Hz, peak " ++ Decimal.fixed 3 peak ++ " -> " ++ output

def line (notice : Notice Float) : String := notice.level.name ++ " " ++ notice.message

end Notice

structure Log (α : Type) where
  latestFirst : List (Notice α)

namespace Log

variable {α : Type}

def empty : Log α := ⟨[]⟩

/-- The notices in the order in which they were logged. -/
def notices (log : Log α) : List (Notice α) := log.latestFirst.reverse

def add (log : Log α) (notice : Notice α) : Log α := ⟨notice :: log.latestFirst⟩

theorem notices_add (log : Log α) (notice : Notice α) :
    (log.add notice).notices = log.notices ++ [notice] := by
  simp [add, notices]

def addAll (log : Log α) (later : List (Notice α)) : Log α := later.foldl add log

theorem notices_addAll (log : Log α) (later : List (Notice α)) :
    (log.addAll later).notices = log.notices ++ later := by
  induction later generalizing log with
  | nil => simp [addAll]
  | cons notice later ih =>
    have h := ih (log.add notice)
    simp only [addAll, List.foldl_cons] at h ⊢
    rw [h, notices_add]
    simp

end Log

end Portamento
