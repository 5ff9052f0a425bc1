import Portamento.Interchange.Document
import Portamento.Scalar.Double
import Portamento.Score.Basic
import Portamento.Settings.Basic
import Portamento.Sound.Tone

/-!
# Scores, timelines, tones and settings as documents

Which fields a value has in a document, under which names, and in which order.
-/

namespace Portamento

open Document (record list number count flag text)

def Document.ofString (s : String) : Document := text s.toList

/-- The stages of a chord, each a list of frequencies. -/
def stagesDocument (stages : List (List Float)) : Document :=
  list (stages.map fun stage => list (stage.map number))

def Chord.document (chord : Chord Float) : Document :=
  record [("source", text chord.source), ("duration_seconds", number chord.seconds),
    ("frequency_stages", stagesDocument chord.stages)]

def Score.document (score : Score Float) : Document :=
  record [("tempo", number score.tempo), ("chords", list (score.chords.map Chord.document))]

def FrequencyPath.document (path : FrequencyPath Float) : Document :=
  let point (p : ControlPoint Float) :=
    record [("time", number p.time), ("frequency", number p.frequency)]
  record [("points", list (path.points.map point))]

def Envelope.document (e : Envelope Float) : Document :=
  record [("amplitude", number e.amplitude), ("start", number e.start), ("end", number e.finish),
    ("attack", number e.attack), ("release", number e.release)]

def Slot.document (slot : Slot Float) : Document :=
  record [("index", count slot.index), ("start", number slot.start), ("end", number slot.finish),
    ("rest", flag slot.isRest)]

def Event.document (event : Event Float) : Document :=
  record [("chord_index", count event.chord), ("frequency_path", event.path.document),
    ("start_time", number event.start), ("end_time", number event.finish),
    ("amplitude", number event.amplitude), ("envelope", event.envelope.document)]

def Timeline.document (timeline : Timeline Float) : Document :=
  record [("start", number timeline.start), ("end", number timeline.finish),
    ("slots", list (timeline.slots.map Slot.document)),
    ("events", list (timeline.events.map Event.document))]

def Tone.document (tone : Tone Float) : Document :=
  record [("id", count tone.id), ("path", tone.path.document), ("start", number tone.start),
    ("end", number tone.finish),
    ("envelope", match tone.envelope with
      | some e => e.document
      | none => .nothing)]

def ToneList.document (tones : ToneList Float) : Document :=
  list (tones.tones.map Tone.document)

def EnvelopeShape.document (shape : EnvelopeShape Float) : Document :=
  record [("attack", number shape.attack), ("release", number shape.release)]

def Accidental.document : Accidental → Document
  | .sharp => .ofString "Sharp"
  | .flat => .ofString "Flat"

/-- A note as it is written. -/
def Note.document : Note → Document
  | .rest => .ofString "Rest"
  | .pitch letter accidental octave =>
    record [("Pitched", record
      [("letter", text [letter.toChar]),
       ("accidental", match accidental with
         | some accidental => accidental.document
         | none => .nothing),
       ("octave", match octave with
         | some octave => count octave
         | none => .nothing)])]

def PitchClass.word : PitchClass → String
  | .c => "C"
  | .cSharp => "CSharp"
  | .d => "D"
  | .dSharp => "DSharp"
  | .e => "E"
  | .f => "F"
  | .fSharp => "FSharp"
  | .g => "G"
  | .gSharp => "GSharp"
  | .a => "A"
  | .aSharp => "ASharp"
  | .b => "B"

/-- A note name as it sounds. -/
def Spelling.document (spelling : Spelling) : Document :=
  record [("name", .ofString spelling.pitchClass.word), ("frequency", number spelling.frequency)]

/-- What a length suffix does, if there is one. -/
def LengthChange.document? : Option LengthChange → Document
  | none => .nothing
  | some (.divide n) => record [("Divide", count n)]
  | some (.multiply n) => record [("Multiply", count n)]

def Settings.document (s : Settings Float) : Document :=
  record
    [("playback", record
      [("tempo", number s.tempo), ("lead_in_seconds", number s.leadIn), ("loop", flag s.looping),
       ("mode", .ofString s.mode.name), ("sample_rate", count s.sampleRate),
       ("schedule_ahead_seconds", number s.ahead)]),
     ("envelope", record
      [("attack_ms", number s.attackMs), ("release_ms", number s.releaseMs)]),
     ("telemetry", record [("log_level", .ofString s.logLevel)])]

end Portamento
