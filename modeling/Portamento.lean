import Portamento.CommandLine.Arguments
import Portamento.CommandLine.Demo
import Portamento.CommandLine.Fault
import Portamento.CommandLine.Help
import Portamento.CommandLine.Report
import Portamento.CommandLine.Run
import Portamento.Decimal.Binary
import Portamento.Decimal.Fixed
import Portamento.Decimal.Layout
import Portamento.Decimal.Reading
import Portamento.Decimal.Shortest
import Portamento.Files.Path
import Portamento.Files.Tree
import Portamento.Interchange.Document
import Portamento.Interchange.Records
import Portamento.Live.Ensemble
import Portamento.Live.Loop
import Portamento.Main
import Portamento.Proofs.Decimal.Double
import Portamento.Proofs.Decimal.Literal
import Portamento.Proofs.Decimal.Nearest
import Portamento.Proofs.Decimal.Positive
import Portamento.Proofs.Decimal.Shortest
import Portamento.Proofs.Decimal.Sum
import Portamento.Proofs.Live.Closing
import Portamento.Proofs.Live.Emission
import Portamento.Proofs.Live.Ledger
import Portamento.Proofs.Live.Passes
import Portamento.Proofs.Live.Punctual
import Portamento.Proofs.Live.Report
import Portamento.Proofs.Live.Schedule
import Portamento.Proofs.Live.Sounding
import Portamento.Proofs.Live.Step
import Portamento.Proofs.Live.Usable
import Portamento.Proofs.Scalar.Advancing
import Portamento.Proofs.Scalar.Checked
import Portamento.Proofs.Scalar.Compared
import Portamento.Proofs.Scalar.Exact
import Portamento.Proofs.Scalar.Ordered
import Portamento.Proofs.Scalar.Ranged
import Portamento.Proofs.Score.Balance
import Portamento.Proofs.Score.Concatenation
import Portamento.Proofs.Score.Culprit
import Portamento.Proofs.Score.Documented
import Portamento.Proofs.Score.Grammar
import Portamento.Proofs.Score.Language
import Portamento.Proofs.Score.Length
import Portamento.Proofs.Score.LetterCase
import Portamento.Proofs.Score.Matrix
import Portamento.Proofs.Score.NormalForm
import Portamento.Proofs.Score.Pieces
import Portamento.Proofs.Score.Reading
import Portamento.Proofs.Score.Semitone
import Portamento.Proofs.Score.Stages
import Portamento.Proofs.Score.Suffix
import Portamento.Proofs.Score.Unmatched
import Portamento.Proofs.Settings.Blame
import Portamento.Proofs.Settings.Layers
import Portamento.Proofs.Settings.Precedence
import Portamento.Proofs.Settings.Printed
import Portamento.Proofs.Sound.Bookkeeping
import Portamento.Proofs.Sound.Frames
import Portamento.Proofs.Sound.Gain
import Portamento.Proofs.Sound.Level
import Portamento.Proofs.Sound.Mixing
import Portamento.Proofs.Sound.Playing
import Portamento.Proofs.Sound.Ramps
import Portamento.Proofs.Sound.Repetition
import Portamento.Proofs.Sound.Request
import Portamento.Proofs.Sound.Running
import Portamento.Proofs.Sound.Time
import Portamento.Proofs.Sound.Trapezoid
import Portamento.Proofs.Text.Bytes
import Portamento.Proofs.Timeline.Glide
import Portamento.Proofs.Timeline.Layout
import Portamento.Proofs.Timeline.Notes
import Portamento.Proofs.Timeline.Shifted
import Portamento.Proofs.Timeline.Slots
import Portamento.Proofs.Timeline.Tiling
import Portamento.Proofs.Toml.Distinct
import Portamento.Proofs.Toml.Figure
import Portamento.Proofs.Toml.Grouping
import Portamento.Proofs.Toml.Overlay
import Portamento.Proofs.Toml.Path
import Portamento.Proofs.Toml.Quotation
import Portamento.Proofs.Transport.Agreement
import Portamento.Proofs.Transport.Alike
import Portamento.Proofs.Transport.Beginning
import Portamento.Proofs.Transport.Cache
import Portamento.Proofs.Transport.Coherence
import Portamento.Proofs.Transport.Edited
import Portamento.Proofs.Transport.Effect
import Portamento.Proofs.Transport.Errand
import Portamento.Proofs.Transport.Failure
import Portamento.Proofs.Transport.Final
import Portamento.Proofs.Transport.Frame
import Portamento.Proofs.Transport.Harmony
import Portamento.Proofs.Transport.Heard
import Portamento.Proofs.Transport.Idle
import Portamento.Proofs.Transport.Orderly
import Portamento.Proofs.Transport.Outcome
import Portamento.Proofs.Transport.Provenance
import Portamento.Proofs.Transport.Recital
import Portamento.Proofs.Transport.Script
import Portamento.Proofs.Transport.Tally
import Portamento.Proofs.Transport.Unison
import Portamento.Proofs.Transport.World
import Portamento.Scalar.Basic
import Portamento.Scalar.Double
import Portamento.Score.Basic
import Portamento.Score.Chord
import Portamento.Score.Fault
import Portamento.Score.Length
import Portamento.Score.Note
import Portamento.Score.Pitch
import Portamento.Score.Token
import Portamento.Settings.Basic
import Portamento.Settings.Decoded
import Portamento.Settings.Environment
import Portamento.Settings.Printed
import Portamento.Settings.Sources
import Portamento.Sound.Buffer
import Portamento.Sound.Clock
import Portamento.Sound.Device
import Portamento.Sound.Tone
import Portamento.Sound.Wave
import Portamento.Text.Blank
import Portamento.Text.Hidden
import Portamento.Text.Padding
import Portamento.Text.Quoted
import Portamento.Timeline.Basic
import Portamento.Timeline.Envelope
import Portamento.Timeline.Path
import Portamento.Toml.Document
import Portamento.Toml.Item
import Portamento.Toml.Layer
import Portamento.Toml.Lexical
import Portamento.Toml.Moment
import Portamento.Toml.Number
import Portamento.Toml.Quotation
import Portamento.Toml.Reserved
import Portamento.Toml.Tree
import Portamento.Toml.Value
import Portamento.Transport.Basic
import Portamento.Transport.Notice
import Portamento.Transport.Performance
