import Portamento.Sound.Buffer

/-!
# Wave files

A buffer as the bytes of a wave file: one channel of signed samples of sixteen bits, least
significant byte first, behind a header of forty-four bytes.
-/

namespace Portamento.Wave

def fullScale : Nat := Nat.pow 2 15 - 1

/-- The bytes of a number, the least significant first. -/
def littleEndian (bytes n : Nat) : List UInt8 :=
  (List.range bytes).map fun k => UInt8.ofNat (n / Nat.pow 256 k % 256)

/-- The value of a sample in the file: scaled up, held within sixteen bits, and cut off towards
zero. -/
def quantise {α : Type} [Tonal α] (x : α) : Int :=
  let scaled := Tonal.sample (x * Scalar.ofNat fullScale)
  if scaled < Scalar.ofNat 0 then
    -(Int.ofNat (min (Scalar.floorCount (Scalar.ofNat 0 - scaled)) (fullScale + 1)))
  else Int.ofNat (min (Scalar.floorCount scaled) fullScale)

def sampleBytes (n : Int) : List UInt8 := littleEndian 2 (n % 65536).toNat

def tag (text : String) : List UInt8 := text.toList.map fun c => UInt8.ofNat c.toNat

/-- How many bytes a second of sound takes, within the four bytes that the header has for it. -/
def bytesPerSecond (rate : Nat) : Nat := 2 * rate % Nat.pow 256 4

/-- The header of a file with so many samples at a rate. The size of a sample is what a second takes
divided by the rate: two bytes, but none at a rate whose second does not fit into the header. -/
def header (frames rate : Nat) : List UInt8 :=
  let dataBytes := 2 * frames
  tag "RIFF" ++ littleEndian 4 (dataBytes + 36) ++ tag "WAVE" ++
    tag "fmt " ++ littleEndian 4 16 ++ littleEndian 2 1 ++ littleEndian 2 1 ++
    littleEndian 4 rate ++ littleEndian 4 (bytesPerSecond rate) ++
    littleEndian 2 (bytesPerSecond rate / rate) ++ littleEndian 2 16 ++
    tag "data" ++ littleEndian 4 dataBytes

def samples {α : Type} [Tonal α] (buffer : Buffer α) : List Int :=
  buffer.samples.toList.map quantise

def bytes {α : Type} [Tonal α] (buffer : Buffer α) : List UInt8 :=
  header buffer.frames buffer.rate ++ (samples buffer).flatMap sampleBytes

end Portamento.Wave
