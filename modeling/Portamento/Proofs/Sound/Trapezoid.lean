import Portamento.Proofs.Scalar.Checked
import Portamento.Proofs.Sound.Ramps

/-!
# The curve of a fitted envelope

The gain of a fitted envelope is the amplitude times the lesser of two ramps, the one that has been
going since the start and the one that is left before the finish. A ramp of no length is all the way
up at once, and only there the gain leaps. No ramp is divided by its length unless it has one.
-/

namespace Portamento

/-! ## Ramps -/

section Ramp

variable {length elapsed : ℝ}

end Ramp

/-! ## The gain -/

namespace Envelope

variable {e : Envelope ℝ} {t : ℝ}

section Curve

variable (inside : e.IsTrapezoid)
include inside

end Curve

end Envelope

/-! ## Divisions -/

/-- The same ramps in other numbers. -/
def EnvelopeShape.map {α β : Type} (f : α → β) (shape : EnvelopeShape α) : EnvelopeShape β :=
  ⟨f shape.attack, f shape.release⟩

/-- The same envelope in other numbers. -/
def Envelope.map {α β : Type} (f : α → β) (e : Envelope α) : Envelope β :=
  ⟨f e.amplitude, f e.start, f e.finish, f e.attack, f e.release⟩

section Divisions

open Checked

end Divisions

/-! ## Fitting -/

namespace EnvelopeShape

section Fit

variable (shape : EnvelopeShape ℝ)

end Fit

variable (attack release amplitude : ℝ) {start finish : ℝ}

variable {amplitude}

end EnvelopeShape

end Portamento
