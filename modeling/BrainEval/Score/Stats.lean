import Mathlib
import BrainEval.Lib.Mean

set_option autoImplicit false

namespace BrainEval.Stats

variable {F : Type} [Field F]

-- The mean of an empty slice is zero, not a NaN.
def mean (xs : List F) : F := if xs.isEmpty then 0 else xs.sum / xs.length

theorem mean_eq (xs : List F) : mean xs = Mean.mean xs := by
  cases xs <;> simp [mean, Mean.mean]

end BrainEval.Stats
