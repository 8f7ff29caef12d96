import Mathlib.Analysis.SpecialFunctions.Log.Basic
import Mathlib.Analysis.SpecialFunctions.Sqrt

/-!
# Exact arithmetic

Calibration is modelled over an ordered field. The functions of `f64` that a
field does not have are those of the reals.
-/

namespace Firstpass

class Analytic (F : Type) where
  sqrt : F → F
  ln : F → F
  exp : F → F

noncomputable instance : Analytic ℝ := ⟨Real.sqrt, Real.log, Real.exp⟩

end Firstpass
