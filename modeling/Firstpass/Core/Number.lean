import Firstpass.Core.Json
import Mathlib.Algebra.Order.Field.Rat

/-!
# Floating-point numbers

The routing code computes with `f64`. Its operations are taken without any law,
so what is proved over an `F64` holds of rounded arithmetic too.
-/

namespace Firstpass

/-- The operations of `f64` the code uses. `text` is the decimal text the JSON
writer gives a finite number; other numbers are written `null`. -/
class F64 (F : Type) extends Zero F, One F, Add F, Sub F, Mul F, Div F, LE F, LT F, NatCast F,
    OfScientific F where
  decLe : ∀ a b : F, Decidable (a ≤ b)
  decLt : ∀ a b : F, Decidable (a < b)
  text : F → Option Json.FloatText

instance F64.decidableLe [F64 F] (a b : F) : Decidable (a ≤ b) := F64.decLe a b
instance F64.decidableLt [F64 F] (a b : F) : Decidable (a < b) := F64.decLt a b

/-- `f64::max`, for operands that are not NaN. -/
def F64.max [F64 F] (a b : F) : F := if a ≤ b then b else a

def F64.sum [F64 F] (xs : List F) : F := xs.foldl (· + ·) 0

/-- Exact rationals, to run the definitions on. An integral one has the text
its float has. -/
instance : F64 ℚ where
  decLe := inferInstance
  decLt := inferInstance
  text q :=
    if q.den = 1 then some {
      text := (if q < 0 then ['-'] else []) ++ Nat.toDigits 10 q.num.natAbs ++ ['.', '0']
      numeric := by
        intro c hc
        simp only [List.mem_append, List.mem_cons, List.not_mem_nil, or_false] at hc
        rcases hc with (hsign | hdigit) | rfl | rfl
        · split at hsign <;> simp_all [Json.isNumberChar]
        · simp [Json.isNumberChar, Nat.isDigit_of_mem_toDigits (by decide) (by decide) hdigit]
        · rfl
        · rfl
      fractional := by simp }
    else none

end Firstpass
