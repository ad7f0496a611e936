import Mathlib.Analysis.Real.Sqrt
import Mathlib.Order.WithBot

/-!
# Exact square roots

The square roots of whole numbers and infinity, as numbers to compare: a root is kept as what it is
the root of, so that comparing is exact and can be computed.  The order is that of the real
numbers.
-/

/-- The square root of `radicand`. -/
structure Root where
  radicand : WithTop ℕ
  deriving DecidableEq

namespace Root

theorem radicand_injective : Function.Injective radicand := by
  rintro ⟨a⟩ ⟨b⟩ rfl
  rfl

instance : LinearOrder Root := LinearOrder.lift' radicand radicand_injective

def infinity : Root := ⟨⊤⟩

/-- The square root of a number that is not negative. -/
def sqrt (x : ℤ) : Root := ⟨x.toNat⟩

theorem sqrt_lt_infinity (x : ℤ) : sqrt x < infinity := WithTop.coe_lt_top x.toNat

theorem sqrt_le_sqrt_iff {x y : ℤ} (hy : 0 ≤ y) : sqrt x ≤ sqrt y ↔ √(x : ℝ) ≤ √(y : ℝ) := by
  have hradicand : sqrt x ≤ sqrt y ↔ x.toNat ≤ y.toNat := WithTop.coe_le_coe
  rw [hradicand, Real.sqrt_le_sqrt_iff (Int.cast_nonneg hy), Int.cast_le]
  omega

theorem sqrt_lt_sqrt_iff {x y : ℤ} (hx : 0 ≤ x) : sqrt x < sqrt y ↔ √(x : ℝ) < √(y : ℝ) := by
  rw [← not_le, ← not_le, sqrt_le_sqrt_iff hx]

end Root
