import Mathlib.Algebra.Order.Field.Basic
import Mathlib.LinearAlgebra.Matrix.Symmetric
import Mathlib.Tactic

/-!
# Quadratic forms and their roots

The value of a square matrix at a vector, over any ordered field with square roots of nonnegative
numbers. For a positive semidefinite matrix the set of vectors whose root stays below a bound is
convex (`rootQuadratic_interpolate_le`), and scaling a vector scales its root (`rootQuadratic_smul`).
-/

set_option autoImplicit false

namespace Foundation

universe u v

/-- Square roots of nonnegative numbers. -/
class SquareRoot (K : Type u) [Field K] [LinearOrder K] where
  sqrt : K → K
  sqrt_nonneg : ∀ x, 0 ≤ sqrt x
  mul_self_sqrt : ∀ x, 0 ≤ x → sqrt x * sqrt x = x

export SquareRoot (sqrt sqrt_nonneg mul_self_sqrt)

section Quadratic

variable {K : Type u} {n : Type v} [Fintype n] [Field K]

open Matrix

/-- The value of the form at a vector. -/
def quadratic (m : Matrix n n K) (x : n → K) : K := (x ᵥ* m) ⬝ᵥ x

/-- A symmetric matrix whose form is nowhere negative. -/
structure PosSemidefinite [LinearOrder K] (m : Matrix n n K) : Prop where
  symmetric : m.IsSymm
  nonneg : ∀ x, 0 ≤ quadratic m x

theorem quadratic_smul (m : Matrix n n K) (c : K) (x : n → K) :
    quadratic m (c • x) = c * c * quadratic m x := by
  simp only [quadratic, smul_vecMul, smul_dotProduct, dotProduct_smul, smul_eq_mul]
  ring

/-- The form at an interpolated vector. -/
theorem quadratic_interpolate (m : Matrix n n K) (s : K) (x y : n → K) :
    quadratic m (x + s • (y - x)) =
      (1 - s) * quadratic m x + s * quadratic m y - s * (1 - s) * quadratic m (y - x) := by
  simp only [quadratic, add_vecMul, smul_vecMul, sub_vecMul, add_dotProduct, smul_dotProduct,
    sub_dotProduct, dotProduct_add, dotProduct_smul, dotProduct_sub, smul_eq_mul]
  ring

end Quadratic

section Root

variable {K : Type u} {n : Type v} [Fintype n] [Field K] [LinearOrder K] [IsStrictOrderedRing K]
  [SquareRoot K]

theorem sqrt_le_iff {x bound : K} (hx : 0 ≤ x) (hbound : 0 ≤ bound) :
    sqrt x ≤ bound ↔ x ≤ bound * bound := by
  have hroot := mul_self_sqrt x hx
  constructor
  · intro h
    rw [← hroot]
    exact mul_self_le_mul_self (sqrt_nonneg x) h
  · intro h
    rw [← hroot] at h
    exact (mul_self_le_mul_self_iff (sqrt_nonneg x) hbound).2 h

theorem sqrt_eq_iff {x y : K} (hx : 0 ≤ x) (hy : 0 ≤ y) : sqrt x = y ↔ x = y * y := by
  have hroot := mul_self_sqrt x hx
  constructor
  · intro h
    rw [← hroot, h]
  · intro h
    rw [h] at hroot ⊢
    exact (mul_self_inj (sqrt_nonneg _) hy).1 hroot

/-- The root of the form. -/
def rootQuadratic (m : Matrix n n K) (x : n → K) : K := sqrt (max (quadratic m x) 0)

omit [IsStrictOrderedRing K] in
theorem rootQuadratic_eq {m : Matrix n n K} (h : PosSemidefinite m) (x : n → K) :
    rootQuadratic m x = sqrt (quadratic m x) := by
  rw [rootQuadratic, max_eq_left (h.nonneg x)]

/-- Scaling a vector scales its root. -/
theorem rootQuadratic_smul {m : Matrix n n K} (h : PosSemidefinite m) {c : K} (hc : 0 ≤ c)
    (x : n → K) : rootQuadratic m (c • x) = c * rootQuadratic m x := by
  rw [rootQuadratic_eq h, rootQuadratic_eq h,
    sqrt_eq_iff (h.nonneg _) (mul_nonneg hc (sqrt_nonneg _)), quadratic_smul]
  have hroot := mul_self_sqrt _ (h.nonneg x)
  calc c * c * quadratic m x
      = c * c * (sqrt (quadratic m x) * sqrt (quadratic m x)) := by rw [hroot]
    _ = c * sqrt (quadratic m x) * (c * sqrt (quadratic m x)) := by ring

/-- Between two vectors below a bound every vector is below it. -/
theorem rootQuadratic_interpolate_le {m : Matrix n n K} (h : PosSemidefinite m) {s bound : K}
    (hs : 0 ≤ s) (hs' : s ≤ 1) (hbound : 0 ≤ bound) {x y : n → K}
    (hx : rootQuadratic m x ≤ bound) (hy : rootQuadratic m y ≤ bound) :
    rootQuadratic m (x + s • (y - x)) ≤ bound := by
  rw [rootQuadratic_eq h, sqrt_le_iff (h.nonneg _) hbound] at hx hy ⊢
  have hrest := mul_nonneg (mul_nonneg hs (sub_nonneg.2 hs')) (h.nonneg (y - x))
  calc quadratic m (x + s • (y - x))
      = (1 - s) * quadratic m x + s * quadratic m y - s * (1 - s) * quadratic m (y - x) :=
        quadratic_interpolate m s x y
    _ ≤ (1 - s) * (bound * bound) + s * (bound * bound) := by
        have hleft := mul_le_mul_of_nonneg_left hx (sub_nonneg.2 hs')
        have hright := mul_le_mul_of_nonneg_left hy hs
        linarith
    _ = bound * bound := by ring

end Root

end Foundation
