import Mathlib.Algebra.Group.Even
import Mathlib.Tactic.FieldSimp
import Mathlib.Tactic.LinearCombination
import Mathlib.Tactic.Ring

/-!
# Complete Edwards curves

The points of `y² - x² = 1 + d x² y²` over a field in which `-1` is a square and `d` is not.  The
denominators of the addition law never vanish there, so the law is total, and it makes the points a
commutative group.

Associativity is an identity of polynomials modulo the equations of the three points.  With `m` the
product of the coordinates of a point and `w` its `y² - x² - 1`, a multiple of `d m² - w` of each point
is what the two sides differ by.
-/

namespace Systems

/-- A curve whose addition law is complete. -/
structure Edwards (F : Type*) [Field F] where
  d : F
  root : F
  root_sq : root ^ 2 = -1
  d_nonsquare : ¬ IsSquare d
  two_ne_zero : (2 : F) ≠ 0

namespace Edwards

variable {F : Type*} [Field F] {E : Edwards F}

/-- A point of the curve. -/
@[ext] structure Point (E : Edwards F) where
  x : F
  y : F
  equation : y ^ 2 - x ^ 2 = 1 + E.d * x ^ 2 * y ^ 2

/-! ### Completeness -/

theorem neg_d_nonsquare (E : Edwards F) : ¬ IsSquare (-E.d) := by
  rintro ⟨r, hr⟩
  refine E.d_nonsquare ⟨E.root * r, ?_⟩
  linear_combination -hr - r ^ 2 * E.root_sq

/-- The product the denominators of a sum are made of. -/
def cross (P Q : E.Point) : F := E.d * P.x * Q.x * P.y * Q.y

/-- **Completeness.**  With `e` the product, `(root x₁ + e y₁)²` is `-d` times a square. -/
theorem cross_sq_ne_one (P Q : E.Point) : cross P Q ^ 2 ≠ 1 := by
  intro hsq
  have hne : cross P Q ≠ 0 := by
    intro hzero
    rw [hzero] at hsq
    exact one_ne_zero (hsq.symm.trans (by ring))
  have hproduct : P.x ≠ 0 ∧ Q.x ≠ 0 ∧ P.y ≠ 0 := by
    refine ⟨?_, ?_, ?_⟩ <;> intro hzero <;> exact hne (by rw [cross, hzero]; ring)
  obtain ⟨hx, hx', hy⟩ := hproduct
  have hroot : E.root ≠ 0 := by
    intro hzero
    have := E.root_sq
    rw [hzero] at this
    exact one_ne_zero (by linear_combination this)
  have hsquare : ∀ s : F, s ^ 2 = 1 → (E.root * P.x + s * cross P Q * P.y) ^ 2
      = -E.d * (E.root * P.x * P.y * (E.root * Q.x + s * Q.y)) ^ 2 := by
    intro s hs
    unfold cross at hsq ⊢
    linear_combination (P.x ^ 2 + E.d * P.x ^ 2 * P.y ^ 2 *
        ((E.root ^ 2 - 1) * Q.x ^ 2 + 2 * E.root * s * Q.x * Q.y + s ^ 2 * Q.y ^ 2)) * E.root_sq
      + ((E.d * P.x * Q.x * P.y * Q.y) ^ 2 * P.y ^ 2 - E.d * P.x ^ 2 * P.y ^ 2 * Q.y ^ 2) * hs
      + (P.y ^ 2 - 1) * hsq + P.equation - E.d * P.x ^ 2 * P.y ^ 2 * Q.equation
  -- one of the two signs leaves the second factor
  have hfactor : ∃ s : F, s ^ 2 = 1 ∧ E.root * Q.x + s * Q.y ≠ 0 := by
    by_contra hnone
    simp only [not_exists, not_and, not_not] at hnone
    have hplus := hnone 1 (by ring)
    have hminus := hnone (-1) (by ring)
    have htwo : 2 * (E.root * Q.x) = 0 := by linear_combination hplus + hminus
    rcases mul_eq_zero.mp htwo with h | h
    · exact E.two_ne_zero h
    · exact (mul_ne_zero hroot hx') h
  obtain ⟨s, hs, hsum⟩ := hfactor
  refine E.neg_d_nonsquare
    ⟨(E.root * P.x + s * cross P Q * P.y) / (E.root * P.x * P.y * (E.root * Q.x + s * Q.y)), ?_⟩
  have hden : E.root * P.x * P.y * (E.root * Q.x + s * Q.y) ≠ 0 :=
    mul_ne_zero (mul_ne_zero (mul_ne_zero hroot hx) hy) hsum
  rw [div_mul_div_comm, ← sq, ← sq, eq_div_iff (pow_ne_zero 2 hden)]
  exact (hsquare s hs).symm

theorem one_add_cross_ne_zero (P Q : E.Point) : 1 + cross P Q ≠ 0 := by
  intro h
  refine cross_sq_ne_one P Q ?_
  linear_combination (cross P Q - 1) * h

theorem one_sub_cross_ne_zero (P Q : E.Point) : 1 - cross P Q ≠ 0 := by
  intro h
  refine cross_sq_ne_one P Q ?_
  linear_combination (-cross P Q - 1) * h

/-! ### The addition law -/

theorem add_equation (P Q : E.Point) :
    ((P.y * Q.y + P.x * Q.x) / (1 - cross P Q)) ^ 2 - ((P.x * Q.y + P.y * Q.x) / (1 + cross P Q)) ^ 2
      = 1 + E.d * ((P.x * Q.y + P.y * Q.x) / (1 + cross P Q)) ^ 2
          * ((P.y * Q.y + P.x * Q.x) / (1 - cross P Q)) ^ 2 := by
  have hplus := one_add_cross_ne_zero P Q
  have hminus := one_sub_cross_ne_zero P Q
  have hnumerator : (P.y * Q.y + P.x * Q.x) ^ 2 * (1 + cross P Q) ^ 2
      - (P.x * Q.y + P.y * Q.x) ^ 2 * (1 - cross P Q) ^ 2
      = (1 + cross P Q) ^ 2 * (1 - cross P Q) ^ 2
        + E.d * (P.x * Q.y + P.y * Q.x) ^ 2 * (P.y * Q.y + P.x * Q.x) ^ 2 := by
    unfold cross
    linear_combination ((Q.y ^ 2 - Q.x ^ 2) * (1 + (E.d * P.x * Q.x * P.y * Q.y) ^ 2)
        - E.d * Q.x ^ 2 * Q.y ^ 2 * (P.y ^ 2 - P.x ^ 2 + 1 + E.d * P.x ^ 2 * P.y ^ 2)) * P.equation
      + ((1 + E.d * P.x ^ 2 * P.y ^ 2) * (1 + (E.d * P.x * Q.x * P.y * Q.y) ^ 2)
        - E.d * P.x ^ 2 * P.y ^ 2 * (Q.y ^ 2 - Q.x ^ 2 + 1 + E.d * Q.x ^ 2 * Q.y ^ 2)) * Q.equation
  field_simp
  linear_combination hnumerator

/-- The sum, by the complete law. -/
instance : Add E.Point where
  add P Q := {
    x := (P.x * Q.y + P.y * Q.x) / (1 + cross P Q)
    y := (P.y * Q.y + P.x * Q.x) / (1 - cross P Q)
    equation := add_equation P Q }

instance : Zero E.Point := ⟨⟨0, 1, by ring⟩⟩

instance : Neg E.Point := ⟨fun P => ⟨-P.x, P.y, by linear_combination P.equation⟩⟩

theorem add_x (P Q : E.Point) : (P + Q).x = (P.x * Q.y + P.y * Q.x) / (1 + cross P Q) := rfl

theorem add_y (P Q : E.Point) : (P + Q).y = (P.y * Q.y + P.x * Q.x) / (1 - cross P Q) := rfl

@[simp] theorem zero_x : (0 : E.Point).x = 0 := rfl

@[simp] theorem zero_y : (0 : E.Point).y = 1 := rfl

@[simp] theorem neg_x (P : E.Point) : (-P).x = -P.x := rfl

@[simp] theorem neg_y (P : E.Point) : (-P).y = P.y := rfl

theorem cross_comm (P Q : E.Point) : cross P Q = cross Q P := by
  unfold cross
  ring

protected theorem add_comm (P Q : E.Point) : P + Q = Q + P := by
  ext
  · rw [add_x, add_x, cross_comm P Q]
    ring
  · rw [add_y, add_y, cross_comm P Q]
    ring

protected theorem zero_add (P : E.Point) : 0 + P = P := by
  ext <;> simp [add_x, add_y, cross]

protected theorem neg_add_cancel (P : E.Point) : -P + P = 0 := by
  have hminus := one_sub_cross_ne_zero (-P) P
  ext
  · rw [add_x]
    simp [mul_comm]
  · rw [add_y, zero_y, div_eq_one_iff_eq hminus]
    unfold cross
    simp only [neg_x, neg_y]
    linear_combination P.equation

/-! ### Associativity -/

/-- The numerator of the first coordinate of a sum of three points, over `sumDenominator`. -/
def sumNumeratorX (P Q R : E.Point) : F :=
  (P.x * Q.y + P.y * Q.x) * (1 - cross P Q) * R.y + (P.y * Q.y + P.x * Q.x) * (1 + cross P Q) * R.x

def sumNumeratorY (P Q R : E.Point) : F :=
  (P.y * Q.y + P.x * Q.x) * (1 + cross P Q) * R.y + (P.x * Q.y + P.y * Q.x) * (1 - cross P Q) * R.x

/-- What the sum of two points contributes to the denominators with a third. -/
def sumCross (P Q R : E.Point) : F :=
  E.d * (P.x * Q.y + P.y * Q.x) * R.x * (P.y * Q.y + P.x * Q.x) * R.y

theorem cross_add (P Q R : E.Point) :
    cross (P + Q) R * ((1 + cross P Q) * (1 - cross P Q)) = sumCross P Q R := by
  have hplus := one_add_cross_ne_zero P Q
  have hminus := one_sub_cross_ne_zero P Q
  rw [cross, add_x, add_y, sumCross]
  field_simp

theorem sumDenominator_ne_zero (P Q R : E.Point) :
    (1 + cross P Q) * (1 - cross P Q) + sumCross P Q R ≠ 0 ∧
      (1 + cross P Q) * (1 - cross P Q) - sumCross P Q R ≠ 0 := by
  have hboth := mul_ne_zero (one_add_cross_ne_zero P Q) (one_sub_cross_ne_zero P Q)
  rw [← cross_add]
  constructor
  · rw [show (1 + cross P Q) * (1 - cross P Q) + cross (P + Q) R * ((1 + cross P Q) * (1 - cross P Q))
      = (1 + cross (P + Q) R) * ((1 + cross P Q) * (1 - cross P Q)) by ring]
    exact mul_ne_zero (one_add_cross_ne_zero _ _) hboth
  · rw [show (1 + cross P Q) * (1 - cross P Q) - cross (P + Q) R * ((1 + cross P Q) * (1 - cross P Q))
      = (1 - cross (P + Q) R) * ((1 + cross P Q) * (1 - cross P Q)) by ring]
    exact mul_ne_zero (one_sub_cross_ne_zero _ _) hboth

theorem add_add_x (P Q R : E.Point) :
    (P + Q + R).x = sumNumeratorX P Q R / ((1 + cross P Q) * (1 - cross P Q) + sumCross P Q R) := by
  have hplus := one_add_cross_ne_zero P Q
  have hminus := one_sub_cross_ne_zero P Q
  have hsum := one_add_cross_ne_zero (P + Q) R
  rw [add_x (P + Q) R, div_eq_div_iff hsum (sumDenominator_ne_zero P Q R).1, ← cross_add, add_x, add_y,
    sumNumeratorX]
  field_simp

theorem add_add_y (P Q R : E.Point) :
    (P + Q + R).y = sumNumeratorY P Q R / ((1 + cross P Q) * (1 - cross P Q) - sumCross P Q R) := by
  have hplus := one_add_cross_ne_zero P Q
  have hminus := one_sub_cross_ne_zero P Q
  have hsum := one_sub_cross_ne_zero (P + Q) R
  rw [add_y (P + Q) R, div_eq_div_iff hsum (sumDenominator_ne_zero P Q R).2, ← cross_add, add_x, add_y,
    sumNumeratorY]
  field_simp

/-- The two sides of the first coordinate differ by a combination of the three equations. -/
theorem sumNumeratorX_assoc (P Q R : E.Point) :
    sumNumeratorX P Q R * ((1 + cross Q R) * (1 - cross Q R) + sumCross Q R P)
      = sumNumeratorX Q R P * ((1 + cross P Q) * (1 - cross P Q) + sumCross P Q R) := by
  unfold sumNumeratorX sumCross cross
  linear_combination -E.d * Q.x * Q.y * (
    (R.x * R.y * ((Q.x * R.y + Q.y * R.x) * P.y - (Q.y * R.y + Q.x * R.x) * P.x)
      - Q.x * Q.y * (R.y ^ 2 - R.x ^ 2 - 1) * ((P.x * Q.y + P.y * Q.x) * R.y + (P.y * Q.y + P.x * Q.x) * R.x))
      * P.equation
    + E.d * P.x * P.y * R.x * R.y * (
        R.x * R.y * ((P.x * Q.y + P.y * Q.x) * R.y - (P.y * Q.y + P.x * Q.x) * R.x)
        - P.x * P.y * ((Q.x * R.y + Q.y * R.x) * P.y - (Q.y * R.y + Q.x * R.x) * P.x)) * Q.equation
    + (Q.x * Q.y * (P.y ^ 2 - P.x ^ 2 - 1) * ((P.x * Q.y + P.y * Q.x) * R.y + (P.y * Q.y + P.x * Q.x) * R.x)
      - P.x * P.y * ((P.x * Q.y + P.y * Q.x) * R.y - (P.y * Q.y + P.x * Q.x) * R.x)) * R.equation)

theorem sumNumeratorY_assoc (P Q R : E.Point) :
    sumNumeratorY P Q R * ((1 + cross Q R) * (1 - cross Q R) - sumCross Q R P)
      = sumNumeratorY Q R P * ((1 + cross P Q) * (1 - cross P Q) - sumCross P Q R) := by
  unfold sumNumeratorY sumCross cross
  linear_combination -E.d * Q.x * Q.y * (
    (-R.x * R.y * ((Q.y * R.y + Q.x * R.x) * P.y - (Q.x * R.y + Q.y * R.x) * P.x)
      - Q.x * Q.y * (R.y ^ 2 - R.x ^ 2 - 1) * ((P.y * Q.y + P.x * Q.x) * R.y + (P.x * Q.y + P.y * Q.x) * R.x))
      * P.equation
    + E.d * P.x * P.y * R.x * R.y * (
        P.x * P.y * ((Q.y * R.y + Q.x * R.x) * P.y - (Q.x * R.y + Q.y * R.x) * P.x)
        - R.x * R.y * ((P.y * Q.y + P.x * Q.x) * R.y - (P.x * Q.y + P.y * Q.x) * R.x)) * Q.equation
    + (Q.x * Q.y * (P.y ^ 2 - P.x ^ 2 - 1) * ((P.y * Q.y + P.x * Q.x) * R.y + (P.x * Q.y + P.y * Q.x) * R.x)
      + P.x * P.y * ((P.y * Q.y + P.x * Q.x) * R.y - (P.x * Q.y + P.y * Q.x) * R.x)) * R.equation)

protected theorem add_assoc (P Q R : E.Point) : P + Q + R = P + (Q + R) := by
  rw [Edwards.add_comm P (Q + R)]
  have hleft := sumDenominator_ne_zero P Q R
  have hright := sumDenominator_ne_zero Q R P
  ext
  · rw [add_add_x, add_add_x, div_eq_div_iff hleft.1 hright.1]
    exact sumNumeratorX_assoc P Q R
  · rw [add_add_y, add_add_y, div_eq_div_iff hleft.2 hright.2]
    exact sumNumeratorY_assoc P Q R

/-- **The points are a commutative group.** -/
instance : AddCommGroup E.Point where
  add_assoc := Edwards.add_assoc
  zero_add := Edwards.zero_add
  add_zero P := (Edwards.add_comm P 0).trans (Edwards.zero_add P)
  neg_add_cancel := Edwards.neg_add_cancel
  add_comm := Edwards.add_comm
  nsmul := nsmulRec
  zsmul := zsmulRec

end Edwards

end Systems
