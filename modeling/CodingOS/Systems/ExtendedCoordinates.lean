import CodingOS.Systems.Edwards

/-!
# Extended coordinates

A point of a complete Edwards curve as four projective coordinates, the last of which keeps the product
of the first two.  Addition and doubling need no division, and no case is left out.
-/

namespace Systems.Edwards

variable {F : Type*} [Field F] {E : Edwards F}

structure Extended (F : Type*) where
  x : F
  y : F
  z : F
  t : F

/-- The coordinates are those of a point of the curve. -/
structure Extended.Represents (X : Extended F) (P : E.Point) : Prop where
  z_ne_zero : X.z ≠ 0
  x : X.x = P.x * X.z
  y : X.y = P.y * X.z
  t : X.t = P.x * P.y * X.z

namespace Extended

/-- The sum of two points of a curve. -/
def add (E : Edwards F) (X Y : Extended F) : Extended F :=
  let a := (X.y - X.x) * (Y.y - Y.x)
  let b := (X.y + X.x) * (Y.y + Y.x)
  let c := 2 * E.d * X.t * Y.t
  let d := 2 * X.z * Y.z
  let e := b - a
  let f := d - c
  let g := d + c
  let h := b + a
  ⟨e * f, g * h, f * g, e * h⟩

/-- The double of a point of a curve, whose equation stands in for `d`. -/
def double (X : Extended F) : Extended F :=
  let a := X.x * X.x
  let b := X.y * X.y
  let c := 2 * X.z * X.z
  let h := a + b
  let e := h - (X.x + X.y) * (X.x + X.y)
  let g := a - b
  let f := c + g
  ⟨e * f, g * h, f * g, e * h⟩

variable {X Y : Extended F} {P Q : E.Point}

theorem represents_zero : Represents ⟨0, 1, 1, 0⟩ (0 : E.Point) :=
  ⟨one_ne_zero, by simp, by simp, by simp⟩

/-- Both operations end in the four products of a numerator and a denominator for each coordinate. -/
theorem represents_of_factors {e f g h : F} (hf : f ≠ 0) (hg : g ≠ 0) (he : e = P.x * g) (hh : h = P.y * f) :
    Represents ⟨e * f, g * h, f * g, e * h⟩ P := by
  subst he hh
  exact ⟨mul_ne_zero hf hg, by ring, by ring, by ring⟩

/-- **The sum.**  Its `f` and `g` are the denominators of the affine law, times `2 z z'`. -/
theorem Represents.add (hX : X.Represents P) (hY : Y.Represents Q) : (add E X Y).Represents (P + Q) := by
  have hplus := one_add_cross_ne_zero P Q
  have hminus := one_sub_cross_ne_zero P Q
  have hscale : 2 * (X.z * Y.z) ≠ 0 := mul_ne_zero E.two_ne_zero (mul_ne_zero hX.z_ne_zero hY.z_ne_zero)
  have hf : 2 * X.z * Y.z - 2 * E.d * X.t * Y.t = 2 * (X.z * Y.z) * (1 - cross P Q) := by
    rw [hX.t, hY.t, cross]
    ring
  have hg : 2 * X.z * Y.z + 2 * E.d * X.t * Y.t = 2 * (X.z * Y.z) * (1 + cross P Q) := by
    rw [hX.t, hY.t, cross]
    ring
  apply represents_of_factors
  · rw [hf]
    exact mul_ne_zero hscale hminus
  · rw [hg]
    exact mul_ne_zero hscale hplus
  · rw [hg, add_x, hX.x, hX.y, hY.x, hY.y]
    field_simp
    ring
  · rw [hf, add_y, hX.x, hX.y, hY.x, hY.y]
    field_simp
    ring

/-- **The double** is the sum of the point with itself: its `f` and `g` are the denominators of the
affine law up to sign, with `y² - x²` standing for `1 + d x² y²`. -/
theorem Represents.double (hX : X.Represents P) : X.double.Represents (P + P) := by
  have hplus := one_add_cross_ne_zero P P
  have hminus := one_sub_cross_ne_zero P P
  have hscale : X.z ^ 2 ≠ 0 := pow_ne_zero 2 hX.z_ne_zero
  have hg : X.x * X.x - X.y * X.y = -X.z ^ 2 * (1 + cross P P) := by
    rw [hX.x, hX.y, cross]
    linear_combination -X.z ^ 2 * P.equation
  have hf : 2 * X.z * X.z + (X.x * X.x - X.y * X.y) = X.z ^ 2 * (1 - cross P P) := by
    rw [hg]
    ring
  apply represents_of_factors
  · rw [hf]
    exact mul_ne_zero hscale hminus
  · rw [hg]
    exact mul_ne_zero (neg_ne_zero.mpr hscale) hplus
  · rw [hg, add_x, hX.x, hX.y]
    field_simp
    ring
  · rw [hf, add_y, hX.x, hX.y]
    field_simp
    ring

/-- Coordinates represent one point. -/
theorem Represents.eq_iff (hX : X.Represents P) (hY : Y.Represents Q) :
    X.x * Y.z = Y.x * X.z ∧ X.y * Y.z = Y.y * X.z ↔ P = Q := by
  have hz : X.z * Y.z ≠ 0 := mul_ne_zero hX.z_ne_zero hY.z_ne_zero
  constructor
  · rintro ⟨hx, hy⟩
    rw [hX.x, hY.x] at hx
    rw [hX.y, hY.y] at hy
    ext
    · exact mul_right_cancel₀ hz (by linear_combination hx)
    · exact mul_right_cancel₀ hz (by linear_combination hy)
  · rintro rfl
    rw [hX.x, hX.y, hY.x, hY.y]
    exact ⟨by ring, by ring⟩

/-- Coordinates represent a point when they satisfy the homogeneous equations. -/
theorem exists_represents (hz : X.z ≠ 0) (hproduct : X.x * X.y = X.z * X.t)
    (hcurve : (X.y ^ 2 - X.x ^ 2) * X.z ^ 2 = X.z ^ 4 + E.d * X.x ^ 2 * X.y ^ 2) :
    ∃ P : E.Point, X.Represents P := by
  refine ⟨⟨X.x / X.z, X.y / X.z, ?_⟩, hz, (div_mul_cancel₀ _ hz).symm, (div_mul_cancel₀ _ hz).symm, ?_⟩
  · field_simp
    linear_combination hcurve
  · field_simp
    linear_combination -hproduct

theorem Represents.product (hX : X.Represents P) : X.x * X.y = X.z * X.t := by
  rw [hX.x, hX.y, hX.t]
  ring

theorem Represents.curve (hX : X.Represents P) :
    (X.y ^ 2 - X.x ^ 2) * X.z ^ 2 = X.z ^ 4 + E.d * X.x ^ 2 * X.y ^ 2 := by
  rw [hX.x, hX.y]
  linear_combination X.z ^ 4 * P.equation

end Extended

end Systems.Edwards
