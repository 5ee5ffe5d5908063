import CodingOS.Crypto.Ed25519
import CodingOS.Systems.ExtendedCoordinates
import CodingOS.Systems.Primality
import Mathlib.NumberTheory.LegendreSymbol.Basic

/-!
# The group behind the point operations

The field prime is prime, `-1` is a square modulo it and `_CURVE_D` is not, so the curve is a complete
Edwards curve and its points are a group.  The integers a `Point` holds, read modulo the prime, are
extended coordinates; `_point_add` and `_point_double` compute the sum there, and `_scalar_multiply`
the multiple.
-/

namespace CodingOS.Crypto

open Systems Systems.Primality

/-! ### The field -/

/-- `_FIELD_PRIME`, as a natural number. -/
def fieldSize : ℕ := 2 ^ 255 - 19

theorem fieldPrime_eq : fieldPrime = (fieldSize : ℤ) := by decide

/-- The primes below ten million that the certificates use. -/
def smallPrimes : List ℕ :=
  [2, 3, 5, 7, 11, 13, 19, 23, 31, 41, 43, 47, 73, 107, 127, 223, 269, 307, 353, 1361, 2437, 2851,
    4153, 5879, 30703, 57467, 65147, 75707, 82163, 132049, 132667, 137849, 409477, 430751, 531581,
    569003, 1224481, 1923133, 8574133]

theorem smallPrimes_prime : ∀ q ∈ smallPrimes, q.Prime := by
  simp only [smallPrimes, List.forall_mem_cons, List.not_mem_nil, false_implies, implies_true]
  norm_num

def fieldChain : List Certificate := [
  ⟨fieldSize, 2, [2, 2, 3, 65147,
    74058212732561358302231226437062788676166966415465897661863160754340907]⟩,
  ⟨74058212732561358302231226437062788676166966415465897661863160754340907, 2,
    [2, 3, 353, 57467, 132049, 1923133, 31757755568855353, 75445702479781427272750846543864801]⟩,
  ⟨31757755568855353, 10, [2, 2, 2, 3, 31, 107, 223, 4153, 430751]⟩,
  ⟨75445702479781427272750846543864801, 7,
    [2, 2, 2, 2, 2, 3, 3, 5, 5, 75707, 72106336199, 1919519569386763]⟩,
  ⟨1919519569386763, 2, [2, 3, 7, 19, 47, 47, 127, 8574133]⟩,
  ⟨72106336199, 7, [2, 13, 2773320623]⟩,
  ⟨2773320623, 5, [2, 2437, 569003]⟩]

def orderChain : List Certificate := [
  ⟨groupOrder, 2, [2, 2, 3, 11, 198211423230930754013084525763697,
    276602624281642239937218680557139826668747]⟩,
  ⟨198211423230930754013084525763697, 5, [2, 2, 2, 2, 3, 23, 58964693, 3044861653679985063343]⟩,
  ⟨3044861653679985063343, 5, [2, 3, 11, 30703, 82163, 132667, 137849]⟩,
  ⟨58964693, 2, [2, 2, 14741173]⟩,
  ⟨14741173, 2, [2, 2, 3, 3, 409477]⟩,
  ⟨276602624281642239937218680557139826668747, 2, [2, 7, 19757330305831588566944191468367130476339]⟩,
  ⟨19757330305831588566944191468367130476339, 2, [2, 269, 213441916511, 172054593956031949258510691]⟩,
  ⟨213441916511, 13, [2, 5, 73, 292386187]⟩,
  ⟨292386187, 2, [2, 3, 3, 3, 3, 307, 5879]⟩,
  ⟨172054593956031949258510691, 2, [2, 5, 1361, 2851, 4434155615661930479]⟩,
  ⟨4434155615661930479, 17, [2, 41, 43, 1257559732178653]⟩,
  ⟨1257559732178653, 2, [2, 2, 3, 7, 23, 531581, 1224481]⟩]

theorem chains_checked : chained smallPrimes fieldChain = true ∧ chained smallPrimes orderChain = true := by
  decide +kernel

theorem fieldSize_prime : fieldSize.Prime :=
  prime_of_chained smallPrimes_prime chains_checked.1 _ List.mem_cons_self

theorem groupOrder_prime : groupOrder.Prime :=
  prime_of_chained smallPrimes_prime chains_checked.2 _ List.mem_cons_self

instance : Fact fieldSize.Prime := ⟨fieldSize_prime⟩

/-- The integers modulo the field prime. -/
abbrev BaseField := ZMod fieldSize

theorem cast_emod (a : ℤ) : ((a % fieldPrime : ℤ) : BaseField) = a := by
  rw [fieldPrime_eq]
  exact ZMod.intCast_mod a fieldSize

theorem cast_eq_iff {a b : ℤ} : (a : BaseField) = b ↔ a ≡ b [ZMOD fieldPrime] := by
  rw [fieldPrime_eq]
  exact ZMod.intCast_eq_intCast_iff a b fieldSize

theorem cast_eq_zero_iff {a : ℤ} : (a : BaseField) = 0 ↔ a % fieldPrime = 0 := by
  rw [← Int.cast_zero, cast_eq_iff, Int.ModEq, Int.zero_emod]

theorem cast_powField (base : ℤ) (exponent : ℕ) :
    (powField base exponent : BaseField) = (base : BaseField) ^ exponent := by
  rw [powField_eq, cast_emod, Int.cast_pow]

/-! ### The curve -/

theorem constants_checked : sqrtMinusOne * sqrtMinusOne % fieldPrime = -1 % fieldPrime ∧
    powField curveD (fieldSize / 2) = -1 % fieldPrime ∧ curveD % fieldPrime ≠ 0 ∧
    (2 : ℤ) % fieldPrime ≠ 0 := by
  decide +kernel

theorem sqrtMinusOne_sq : (sqrtMinusOne : BaseField) ^ 2 = -1 := by
  have h : sqrtMinusOne * sqrtMinusOne ≡ -1 [ZMOD fieldPrime] := constants_checked.1
  have hcast := cast_eq_iff.mpr h
  push_cast at hcast
  rw [sq]
  exact hcast

theorem two_ne_zero_field : (2 : BaseField) ≠ 0 := by
  have h := mt cast_eq_zero_iff.mp constants_checked.2.2.2
  exact_mod_cast h

/-- Euler's criterion. -/
theorem curveD_nonsquare : ¬ IsSquare (curveD : BaseField) := by
  obtain ⟨-, hpower, hzero, -⟩ := constants_checked
  rw [ZMod.euler_criterion fieldSize (mt cast_eq_zero_iff.mp hzero), ← cast_powField, hpower, cast_emod]
  intro hone
  push_cast at hone
  exact two_ne_zero_field (by linear_combination -hone)

/-- The curve of the signatures. -/
def edwards25519 : Edwards BaseField where
  d := curveD
  root := sqrtMinusOne
  root_sq := sqrtMinusOne_sq
  d_nonsquare := curveD_nonsquare
  two_ne_zero := two_ne_zero_field

/-! ### Coordinates -/

/-- The coordinates modulo the prime. -/
def Point.toField (point : Point) : Edwards.Extended BaseField := ⟨point.x, point.y, point.z, point.t⟩

/-- What a point stands for. -/
def Point.Represents (point : Point) (P : edwards25519.Point) : Prop := point.toField.Represents P

theorem toField_pointAdd (left right : Point) :
    (pointAdd left right).toField = .add edwards25519 left.toField right.toField := by
  simp only [Point.toField, pointAdd, Edwards.Extended.add, edwards25519, cast_emod, Int.cast_mul,
    Int.cast_add, Int.cast_sub, Int.cast_ofNat]

theorem toField_pointDouble (point : Point) : (pointDouble point).toField = point.toField.double := by
  simp only [Point.toField, pointDouble, Edwards.Extended.double, cast_emod, Int.cast_mul,
    Int.cast_add, Int.cast_sub, Int.cast_ofNat]

theorem represents_identity : identity.Represents 0 := by
  have h := Edwards.Extended.represents_zero (E := edwards25519)
  simpa [Point.Represents, Point.toField, identity] using h

variable {left right point : Point} {P Q : edwards25519.Point}

theorem Point.Represents.add (hleft : left.Represents P) (hright : right.Represents Q) :
    (pointAdd left right).Represents (P + Q) := by
  rw [Point.Represents, toField_pointAdd]
  exact Edwards.Extended.Represents.add hleft hright

theorem Point.Represents.double (h : point.Represents P) : (pointDouble point).Represents (P + P) := by
  rw [Point.Represents, toField_pointDouble]
  exact Edwards.Extended.Represents.double h

/-- The loop of `_scalar_multiply`: `result` has the bits that are used up, `addend` the power of two. -/
theorem scalarLoop_represents {fuel : ℕ} {result addend : Point} {R A : edwards25519.Point} {scalar : ℕ}
    (hresult : result.Represents R) (haddend : addend.Represents A) (hfuel : scalar < 2 ^ fuel) :
    (scalarLoop fuel result addend scalar).Represents (R + scalar • A) := by
  induction fuel generalizing result addend R A scalar with
  | zero =>
      obtain rfl : scalar = 0 := by simpa using hfuel
      rw [zero_smul, add_zero]
      exact hresult
  | succ fuel ih =>
      rw [scalarLoop]
      split
      · next hzero =>
          rw [hzero, zero_smul, add_zero]
          exact hresult
      · have hhalf : scalar / 2 < 2 ^ fuel := by omega
        have hdouble := haddend.double
        have hsplit : scalar • A = (scalar % 2) • A + (scalar / 2) • (A + A) := by
          rw [← two_nsmul, ← mul_nsmul, ← add_nsmul]
          congr 1
          omega
        split
        · next hodd =>
            rw [hsplit, hodd, one_smul, ← add_assoc]
            exact ih (hresult.add haddend) hdouble hhalf
        · next heven =>
            rw [hsplit, show scalar % 2 = 0 by omega, zero_smul, zero_add]
            exact ih hresult hdouble hhalf

/-- **`_scalar_multiply`** computes the multiple. -/
theorem Point.Represents.scalarMultiply (h : point.Represents P) (scalar : ℕ) :
    (scalarMultiply point scalar).Represents (scalar • P) := by
  have hloop := scalarLoop_represents represents_identity h (Nat.lt_size_self scalar)
  rwa [zero_add] at hloop

theorem pointsEqual_iff (hleft : left.Represents P) (hright : right.Represents Q) :
    pointsEqual left right = true ↔ P = Q := by
  rw [← Edwards.Extended.Represents.eq_iff hleft hright, pointsEqual, Bool.and_eq_true, beq_iff_eq,
    beq_iff_eq, ← cast_eq_zero_iff, ← cast_eq_zero_iff]
  simp only [Point.toField, Int.cast_sub, Int.cast_mul, sub_eq_zero]

theorem isIdentity_iff (h : point.Represents P) : isIdentity point = true ↔ P = 0 := by
  rw [← Edwards.Extended.Represents.eq_iff h represents_identity, isIdentity, Bool.and_eq_true,
    beq_iff_eq, beq_iff_eq, ← cast_eq_zero_iff, ← cast_eq_zero_iff]
  simp [Point.toField, identity, sub_eq_zero]

theorem isOnCurve_iff {x y : ℤ} : isOnCurve x y = true ↔
    (y : BaseField) ^ 2 - (x : BaseField) ^ 2 = 1 + edwards25519.d * (x : BaseField) ^ 2 * (y : BaseField) ^ 2 := by
  rw [isOnCurve, beq_iff_eq, ← cast_eq_zero_iff]
  simp only [Int.cast_sub, Int.cast_mul, cast_emod, Int.cast_one, edwards25519]
  constructor
  · intro h
    linear_combination h
  · intro h
    linear_combination h

end CodingOS.Crypto
