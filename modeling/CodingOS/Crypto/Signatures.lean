import CodingOS.Crypto.Decoding
import CodingOS.Python.SampleProcess
import Mathlib.GroupTheory.OrderOfElement

/-!
# Scalars and signatures

What the point operations compute, said of the integers the source keeps: `_scalar_multiply` is repeated
addition and no operation leaves the curve.  With the base point of prime order, a signature can be
written in one way only.
-/

namespace CodingOS.Crypto

open CodingOS.Python Systems

/-! ### Coordinates of points of the curve -/

/-- Coordinates of a point of the curve: `z` is not zero, `x y = z t`, and the equation of the curve,
modulo the prime. -/
structure Valid (point : Point) : Prop where
  z_ne_zero : point.z % fieldPrime ≠ 0
  product : point.x * point.y ≡ point.z * point.t [ZMOD fieldPrime]
  curve : (point.y ^ 2 - point.x ^ 2) * point.z ^ 2
    ≡ point.z ^ 4 + curveD * point.x ^ 2 * point.y ^ 2 [ZMOD fieldPrime]

/-- Both have an affine point, and it is the same. -/
def SamePoint (left right : Point) : Prop :=
  left.z % fieldPrime ≠ 0 ∧ right.z % fieldPrime ≠ 0 ∧ pointsEqual left right = true

variable {left right point : Point} {P Q : edwards25519.Point}

theorem valid_iff : Valid point ↔ ∃ P, point.Represents P := by
  have hproduct : ((point.x * point.y : ℤ) : BaseField) = ((point.z * point.t : ℤ) : BaseField) ↔
      point.toField.x * point.toField.y = point.toField.z * point.toField.t := by
    push_cast
    rfl
  have hcurve : (((point.y ^ 2 - point.x ^ 2) * point.z ^ 2 : ℤ) : BaseField)
      = ((point.z ^ 4 + curveD * point.x ^ 2 * point.y ^ 2 : ℤ) : BaseField) ↔
      (point.toField.y ^ 2 - point.toField.x ^ 2) * point.toField.z ^ 2
        = point.toField.z ^ 4 + edwards25519.d * point.toField.x ^ 2 * point.toField.y ^ 2 := by
    push_cast
    rfl
  constructor
  · intro h
    exact Edwards.Extended.exists_represents (mt cast_eq_zero_iff.mp h.z_ne_zero)
      (hproduct.mp (cast_eq_iff.mpr h.product)) (hcurve.mp (cast_eq_iff.mpr h.curve))
  · rintro ⟨P, h⟩
    exact ⟨mt cast_eq_zero_iff.mpr h.z_ne_zero,
      cast_eq_iff.mp (hproduct.mpr (Edwards.Extended.Represents.product h)),
      cast_eq_iff.mp (hcurve.mpr (Edwards.Extended.Represents.curve h))⟩

theorem samePoint_of_represents (hleft : left.Represents P) (hright : right.Represents P) :
    SamePoint left right :=
  ⟨(valid_iff.mpr ⟨P, hleft⟩).z_ne_zero, (valid_iff.mpr ⟨P, hright⟩).z_ne_zero,
    (pointsEqual_iff hleft hright).mpr rfl⟩

/-- A decoded point is a point of the curve. -/
theorem decodePoint_represents {encoded : List UInt8} (h : decodePoint encoded = some point) :
    ∃ P, point.Represents P := by
  obtain ⟨x, y, hxy, -, rfl⟩ := encodePoint_of_decodePoint h
  refine ⟨⟨x, y, isOnCurve_iff.mp hxy.on_curve⟩, ?_, ?_, ?_, ?_⟩
  · show ((1 : ℤ) : BaseField) ≠ 0
    rw [Int.cast_one]
    exact one_ne_zero
  · show (x : BaseField) = x * ((1 : ℤ) : BaseField)
    rw [Int.cast_one, mul_one]
  · show (y : BaseField) = y * ((1 : ℤ) : BaseField)
    rw [Int.cast_one, mul_one]
  · show ((x * y % fieldPrime : ℤ) : BaseField) = x * y * ((1 : ℤ) : BaseField)
    rw [cast_emod, Int.cast_mul, Int.cast_one, mul_one]

/-- Adding a point again and again. -/
theorem iterate_represents (h : point.Represents P) (n : ℕ) :
    ((fun sum => pointAdd sum point)^[n] identity).Represents (n • P) := by
  induction n with
  | zero =>
      rw [zero_smul]
      exact represents_identity
  | succ n ih =>
      rw [Function.iterate_succ_apply', succ_nsmul]
      exact ih.add h

/-- **The point operations are right.**  A multiple of a decoded point is its repeated sum from the
identity, a double is the sum of a point with itself, and sums and doubles stay on the curve. -/
theorem scalar_multiplication_correct :
    (∀ encoded point, decodePoint encoded = some point → Valid point ∧ ∀ n,
      SamePoint (scalarMultiply point n) ((fun sum => pointAdd sum point)^[n] identity)) ∧
    (∀ point, Valid point → SamePoint (pointDouble point) (pointAdd point point) ∧
      Valid (pointDouble point)) ∧
    (∀ left right, Valid left → Valid right → Valid (pointAdd left right)) := by
  refine ⟨fun encoded point h => ?_, fun point h => ?_, fun left right hleft hright => ?_⟩
  · obtain ⟨P, hP⟩ := decodePoint_represents h
    exact ⟨valid_iff.mpr ⟨P, hP⟩, fun n =>
      samePoint_of_represents (hP.scalarMultiply n) (iterate_represents hP n)⟩
  · obtain ⟨P, hP⟩ := valid_iff.mp h
    exact ⟨samePoint_of_represents hP.double (hP.add hP), valid_iff.mpr ⟨P + P, hP.double⟩⟩
  · obtain ⟨P, hP⟩ := valid_iff.mp hleft
    obtain ⟨Q, hQ⟩ := valid_iff.mp hright
    exact valid_iff.mpr ⟨P + Q, hP.add hQ⟩

/-! ### The base point -/

theorem basePoint_order : basePoint.any (fun base =>
    isIdentity (scalarMultiply base groupOrder) && !isIdentity base) = true := by
  decide +kernel

/-- Multiples of the base point below the group order are distinct. -/
theorem basePoint_injective {base : Point} (hbase : basePoint = some base) (hP : base.Represents P)
    {m n : ℕ} (hm : m < groupOrder) (hn : n < groupOrder) (h : m • P = n • P) : m = n := by
  have hchecked := basePoint_order
  rw [hbase, Option.any_some, Bool.and_eq_true, Bool.not_eq_true', ← Bool.not_eq_true,
    isIdentity_iff (hP.scalarMultiply _), isIdentity_iff hP] at hchecked
  have : Fact groupOrder.Prime := ⟨groupOrder_prime⟩
  have horder : addOrderOf P = groupOrder := addOrderOf_eq_prime hchecked.1 hchecked.2
  have hmod := (nsmul_eq_nsmul_iff_modEq).mp h
  rw [horder] at hmod
  exact Nat.ModEq.eq_of_lt_of_lt hmod hm hn

/-! ### Signatures -/

section Verify

variable [Runtime]

/-- What an accepted signature satisfies. -/
theorem verify_equation {publicKey signature message : List UInt8}
    (h : verify publicKey signature message = true) :
    signature.length = 64 ∧ littleEndian (signature.drop 32) < groupOrder ∧
      ∃ publicPoint signaturePoint base, decodePoint publicKey = some publicPoint ∧
        decodePoint (signature.take 32) = some signaturePoint ∧ basePoint = some base ∧
        pointsEqual (scalarMultiply base (littleEndian (signature.drop 32)))
          (pointAdd signaturePoint (scalarMultiply publicPoint (littleEndian
            (Runtime.sha512 (signature.take 32 ++ publicKey ++ message)) % groupOrder))) = true := by
  unfold verify at h
  split at h
  · cases h
  · next hlengths =>
      simp only at h
      split at h
      · cases h
      · next hscalar =>
          split at h
          · next publicPoint signaturePoint base hpublic hsignature hbase =>
              split at h
              · cases h
              · split at h
                · cases h
                · refine ⟨?_, not_le.mp hscalar, publicPoint, signaturePoint, base, hpublic, hsignature, hbase, h⟩
                  simp only [not_or, not_not] at hlengths
                  exact hlengths.2
          · cases h

/-- **One signature for each first half.**  Two accepted signatures of one message under one key that
begin with the same point are the same bytes. -/
theorem signature_unique (publicKey message encodedR s s' : List UInt8) (hR : encodedR.length = 32)
    (h : verify publicKey (encodedR ++ s) message = true)
    (h' : verify publicKey (encodedR ++ s') message = true) : s = s' := by
  obtain ⟨hlength, hscalar, A, R, B, hA, hR₁, hB, hequal⟩ := verify_equation h
  obtain ⟨hlength', hscalar', A', R', B', hA', hR', hB', hequal'⟩ := verify_equation h'
  simp only [List.take_left' hR, List.drop_left' hR] at hscalar hscalar' hR₁ hR' hequal hequal'
  obtain rfl := Option.some.inj (hA.symm.trans hA')
  obtain rfl := Option.some.inj (hR₁.symm.trans hR')
  obtain rfl := Option.some.inj (hB.symm.trans hB')
  obtain ⟨PA, hPA⟩ := decodePoint_represents hA
  obtain ⟨PR, hPR⟩ := decodePoint_represents hR₁
  obtain ⟨PB, hPB⟩ := @decodePoint_represents _ (0x58 :: List.replicate 31 0x66) hB
  have hsum := hPR.add (hPA.scalarMultiply
    (littleEndian (Runtime.sha512 (encodedR ++ publicKey ++ message)) % groupOrder))
  -- both scalars multiply the base point to the right side of the equation
  have hmultiples : littleEndian s • PB = littleEndian s' • PB :=
    ((pointsEqual_iff (hPB.scalarMultiply _) hsum).mp hequal).trans
      ((pointsEqual_iff (hPB.scalarMultiply _) hsum).mp hequal').symm
  have hnumber := basePoint_injective hB hPB hscalar hscalar' hmultiples
  rw [List.length_append, hR] at hlength hlength'
  exact littleEndian_injective (by omega) hnumber

end Verify

/-! ### A signature under the base point -/

namespace Sample

/-- The encoding of the base point, as a key and as the first half of a signature. -/
def encodedBase : List UInt8 := 0x58 :: List.replicate 31 0x66

def scalar : List UInt8 := [83, 117, 241, 216, 5, 139, 127, 30, 16, 16, 69, 143, 17, 225, 185, 252, 58, 76,
  98, 214, 32, 251, 196, 82, 178, 61, 224, 100, 113, 128, 112, 1]

open scoped CodingOS.Python.SampleProcess

theorem accepted : verify encodedBase (encodedBase ++ scalar) [] = true := by decide +kernel

end Sample

open Sample in
open scoped CodingOS.Python.SampleProcess in
theorem signature_unique_sample : verify encodedBase (encodedBase ++ scalar) [] = true ∧
    ∀ s, verify encodedBase (encodedBase ++ s) [] = true → s = scalar :=
  ⟨accepted, fun s h => signature_unique encodedBase [] encodedBase s scalar rfl h accepted⟩

end CodingOS.Crypto
