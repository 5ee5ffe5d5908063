import CodingOS.Python.Text

/-!
# Strict Ed25519 verification

`ed25519.py`: the verification of the signature under a human authorization receipt.  Points are in
extended coordinates over the integers, reduced modulo the field prime after every operation, as the
source keeps them; the digest of the challenge is the process's SHA-512.
-/

namespace CodingOS.Crypto

open CodingOS.Python

/-- `_FIELD_PRIME`. -/
def fieldPrime : ℤ := 2 ^ 255 - 19

/-- `_GROUP_ORDER`. -/
def groupOrder : ℕ := 2 ^ 252 + 27742317777372353535851937790883648493

/-- `_COFACTOR`. -/
def cofactor : ℕ := 8

/-- Square and multiply: `fuel` bounds the bits of the exponent. -/
def powLoop : ℕ → ℤ → ℤ → ℕ → ℤ
  | 0, result, _, _ => result
  | fuel + 1, result, base, exponent =>
      if exponent = 0 then result
      else powLoop fuel (if exponent % 2 = 1 then result * base % fieldPrime else result)
        (base * base % fieldPrime) (exponent / 2)

/-- `pow(base, exponent, _FIELD_PRIME)`. -/
def powField (base : ℤ) (exponent : ℕ) : ℤ := powLoop exponent.size 1 (base % fieldPrime) exponent

theorem powLoop_eq (fuel : ℕ) {result base : ℤ} {exponent : ℕ} (hfuel : exponent < 2 ^ fuel)
    (hresult : result % fieldPrime = result) :
    powLoop fuel result base exponent = result * base ^ exponent % fieldPrime := by
  induction fuel generalizing result base exponent with
  | zero =>
      obtain rfl : exponent = 0 := by simpa using hfuel
      simp [powLoop, hresult]
  | succ fuel ih =>
      rw [powLoop]
      split
      · next hzero => simp [hzero, hresult]
      · have hhalf : exponent / 2 < 2 ^ fuel := by omega
        have hsquare : (base * base % fieldPrime) ^ (exponent / 2)
            ≡ base ^ (2 * (exponent / 2)) [ZMOD fieldPrime] := by
          rw [pow_mul, sq]
          exact (Int.mod_modEq _ _).pow _
        split
        · next hodd =>
            rw [ih hhalf (Int.emod_emod _ _)]
            calc result * base % fieldPrime * (base * base % fieldPrime) ^ (exponent / 2)
                ≡ result * base * base ^ (2 * (exponent / 2)) [ZMOD fieldPrime] :=
                  (Int.mod_modEq _ _).mul hsquare
              _ = result * base ^ (2 * (exponent / 2) + 1) := by ring
              _ = result * base ^ exponent := by rw [show 2 * (exponent / 2) + 1 = exponent by omega]
        · rw [ih hhalf hresult]
          have hexponent : 2 * (exponent / 2) = exponent := by omega
          rw [hexponent] at hsquare
          exact hsquare.mul_left result

/-- The power modulo the prime. -/
theorem powField_eq (base : ℤ) (exponent : ℕ) :
    powField base exponent = base ^ exponent % fieldPrime := by
  rw [powField, powLoop_eq _ (Nat.lt_size_self exponent) (by decide), one_mul]
  exact (Int.mod_modEq _ _).pow _

/-- `_CURVE_D`. -/
def curveD : ℤ := (-121665 * powField 121666 (2 ^ 255 - 21)) % fieldPrime

/-- `_SQRT_MINUS_ONE`. -/
def sqrtMinusOne : ℤ := powField 2 ((2 ^ 255 - 20) / 4)

/-- A point in extended coordinates. -/
structure Point where
  x : ℤ
  y : ℤ
  z : ℤ
  t : ℤ
deriving DecidableEq

/-- `_IDENTITY`. -/
def identity : Point := ⟨0, 1, 1, 0⟩

/-- `_point_add`. -/
def pointAdd (left right : Point) : Point :=
  let a := (left.y - left.x) * (right.y - right.x) % fieldPrime
  let b := (left.y + left.x) * (right.y + right.x) % fieldPrime
  let c := 2 * curveD * left.t * right.t % fieldPrime
  let d := 2 * left.z * right.z % fieldPrime
  let e := (b - a) % fieldPrime
  let f := (d - c) % fieldPrime
  let g := (d + c) % fieldPrime
  let h := (b + a) % fieldPrime
  ⟨e * f % fieldPrime, g * h % fieldPrime, f * g % fieldPrime, e * h % fieldPrime⟩

/-- `_point_double`. -/
def pointDouble (point : Point) : Point :=
  let a := point.x * point.x % fieldPrime
  let b := point.y * point.y % fieldPrime
  let c := 2 * point.z * point.z % fieldPrime
  let h := (a + b) % fieldPrime
  let e := (h - (point.x + point.y) * (point.x + point.y)) % fieldPrime
  let g := (a - b) % fieldPrime
  let f := (c + g) % fieldPrime
  ⟨e * f % fieldPrime, g * h % fieldPrime, f * g % fieldPrime, e * h % fieldPrime⟩

/-- The loop of `_scalar_multiply`: `fuel` bounds the bits of the scalar. -/
def scalarLoop : ℕ → Point → Point → ℕ → Point
  | 0, result, _, _ => result
  | fuel + 1, result, addend, scalar =>
      if scalar = 0 then result
      else scalarLoop fuel (if scalar % 2 = 1 then pointAdd result addend else result)
        (pointDouble addend) (scalar / 2)

/-- `_scalar_multiply`.  A scalar has no more bits than its value. -/
def scalarMultiply (point : Point) (scalar : ℕ) : Point := scalarLoop scalar.size identity point scalar

/-- `_points_equal`. -/
def pointsEqual (left right : Point) : Bool :=
  (left.x * right.z - right.x * left.z) % fieldPrime == 0
    && (left.y * right.z - right.y * left.z) % fieldPrime == 0

/-- `_is_identity`. -/
def isIdentity (point : Point) : Bool :=
  point.x % fieldPrime == 0 && (point.y - point.z) % fieldPrime == 0

/-- `_is_on_curve`. -/
def isOnCurve (x y : ℤ) : Bool :=
  let xSquared := x * x % fieldPrime
  let ySquared := y * y % fieldPrime
  (ySquared - xSquared - 1 - curveD * xSquared * ySquared) % fieldPrime == 0

/-- `int.from_bytes(data, "little")`. -/
def littleEndian (data : List UInt8) : ℕ := data.foldr (fun byte acc => byte.toNat + 256 * acc) 0

/-- `_decode_point`. -/
def decodePoint (encoded : List UInt8) : Option Point :=
  if encoded.length ≠ 32 then none
  else
    let value := littleEndian encoded
    let xSign : ℤ := (value / 2 ^ 255 : ℕ)
    let y : ℤ := (value % 2 ^ 255 : ℕ)
    if y ≥ fieldPrime then none
    else
      let ySquared := y * y % fieldPrime
      let u := (ySquared - 1) % fieldPrime
      let v := (curveD * ySquared + 1) % fieldPrime
      if v = 0 then none
      else
        let vCubed := v * v * v % fieldPrime
        let vSeventh := vCubed * vCubed * v % fieldPrime
        let x := u * vCubed * powField (u * vSeventh % fieldPrime) ((2 ^ 255 - 24) / 8) % fieldPrime
        let rootCheck := v * x * x % fieldPrime
        let root : Option ℤ :=
          if rootCheck = -u % fieldPrime then some (x * sqrtMinusOne % fieldPrime)
          else if rootCheck = u then some x else none
        root.bind fun x =>
          if x = 0 ∧ xSign ≠ 0 then none
          else
            let x := if x % 2 ≠ xSign then fieldPrime - x else x
            if isOnCurve x y then some ⟨x, y, 1, x * y % fieldPrime⟩ else none

/-- `_is_strict_subgroup_point`: neither a small point nor one with a torsion component. -/
def isStrictSubgroupPoint (point : Point) : Bool :=
  !isIdentity (scalarMultiply point cofactor) && isIdentity (scalarMultiply point groupOrder)

/-- `_BASE_POINT`, from its encoding. -/
def basePoint : Option Point := decodePoint (0x58 :: List.replicate 31 0x66)

variable [Runtime]

/-- `verify`. -/
def verify (publicKey signature message : List UInt8) : Bool :=
  if publicKey.length ≠ 32 ∨ signature.length ≠ 64 then false
  else
    let encodedR := signature.take 32
    let scalarS := littleEndian (signature.drop 32)
    if scalarS ≥ groupOrder then false
    else match decodePoint publicKey, decodePoint encodedR, basePoint with
      | some publicPoint, some signaturePoint, some base =>
          if !isStrictSubgroupPoint publicPoint then false
          else if !isStrictSubgroupPoint signaturePoint then false
          else
            let challenge :=
              littleEndian (Runtime.sha512 (encodedR ++ publicKey ++ message)) % groupOrder
            pointsEqual (scalarMultiply base scalarS)
              (pointAdd signaturePoint (scalarMultiply publicPoint challenge))
      | _, _, _ => false

end CodingOS.Crypto
