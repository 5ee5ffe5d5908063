import CodingOS.Crypto.Curve

/-!
# Decoding is canonical

A point in affine coordinates is encoded as the bytes of its `y` with the parity of its `x` in the last
bit.  `_decode_point` recovers `x` from `y` by a power, which is a root of the right number up to sign
whenever the number is a square, and rejects what no point is encoded as.
-/

namespace CodingOS.Crypto

open Systems

/-! ### Bytes -/

/-- `value.to_bytes(length, "little")`. -/
def toLittleEndian : ℕ → ℕ → List UInt8
  | 0, _ => []
  | length + 1, value => UInt8.ofNat (value % 256) :: toLittleEndian length (value / 256)

@[simp] theorem length_toLittleEndian (length value : ℕ) : (toLittleEndian length value).length = length := by
  induction length generalizing value with
  | zero => rfl
  | succ length ih => rw [toLittleEndian, List.length_cons, ih]

theorem littleEndian_cons (byte : UInt8) (bytes : List UInt8) :
    littleEndian (byte :: bytes) = byte.toNat + 256 * littleEndian bytes := rfl

theorem littleEndian_toLittleEndian {length value : ℕ} (h : value < 256 ^ length) :
    littleEndian (toLittleEndian length value) = value := by
  induction length generalizing value with
  | zero =>
      obtain rfl : value = 0 := by simpa using h
      rfl
  | succ length ih =>
      have hrest : value / 256 < 256 ^ length := by
        rw [pow_succ] at h
        omega
      rw [toLittleEndian, littleEndian_cons, ih hrest, UInt8.toNat_ofNat']
      omega

theorem littleEndian_lt (bytes : List UInt8) : littleEndian bytes < 256 ^ bytes.length := by
  induction bytes with
  | nil => decide
  | cons byte bytes ih =>
      have hbyte := byte.toNat_lt
      rw [littleEndian_cons, List.length_cons, pow_succ]
      omega

theorem toLittleEndian_littleEndian (bytes : List UInt8) :
    toLittleEndian bytes.length (littleEndian bytes) = bytes := by
  induction bytes with
  | nil => rfl
  | cons byte bytes ih =>
      have hbyte := byte.toNat_lt
      have hlow : (byte.toNat + 256 * littleEndian bytes) % 256 = byte.toNat := by omega
      have hhigh : (byte.toNat + 256 * littleEndian bytes) / 256 = littleEndian bytes := by omega
      rw [littleEndian_cons, List.length_cons, toLittleEndian, hlow, hhigh, ih, UInt8.ofNat_toNat]

theorem littleEndian_injective {left right : List UInt8} (hlength : left.length = right.length)
    (h : littleEndian left = littleEndian right) : left = right := by
  rw [← toLittleEndian_littleEndian left, ← toLittleEndian_littleEndian right, hlength, h]

/-! ### Square roots -/

/-- Modulo a prime that is five modulo eight, the power is a square root of `u / v` or of `-u / v` when
`u / v` is a square. -/
theorem candidate_sq {p : ℕ} [Fact p.Prime] (hp : p % 8 = 5) {u v x : ZMod p} (hv : v ≠ 0)
    (h : v * x ^ 2 = u) :
    v * (u * v ^ 3 * (u * v ^ 7) ^ ((p - 5) / 8)) ^ 2 = u ∨
      v * (u * v ^ 3 * (u * v ^ 7) ^ ((p - 5) / 8)) ^ 2 = -u := by
  obtain ⟨k, rfl⟩ : ∃ k, p = 8 * k + 5 := ⟨p / 8, by omega⟩
  rw [show (8 * k + 5 - 5) / 8 = k by omega]
  by_cases hx : x = 0
  · left
    rw [← h, hx]
    ring
  · -- the power is `u` times the quadratic character of `x v⁴`
    have hpower : v * (u * v ^ 3 * (u * v ^ 7) ^ k) ^ 2 = u * (x * v ^ 4) ^ ((8 * k + 5) / 2) := by
      rw [show (8 * k + 5) / 2 = 2 * (2 * k + 1) by omega, ← h]
      ring
    rw [hpower]
    rcases ZMod.pow_div_two_eq_neg_one_or_one (8 * k + 5) (mul_ne_zero hx (pow_ne_zero 4 hv)) with hone | hneg
    · left
      rw [hone, mul_one]
    · right
      rw [hneg, mul_neg_one]

/-- The square root step of `_decode_point`: the candidate, corrected by `_SQRT_MINUS_ONE`. -/
def squareRoot (y : ℤ) : Option ℤ :=
  let ySquared := y * y % fieldPrime
  let u := (ySquared - 1) % fieldPrime
  let v := (curveD * ySquared + 1) % fieldPrime
  if v = 0 then none
  else
    let vCubed := v * v * v % fieldPrime
    let vSeventh := vCubed * vCubed * v % fieldPrime
    let x := u * vCubed * powField (u * vSeventh % fieldPrime) ((2 ^ 255 - 24) / 8) % fieldPrime
    let rootCheck := v * x * x % fieldPrime
    if rootCheck = -u % fieldPrime then some (x * sqrtMinusOne % fieldPrime)
    else if rootCheck = u then some x else none

theorem bind_ite_none {α β : Type} {c : Prop} [Decidable c] (root : Option α) (f : α → Option β) :
    (if c then none else root).bind f = if c then none else root.bind f := by
  split <;> rfl

theorem decodePoint_eq (encoded : List UInt8) : decodePoint encoded =
    if encoded.length ≠ 32 then none
    else
      let xSign : ℤ := (littleEndian encoded / 2 ^ 255 : ℕ)
      let y : ℤ := (littleEndian encoded % 2 ^ 255 : ℕ)
      if y ≥ fieldPrime then none
      else (squareRoot y).bind fun x =>
        if x = 0 ∧ xSign ≠ 0 then none
        else
          let x := if x % 2 ≠ xSign then fieldPrime - x else x
          if isOnCurve x y then some ⟨x, y, 1, x * y % fieldPrime⟩ else none := by
  unfold decodePoint
  split
  · rfl
  · show (if _ then _ else _) = if _ then _ else _
    split
    · rfl
    · exact (bind_ite_none _ _).symm

theorem fieldPrime_pos : 0 < fieldPrime := by decide

theorem squareRoot_range {y r : ℤ} (h : squareRoot y = some r) : 0 ≤ r ∧ r < fieldPrime := by
  have hrange : ∀ a : ℤ, 0 ≤ a % fieldPrime ∧ a % fieldPrime < fieldPrime := fun a =>
    ⟨Int.emod_nonneg a fieldPrime_pos.ne', Int.emod_lt_of_pos a fieldPrime_pos⟩
  unfold squareRoot at h
  simp only at h
  split at h
  · cases h
  · split at h
    · obtain rfl := Option.some.inj h
      exact hrange _
    · split at h
      · obtain rfl := Option.some.inj h
        exact hrange _
      · cases h

/-- **The root is found** for the `y` of every point. -/
theorem squareRoot_complete {x y : ℤ} (h : isOnCurve x y = true) :
    ∃ r, squareRoot y = some r ∧ (r : BaseField) ^ 2 = (x : BaseField) ^ 2 := by
  have hcurve := isOnCurve_iff.mp h
  have hv : edwards25519.d * (y : BaseField) ^ 2 + 1 ≠ 0 := by
    intro hzero
    by_cases hy : (y : BaseField) = 0
    · rw [hy] at hzero
      exact one_ne_zero (by linear_combination hzero)
    · refine edwards25519.d_nonsquare ⟨edwards25519.root / y, ?_⟩
      field_simp
      linear_combination hzero - edwards25519.root_sq
  have hx : (edwards25519.d * (y : BaseField) ^ 2 + 1) * (x : BaseField) ^ 2 = (y : BaseField) ^ 2 - 1 := by
    linear_combination -hcurve
  have hexponent : (2 ^ 255 - 24) / 8 = (fieldSize - 5) / 8 := by decide
  unfold squareRoot
  simp only [hexponent]
  -- the integers of the source, by what they are in the field
  generalize hu : (y * y % fieldPrime - 1) % fieldPrime = u
  generalize hw : (curveD * (y * y % fieldPrime) + 1) % fieldPrime = w
  have hucast : (u : BaseField) = (y : BaseField) ^ 2 - 1 := by
    rw [← hu, cast_emod]
    push_cast [cast_emod]
    ring
  have hwcast : (w : BaseField) = edwards25519.d * (y : BaseField) ^ 2 + 1 := by
    rw [← hw, cast_emod]
    push_cast [cast_emod]
    rw [edwards25519]
    ring
  rw [← hwcast] at hv hx
  rw [← hucast] at hx
  have hcandidate := candidate_sq (p := fieldSize) (by decide) hv hx
  generalize hr : u * (w * w * w % fieldPrime) * powField (u * ((w * w * w % fieldPrime)
    * (w * w * w % fieldPrime) * w % fieldPrime) % fieldPrime) ((fieldSize - 5) / 8) % fieldPrime = r
  have hrcast : (r : BaseField) = u * w ^ 3 * (u * w ^ 7) ^ ((fieldSize - 5) / 8) := by
    rw [← hr, cast_emod]
    push_cast [cast_emod, cast_powField]
    rw [show (w : BaseField) * w * w = w ^ 3 by ring, show (w : BaseField) ^ 3 * w ^ 3 * w = w ^ 7 by ring]
  rw [← hrcast] at hcandidate
  have hcancel : ∀ z : BaseField, (w : BaseField) * z = u → z = (x : BaseField) ^ 2 := fun z hz =>
    mul_left_cancel₀ hv (hz.trans hx.symm)
  have hreduced : u % fieldPrime = u := by rw [← hu, Int.emod_emod]
  rw [if_neg fun hzero => hv (by rw [hzero, Int.cast_zero])]
  split
  · next hneg =>
      have hcast : (w : BaseField) * r ^ 2 = -u := by
        have := cast_eq_iff.mpr (show w * r * r ≡ -u [ZMOD fieldPrime] from hneg)
        push_cast at this
        linear_combination this
      refine ⟨_, rfl, hcancel _ ?_⟩
      rw [cast_emod, Int.cast_mul]
      linear_combination (w : BaseField) * r ^ 2 * sqrtMinusOne_sq - hcast
  · next hneg =>
      have hcast : (w : BaseField) * r ^ 2 = u := by
        refine hcandidate.resolve_right fun hbad => hneg (cast_eq_iff.mp ?_)
        push_cast
        linear_combination hbad
      have hcheck : w * r * r % fieldPrime = u := by
        rw [← hreduced]
        refine cast_eq_iff.mp ?_
        push_cast
        linear_combination hcast
      rw [if_pos hcheck]
      exact ⟨r, rfl, hcancel _ hcast⟩

/-! ### Encodings -/

/-- Reduced affine coordinates of a point of the curve. -/
structure IsAffine (x y : ℤ) : Prop where
  x_nonneg : 0 ≤ x
  x_lt : x < fieldPrime
  y_nonneg : 0 ≤ y
  y_lt : y < fieldPrime
  on_curve : isOnCurve x y = true

/-- The number whose bytes encode a point: `y`, and the parity of `x` above it. -/
def encodedNumber (x y : ℤ) : ℕ := y.toNat + 2 ^ 255 * (x % 2).toNat

/-- The encoding of a point. -/
def encodePoint (x y : ℤ) : List UInt8 := toLittleEndian 32 (encodedNumber x y)

theorem fieldPrime_bounds : fieldPrime < 2 ^ 255 ∧ fieldPrime % 2 = 1 := by decide

variable {x y : ℤ}

theorem encodedNumber_div (h : IsAffine x y) : encodedNumber x y / 2 ^ 255 = (x % 2).toNat := by
  have hy := h.y_lt.trans fieldPrime_bounds.1
  have hlow : y.toNat < 2 ^ 255 := by
    have hnonneg := h.y_nonneg
    omega
  rw [encodedNumber, Nat.add_mul_div_left _ _ (by positivity), Nat.div_eq_of_lt hlow, zero_add]

theorem encodedNumber_mod (h : IsAffine x y) : encodedNumber x y % 2 ^ 255 = y.toNat := by
  have hy := h.y_lt.trans fieldPrime_bounds.1
  have hlow : y.toNat < 2 ^ 255 := by
    have hnonneg := h.y_nonneg
    omega
  rw [encodedNumber, Nat.add_mul_mod_self_left, Nat.mod_eq_of_lt hlow]

theorem littleEndian_encodePoint (h : IsAffine x y) : littleEndian (encodePoint x y) = encodedNumber x y := by
  refine littleEndian_toLittleEndian ?_
  have hdiv := encodedNumber_div h
  have hparity : (x % 2).toNat < 2 := by omega
  have hlt : encodedNumber x y / 2 ^ 255 < 2 := hdiv ▸ hparity
  rw [Nat.div_lt_iff_lt_mul (by positivity)] at hlt
  exact hlt.trans_eq (by norm_num)

/-- The sign bit and the `y` of an encoding. -/
theorem encodePoint_parts (h : IsAffine x y) :
    ((littleEndian (encodePoint x y) / 2 ^ 255 : ℕ) : ℤ) = x % 2 ∧
      ((littleEndian (encodePoint x y) % 2 ^ 255 : ℕ) : ℤ) = y := by
  rw [littleEndian_encodePoint h, encodedNumber_div h, encodedNumber_mod h]
  exact ⟨Int.toNat_of_nonneg (Int.emod_nonneg x (by decide)), Int.toNat_of_nonneg h.y_nonneg⟩

/-- Two square roots of one number are equal or sum up to the prime. -/
theorem root_cases {r : ℤ} (hr : 0 ≤ r ∧ r < fieldPrime) (hx : 0 ≤ x ∧ x < fieldPrime)
    (h : (r : BaseField) ^ 2 = (x : BaseField) ^ 2) : r = x ∨ r ≠ x ∧ r + x = fieldPrime := by
  rcases sq_eq_sq_iff_eq_or_eq_neg.mp h with heq | hneg
  · left
    have hmod := cast_eq_iff.mp heq
    rwa [Int.ModEq, Int.emod_eq_of_lt hr.1 hr.2, Int.emod_eq_of_lt hx.1 hx.2] at hmod
  · have hzero : ((r + x : ℤ) : BaseField) = 0 := by
      push_cast
      rw [hneg, neg_add_cancel]
    obtain ⟨k, hk⟩ := Int.dvd_of_emod_eq_zero (cast_eq_zero_iff.mp hzero)
    have hpos := fieldPrime_pos
    have hk₀ : 0 ≤ k := by nlinarith
    have hk₂ : k < 2 := by nlinarith
    obtain rfl | rfl : k = 0 ∨ k = 1 := by omega
    · left
      omega
    · have hodd := fieldPrime_bounds.2
      right
      omega

/-- **Every encoding of a point is decoded** to that point. -/
theorem decodePoint_encodePoint (h : IsAffine x y) :
    decodePoint (encodePoint x y) = some ⟨x, y, 1, x * y % fieldPrime⟩ := by
  obtain ⟨hsign, hy⟩ := encodePoint_parts h
  obtain ⟨r, hroot, hsq⟩ := squareRoot_complete h.on_curve
  have hrange := squareRoot_range hroot
  have hodd := fieldPrime_bounds.2
  rw [decodePoint_eq, if_neg (by simp [encodePoint])]
  simp only [hsign, hy, hroot, Option.bind_some]
  rw [if_neg (not_le.mpr h.y_lt)]
  rcases root_cases hrange ⟨h.x_nonneg, h.x_lt⟩ hsq with rfl | ⟨hne, hsum⟩
  · have hkeep : (if r % 2 ≠ r % 2 then fieldPrime - r else r) = r := if_neg (by simp)
    rw [if_neg (by omega), hkeep, if_pos h.on_curve]
  · have hxlt := h.x_lt
    have hflip : (if r % 2 ≠ x % 2 then fieldPrime - r else r) = x := by
      rw [if_pos (by omega)]
      omega
    rw [if_neg (by omega), hflip, if_pos h.on_curve]

/-- **What is decoded was encoded**: the bytes are those of the point that comes out. -/
theorem encodePoint_of_decodePoint {encoded : List UInt8} {point : Point}
    (h : decodePoint encoded = some point) : ∃ x y, IsAffine x y ∧ encodePoint x y = encoded ∧
      point = ⟨x, y, 1, x * y % fieldPrime⟩ := by
  rw [decodePoint_eq] at h
  split at h
  · cases h
  · next hlength =>
      have hlength : encoded.length = 32 := not_not.mp hlength
      have hbound := littleEndian_lt encoded
      rw [hlength] at hbound
      have hvalue := Nat.div_add_mod (littleEndian encoded) (2 ^ 255)
      have hsign : littleEndian encoded / 2 ^ 255 < 2 := by
        rw [Nat.div_lt_iff_lt_mul (by positivity)]
        exact hbound.trans_eq (by norm_num)
      simp only at h
      generalize littleEndian encoded / 2 ^ 255 = sign at h hvalue hsign
      generalize hy : littleEndian encoded % 2 ^ 255 = low at h hvalue
      split at h
      · cases h
      · next hylt =>
          obtain ⟨r, hroot, h⟩ := Option.bind_eq_some_iff.mp h
          have hrange := squareRoot_range hroot
          have hodd := fieldPrime_bounds.2
          split at h
          · cases h
          · next hzero =>
              generalize hx : (if r % 2 ≠ (sign : ℤ) then fieldPrime - r else r) = x at h
              have hx : 0 ≤ x ∧ x < fieldPrime ∧ (x % 2).toNat = sign := by
                rw [← hx]
                split <;> omega
              split at h
              · next hcurve =>
                  obtain rfl := Option.some.inj h
                  refine ⟨x, low, ⟨hx.1, hx.2.1, by omega, not_le.mp hylt, hcurve⟩, ?_, rfl⟩
                  rw [encodePoint, encodedNumber, hx.2.2, Int.toNat_natCast, add_comm, hvalue, ← hlength,
                    toLittleEndian_littleEndian]
              · cases h

theorem eq_of_sub_emod {a b : ℤ} (ha : 0 ≤ a ∧ a < fieldPrime) (hb : 0 ≤ b ∧ b < fieldPrime)
    (h : (a - b) % fieldPrime = 0) : a = b := by
  have heq : a % fieldPrime = b % fieldPrime := Int.emod_eq_emod_iff_emod_sub_eq_zero.mpr h
  rwa [Int.emod_eq_of_lt ha.1 ha.2, Int.emod_eq_of_lt hb.1 hb.2] at heq

/-- Points that the source takes for equal have one encoding. -/
theorem encoded_eq_of_pointsEqual {left right : List UInt8} {P Q : Point}
    (hleft : decodePoint left = some P) (hright : decodePoint right = some Q)
    (h : pointsEqual P Q = true) : left = right := by
  obtain ⟨x, y, hxy, rfl, rfl⟩ := encodePoint_of_decodePoint hleft
  obtain ⟨x', y', hxy', rfl, rfl⟩ := encodePoint_of_decodePoint hright
  simp only [pointsEqual, Bool.and_eq_true, beq_iff_eq, mul_one] at h
  rw [eq_of_sub_emod ⟨hxy.x_nonneg, hxy.x_lt⟩ ⟨hxy'.x_nonneg, hxy'.x_lt⟩ h.1,
    eq_of_sub_emod ⟨hxy.y_nonneg, hxy.y_lt⟩ ⟨hxy'.y_nonneg, hxy'.y_lt⟩ h.2]

/-- **Decoding is canonical.**  Exactly the encodings of the points of the curve are decoded, each to its
point; a byte string encodes one point at most; and no two byte strings decode to one point. -/
theorem decoding_canonical :
    (∀ encoded point, decodePoint encoded = some point ↔ ∃ x y, IsAffine x y ∧ encodePoint x y = encoded ∧
      point = ⟨x, y, 1, x * y % fieldPrime⟩) ∧
    (∀ encoded, (∃ point, decodePoint encoded = some point) ↔
      encoded.length = 32 ∧ ∃! p : ℤ × ℤ, IsAffine p.1 p.2 ∧
        (littleEndian encoded % 2 ^ 255 : ℕ) = p.2 ∧ (littleEndian encoded / 2 ^ 255 : ℕ) = p.1 % 2) ∧
    (∀ left right P Q, decodePoint left = some P → decodePoint right = some Q →
      pointsEqual P Q = true → left = right) := by
  refine ⟨fun encoded point => ⟨encodePoint_of_decodePoint, ?_⟩, fun encoded => ⟨?_, ?_⟩,
    fun left right P Q => encoded_eq_of_pointsEqual⟩
  · rintro ⟨x, y, hxy, rfl, rfl⟩
    exact decodePoint_encodePoint hxy
  · rintro ⟨point, h⟩
    obtain ⟨x, y, hxy, rfl, -⟩ := encodePoint_of_decodePoint h
    obtain ⟨hsign, hy⟩ := encodePoint_parts hxy
    refine ⟨length_toLittleEndian 32 _, (x, y), ⟨hxy, hy, hsign⟩, ?_⟩
    rintro ⟨x', y'⟩ ⟨hxy', hy', hsign'⟩
    obtain rfl : y' = y := hy'.symm.trans hy
    -- the roots of one number that have one parity are equal
    have hroot : (x' : BaseField) ^ 2 = (x : BaseField) ^ 2 := by
      obtain ⟨r, hr, hsq⟩ := squareRoot_complete hxy.on_curve
      obtain ⟨r', hr', hsq'⟩ := squareRoot_complete hxy'.on_curve
      obtain rfl := Option.some.inj (hr.symm.trans hr')
      exact hsq'.symm.trans hsq
    have hparity : x' % 2 = x % 2 := hsign'.symm.trans hsign
    have hodd := fieldPrime_bounds.2
    rcases root_cases ⟨hxy'.x_nonneg, hxy'.x_lt⟩ ⟨hxy.x_nonneg, hxy.x_lt⟩ hroot with rfl | ⟨-, hsum⟩
    · rfl
    · omega
  · rintro ⟨hlength, ⟨x, y⟩, ⟨hxy, hy, hsign⟩, -⟩
    have hencoded : encodePoint x y = encoded := by
      refine littleEndian_injective (by rw [hlength, encodePoint, length_toLittleEndian]) ?_
      obtain ⟨hsign', hy'⟩ := encodePoint_parts hxy
      have hdiv := Int.natCast_inj.mp (hsign.trans hsign'.symm)
      have hmod := Int.natCast_inj.mp (hy.trans hy'.symm)
      rw [← Nat.div_add_mod (littleEndian encoded) (2 ^ 255), hdiv, hmod, Nat.div_add_mod]
    exact ⟨_, hencoded ▸ decodePoint_encodePoint hxy⟩

end CodingOS.Crypto
