import Mathlib.Data.Nat.BinaryRec
import Mathlib.NumberTheory.LucasPrimality

/-!
# Primes with a certificate

By Lucas, `n` is prime when some base has order `n - 1` modulo `n`, which a factorization of `n - 1`
into primes tells.  The factors are certified in turn: a chain lists a number before the factors it
needs, down to primes small enough to be known.
-/

namespace Systems.Primality

/-- A power modulo `m`, from the leading bit of the exponent on. -/
def powMod (m base : ℕ) (exponent : ℕ) : ℕ :=
  Nat.binaryRec 1 (fun bit _ half => if bit then base * (half * half % m) % m else half * half % m) exponent

theorem powMod_bit (m base : ℕ) {bit : Bool} {n : ℕ} (h : n = 0 → bit = true) :
    powMod m base (Nat.bit bit n) =
      if bit then base * (powMod m base n * powMod m base n % m) % m
      else powMod m base n * powMod m base n % m := by
  rw [powMod, Nat.binaryRec_eq _ _ (.inr h)]
  rfl

theorem powMod_modEq (m base exponent : ℕ) : powMod m base exponent ≡ base ^ exponent [MOD m] := by
  induction exponent using Nat.binaryRec' with
  | zero => rw [powMod, Nat.binaryRec_zero, pow_zero]
  | bit bit n hn ih =>
      have hsquare : powMod m base n * powMod m base n % m ≡ base ^ (2 * n) [MOD m] :=
        calc powMod m base n * powMod m base n % m ≡ powMod m base n * powMod m base n [MOD m] :=
              Nat.mod_modEq _ _
          _ ≡ base ^ n * base ^ n [MOD m] := ih.mul ih
          _ = base ^ (2 * n) := by rw [← pow_add, two_mul]
      rw [powMod_bit m base hn]
      cases bit with
      | false => exact hsquare
      | true =>
          calc base * (powMod m base n * powMod m base n % m) % m
              ≡ base * (powMod m base n * powMod m base n % m) [MOD m] := Nat.mod_modEq _ _
            _ ≡ base * base ^ (2 * n) [MOD m] := hsquare.mul_left base
            _ = base ^ Nat.bit true n := by rw [Nat.bit_val, Bool.toNat_true, pow_succ, mul_comm]

/-- A number, a base, and the prime factors of the number less one. -/
structure Certificate where
  number : ℕ
  base : ℕ
  factors : List ℕ

/-- The base has order `number - 1`. -/
def Certificate.valid (c : Certificate) : Bool :=
  1 < c.number && c.factors.prod == c.number - 1
    && powMod c.number c.base (c.number - 1) % c.number == 1
    && c.factors.all fun q => powMod c.number c.base ((c.number - 1) / q) % c.number != 1

theorem pow_eq_one_iff {n : ℕ} (hn : 1 < n) (base exponent : ℕ) :
    (base : ZMod n) ^ exponent = 1 ↔ powMod n base exponent % n = 1 := by
  have hmod : base ^ exponent % n = powMod n base exponent % n := (powMod_modEq n base exponent).symm
  rw [← Nat.cast_pow, ← Nat.cast_one, ZMod.natCast_eq_natCast_iff, Nat.ModEq, hmod, Nat.mod_eq_of_lt hn]

theorem Certificate.prime {c : Certificate} (hvalid : c.valid = true) (hfactors : ∀ q ∈ c.factors, q.Prime) :
    c.number.Prime := by
  simp only [Certificate.valid, Bool.and_eq_true, decide_eq_true_eq, beq_iff_eq, List.all_eq_true,
    bne_iff_ne] at hvalid
  obtain ⟨⟨⟨hone, hprod⟩, hfull⟩, hparts⟩ := hvalid
  refine lucas_primality c.number (c.base : ZMod c.number) ((pow_eq_one_iff hone _ _).mpr hfull) ?_
  intro q hq hdvd hpow
  rw [← hprod] at hdvd
  obtain ⟨r, hr, hqr⟩ := (Prime.dvd_prod_iff hq.prime).mp hdvd
  obtain rfl := (Nat.prime_dvd_prime_iff_eq hq (hfactors r hr)).mp hqr
  exact hparts q hr ((pow_eq_one_iff hone _ _).mp hpow)

/-- Each certificate is valid, and its factors are small or certified behind it. -/
def chained (small : List ℕ) : List Certificate → Bool
  | [] => true
  | c :: rest =>
      c.valid && (c.factors.all fun q => q ∈ small || rest.any fun r => r.number == q)
        && chained small rest

theorem prime_of_chained {small : List ℕ} (hsmall : ∀ q ∈ small, q.Prime) {chain : List Certificate}
    (h : chained small chain = true) : ∀ c ∈ chain, c.number.Prime := by
  induction chain with
  | nil => simp
  | cons c rest ih =>
      simp only [chained, Bool.and_eq_true, List.all_eq_true, Bool.or_eq_true, decide_eq_true_eq,
        List.any_eq_true, beq_iff_eq] at h
      obtain ⟨⟨hvalid, hfactors⟩, hrest⟩ := h
      refine List.forall_mem_cons.mpr ⟨c.prime hvalid fun q hq => ?_, ih hrest⟩
      rcases hfactors q hq with hknown | ⟨r, hr, rfl⟩
      · exact hsmall q hknown
      · exact ih hrest r hr

end Systems.Primality
