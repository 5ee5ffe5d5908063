import Mathlib.Data.List.Basic
import Mathlib.Data.List.Nodup

/-!
# Ledgers of one-unit spending

A ledger holds a limit and a consumed amount for every token, a rank that bounds all spending
together, and one receipt for every unit spent.  `Conserved` is the bookkeeping law between the three;
spending one unit keeps it, and so does letting time pass.
-/

namespace Systems

variable {ι τ : Type*} [DecidableEq τ]

/-- The record of one unit spent. -/
structure Receipt (ι τ : Type*) where
  id : ι
  token : τ
  time : ℕ

structure Ledger (ι τ : Type*) where
  limit : τ → ℕ
  consumed : τ → ℕ
  receipts : List (Receipt ι τ)
  rank : ℕ

namespace Ledger

/-- One unit of `token` is spent under the fresh identifier `id` in the moment after `now`. -/
structure Spend (now : ℕ) (id : ι) (token : τ) (l l' : Ledger ι τ) : Prop where
  unused : ∀ r ∈ l.receipts, r.id ≠ id
  available : l.consumed token < l.limit token
  rank : l.rank = l'.rank + 1
  limit : l'.limit = l.limit
  consumed : ∀ t, l'.consumed t = l.consumed t + if t = token then 1 else 0
  receipts : l'.receipts = l.receipts ++ [⟨id, token, now + 1⟩]

/-- **Conservation.**  The rank left and the receipts add up to `total`, every token is consumed
exactly as often as receipts carry it and never past its limit, and the receipts have distinct
identifiers and increasing times, none later than `now`. -/
structure Conserved (total now : ℕ) (l : Ledger ι τ) : Prop where
  rank : l.rank + l.receipts.length = total
  consumed : ∀ t, l.consumed t = l.receipts.countP fun r => r.token = t
  within : ∀ t, l.consumed t ≤ l.limit t
  distinct : (l.receipts.map (·.id)).Nodup
  increasing : (l.receipts.map (·.time)).Pairwise (· < ·)
  bounded : ∀ r ∈ l.receipts, r.time ≤ now

variable {total now now' : ℕ} {id : ι} {token : τ} {l l' : Ledger ι τ}

theorem Conserved.wait (h : Conserved total now l) (hnow : now ≤ now') : Conserved total now' l :=
  { h with bounded := fun r hr => Nat.le_trans (h.bounded r hr) hnow }

theorem Conserved.spend (h : Conserved total now l) (hs : Spend now id token l l') :
    Conserved total (now + 1) l' where
  rank := by
    have hrank := hs.rank
    have htotal := h.rank
    rw [hs.receipts, List.length_append, List.length_singleton]
    omega
  consumed t := by
    rw [hs.consumed, hs.receipts, List.countP_append, h.consumed, List.countP_singleton]
    by_cases ht : t = token
    · simp [ht]
    · simp [ht, Ne.symm ht]
  within t := by
    rw [hs.consumed, hs.limit]
    by_cases ht : t = token
    · subst ht
      have havailable := hs.available
      rw [if_pos rfl]
      omega
    · rw [if_neg ht]
      exact h.within t
  distinct := by
    rw [hs.receipts, List.map_append, List.map_singleton, List.nodup_append]
    refine ⟨h.distinct, List.nodup_singleton _, ?_⟩
    intro a ha b hb
    obtain ⟨r, hr, rfl⟩ := List.mem_map.mp ha
    obtain rfl := List.mem_singleton.mp hb
    exact hs.unused r hr
  increasing := by
    rw [hs.receipts, List.map_append, List.map_singleton, List.pairwise_append]
    refine ⟨h.increasing, List.pairwise_singleton _ _, ?_⟩
    intro a ha b hb
    obtain ⟨r, hr, rfl⟩ := List.mem_map.mp ha
    obtain rfl := List.mem_singleton.mp hb
    exact Nat.lt_succ_of_le (h.bounded r hr)
  bounded r hr := by
    rw [hs.receipts, List.mem_append, List.mem_singleton] at hr
    obtain hr | rfl := hr
    · exact Nat.le_succ_of_le (h.bounded r hr)
    · exact Nat.le_refl _

end Ledger

end Systems
