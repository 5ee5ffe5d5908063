import CodingOS.Systems.Table
import Mathlib.Data.List.Perm.Basic

/-!
# Rows that are inserted once

`INSERT OR IGNORE` of one row after the other.  The rows that are added have the keys that were free,
so rows that come again change nothing, and whatever is determined by the key does not depend on the
order.
-/

namespace Systems.Table

variable {ρ κ β : Type*} [DecidableEq κ] {key : ρ → κ} {t : Table key}

/-- `INSERT OR IGNORE`. -/
def insertOrIgnore (t : Table key) (r : ρ) : Table key := (t.insert? r).getD t

/-- A row whose key is taken changes nothing. -/
theorem insertOrIgnore_of_get? {r s : ρ} (h : t.get? (key r) = some s) : t.insertOrIgnore r = t := by
  cases hinsert : t.insert? r with
  | none => rw [insertOrIgnore, hinsert, Option.getD_none]
  | some u => exact absurd ((insert?_eq_some.mp hinsert).1.symm.trans h) (by simp)

/-- `INSERT OR IGNORE` for each row of a list. -/
def insertNew (t : Table key) (rows : List ρ) : Table key := rows.foldl insertOrIgnore t

/-- The rows that are added: some of those given, whose keys are the given ones that were free. -/
theorem exists_insertNew (t : Table key) (rows : List ρ) : ∃ new : List ρ,
    (t.insertNew rows).rows = t.rows ++ new ∧ (∀ r ∈ new, r ∈ rows) ∧ (new.map key).Nodup ∧
      ∀ k, k ∈ new.map key ↔ k ∈ rows.map key ∧ k ∉ t.rows.map key := by
  induction rows generalizing t with
  | nil => exact ⟨[], by simp [insertNew], by simp, by simp, by simp⟩
  | cons r rows ih =>
      obtain ⟨new, hrows, hfrom, hnodup, hkeys⟩ := ih (t.insertOrIgnore r)
      have hstep : t.insertNew (r :: rows) = (t.insertOrIgnore r).insertNew rows := rfl
      cases hinsert : t.insert? r with
      | none =>
          have hsame : t.insertOrIgnore r = t := by rw [insertOrIgnore, hinsert, Option.getD_none]
          have htaken : key r ∈ t.rows.map key := by
            unfold insert? at hinsert
            split at hinsert
            · assumption
            · cases hinsert
          rw [hsame] at hrows hkeys
          rw [hstep, hsame]
          refine ⟨new, hrows, fun s hs => List.mem_cons_of_mem r (hfrom s hs), hnodup, fun k => ?_⟩
          rw [hkeys, List.map_cons, List.mem_cons]
          constructor
          · rintro ⟨hk, hfree⟩
            exact ⟨.inr hk, hfree⟩
          · rintro ⟨rfl | hk, hfree⟩
            · exact absurd htaken hfree
            · exact ⟨hk, hfree⟩
      | some u =>
          obtain ⟨hfree, hu⟩ := insert?_eq_some.mp hinsert
          have hsame : t.insertOrIgnore r = u := by rw [insertOrIgnore, hinsert, Option.getD_some]
          rw [hsame, hu] at hrows hkeys
          have hout : key r ∉ new.map key := fun hmem => ((hkeys _).mp hmem).2 (by simp)
          refine ⟨r :: new, ?_, ?_, ?_, fun k => ?_⟩
          · rw [hstep, hsame, hrows, List.append_assoc, List.singleton_append]
          · exact List.forall_mem_cons.mpr ⟨List.mem_cons_self, fun s hs => List.mem_cons_of_mem r (hfrom s hs)⟩
          · exact List.nodup_cons.mpr ⟨hout, hnodup⟩
          · rw [List.map_cons, List.mem_cons, hkeys, List.map_cons, List.mem_cons, List.map_append,
              List.mem_append, List.map_singleton, List.mem_singleton]
            constructor
            · rintro (rfl | ⟨hk, hnot⟩)
              · exact ⟨.inl rfl, by simpa [get?_eq_none] using hfree⟩
              · exact ⟨.inr hk, fun hold => hnot (.inl hold)⟩
            · rintro ⟨rfl | hk, hnot⟩
              · exact .inl rfl
              · by_cases heq : k = key r
                · exact .inl heq
                · exact .inr ⟨hk, not_or.mpr ⟨hnot, heq⟩⟩

/-- Rows of the same keys, of which the key tells what matters, add the same in any order. -/
theorem insertNew_perm (t : Table key) {rows rows' : List ρ} {f : ρ → β}
    (hkeys : ∀ k, k ∈ rows.map key ↔ k ∈ rows'.map key)
    (hf : ∀ r ∈ rows, ∀ r' ∈ rows', key r = key r' → f r = f r') :
    ∃ new new' : List ρ, (t.insertNew rows).rows = t.rows ++ new ∧
      (t.insertNew rows').rows = t.rows ++ new' ∧ (∀ r ∈ new, r ∈ rows) ∧ (∀ r ∈ new', r ∈ rows') ∧
      (new.map f).Perm (new'.map f) := by
  obtain ⟨new, hrows, hfrom, hnodup, hnew⟩ := exists_insertNew t rows
  obtain ⟨new', hrows', hfrom', hnodup', hnew'⟩ := exists_insertNew t rows'
  refine ⟨new, new', hrows, hrows', hfrom, hfrom', ?_⟩
  have hperm : (new.map key).Perm (new'.map key) :=
    (List.perm_ext_iff_of_nodup hnodup hnodup').mpr fun k => by rw [hnew, hnew', hkeys]
  -- what the key tells, read off the rows that are given first
  let told : κ → Option β := fun k =>
    if h : ∃ r ∈ rows, key r = k then some (f h.choose) else none
  have htold : ∀ r' ∈ rows', (∃ r ∈ rows, key r = key r') → told (key r') = some (f r') := by
    intro r' hr' h
    have hchosen := h.choose_spec
    simp only [told, dif_pos h, hf _ hchosen.1 r' hr' hchosen.2]
  have hnewTold : new.map (some ∘ f) = (new.map key).map told := by
    rw [List.map_map]
    refine List.map_congr_left fun r hr => ?_
    obtain ⟨r', hr', heq⟩ := List.mem_map.mp
      ((hkeys (key r)).mp (List.mem_map_of_mem (hfrom r hr)))
    have hsame : f r = f r' := hf r (hfrom r hr) r' hr' heq.symm
    simp only [Function.comp_apply, hsame, ← heq, htold r' hr' ⟨r, hfrom r hr, heq.symm⟩]
  have hnewTold' : new'.map (some ∘ f) = (new'.map key).map told := by
    rw [List.map_map]
    refine List.map_congr_left fun r' hr' => ?_
    obtain ⟨r, hr, heq⟩ := List.mem_map.mp
      ((hkeys (key r')).mpr (List.mem_map_of_mem (hfrom' r' hr')))
    exact (htold r' (hfrom' r' hr') ⟨r, hr, heq⟩).symm
  have hsome : ((new.map f).map some).Perm ((new'.map f).map some) := by
    rw [List.map_map, List.map_map, hnewTold, hnewTold']
    exact hperm.map told
  exact (List.map_perm_map_iff (fun _ _ h => Option.some.inj h)).mp hsome

end Systems.Table
