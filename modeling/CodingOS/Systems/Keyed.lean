import Mathlib.Data.List.Basic
import Mathlib.Data.List.Nodup

/-!
# Lists with distinct keys

A table is a list whose rows have pairwise distinct keys.  Looking a key up then finds the row that
has it, whatever the order of the rows.
-/

namespace Systems

variable {α κ : Type*} [DecidableEq κ] {key : α → κ}

theorem find?_key_eq_some {rows : List α} (hnodup : (rows.map key).Nodup) {k : κ} {row : α} :
    rows.find? (fun r => key r == k) = some row ↔ row ∈ rows ∧ key row = k := by
  constructor
  · intro h
    exact ⟨List.mem_of_find?_eq_some h, by simpa using List.find?_some h⟩
  · rintro ⟨hmem, rfl⟩
    induction rows with
    | nil => simp at hmem
    | cons r rows ih =>
        rw [List.map_cons, List.nodup_cons] at hnodup
        rw [List.find?_cons]
        obtain rfl | hmem := List.mem_cons.mp hmem
        · simp
        · have hne : key r ≠ key row := by
            intro heq
            exact hnodup.1 (heq ▸ List.mem_map_of_mem hmem)
          rw [beq_false_of_ne hne]
          exact ih hnodup.2 hmem

/-- Two orders of the same rows answer every lookup alike. -/
theorem find?_key_perm {rows rows' : List α} (h : rows.Perm rows') (hnodup : (rows.map key).Nodup)
    (k : κ) : rows.find? (fun r => key r == k) = rows'.find? (fun r => key r == k) := by
  have hnodup' : (rows'.map key).Nodup := (h.map key).nodup_iff.mp hnodup
  apply Option.ext
  intro row
  rw [find?_key_eq_some hnodup, find?_key_eq_some hnodup', h.mem_iff]

end Systems
