import CodingOS.Systems.Session

/-!
# Swaps that stand

Owners replace the content of a cell and put the old content back.  The replacements not yet undone form
a stack, and an undo is its owner's when it takes the owner's own replacement off the top.
-/

namespace Systems

/-- What an operation does to a cell: an owner replaces its content, or a replacement is undone. -/
inductive Write (ι : Type)
  | swap (owner : ι)
  | undo

section Standing

variable {σ Λ ι : Type} (write : Entry σ Λ → Option (Write ι))

/-- The owners of the replacements that stand after a log, the last first. -/
def standing (log : List (Entry σ Λ)) : List ι :=
  log.foldl (fun stack e => match write e with
    | some (.swap owner) => owner :: stack
    | some .undo => stack.tail
    | none => stack) []

variable {write} {log : List (Entry σ Λ)} {e : Entry σ Λ} {owner : ι}

theorem standing_snoc_none (h : write e = none) :
    standing write (log ++ [e]) = standing write log := by
  simp [standing, h]

theorem standing_snoc_swap (h : write e = some (.swap owner)) :
    standing write (log ++ [e]) = owner :: standing write log := by
  simp [standing, h]

theorem standing_snoc_undo (h : write e = some .undo) :
    standing write (log ++ [e]) = (standing write log).tail := by
  simp [standing, h]

/-- An owner whose replacement stands made one. -/
theorem swapped_of_mem_standing (h : owner ∈ standing write log) :
    ∃ e ∈ log, write e = some (.swap owner) := by
  induction log using List.reverseRecOn with
  | nil => cases h
  | append_singleton log e ih =>
      have hearlier : owner ∈ standing write log →
          ∃ e' ∈ log ++ [e], write e' = some (.swap owner) := by
        intro hmem
        obtain ⟨e', he', hswap⟩ := ih hmem
        exact ⟨e', List.mem_append_left _ he', hswap⟩
      cases hwrite : write e with
      | none => exact hearlier (standing_snoc_none hwrite ▸ h)
      | some w =>
          cases w with
          | swap other =>
              rw [standing_snoc_swap hwrite] at h
              rcases List.mem_cons.mp h with rfl | hmem
              · exact ⟨e, by simp, hwrite⟩
              · exact hearlier hmem
          | undo => exact hearlier (List.mem_of_mem_tail (standing_snoc_undo hwrite ▸ h))

end Standing

end Systems
