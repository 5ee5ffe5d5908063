import CodingOS.Systems.Keyed
import CodingOS.Systems.Run
import Mathlib

/-!
# Measures that go down along a run

A measure that no step raises bounds the steps that lower it: there are at most as many as the measure
of the first state.  Steps that all start at one value of the measure and lower it are at most one.
-/

namespace Systems

variable {σ Λ : Type*} {step : σ → Λ → σ → Prop} {s₀ s : σ} {history : List (Entry σ Λ)}

/-- **The counting rule.** -/
theorem Run.count_le (μ : σ → ℕ) (p : Entry σ Λ → Bool) (h : Run step s₀ history s)
    (down : ∀ {s s' : σ} {l : Λ}, Reachable step s₀ s → step s l s' → μ s' ≤ μ s)
    (drop : ∀ {s s' : σ} {l : Λ}, Reachable step s₀ s → step s l s' → p ⟨s, l, s'⟩ = true →
      μ s' < μ s) : (history.filter p).length + μ s ≤ μ s₀ := by
  induction h with
  | start => simp
  | @snoc history s s' l hrun hstep ih =>
      have hreached : Reachable step s₀ s := ⟨history, hrun⟩
      rw [List.filter_append, List.length_append, List.filter_singleton]
      cases hp : p ⟨s, l, s'⟩ with
      | true =>
          have hdrop := drop hreached hstep hp
          rw [cond_true, List.length_singleton]
          omega
      | false =>
          have hdown := down hreached hstep
          rw [cond_false, List.length_nil]
          omega

/-- **The rule of the one step.**  A step that starts at the value `v` of a measure and lowers it is
taken at most once. -/
theorem Run.at_most_once (μ : σ → ℕ) (p : Entry σ Λ → Bool) (v : ℕ) (h : Run step s₀ history s)
    (down : ∀ {s s' : σ} {l : Λ}, Reachable step s₀ s → step s l s' → μ s' ≤ μ s)
    (pin : ∀ {s s' : σ} {l : Λ}, Reachable step s₀ s → step s l s' → p ⟨s, l, s'⟩ = true →
      μ s = v ∧ μ s' < v) : (history.filter p).length ≤ 1 := by
  have hboth : (history.filter p).length ≤ 1 ∧ (history.filter p ≠ [] → μ s < v) := by
    induction h with
    | start => simp
    | @snoc history s s' l hrun hstep ih =>
        have hreached : Reachable step s₀ s := ⟨history, hrun⟩
        have hdown := down hreached hstep
        rw [List.filter_append, List.filter_singleton]
        cases hp : p ⟨s, l, s'⟩ with
        | true =>
            obtain ⟨hat, hbelow⟩ := pin hreached hstep hp
            -- an earlier step would have left the measure below `v`
            have hnone : history.filter p = [] := by
              by_contra hsome
              have := ih.2 hsome
              omega
            simp [hnone, hbelow]
        | false =>
            refine ⟨by simpa using ih.1, fun hsome => ?_⟩
            have := ih.2 (by simpa using hsome)
            omega
  exact hboth.1

/-! ### Lists related row by row -/

variable {α κ : Type*} {key : α → κ} {R : α → α → Prop}

/-- Two lists with the same distinct keys in the same order are related row by row, when every row of
the second comes from the row of its key. -/
theorem forall₂_of_keys {rows rows' : List α} (hkeys : rows'.map key = rows.map key)
    (hnodup : (rows.map key).Nodup)
    (h : ∀ r' ∈ rows', ∃ r ∈ rows, key r = key r' ∧ R r r') : List.Forall₂ R rows rows' := by
  rw [List.forall₂_iff_get]
  have hlength : rows.length = rows'.length := by
    simpa using (congrArg List.length hkeys).symm
  refine ⟨hlength, fun i hi hi' => ?_⟩
  obtain ⟨r, hr, hkey, hR⟩ := h _ (List.get_mem rows' ⟨i, hi'⟩)
  have hat : key (rows.get ⟨i, hi⟩) = key (rows'.get ⟨i, hi'⟩) := by
    have hget := congrArg (fun l => l[i]?) hkeys
    simpa [hi, hi'] using hget.symm
  rwa [List.inj_on_of_nodup_map hnodup (List.get_mem rows ⟨i, hi⟩) hr (hat.trans hkey.symm)]

/-- A lookup finds related rows, or none in either list. -/
theorem find?_of_forall₂ [DecidableEq κ] {rows rows' : List α}
    (h : List.Forall₂ (fun r r' => key r' = key r ∧ R r r') rows rows') (k : κ) :
    (rows.find? (fun r => key r == k) = none ∧ rows'.find? (fun r => key r == k) = none) ∨
      ∃ r r', rows.find? (fun r => key r == k) = some r ∧
        rows'.find? (fun r => key r == k) = some r' ∧ R r r' := by
  induction h with
  | nil => exact .inl ⟨rfl, rfl⟩
  | @cons r r' rows rows' hrow _ ih =>
      rw [List.find?_cons, List.find?_cons, hrow.1]
      cases key r == k with
      | true => exact .inr ⟨r, r', rfl, rfl, hrow.2⟩
      | false => exact ih

/-- Row by row lower is lower in sum. -/
theorem sum_le_of_forall₂ {f : α → ℕ} {rows rows' : List α}
    (h : List.Forall₂ (fun r r' => f r' ≤ f r) rows rows') :
    (rows'.map f).sum ≤ (rows.map f).sum := by
  induction h with
  | nil => exact le_rfl
  | cons hle _ ih => simpa using Nat.add_le_add hle ih

/-- A change of one row lowers the sum, when no row is raised and a change of a row lowers it. -/
theorem sum_lt_of_forall₂ {β : Type*} {f : α → ℕ} {g : α → β} {rows rows' : List α}
    (h : List.Forall₂ (fun r r' => f r' ≤ f r ∧ (g r' ≠ g r → f r' < f r)) rows rows')
    (hne : rows'.map g ≠ rows.map g) : (rows'.map f).sum < (rows.map f).sum := by
  induction h with
  | nil => exact absurd rfl hne
  | @cons r r' rows rows' hrow hrows ih =>
      rw [List.map_cons, List.map_cons, List.sum_cons, List.sum_cons]
      have hle := sum_le_of_forall₂ (hrows.imp fun _ _ h => h.1)
      by_cases hsame : g r' = g r
      · have hlt := ih fun heq => hne (by rw [List.map_cons, List.map_cons, hsame, heq])
        have := hrow.1
        omega
      · have := hrow.2 hsame
        omega

end Systems
