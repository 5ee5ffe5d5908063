import Mathlib.Data.List.Induction

/-!
# Runs of a labelled transition system

A system is a step relation `σ → Λ → σ → Prop`.  A run keeps its whole history: the list of the steps
it took, each with the state before, the label and the state after.  Laws about histories and laws
about reachable states are both inductions on `Run`, and the two rules here package them.
-/

namespace Systems

variable {σ Λ : Type*}

/-- One step of a history. -/
structure Entry (σ Λ : Type*) where
  before : σ
  label : Λ
  after : σ

/-- `Run step s₀ history s`: from `s₀` the steps of `history`, in order, lead to `s`. -/
inductive Run (step : σ → Λ → σ → Prop) (s₀ : σ) : List (Entry σ Λ) → σ → Prop
  | start : Run step s₀ [] s₀
  | snoc {history : List (Entry σ Λ)} {s s' : σ} {l : Λ} :
      Run step s₀ history s → step s l s' → Run step s₀ (history ++ [⟨s, l, s'⟩]) s'

/-- A state some run reaches. -/
def Reachable (step : σ → Λ → σ → Prop) (s₀ s : σ) : Prop := ∃ history, Run step s₀ history s

namespace Run

variable {step : σ → Λ → σ → Prop} {s₀ s : σ} {history : List (Entry σ Λ)}

/-- **The invariant rule.**  What holds at the start and is kept by every step holds at the end of
every run. -/
theorem invariant (Inv : σ → Prop) (h : Run step s₀ history s) (start : Inv s₀)
    (keep : ∀ {s s' : σ} {l : Λ}, Inv s → step s l s' → Inv s') : Inv s := by
  induction h with
  | start => exact start
  | snoc _ hstep ih => exact keep ih hstep

/-- The invariant rule, at every moment. -/
theorem keeps {Inv : σ → Prop} (h : Run step s₀ history s) (start : Inv s₀)
    (keep : ∀ {s s' : σ} {l : Λ}, Inv s → step s l s' → Inv s') :
    Inv s ∧ ∀ e ∈ history, Inv e.before ∧ Inv e.after := by
  induction h with
  | start => exact ⟨start, fun e he => absurd he List.not_mem_nil⟩
  | snoc _ hstep ih =>
      have hnext := keep ih.1 hstep
      simp only [List.forall_mem_append, List.forall_mem_singleton]
      exact ⟨hnext, ih.2, ih.1, hnext⟩

/-- A run whose steps all meet a condition is a run of the system restricted to it. -/
theorem restrict {P : σ → Λ → Prop} (h : Run step s₀ history s)
    (hsteps : ∀ e ∈ history, P e.before e.label) :
    Run (fun s l s' => step s l s' ∧ P s l) s₀ history s := by
  induction h with
  | start => exact .start
  | snoc _ hstep ih =>
      simp only [List.forall_mem_append, List.forall_mem_singleton] at hsteps
      exact (ih hsteps.1).snoc ⟨hstep, hsteps.2⟩

/-- The last step of a nonempty run, with the run before it. -/
theorem last {e : Entry σ Λ} (h : Run step s₀ (history ++ [e]) s) :
    Run step s₀ history e.before ∧ step e.before e.label e.after ∧ e.after = s := by
  generalize hall : history ++ [e] = all at h
  cases h with
  | start => simp at hall
  | snoc hrun hstep =>
      obtain ⟨rfl, hlast⟩ := List.append_inj' hall rfl
      obtain rfl := List.singleton_inj.mp hlast
      exact ⟨hrun, hstep, rfl⟩

/-- A run cut after any of its steps is a run. -/
theorem run_upto {e : Entry σ Λ} {tail : List (Entry σ Λ)}
    (h : Run step s₀ (history ++ e :: tail) s) : Run step s₀ (history ++ [e]) e.after := by
  induction tail using List.reverseRecOn generalizing s with
  | nil =>
      obtain ⟨-, -, rfl⟩ := h.last
      exact h
  | append_singleton tail last ih =>
      have hsplit : history ++ e :: (tail ++ [last]) = (history ++ e :: tail) ++ [last] := by simp
      exact ih (hsplit ▸ h).last.1

/-- Every entry of a history is a step taken from a state the run had reached. -/
theorem step_of_mem {e : Entry σ Λ} (h : Run step s₀ history s) (he : e ∈ history) :
    Reachable step s₀ e.before ∧ step e.before e.label e.after := by
  obtain ⟨before, tail, rfl⟩ := List.append_of_mem he
  obtain ⟨hrun, hstep, -⟩ := h.run_upto.last
  exact ⟨⟨before, hrun⟩, hstep⟩

/-- **The stability rule.**  What every step keeps holds at the end of a run once it held after one of
its steps. -/
theorem stable {P : σ → Prop} {e : Entry σ Λ} (h : Run step s₀ history s)
    (keep : ∀ {s s' : σ} {l : Λ}, P s → step s l s' → P s') (he : e ∈ history) (hP : P e.after) :
    P s := by
  induction h with
  | start => cases he
  | snoc _ hstep ih =>
      rcases List.mem_append.mp he with he | he
      · exact keep (ih he) hstep
      · obtain rfl := List.mem_singleton.mp he
        exact hP

/-- What every step keeps holds before each later step. -/
theorem stable_between {P : σ → Prop} {i j : ℕ} {e e' : Entry σ Λ} (h : Run step s₀ history s)
    (keep : ∀ {s s' : σ} {l : Λ}, P s → step s l s' → P s') (hi : history[i]? = some e)
    (hj : history[j]? = some e') (hlt : i < j) (hP : P e.after) : P e'.before := by
  induction h with
  | start => cases hj
  | @snoc history s s' l hrun _ ih =>
      obtain ⟨hlength, -⟩ := List.getElem?_eq_some_iff.mp hj
      rw [List.length_append, List.length_singleton] at hlength
      rw [List.getElem?_append_left (by omega)] at hi
      by_cases hlast : j < history.length
      · rw [List.getElem?_append_left hlast] at hj
        exact ih hi hj
      · obtain rfl : j = history.length := by omega
        rw [List.getElem?_concat_length, Option.some.injEq] at hj
        rw [← hj]
        exact hrun.stable keep (List.mem_of_getElem? hi) hP

end Run

namespace Reachable

variable {step : σ → Λ → σ → Prop} {s₀ s s' : σ} {l : Λ}

theorem refl : Reachable step s₀ s₀ := ⟨[], .start⟩

theorem next (h : Reachable step s₀ s) (hstep : step s l s') : Reachable step s₀ s' := by
  obtain ⟨history, hrun⟩ := h
  exact ⟨_, hrun.snoc hstep⟩

/-- The invariant rule, for a reachable state. -/
theorem invariant (Inv : σ → Prop) (h : Reachable step s₀ s) (start : Inv s₀)
    (keep : ∀ {s s' : σ} {l : Λ}, Inv s → step s l s' → Inv s') : Inv s := by
  obtain ⟨history, hrun⟩ := h
  exact hrun.invariant Inv start keep

end Reachable

end Systems
