import Mathlib.Data.List.Induction
import Mathlib.Data.List.Pairwise
import Mathlib.Order.Basic
import CodingOS.Systems.Run

/-!
# Fenced leases

A lease on one resource is granted to a holder together with a fencing token, and ends.  The history
of a resource is a list of such operations, and `holder` is who may act at its end.  When the tokens
granted increase, a holder whose lease was ended or replaced is told apart from every later one by its
token alone: `holder_of_later` is the fact that makes a stale worker detectable.  They increase when a
counter that no step lowers is passed by every token it grants (`Run.tokens_increasing`).
-/

namespace Systems

/-- What one step does to the lease of a resource. -/
inductive LeaseOp (α τ : Type*)
  | grant (holder : α) (fence : τ)
  | finish
  | skip
deriving DecidableEq

namespace LeaseOp

variable {α τ : Type*}

/-- The lease after one operation. -/
def apply (lease : Option (α × τ)) : LeaseOp α τ → Option (α × τ)
  | grant holder fence => some (holder, fence)
  | finish => none
  | skip => lease

/-- What an operation grants. -/
def granted : LeaseOp α τ → Option (α × τ)
  | grant holder fence => some (holder, fence)
  | finish | skip => none

/-- Who holds the resource after a history: the most recent grant, unless it was ended since. -/
def holder (ops : List (LeaseOp α τ)) : Option (α × τ) := ops.foldl apply none

/-- The grants of a history, in order. -/
def grants (ops : List (LeaseOp α τ)) : List (α × τ) := ops.filterMap granted

variable {ops earlier later : List (LeaseOp α τ)} {op : LeaseOp α τ} {a : α} {f : τ}

theorem holder_snoc : holder (ops ++ [op]) = apply (holder ops) op := by
  simp [holder]

theorem grants_append : grants (earlier ++ later) = grants earlier ++ grants later := by
  simp [grants]

theorem grants_snoc : grants (ops ++ [op]) = grants ops ++ op.granted.toList := by
  rw [grants_append]
  cases op <;> rfl

/-- A history that did something left the resource free, or with one of its own grants. -/
theorem holder_of_active (h : ∃ op ∈ later, op ≠ skip) :
    holder (earlier ++ later) = none ∨
      ∃ g ∈ grants later, holder (earlier ++ later) = some g := by
  induction later using List.reverseRecOn with
  | nil =>
      obtain ⟨op, hop, -⟩ := h
      cases hop
  | append_singleton later last ih =>
      rw [← List.append_assoc, holder_snoc, grants_snoc]
      cases last with
      | grant a f => exact .inr ⟨(a, f), by simp [granted], rfl⟩
      | finish => exact .inl rfl
      | skip =>
          obtain ⟨op, hop, hne⟩ := h
          have hop' : op ∈ later := by
            rcases List.mem_append.mp hop with hop | hop
            · exact hop
            · exact absurd (List.mem_singleton.mp hop) hne
          rcases ih ⟨op, hop', hne⟩ with hnone | ⟨g, hg, hsome⟩
          · exact .inl hnone
          · exact .inr ⟨g, List.mem_append_left _ hg, hsome⟩

/-- **Stale holders are detectable.**  Once anything happened to a lease after it was granted, the
resource is free or its holder has a greater token. -/
theorem holder_of_later [Preorder τ]
    (hincreasing : (grants (earlier ++ grant a f :: later)).Pairwise fun g g' => g.2 < g'.2)
    (hlater : ∃ op ∈ later, op ≠ skip) {g : α × τ}
    (hg : holder (earlier ++ grant a f :: later) = some g) : f < g.2 := by
  have hsplit : earlier ++ grant a f :: later = (earlier ++ [grant a f]) ++ later := by simp
  rw [hsplit] at hg hincreasing
  rcases @holder_of_active _ _ (earlier ++ [grant a f]) later hlater with hnone | ⟨g', hg', hsome⟩
  · rw [hnone] at hg
    cases hg
  · obtain rfl := Option.some.inj (hsome.symm.trans hg)
    rw [grants_append, List.pairwise_append] at hincreasing
    exact hincreasing.2.2 (a, f) (by simp [grants_snoc, granted]) g' hg'

end LeaseOp

/-- **The counter rule.**  When no step lowers a counter, and every token a step grants is beyond the
counter before and not beyond it after, then the tokens of a run increase and the counter bounds
them. -/
theorem Run.tokens_increasing {σ Λ τ : Type*} [Preorder τ] {step : σ → Λ → σ → Prop} {s₀ s : σ}
    {history : List (Entry σ Λ)} (h : Run step s₀ history s) (counter : σ → τ)
    (token : Entry σ Λ → Option τ)
    (hmono : ∀ {s l s'}, step s l s' → counter s ≤ counter s')
    (hgrant : ∀ {s l s' g}, step s l s' → token ⟨s, l, s'⟩ = some g → counter s < g ∧ g ≤ counter s') :
    (history.filterMap token).Pairwise (· < ·) ∧ ∀ g ∈ history.filterMap token, g ≤ counter s := by
  induction h with
  | start => exact ⟨.nil, fun g hg => by cases hg⟩
  | @snoc history s s' l _ hstep ih =>
      obtain ⟨hincreasing, hbounded⟩ := ih
      rw [List.filterMap_append]
      cases htoken : token ⟨s, l, s'⟩ with
      | none =>
          have hnone : [(⟨s, l, s'⟩ : Entry σ Λ)].filterMap token = [] := by simp [htoken]
          rw [hnone, List.append_nil]
          exact ⟨hincreasing, fun g hg => (hbounded g hg).trans (hmono hstep)⟩
      | some g =>
          have hsome : [(⟨s, l, s'⟩ : Entry σ Λ)].filterMap token = [g] := by simp [htoken]
          obtain ⟨hbeyond, hreached⟩ := hgrant hstep htoken
          rw [hsome, List.pairwise_append]
          refine ⟨⟨hincreasing, List.pairwise_singleton _ _, fun g' hg' g'' hg'' => ?_⟩,
            fun g' hg' => ?_⟩
          · rw [List.mem_singleton.mp hg'']
            exact (hbounded g' hg').trans_lt hbeyond
          · rcases List.mem_append.mp hg' with hold | hnew
            · exact (hbounded g' hold).trans (hmono hstep)
            · rw [List.mem_singleton.mp hnew]
              exact hreached

end Systems
