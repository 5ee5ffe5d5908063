import CodingOS.Systems.Run

/-!
# Systems of actions

An initial condition and a next-state relation over one state, as a formula `Init ∧ [][Next]_vars` has them: a
step is `Next` or leaves every variable as it is.

`Refines` is refinement by a mapping that may read the history: every step of a run, seen through the mapping, is
a step of the system or no step at all.  What the system never leaves then holds of everything the run reaches.
-/

namespace Systems

/-- `Init` and `Next`. -/
structure ActionSystem (τ : Type*) where
  init : τ → Prop
  next : τ → τ → Prop

/-- `ENABLED action`. -/
def Enabled {τ : Type*} (action : τ → τ → Prop) (t : τ) : Prop := ∃ t', action t t'

namespace ActionSystem

variable {τ : Type*} {A : ActionSystem τ} {t t' : τ}

/-- `[Next]_vars`. -/
def Square (A : ActionSystem τ) (t t' : τ) : Prop := A.next t t' ∨ t' = t

/-- The states of the behaviours. -/
inductive Reached (A : ActionSystem τ) : τ → Prop
  | init {t : τ} : A.init t → Reached A t
  | next {t t' : τ} : Reached A t → A.next t t' → Reached A t'

theorem Reached.square (h : A.Reached t) (hstep : A.Square t t') : A.Reached t' := by
  rcases hstep with hnext | rfl
  · exact h.next hnext
  · exact h

/-- **The invariant rule.** -/
theorem Reached.invariant {Inv : τ → Prop} (h : A.Reached t) (start : ∀ {t}, A.init t → Inv t)
    (keep : ∀ {t t'}, Inv t → A.next t t' → Inv t') : Inv t := by
  induction h with
  | init hinit => exact start hinit
  | next _ hnext ih => exact keep ih hnext

/-! ### Refinement -/

variable {σ Λ : Type*} {step : σ → Λ → σ → Prop} {s₀ s : σ} {history : List (Entry σ Λ)}
  {abs : List (Entry σ Λ) → σ → τ}

/-- Every step of the history is one of the system, seen through the mapping. -/
def Refines (A : ActionSystem τ) (abs : List (Entry σ Λ) → σ → τ) (history : List (Entry σ Λ)) : Prop :=
  ∀ earlier e later, history = earlier ++ e :: later →
    A.Square (abs earlier e.before) (abs (earlier ++ [e]) e.after)

theorem Refines.earlier {e : Entry σ Λ} (h : A.Refines abs (history ++ [e])) : A.Refines abs history := by
  intro earlier e' later hsplit
  exact h earlier e' (later ++ [e]) (by rw [hsplit, List.append_assoc, List.cons_append])

/-- **What a run reaches, the system reaches.** -/
theorem Refines.reached (h : A.Refines abs history) (hrun : Run step s₀ history s) (hinit : A.init (abs [] s₀)) :
    A.Reached (abs history s) := by
  induction hrun with
  | start => exact .init hinit
  | snoc _ _ ih => exact (ih h.earlier).square (h _ _ [] rfl)

/-- A refinement, step by step. -/
theorem refines_iff_of_steps {P : Entry σ Λ → Prop}
    (h : ∀ earlier e later, history = earlier ++ e :: later →
      (A.Square (abs earlier e.before) (abs (earlier ++ [e]) e.after) ↔ P e)) :
    A.Refines abs history ↔ ∀ e ∈ history, P e := by
  constructor
  · intro hrefines e he
    obtain ⟨earlier, later, hsplit⟩ := List.append_of_mem he
    exact (h earlier e later hsplit).mp (hrefines earlier e later hsplit)
  · intro hall earlier e later hsplit
    exact (h earlier e later hsplit).mpr (hall e (by rw [hsplit]; simp))

end ActionSystem

end Systems
