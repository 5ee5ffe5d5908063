import CodingOS.Systems.Program

/-!
# Programs run one after another

Calls of a family of programs run on one machine, one at a time, each to its end or to a crash.  The log
keeps the operations of all of them, each under the call that performed it, and the state of such a
system is the state of the machine with the log that led to it: invariants and conditions can then speak
of what happened before.
-/

namespace Systems

section Logs

variable {σ Λ : Type}

/-- A state with the log of the operations that led to it. -/
structure Logged (σ Λ : Type) where
  state : σ
  log : List (Entry σ Λ)

/-- Every entry of a log satisfies a law about it and the entries before it. -/
def Lawful (law : List (Entry σ Λ) → Entry σ Λ → Prop) (log : List (Entry σ Λ)) : Prop :=
  ∀ earlier e later, log = earlier ++ e :: later → law earlier e

variable {law : List (Entry σ Λ) → Entry σ Λ → Prop} {log : List (Entry σ Λ)} {e : Entry σ Λ}

theorem Lawful.nil : Lawful law [] := by
  intro earlier e later h
  simp at h

theorem Lawful.snoc (h : Lawful law log) (he : law log e) : Lawful law (log ++ [e]) := by
  intro earlier e' later hsplit
  rcases later.eq_nil_or_concat with rfl | ⟨init, last, rfl⟩
  · obtain ⟨rfl, hlast⟩ := List.append_inj' hsplit rfl
    obtain rfl := List.singleton_inj.mp hlast
    exact he
  · rw [List.concat_eq_append, ← List.cons_append, ← List.append_assoc] at hsplit
    exact h earlier e' init (List.append_inj' hsplit rfl).1

end Logs

section Sessions

variable {Λ Op : Type} {Answer : Op → Type} {σ ε α : Type}

/-- One run of a program: the call that made it, the operations it performed, and how it ended. -/
structure Session (Λ Op σ ε α : Type) where
  call : Λ
  history : List (Entry σ Op)
  outcome : Outcome ε α

/-- An operation, under the call that performed it. -/
def Entry.under (e : Entry σ Op) (c : Λ) : Entry σ (Λ × Op) := ⟨e.before, (c, e.label), e.after⟩

/-- A call runs its program from the state of the machine, and its operations enter the log. -/
structure Machine.Runs (M : Machine Answer σ) (program : Λ → Program Answer ε α)
    (w : Logged σ (Λ × Op)) (l : Session Λ Op σ ε α) (w' : Logged σ (Λ × Op)) : Prop where
  exec : Exec M (program l.call) w.state l.history l.outcome w'.state
  log : w'.log = w.log ++ l.history.map (·.under l.call)

variable {M : Machine Answer σ} {program : Λ → Program Answer ε α} {w w' : Logged σ (Λ × Op)}
  {l : Session Λ Op σ ε α} {G : σ → Op → σ → Prop} {Q : α → σ → Prop} {E : ε → σ → Prop}

/-- **The rule of one call.**  What every operation keeps that gives the guarantee of the call holds
after the call, however it ended. -/
theorem Machine.Runs.keeps (I : Logged σ (Λ × Op) → Prop) (h : M.Runs program w l w')
    (hprogram : (program l.call).wp M G Q E w.state) (start : I w)
    (keep : ∀ {v : Logged σ (Λ × Op)} {op : Op} {t : σ}, I v → G v.state op t →
      I ⟨t, v.log ++ [⟨v.state, (l.call, op), t⟩]⟩) : I w' := by
  have hinner : ∀ {history : List (Entry σ Op)} {t : σ}, Run G w.state history t →
      I ⟨t, w.log ++ history.map (·.under l.call)⟩ := by
    intro history t hrun
    induction hrun with
    | start => simpa using start
    | @snoc history s t op hrun hstep ih =>
        have hnext := keep ih hstep
        simpa [Entry.under] using hnext
  obtain ⟨t, log⟩ := w'
  obtain rfl := h.log
  exact hinner (h.exec.meets hprogram).1

end Sessions

end Systems
