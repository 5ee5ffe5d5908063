import CodingOS.Systems.Program
import Mathlib.Logic.Function.Basic

/-!
# Pools of programs

Any number of processes over one world, each with a program.  Between two steps of one process the others and
the surroundings take any number of theirs; a process may die between two of its operations or inside one.

What a process has learnt from the answers to its operations is its knowledge.  The contract of a program says
that every operation it performs is allowed by its knowledge at that point; it is a `wp` over the machine that
only learns.  `PoolInvariant.run` is the rule for pools: what starts, deaths, allowed operations and the
surroundings keep holds in every run, whatever the order of the steps.
-/

namespace Systems

variable {Op : Type} {Answer : Op → Type} {σ ε α Λ K : Type}

/-- The world, and the programs the processes still have to run. -/
structure Pool {Op : Type} (Answer : Op → Type) (σ ε α : Type) where
  world : σ
  processes : ℕ → Option (Program Answer ε α)

inductive PoolEvent {Op : Type} (Answer : Op → Type) (ε α Λ : Type)
  | start (process : ℕ) (program : Program Answer ε α)
  | perform (process : ℕ) (op : Op) (answer : Answer op)
  | torn (process : ℕ) (op : Op)
  | stop (process : ℕ)
  | surround (l : Λ)

/-- One step of a pool. -/
inductive PoolStep (M : Machine Answer σ) (surroundings : σ → Λ → σ → Prop)
    (calls : Program Answer ε α → Prop) (s : Pool Answer σ ε α) :
    PoolEvent Answer ε α Λ → Pool Answer σ ε α → Prop
  | start {i : ℕ} {p : Program Answer ε α} : calls p → PoolStep M surroundings calls s (.start i p)
      { s with processes := Function.update s.processes i (some p) }
  | perform {i : ℕ} {op : Op} {next : Answer op → Program Answer ε α} {answer : Answer op} {w : σ} :
      s.processes i = some (.call op next) → M.step op s.world answer w →
      PoolStep M surroundings calls s (.perform i op answer)
        ⟨w, Function.update s.processes i (some (next answer))⟩
  | torn {i : ℕ} {op : Op} {next : Answer op → Program Answer ε α} {w : σ} :
      s.processes i = some (.call op next) → M.torn op s.world w →
      PoolStep M surroundings calls s (.torn i op) ⟨w, Function.update s.processes i none⟩
  | stop {i : ℕ} : PoolStep M surroundings calls s (.stop i)
      { s with processes := Function.update s.processes i none }
  | surround {l : Λ} {w : σ} : surroundings s.world l w →
      PoolStep M surroundings calls s (.surround l) { s with world := w }

/-! ### Contracts -/

/-- The machine that only learns: every answer some state of the world gives is possible. -/
def learning (M : Machine Answer σ) (learn : K → (op : Op) → Answer op → K) : Machine Answer K where
  step op k answer k' := (∃ s t, M.step op s answer t) ∧ k' = learn k op answer
  torn _ k k' := k' = k

section Contract

variable {M : Machine Answer σ} {learn : K → (op : Op) → Answer op → K} {allowed : K → Op → Prop}

/-- The program performs allowed operations only. -/
def Program.Contract (M : Machine Answer σ) (learn : K → (op : Op) → Answer op → K)
    (allowed : K → Op → Prop) (p : Program Answer ε α) (k : K) : Prop :=
  p.wp (learning M learn) (fun k op _ => allowed k op) (fun _ _ => True) (fun _ _ => True) k

theorem Program.Contract.permits {op : Op} {next : Answer op → Program Answer ε α} {k : K}
    (h : (Program.call op next).Contract M learn allowed k) : allowed k op := h.1 k rfl

theorem Program.Contract.next {op : Op} {next : Answer op → Program Answer ε α} {k : K} {answer : Answer op}
    {s t : σ} (h : (Program.call op next).Contract M learn allowed k) (hstep : M.step op s answer t) :
    (next answer).Contract M learn allowed (learn k op answer) :=
  (h.2 answer _ ⟨⟨s, t, hstep⟩, rfl⟩).2

/-- An operation, by what it needs and what it teaches. -/
theorem wp_learning {op : Op} {next : Answer op → Program Answer ε α} {k : K} {Q : α → K → Prop}
    {E : ε → K → Prop} (hallowed : allowed k op)
    (h : ∀ s answer t, M.step op s answer t →
      (next answer).wp (learning M learn) (fun k op _ => allowed k op) Q E (learn k op answer)) :
    (Program.call op next).wp (learning M learn) (fun k op _ => allowed k op) Q E k := by
  refine ⟨fun _ _ => hallowed, fun answer k' hstep => ⟨hallowed, ?_⟩⟩
  obtain ⟨⟨s, t, hstep⟩, rfl⟩ := hstep
  exact h s answer t hstep

end Contract

/-! ### The rule -/

/-- A property of the events so far, the world and the knowledge of the processes that every step keeps. -/
structure PoolInvariant (M : Machine Answer σ) (surroundings : σ → Λ → σ → Prop)
    (learn : K → (op : Op) → Answer op → K) (allowed : K → Op → Prop) (fresh : K)
    (Inv : List (PoolEvent Answer ε α Λ) → σ → (ℕ → K) → Prop) : Prop where
  start : ∀ {events w k i p}, Inv events w k → Inv (events ++ [.start i p]) w (Function.update k i fresh)
  perform : ∀ {events w k i op answer w'}, Inv events w k → allowed (k i) op → M.step op w answer w' →
    Inv (events ++ [.perform i op answer]) w' (Function.update k i (learn (k i) op answer))
  torn : ∀ {events w k i op w'}, Inv events w k → allowed (k i) op → M.torn op w w' →
    Inv (events ++ [.torn i op]) w' (Function.update k i fresh)
  stop : ∀ {events w k i}, Inv events w k → Inv (events ++ [.stop i]) w (Function.update k i fresh)
  surround : ∀ {events w k l w'}, Inv events w k → surroundings w l w' → Inv (events ++ [.surround l]) w' k

variable {M : Machine Answer σ} {surroundings : σ → Λ → σ → Prop} {calls : Program Answer ε α → Prop}
  {learn : K → (op : Op) → Answer op → K} {allowed : K → Op → Prop} {fresh : K}
  {Inv : List (PoolEvent Answer ε α Λ) → σ → (ℕ → K) → Prop}

/-- **The rule of pools.** -/
theorem PoolInvariant.run (hinv : PoolInvariant M surroundings learn allowed fresh Inv)
    (hcalls : ∀ p, calls p → p.Contract M learn allowed fresh) {start s : Pool Answer σ ε α}
    {history : List (Entry (Pool Answer σ ε α) (PoolEvent Answer ε α Λ))}
    (hidle : ∀ i, start.processes i = none) (hstart : Inv [] start.world fun _ => fresh)
    (h : Run (PoolStep M surroundings calls) start history s) :
    ∃ k, (∀ i p, s.processes i = some p → p.Contract M learn allowed (k i)) ∧
      Inv (history.map (·.label)) s.world k := by
  -- a process that is replaced has the contract of what replaces it
  have hupdate : ∀ {processes : ℕ → Option (Program Answer ε α)} {k : ℕ → K} {i : ℕ}
      {p : Program Answer ε α} {known : K},
      (∀ j q, processes j = some q → q.Contract M learn allowed (k j)) → p.Contract M learn allowed known →
      ∀ j q, Function.update processes i (some p) j = some q →
        q.Contract M learn allowed (Function.update k i known j) := by
    intro processes k i p known hall hp j q hq
    by_cases hj : j = i
    · subst hj
      rw [Function.update_self] at hq ⊢
      exact Option.some.inj hq ▸ hp
    · rw [Function.update_of_ne hj] at hq ⊢
      exact hall j q hq
  have hremove : ∀ {processes : ℕ → Option (Program Answer ε α)} {k : ℕ → K} {i : ℕ},
      (∀ j q, processes j = some q → q.Contract M learn allowed (k j)) →
      ∀ j q, Function.update processes i none j = some q →
        q.Contract M learn allowed (Function.update k i fresh j) := by
    intro processes k i hall j q hq
    by_cases hj : j = i
    · subst hj
      rw [Function.update_self] at hq
      cases hq
    · rw [Function.update_of_ne hj] at hq ⊢
      exact hall j q hq
  induction h with
  | start =>
      refine ⟨fun _ => fresh, fun i p hp => ?_, hstart⟩
      rw [hidle i] at hp
      cases hp
  | snoc _ hstep ih =>
      obtain ⟨k, hcontracts, hholds⟩ := ih
      rw [List.map_append, List.map_cons, List.map_nil]
      cases hstep with
      | start hp => exact ⟨_, hupdate hcontracts (hcalls _ hp), hinv.start hholds⟩
      | perform hprocess hstep =>
          have hcontract := hcontracts _ _ hprocess
          exact ⟨_, hupdate hcontracts (hcontract.next hstep), hinv.perform hholds hcontract.permits hstep⟩
      | torn hprocess htorn =>
          exact ⟨_, hremove hcontracts, hinv.torn hholds (hcontracts _ _ hprocess).permits htorn⟩
      | stop => exact ⟨_, hremove hcontracts, hinv.stop hholds⟩
      | surround hsurround => exact ⟨k, hcontracts, hinv.surround hholds hsurround⟩

/-! ### Runs that are computed -/

/-- The surroundings alone. -/
theorem surround_run {w w' : σ} {history : List (Entry σ Λ)} {processes : ℕ → Option (Program Answer ε α)}
    (h : Run surroundings w history w') :
    Run (PoolStep M surroundings calls) ⟨w, processes⟩
      (history.map fun e => ⟨⟨e.before, processes⟩, .surround e.label, ⟨e.after, processes⟩⟩) ⟨w', processes⟩ := by
  induction h with
  | start => exact .start
  | snoc _ hstep ih =>
      rw [List.map_append, List.map_cons, List.map_nil]
      exact ih.snoc (.surround hstep)

/-- The next operations of one process, over a world that is computed. -/
def Pool.advance (perform : (op : Op) → σ → Answer op × σ) (i : ℕ) :
    ℕ → Pool Answer σ ε α → List (Entry (Pool Answer σ ε α) (PoolEvent Answer ε α Λ)) × Pool Answer σ ε α
  | 0, s => ([], s)
  | n + 1, s =>
      match s.processes i with
      | some (.call op next) =>
          let performed := perform op s.world
          let s' : Pool Answer σ ε α := ⟨performed.2, Function.update s.processes i (some (next performed.1))⟩
          let rest := Pool.advance perform i n s'
          (⟨s, .perform i op performed.1, s'⟩ :: rest.1, rest.2)
      | _ => ([], s)

theorem Pool.advance_run {perform : (op : Op) → σ → Answer op × σ}
    (hperform : ∀ op w, M.step op w (perform op w).1 (perform op w).2) {i n : ℕ} {start s : Pool Answer σ ε α}
    {history : List (Entry (Pool Answer σ ε α) (PoolEvent Answer ε α Λ))}
    {next : List (Entry (Pool Answer σ ε α) (PoolEvent Answer ε α Λ)) × Pool Answer σ ε α}
    (h : Run (PoolStep M surroundings calls) start history s) (hnext : s.advance perform i n = next) :
    Run (PoolStep M surroundings calls) start (history ++ next.1) next.2 := by
  subst hnext
  induction n generalizing history s with
  | zero =>
      rw [Pool.advance, List.append_nil]
      exact h
  | succ n ih =>
      rw [Pool.advance]
      split
      · next op next hprocess =>
          have hstep := ih (h.snoc (.perform hprocess (hperform op s.world)))
          rwa [List.append_assoc, List.singleton_append] at hstep
      · rw [List.append_nil]
        exact h

theorem Pool.advance_label {perform : (op : Op) → σ → Answer op × σ} {i n : ℕ} {s : Pool Answer σ ε α}
    {e : Entry (Pool Answer σ ε α) (PoolEvent Answer ε α Λ)} (he : e ∈ (s.advance perform i n).1) :
    ∃ op w, e.label = .perform i op (perform op w).1 := by
  induction n generalizing s with
  | zero => exact absurd he List.not_mem_nil
  | succ n ih =>
      rw [Pool.advance] at he
      split at he
      · rcases List.mem_cons.mp he with rfl | hmem
        · exact ⟨_, _, rfl⟩
        · exact ih hmem
      · exact absurd he List.not_mem_nil

end Systems
