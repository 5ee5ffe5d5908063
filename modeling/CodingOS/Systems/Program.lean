import CodingOS.Systems.Run

/-!
# Programs that call a world, and crashes

A program is a tree of calls: each call names an operation and says how to go on with its answer.  A
machine says what an operation does to the state of the world and what a crash inside it can leave.
A run of a program on a machine has a history, the operations it performed, and ends with its value,
with an exception, or with a crash before or inside one of its calls.

`Program.wp` is the rule for such runs: a guarantee that every operation of the run gives, whether or not
the run is cut, one condition on the value and one on the exception.
-/

namespace Systems

/-- A program over the operations `Op`, each with its type of answers. -/
inductive Program {Op : Type} (Answer : Op → Type) (ε α : Type) : Type
  | ret (a : α)
  | raise (e : ε)
  | call (op : Op) (next : Answer op → Program Answer ε α)

namespace Program

variable {Op : Type} {Answer : Op → Type} {ε ε' α β : Type}

/-- One operation, as a program. -/
def perform (op : Op) : Program Answer ε (Answer op) := .call op .ret

def bind : Program Answer ε α → (α → Program Answer ε β) → Program Answer ε β
  | .ret a, f => f a
  | .raise e, _ => .raise e
  | .call op next, f => .call op fun answer => (next answer).bind f

instance : Monad (Program Answer ε) where
  pure := .ret
  bind := bind

/-- `try: p except exc: handler(exc)`. -/
def handle : Program Answer ε α → (ε → Program Answer ε' α) → Program Answer ε' α
  | .ret a, _ => .ret a
  | .raise e, handler => handler e
  | .call op next, handler => .call op fun answer => (next answer).handle handler

/-- A result of pure code: its value or its exception. -/
def ofExcept : Except ε α → Program Answer ε α
  | .ok a => .ret a
  | .error e => .raise e

theorem perform_eq (op : Op) : (perform op : Program Answer ε (Answer op)) = .call op .ret := rfl

theorem pure_eq_ret (a : α) : (pure a : Program Answer ε α) = .ret a := rfl

theorem ret_bind (a : α) (f : α → Program Answer ε β) : (.ret a : Program Answer ε α) >>= f = f a := rfl

theorem call_bind (op : Op) (next : Answer op → Program Answer ε α) (f : α → Program Answer ε β) :
    Program.call op next >>= f = .call op fun answer => next answer >>= f := rfl

theorem handle_ret (a : α) (handler : ε → Program Answer ε' α) :
    (.ret a : Program Answer ε α).handle handler = .ret a := rfl

theorem handle_call (op : Op) (next : Answer op → Program Answer ε α) (handler : ε → Program Answer ε' α) :
    (Program.call op next).handle handler = .call op fun answer => (next answer).handle handler := rfl

theorem bind_assoc {γ : Type} (p : Program Answer ε α) (f : α → Program Answer ε β)
    (g : β → Program Answer ε γ) : (p >>= f) >>= g = p >>= fun a => f a >>= g := by
  show (p.bind f).bind g = p.bind fun a => (f a).bind g
  induction p with
  | ret a => rfl
  | raise e => rfl
  | call op next ih => exact congrArg (call op) (funext ih)

end Program

/-! ### Machines and runs -/

/-- What the operations do to the state, and what a crash inside one can leave. -/
structure Machine {Op : Type} (Answer : Op → Type) (σ : Type) where
  step (op : Op) : σ → Answer op → σ → Prop
  torn (op : Op) : σ → σ → Prop

/-- How a run of a program ends. -/
inductive Outcome (ε α : Type)
  | value (a : α)
  | raised (e : ε)
  | crashed

section Runs

variable {Op : Type} {Answer : Op → Type} {σ ε ε' α β : Type}

/-- `Exec M p s history o t`: the program can run from the state `s` to the state `t`, perform the
operations of `history` and end as `o` says. -/
inductive Exec (M : Machine Answer σ) :
    Program Answer ε α → σ → List (Entry σ Op) → Outcome ε α → σ → Prop
  | ret (a : α) (s : σ) : Exec M (.ret a) s [] (.value a) s
  | raise (e : ε) (s : σ) : Exec M (.raise e) s [] (.raised e) s
  | call {op : Op} {next : Answer op → Program Answer ε α} {answer : Answer op} {s t u : σ}
      {history : List (Entry σ Op)} {o : Outcome ε α} :
      M.step op s answer t → Exec M (next answer) t history o u →
      Exec M (.call op next) s (⟨s, op, t⟩ :: history) o u
  | crash (op : Op) (next : Answer op → Program Answer ε α) (s : σ) :
      Exec M (.call op next) s [] .crashed s
  | torn {op : Op} {next : Answer op → Program Answer ε α} {s t : σ} :
      M.torn op s t → Exec M (.call op next) s [⟨s, op, t⟩] .crashed t

theorem Exec.of_ret {M : Machine Answer σ} {a : α} {s t : σ} {history : List (Entry σ Op)}
    {o : Outcome ε α} (h : Exec M (.ret a) s history o t) : history = [] ∧ o = .value a ∧ t = s := by
  cases h
  exact ⟨rfl, rfl, rfl⟩

theorem Exec.of_raise {M : Machine Answer σ} {e : ε} {s t : σ} {history : List (Entry σ Op)}
    {o : Outcome ε α} (h : Exec M (.raise e) s history o t) :
    history = [] ∧ o = .raised e ∧ t = s := by
  cases h
  exact ⟨rfl, rfl, rfl⟩

/-! ### The rule -/

/-- The weakest condition on the state before a program under which every operation of every run gives
the guarantee `G`, and the run ends with `Q` of its value or `E` of its exception. -/
def Program.wp (M : Machine Answer σ) (G : σ → Op → σ → Prop) (Q : α → σ → Prop) (E : ε → σ → Prop) :
    Program Answer ε α → σ → Prop
  | .ret a, s => Q a s
  | .raise e, s => E e s
  | .call op next, s => (∀ t, M.torn op s t → G s op t) ∧
      ∀ answer t, M.step op s answer t → G s op t ∧ (next answer).wp M G Q E t

variable {M : Machine Answer σ} {G : σ → Op → σ → Prop} {Q Q' : α → σ → Prop} {E E' : ε → σ → Prop}
  {p : Program Answer ε α} {s t : σ} {history : List (Entry σ Op)} {o : Outcome ε α}

namespace Program

@[simp] theorem wp_ret {a : α} : (ret a : Program Answer ε α).wp M G Q E s ↔ Q a s := Iff.rfl

@[simp] theorem wp_pure {a : α} : (pure a : Program Answer ε α).wp M G Q E s ↔ Q a s := Iff.rfl

@[simp] theorem wp_raise {e : ε} : (raise e : Program Answer ε α).wp M G Q E s ↔ E e s := Iff.rfl

theorem wp_perform {op : Op} {Q : Answer op → σ → Prop} :
    (perform op : Program Answer ε (Answer op)).wp M G Q E s ↔
      (∀ t, M.torn op s t → G s op t) ∧ ∀ answer t, M.step op s answer t → G s op t ∧ Q answer t :=
  Iff.rfl

theorem wp_bind {f : α → Program Answer ε β} {R : β → σ → Prop} :
    (p >>= f).wp M G R E s ↔ p.wp M G (fun a t => (f a).wp M G R E t) E s := by
  show (p.bind f).wp M G R E s ↔ _
  induction p generalizing s with
  | ret a => exact Iff.rfl
  | raise e => exact Iff.rfl
  | call op next ih =>
      exact and_congr_right fun _ => forall_congr' fun answer => forall_congr' fun t =>
        imp_congr_right fun _ => and_congr_right fun _ => ih answer

theorem wp_handle {handler : ε → Program Answer ε' α} {E' : ε' → σ → Prop} :
    (p.handle handler).wp M G Q E' s ↔
      p.wp M G Q (fun e t => (handler e).wp M G Q E' t) s := by
  induction p generalizing s with
  | ret a => exact Iff.rfl
  | raise e => exact Iff.rfl
  | call op next ih =>
      exact and_congr_right fun _ => forall_congr' fun answer => forall_congr' fun t =>
        imp_congr_right fun _ => and_congr_right fun _ => ih answer

theorem wp_mono (h : p.wp M G Q E s) (hvalue : ∀ a t, Q a t → Q' a t)
    (hraise : ∀ e t, E e t → E' e t) : p.wp M G Q' E' s := by
  induction p generalizing s with
  | ret a => exact hvalue a s h
  | raise e => exact hraise e s h
  | call op next ih =>
      exact ⟨h.1, fun answer t hstep =>
        ⟨(h.2 answer t hstep).1, ih answer (h.2 answer t hstep).2⟩⟩

theorem wp_guarantee {G' : σ → Op → σ → Prop} (h : p.wp M G Q E s)
    (hguarantee : ∀ {s op t}, G s op t → G' s op t) : p.wp M G' Q E s := by
  induction p generalizing s with
  | ret a => exact h
  | raise e => exact h
  | call op next ih =>
      exact ⟨fun t ht => hguarantee (h.1 t ht), fun answer t hstep =>
        ⟨hguarantee (h.2 answer t hstep).1, ih answer (h.2 answer t hstep).2⟩⟩

/-- **The invariant rule.**  What the guarantee keeps holds at the end, and may strengthen the guarantee. -/
theorem wp_invariant {G' : σ → Op → σ → Prop} (I : σ → Prop) (h : p.wp M G Q E s) (start : I s)
    (keep : ∀ {s op t}, I s → G s op t → G' s op t ∧ I t) :
    p.wp M G' (fun a t => Q a t ∧ I t) (fun e t => E e t ∧ I t) s := by
  induction p generalizing s with
  | ret a => exact ⟨h, start⟩
  | raise e => exact ⟨h, start⟩
  | call op next ih =>
      exact ⟨fun t ht => (keep start (h.1 t ht)).1, fun answer t hstep =>
        ⟨(keep start (h.2 answer t hstep).1).1,
          ih answer (h.2 answer t hstep).2 (keep start (h.2 answer t hstep).1).2⟩⟩

end Program

/-- What is known of the end of a run, by how it ended. -/
def Outcome.Meets (Q : α → σ → Prop) (E : ε → σ → Prop) : Outcome ε α → σ → Prop
  | .value a, s => Q a s
  | .raised e, s => E e s
  | .crashed, _ => True

/-- A run with one more step at its front. -/
theorem Run.cons {Λ : Type} {step : σ → Λ → σ → Prop} {history : List (Entry σ Λ)} {l : Λ} {u : σ}
    (hstep : step s l t) (h : Run step t history u) : Run step s (⟨s, l, t⟩ :: history) u := by
  induction h with
  | start => exact Run.start.snoc hstep
  | snoc _ hlast ih => exact ih.snoc hlast

/-- **The rule is sound.**  The history of a run is a run of the guarantee. -/
theorem Exec.meets (hrun : Exec M p s history o t) (h : p.wp M G Q E s) :
    Run G s history t ∧ o.Meets Q E t := by
  induction hrun with
  | ret a s => exact ⟨.start, h⟩
  | raise e s => exact ⟨.start, h⟩
  | call hstep _ ih =>
      obtain ⟨hguarantee, hnext⟩ := h.2 _ _ hstep
      obtain ⟨hrun, hmeets⟩ := ih hnext
      exact ⟨hrun.cons hguarantee, hmeets⟩
  | crash op next s => exact ⟨.start, trivial⟩
  | torn htorn => exact ⟨Run.start.snoc (h.1 _ htorn), trivial⟩

end Runs

/-! ### Computing a run -/

section Compute

variable {Op : Type} {Answer : Op → Type} {σ ε α : Type}

/-- A run on a machine that answers as `world` says, cut before the operation after `budget` of them. -/
def Program.compute (world : (op : Op) → σ → Answer op × σ) : ℕ → Program Answer ε α → σ →
    List (Entry σ Op) × Outcome ε α × σ
  | _, .ret a, s => ([], .value a, s)
  | _, .raise e, s => ([], .raised e, s)
  | 0, .call _ _, s => ([], .crashed, s)
  | budget + 1, .call op next, s =>
      let rest := (next (world op s).1).compute world budget (world op s).2
      (⟨s, op, (world op s).2⟩ :: rest.1, rest.2)

theorem Program.compute_exec {M : Machine Answer σ} {world : (op : Op) → σ → Answer op × σ}
    (h : ∀ op s, M.step op s (world op s).1 (world op s).2) (budget : ℕ)
    (p : Program Answer ε α) (s : σ) :
    Exec M p s (p.compute world budget s).1 (p.compute world budget s).2.1
      (p.compute world budget s).2.2 := by
  induction p generalizing budget s with
  | ret a => cases budget <;> exact .ret a s
  | raise e => cases budget <;> exact .raise e s
  | call op next ih =>
      cases budget with
      | zero => exact .crash op next s
      | succ budget => exact .call (h op s) (ih _ budget _)

/-! The steps of a computed run.  They are stated of the parts of its result, so that a rewrite with one
never evaluates the rest of the run. -/

section Steps

variable {world : (op : Op) → σ → Answer op × σ} {s : σ}

theorem Program.compute_call_state (op : Op) (next : Answer op → Program Answer ε α) (budget : ℕ) :
    ((Program.call op next).compute world (budget + 1) s).2.2 =
      ((next (world op s).1).compute world budget (world op s).2).2.2 := rfl

theorem Program.compute_call_history (op : Op) (next : Answer op → Program Answer ε α) (budget : ℕ) :
    ((Program.call op next).compute world (budget + 1) s).1 =
      ⟨s, op, (world op s).2⟩ :: ((next (world op s).1).compute world budget (world op s).2).1 := rfl

theorem Program.compute_cut_state (op : Op) (next : Answer op → Program Answer ε α) :
    ((Program.call op next).compute world 0 s).2.2 = s := rfl

theorem Program.compute_cut_history (op : Op) (next : Answer op → Program Answer ε α) :
    ((Program.call op next).compute world 0 s).1 = [] := rfl

theorem Program.compute_ret_state (a : α) (budget : ℕ) :
    ((.ret a : Program Answer ε α).compute world budget s).2.2 = s := by
  cases budget <;> rfl

end Steps

/-- The same run, cut inside the operation after `budget` of them when `tear` says what that leaves. -/
def Program.computeTorn (world : (op : Op) → σ → Answer op × σ) (tear : Op → σ → Option σ) :
    ℕ → Program Answer ε α → σ → List (Entry σ Op) × Outcome ε α × σ
  | _, .ret a, s => ([], .value a, s)
  | _, .raise e, s => ([], .raised e, s)
  | 0, .call op _, s =>
      match tear op s with
      | some t => ([⟨s, op, t⟩], .crashed, t)
      | none => ([], .crashed, s)
  | budget + 1, .call op next, s =>
      let rest := (next (world op s).1).computeTorn world tear budget (world op s).2
      (⟨s, op, (world op s).2⟩ :: rest.1, rest.2)

theorem Program.computeTorn_exec {M : Machine Answer σ} {world : (op : Op) → σ → Answer op × σ}
    {tear : Op → σ → Option σ} (h : ∀ op s, M.step op s (world op s).1 (world op s).2)
    (htear : ∀ op s t, tear op s = some t → M.torn op s t) (budget : ℕ)
    (p : Program Answer ε α) (s : σ) :
    Exec M p s (p.computeTorn world tear budget s).1 (p.computeTorn world tear budget s).2.1
      (p.computeTorn world tear budget s).2.2 := by
  induction p generalizing budget s with
  | ret a => cases budget <;> exact .ret a s
  | raise e => cases budget <;> exact .raise e s
  | call op next ih =>
      cases budget with
      | zero =>
          rw [Program.computeTorn]
          split
          · next t ht => exact .torn (htear op s t ht)
          · exact .crash op next s
      | succ budget => exact .call (h op s) (ih _ budget _)

end Compute

end Systems
