import CodingOS.Systems.Program

/-!
# Programs with a log

The operations of a program leave entries in a log.  A program all of whose operations leave quiet entries only is
quiet, whatever the answers are and wherever the run is cut; `Program.Only.wp` is the rule.
-/

namespace Systems

variable {Op : Type} {Answer : Op → Type} {ε ε' α β L : Type}

namespace Program

/-- Every operation the program may call, after any answers. -/
def Only (P : Op → Prop) : Program Answer ε α → Prop
  | .ret _ | .raise _ => True
  | .call op next => P op ∧ ∀ answer, (next answer).Only P

variable {P P' : Op → Prop} {p : Program Answer ε α}

theorem only_bind {f : α → Program Answer ε β} (h : p.Only P) (hf : ∀ a, (f a).Only P) : (p >>= f).Only P := by
  show (p.bind f).Only P
  induction p with
  | ret a => exact hf a
  | raise e => exact trivial
  | call op next ih => exact ⟨h.1, fun answer => ih answer (h.2 answer)⟩

theorem only_ofExcept {x : Except ε α} : (ofExcept x : Program Answer ε α).Only P := by
  cases x <;> exact trivial

end Program

/-- The machine of the log: an operation adds its entries, and a crash inside it may have added them. -/
def logging (record : (op : Op) → Answer op → List L) : Machine Answer (List L) where
  step op log answer log' := log' = log ++ record op answer
  torn op log log' := log' = log ∨ ∃ answer, log' = log ++ record op answer

variable {record : (op : Op) → Answer op → List L} {Silent : L → Prop} {P : Op → Prop} {p : Program Answer ε α}
  {G : List L → Op → List L → Prop} {log : List L}

/-- **The rule of the log.** -/
theorem Program.Only.wp (h : p.Only P) (hrecord : ∀ op answer, P op → ∀ c ∈ record op answer, Silent c)
    (hguarantee : ∀ op log log', (∀ c ∈ log', Silent c) → G log op log') (hlog : ∀ c ∈ log, Silent c) :
    p.wp (logging record) G (fun _ log => ∀ c ∈ log, Silent c) (fun _ log => ∀ c ∈ log, Silent c) log := by
  induction p generalizing log with
  | ret a => exact hlog
  | raise e => exact hlog
  | call op next ih =>
      have hnext : ∀ answer, ∀ c ∈ log ++ record op answer, Silent c := fun answer c hc =>
        (List.mem_append.mp hc).elim (hlog c) (hrecord op answer h.1 c)
      refine ⟨fun log' htorn => hguarantee _ _ _ ?_, fun answer log' hstep => ?_⟩
      · rcases htorn with rfl | ⟨answer, rfl⟩
        · exact hlog
        · exact hnext answer
      · obtain rfl : log' = log ++ record op answer := hstep
        exact ⟨hguarantee _ _ _ (hnext answer), ih answer (h.2 answer) (hnext answer)⟩

end Systems
