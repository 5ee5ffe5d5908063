import Mathlib.Data.List.Basic

/-!
# Results

What it means that a computation in `Except` succeeds: each of its parts did.
-/

namespace Systems.Result

variable {ε α β : Type}

theorem bind_eq_ok {x : Except ε α} {f : α → Except ε β} {b : β} :
    (x >>= f) = .ok b ↔ ∃ a, x = .ok a ∧ f a = .ok b := by
  cases x with
  | error e => simp [bind, Except.bind]
  | ok a => simp [bind, Except.bind]

theorem pure_eq_ok {a b : α} : (pure a : Except ε α) = .ok b ↔ b = a := by
  simp [pure, Except.pure, eq_comm]

theorem eq_ok_of_toOption {x : Except ε α} {a : α} (h : x.toOption = some a) : x = .ok a := by
  cases x with
  | error e => cases h
  | ok b => rw [Option.some.inj h]

/-- `for x in xs: check(x)`. -/
theorem forM_eq_ok {f : α → Except ε Unit} {xs : List α} {u : Unit} :
    xs.forM f = .ok u ↔ ∀ x ∈ xs, f x = .ok () := by
  induction xs with
  | nil => simp [pure, Except.pure]
  | cons x xs ih =>
      show (f x >>= fun _ => xs.forM f) = .ok u ↔ _
      rw [bind_eq_ok, List.forall_mem_cons, ih]
      constructor
      · rintro ⟨_, hx, hxs⟩
        exact ⟨hx, hxs⟩
      · intro hall
        exact ⟨(), hall⟩

theorem mapM_length {f : α → Except ε β} {xs : List α} {ys : List β}
    (h : xs.mapM f = .ok ys) : ys.length = xs.length := by
  induction xs generalizing ys with
  | nil =>
      rw [List.mapM_nil, pure_eq_ok] at h
      rw [h, List.length_nil, List.length_nil]
  | cons x xs ih =>
      rw [List.mapM_cons, bind_eq_ok] at h
      obtain ⟨y, -, h⟩ := h
      obtain ⟨ys', hys, h⟩ := bind_eq_ok.mp h
      rw [pure_eq_ok.mp h, List.length_cons, List.length_cons, ih hys]

end Systems.Result
