import Mathlib.Data.List.Dedup
import Mathlib.Data.List.Induction
import Mathlib.Logic.Relation
import Mathlib.Order.RelClasses

/-!
# Graphs settled in an order

`Settled next l`: the list `l` grew at its head, and whatever joined it had all its successors there
already.  Such a list holds no cycle: every entry is accessible along `next`.  With accessibility, a
property that passes from a node to one of its unfinished successors is met by some node whose
successors are all finished.

Read backwards, a settled list is a topological order, and an order that lists the nodes of a graph
exists exactly when no node reaches itself.
-/

namespace Systems

variable {α : Type*} {next : α → List α} {l : List α} {a : α}

/-- Every entry of the list has its successors further down the list. -/
inductive Settled (next : α → List α) : List α → Prop
  | nil : Settled next []
  | cons {a : α} {l : List α} : Settled next l → (∀ b ∈ next a, b ∈ l) → Settled next (a :: l)

/-- Nothing in a settled list starts an infinite path. -/
theorem Settled.acc (h : Settled next l) (ha : a ∈ l) : Acc (fun b a => b ∈ next a) a := by
  induction h generalizing a with
  | nil => cases ha
  | cons _ hnext ih =>
      rcases List.mem_cons.mp ha with rfl | ha
      · exact ⟨a, fun b hb => ih (hnext b hb)⟩
      · exact ih ha

/-- Along accessible successors, a property that holds of some node holds of one that passes it on to
none of its successors. -/
theorem exists_last {r : α → α → Prop} {P Q : α → Prop} (hacc : Acc r a) (ha : P a)
    (hsplit : ∀ x y, P x → r y x → P y ∨ Q y) : ∃ x, P x ∧ ∀ y, r y x → Q y := by
  induction hacc with
  | intro x _ ih =>
      by_cases hpass : ∃ y, r y x ∧ P y
      · obtain ⟨y, hy, hP⟩ := hpass
        exact ih y hy hP
      · refine ⟨x, ha, fun y hy => ?_⟩
        rcases hsplit x y ha hy with hP | hQ
        · exact absurd ⟨y, hy, hP⟩ hpass
        · exact hQ

/-! ### Topological orders -/

/-- Every entry comes after all its successors. -/
def Topological (next : α → List α) (order : List α) : Prop :=
  ∀ before a after, order = before ++ a :: after → ∀ b ∈ next a, b ∈ before

theorem Settled.topological (h : Settled next l) : Topological next l.reverse := by
  induction h with
  | nil => rintro (_ | _) a after h <;> cases h
  | @cons a l _ hnext ih =>
      intro before x after h b hb
      rw [List.reverse_cons] at h
      rcases after.eq_nil_or_concat with rfl | ⟨after, y, rfl⟩
      · obtain ⟨rfl, h⟩ := List.append_inj' h rfl
        obtain rfl : a = x := by simpa using h
        exact List.mem_reverse.mpr (hnext b hb)
      · rw [List.concat_eq_append, ← List.cons_append, ← List.append_assoc] at h
        exact ih before x after (List.append_inj' h rfl).1 b hb

theorem Topological.settled (h : Topological next l) : Settled next l.reverse := by
  induction l using List.reverseRecOn with
  | nil => exact .nil
  | append_singleton l a ih =>
      rw [List.reverse_append, List.reverse_singleton, List.singleton_append]
      refine .cons (ih fun before x after hl => h before x (after ++ [a]) ?_) fun b hb => ?_
      · rw [hl, List.append_assoc, List.cons_append]
      · exact List.mem_reverse.mpr (h l a [] rfl b hb)

/-- An accessible node does not reach itself. -/
theorem not_transGen_of_acc {r : α → α → Prop} (h : Acc r a) : ¬ Relation.TransGen r a a := by
  have hreach := h.transGen
  clear h
  induction hreach with
  | intro a _ ih => exact fun hcycle => ih a hcycle hcycle

/-- No entry of a topological order reaches itself. -/
theorem Topological.acyclic (h : Topological next l) (ha : a ∈ l) :
    ¬ Relation.TransGen (fun a b => b ∈ next a) a a := by
  intro hcycle
  refine not_transGen_of_acc (h.settled.acc (List.mem_reverse.mpr ha)) ?_
  exact Relation.transGen_swap.mpr hcycle

/-- An entry is needed once: where it was settled first. -/
theorem Settled.dedup [DecidableEq α] (h : Settled next l) : Settled next l.dedup := by
  induction h with
  | nil => exact .nil
  | @cons a l _ hnext ih =>
      by_cases hmem : a ∈ l
      · rw [List.dedup_cons_of_mem hmem]
        exact ih
      · rw [List.dedup_cons_of_notMem hmem]
        exact .cons ih fun b hb => List.mem_dedup.mpr (hnext b hb)

/-- The entries in a set that is closed under successors are settled among themselves. -/
theorem Settled.filter {p : α → Bool} (h : Settled next l)
    (hclosed : ∀ a, p a → ∀ b ∈ next a, p b) : Settled next (l.filter p) := by
  induction h with
  | nil => exact .nil
  | @cons a l _ hnext ih =>
      by_cases hp : p a
      · rw [List.filter_cons_of_pos hp]
        exact .cons ih fun b hb => List.mem_filter.mpr ⟨hnext b hb, hclosed a hp b hb⟩
      · rw [List.filter_cons_of_neg hp]
        exact ih

/-- Nodes that are all settled have a topological order. -/
theorem Settled.exists_topological [DecidableEq α] {nodes : List α} (h : Settled next l)
    (hnodes : nodes.Nodup) (hclosed : ∀ a ∈ nodes, ∀ b ∈ next a, b ∈ nodes)
    (hsettled : ∀ a ∈ nodes, a ∈ l) : ∃ order, order.Perm nodes ∧ Topological next order := by
  have hkept := (h.filter (p := (· ∈ nodes)) (by simpa using hclosed)).dedup
  refine ⟨_, ?_, hkept.topological⟩
  refine (List.perm_ext_iff_of_nodup (List.nodup_reverse.mpr (List.nodup_dedup _)) hnodes).mpr
    fun a => ?_
  rw [List.mem_reverse, List.mem_dedup, List.mem_filter, decide_eq_true_eq]
  exact ⟨And.right, fun ha => ⟨hsettled a ha, ha⟩⟩

/-- A path that comes back to a node on it is a cycle. -/
theorem transGen_of_isChain {r : α → α → Prop} (h : (a :: l).IsChain fun b a => r a b) (ha : a ∈ l) :
    Relation.TransGen r a a := by
  have hpairs : (a :: l).Pairwise fun b a => Relation.TransGen r a b :=
    haveI : IsTrans α fun b a => Relation.TransGen r a b := ⟨fun _ _ _ hab hbc => hbc.trans hab⟩
    List.isChain_iff_pairwise.mp (h.imp fun _ _ hr => .single hr)
  exact (List.pairwise_cons.mp hpairs).1 a ha

end Systems
