import CodingOS.Campaign.Lifecycle
import CodingOS.Systems.Graph

/-!
# The dependency graph

`_validate_uniqueness_and_graph` searches the graph depth first.  A name joins `visited` when the
search has left all its dependencies, so the visited names are settled, and a specification whose
search raised nothing has no cycle.
-/

namespace CodingOS.Campaign

open CodingOS.Python Systems

/-! ### The search -/

section Visit

variable {graph : String → List String}

/-- What a search that raised nothing leaves: everything it was asked for is visited. -/
structure Visits (graph : String → List String) (st : VisitState) (names : List String)
    (st' : VisitState) : Prop where
  settled : Settled graph st'.visited
  kept : ∀ a ∈ st.visited, a ∈ st'.visited
  visited : ∀ a ∈ names, a ∈ st'.visited

/-- A loop of visits, given what one visit does. -/
theorem foldlM_visit {depth : ℕ} {names : List String} {st st' : VisitState}
    (hvisit : ∀ {st st' : VisitState} {a : String}, Settled graph st.visited →
      visit graph depth st a = .ok st' → Visits graph st [a] st')
    (hsettled : Settled graph st.visited)
    (h : names.foldlM (visit graph depth) st = .ok st') : Visits graph st names st' := by
  induction names generalizing st with
  | nil =>
      obtain rfl := Except.ok.inj h
      exact ⟨hsettled, fun _ ha => ha, fun _ ha => by cases ha⟩
  | cons a names ih =>
      rw [List.foldlM_cons, bind_eq_ok] at h
      obtain ⟨st₁, hfirst, hrest⟩ := h
      have hone := hvisit hsettled hfirst
      have hmore := ih hone.settled hrest
      refine ⟨hmore.settled, fun b hb => hmore.kept b (hone.kept b hb), fun b hb => ?_⟩
      rcases List.mem_cons.mp hb with rfl | hb
      · exact hmore.kept b (hone.visited b List.mem_cons_self)
      · exact hmore.visited b hb

/-- **One visit.** -/
theorem visit_visits {depth : ℕ} {st st' : VisitState} {a : String}
    (hsettled : Settled graph st.visited) (h : visit graph depth st a = .ok st') :
    Visits graph st [a] st' := by
  induction depth generalizing st st' a with
  | zero => cases h
  | succ depth ih =>
      rw [visit] at h
      split at h
      · cases h
      · split at h
        · next hvisited =>
            obtain rfl := Except.ok.inj h
            refine ⟨hsettled, fun _ hb => hb, fun b hb => ?_⟩
            rw [List.mem_singleton.mp hb]
            simpa using hvisited
        · rw [bind_eq_ok] at h
          obtain ⟨inner, hinner, h⟩ := h
          obtain rfl := Except.ok.inj h
          have hentered : Settled graph
              { st with visiting := a :: st.visiting : VisitState }.visited := hsettled
          have hloop := foldlM_visit (fun hsettled h => ih hsettled h) hentered hinner
          refine ⟨hloop.settled.cons hloop.visited,
            fun b hb => List.mem_cons_of_mem _ (hloop.kept b hb), fun b hb => ?_⟩
          rw [List.mem_singleton.mp hb]
          exact List.mem_cons_self

end Visit

/-! ### Specifications -/

section Specification

variable [Runtime] {spec : CampaignSpec}

theorem mem_graph_iff {a b : String} : b ∈ spec.graph a ↔ DependsOn spec a b := by
  constructor
  · intro h
    unfold CampaignSpecFields.graph at h
    split at h
    · next node hfound =>
        obtain ⟨hnode, hid⟩ := (find?_key_eq_some spec.node_ids_nodup).mp hfound
        exact ⟨node, hnode, hid, h⟩
    · cases h
  · rintro ⟨node, hnode, rfl, hb⟩
    rw [CampaignSpecFields.graph, (find?_key_eq_some spec.node_ids_nodup).mpr ⟨hnode, rfl⟩]
    exact hb

/-- The checks on each node, and the search, of a specification that was built. -/
theorem CampaignSpec.graph_checked (spec : CampaignSpec) :
    (∀ node ∈ spec.nodes, spec.checkNode node = .ok ()) ∧
      ∃ st, ((spec.nodes.map (·.nodeId)).insertionSort fun a b => a ≤ b).foldlM
        (visit spec.graph (spec.nodes.length + 1)) ⟨[], []⟩ = .ok st := by
  have hchecked := spec.checked.2
  simp only [CampaignSpecFields.validateUniquenessAndGraph, bind_eq_ok, check_eq_ok, exists_const]
    at hchecked
  obtain ⟨-, -, -, -, -, -, _, -, _, hnodes, st, hsearch, -⟩ := hchecked
  exact ⟨forEach_eq_ok hnodes, st, hsearch⟩

/-- Every dependency is a node of the specification. -/
theorem CampaignSpec.dependency_known {a b : String} (h : DependsOn spec a b) :
    b ∈ spec.nodes.map (·.nodeId) := by
  obtain ⟨node, hnode, -, hb⟩ := h
  have hchecked := spec.graph_checked.1 node hnode
  simp only [CampaignSpecFields.checkNode, bind_eq_ok, check_eq_ok, exists_const,
    List.isEmpty_iff, List.filter_eq_nil_iff] at hchecked
  simpa using hchecked.1 b hb

/-- **An accepted graph has no cycle.** -/
theorem CampaignSpec.acyclic {a : String} (ha : a ∈ spec.nodes.map (·.nodeId)) :
    Acc (fun b a => DependsOn spec a b) a := by
  obtain ⟨-, st, hsearch⟩ := spec.graph_checked
  have hvisits := foldlM_visit (fun hsettled h => visit_visits hsettled h) .nil hsearch
  have hvisited := hvisits.visited a ((List.perm_insertionSort _ _).mem_iff.mpr ha)
  exact Subrelation.accessible (fun hdepends => mem_graph_iff.mpr hdepends)
    (hvisits.settled.acc hvisited)

end Specification

end CodingOS.Campaign
