import CodingOS.Campaign.DependencyGraph

/-!
# What the dependency search rejects

The names in `visiting` are the path from a root to the node being visited, each a dependency of the
one before it, so a search that raises has found a cycle.  A path has no more names than there are
nodes, which is why a depth of one more is never used up.  A search that raises nothing leaves its
nodes settled, and those have a topological order.
-/

namespace CodingOS.Campaign

open CodingOS.Python Systems Relation

/-! ### One search -/

section Search

variable {graph : String → List String} {ids : List String}

/-- What can come of a search with the given path above it: the path is left as it was, or a cycle
was found. -/
def Outcome (graph : String → List String) (path : List String) (result : Result VisitState) : Prop :=
  (∃ st, result = .ok st ∧ st.visiting = path) ∨
    (result = fail .modelValidation "campaign graph must be acyclic" ∧
      ∃ c, TransGen (fun a b => b ∈ graph a) c c)

/-- A loop of visits, given what comes of one visit. -/
theorem foldlM_outcome {depth : ℕ} {path names : List String} {st : VisitState}
    (hvisit : ∀ a ∈ names, ∀ st : VisitState, st.visiting = path →
      Outcome graph path (visit graph depth st a))
    (hpath : st.visiting = path) : Outcome graph path (names.foldlM (visit graph depth) st) := by
  induction names generalizing st with
  | nil => exact .inl ⟨st, rfl, hpath⟩
  | cons a names ih =>
      rw [List.foldlM_cons]
      rcases hvisit a List.mem_cons_self st hpath with ⟨st₁, hok, hkept⟩ | ⟨hfail, hcycle⟩
      · rw [hok]
        exact ih (fun b hb => hvisit b (List.mem_cons_of_mem a hb)) hkept
      · rw [hfail]
        exact .inr ⟨rfl, hcycle⟩

/-- **One visit.**  The path above it is a chain of dependencies without repeats. -/
theorem visit_outcome (hclosed : ∀ a ∈ ids, ∀ b ∈ graph a, b ∈ ids) {depth : ℕ} {st : VisitState}
    {a : String} (hchain : (a :: st.visiting).IsChain fun b a => b ∈ graph a)
    (hnodup : st.visiting.Nodup) (hids : ∀ b ∈ a :: st.visiting, b ∈ ids)
    (hdepth : ids.length < depth + st.visiting.length) :
    Outcome graph st.visiting (visit graph depth st a) := by
  induction depth generalizing st a with
  | zero =>
      have hle : st.visiting.length ≤ ids.length :=
        (hnodup.subperm fun b hb => hids b (List.mem_cons_of_mem a hb)).length_le
      omega
  | succ depth ih =>
      rw [visit]
      split
      · next hvisiting =>
          exact .inr ⟨rfl, a, transGen_of_isChain hchain (by simpa using hvisiting)⟩
      · next hvisiting =>
          split
          · exact .inl ⟨st, rfl, rfl⟩
          · have ha : a ∈ ids := hids a List.mem_cons_self
            have hloop : Outcome graph (a :: st.visiting)
                ((graph a).foldlM (visit graph depth) { st with visiting := a :: st.visiting }) := by
              refine foldlM_outcome (fun b hb st' hpath => ?_) rfl
              rw [← hpath]
              apply ih
              · rw [hpath]
                exact hchain.cons_cons hb
              · rw [hpath]
                exact List.nodup_cons.mpr ⟨by simpa using hvisiting, hnodup⟩
              · rw [hpath]
                exact List.forall_mem_cons.mpr ⟨hclosed a ha b hb, hids⟩
              · rw [hpath, List.length_cons]
                omega
            rcases hloop with ⟨inner, hok, hkept⟩ | ⟨hfail, hcycle⟩
            · rw [hok]
              refine .inl ⟨_, rfl, ?_⟩
              show inner.visiting.erase a = st.visiting
              rw [hkept, List.erase_cons_head]
            · rw [hfail]
              exact .inr ⟨rfl, hcycle⟩

end Search

/-! ### The search of a specification -/

section Specification

variable [Runtime]

namespace CampaignSpecFields

/-- The loop over `sorted(graph)`, whose visits may nest to a depth. -/
def search (spec : CampaignSpecFields) (depth : ℕ) : Result VisitState :=
  ((spec.nodes.map (·.nodeId)).insertionSort fun a b => a ≤ b).foldlM (visit spec.graph depth) ⟨[], []⟩

/-- Node `a` names `b` among its dependencies. -/
def Depends (spec : CampaignSpecFields) (a b : String) : Prop :=
  ∃ node ∈ spec.nodes, node.nodeId = a ∧ b ∈ node.dependencies

/-- An order of all the nodes in which every node comes after its dependencies. -/
def TopologicalOrder (spec : CampaignSpecFields) (order : List String) : Prop :=
  order.Perm (spec.nodes.map (·.nodeId)) ∧
    ∀ before a after, order = before ++ a :: after → ∀ b, spec.Depends a b → b ∈ before

variable {spec : CampaignSpecFields}

theorem mem_graph (hids : (spec.nodes.map (·.nodeId)).Nodup) {a b : String} :
    b ∈ spec.graph a ↔ spec.Depends a b := by
  constructor
  · intro h
    unfold graph at h
    split at h
    · next node hfound =>
        obtain ⟨hnode, hid⟩ := (find?_key_eq_some hids).mp hfound
        exact ⟨node, hnode, hid, h⟩
    · cases h
  · rintro ⟨node, hnode, rfl, hb⟩
    rw [graph, (find?_key_eq_some hids).mpr ⟨hnode, rfl⟩]
    exact hb

/-- The search is the last check of `_validate_uniqueness_and_graph`. -/
theorem search_of_validated (h : spec.validateUniquenessAndGraph = .ok ()) :
    ∃ st, spec.search (spec.nodes.length + 1) = .ok st := by
  simp only [validateUniquenessAndGraph, bind_eq_ok, check_eq_ok, exists_const] at h
  obtain ⟨-, -, -, -, -, -, _, -, _, -, st, hsearch, -⟩ := h
  exact ⟨st, hsearch⟩

variable {depth : ℕ}

/-- The search ends: it leaves an empty path, or it raises and there is a cycle. -/
theorem search_outcome (hids : (spec.nodes.map (·.nodeId)).Nodup)
    (hknown : ∀ a b, spec.Depends a b → b ∈ spec.nodes.map (·.nodeId))
    (hdepth : spec.nodes.length < depth) : Outcome spec.graph [] (spec.search depth) := by
  refine foldlM_outcome (fun a ha st hpath => ?_) rfl
  have hnode : a ∈ spec.nodes.map (·.nodeId) := (List.mem_insertionSort _).mp ha
  rw [← hpath]
  refine visit_outcome
    (fun a (_ : a ∈ spec.nodes.map (·.nodeId)) b hb => hknown a b ((mem_graph hids).mp hb)) ?_ ?_ ?_ ?_
  · rw [hpath]
    exact List.isChain_singleton a
  · rw [hpath]
    exact List.nodup_nil
  · rw [hpath]
    simpa using hnode
  · rw [hpath, List.length_map]
    exact hdepth

/-- A search that raised nothing leaves a topological order of the nodes. -/
theorem exists_order_of_search (hids : (spec.nodes.map (·.nodeId)).Nodup)
    (hknown : ∀ a b, spec.Depends a b → b ∈ spec.nodes.map (·.nodeId)) {st : VisitState}
    (h : spec.search depth = .ok st) : ∃ order, spec.TopologicalOrder order := by
  have hvisits := foldlM_visit (fun hsettled h => visit_visits hsettled h) .nil h
  obtain ⟨order, hperm, htopological⟩ := hvisits.settled.exists_topological hids
    (fun a _ b hb => hknown a b ((mem_graph hids).mp hb))
    (fun a ha => hvisits.visited a ((List.mem_insertionSort _).mpr ha))
  exact ⟨order, hperm, fun before a after hsplit b hb =>
    htopological before a after hsplit b ((mem_graph hids).mpr hb)⟩

/-- Nodes that have a topological order have no cycle. -/
theorem TopologicalOrder.acyclic (hids : (spec.nodes.map (·.nodeId)).Nodup) {order : List String}
    (h : spec.TopologicalOrder order) (c : String) : ¬ TransGen spec.Depends c c := by
  intro hcycle
  have htopological : Topological spec.graph order := fun before a after hsplit b hb =>
    h.2 before a after hsplit b ((mem_graph hids).mp hb)
  have hnode : c ∈ spec.nodes.map (·.nodeId) := by
    obtain ⟨b, hfirst, -⟩ := TransGen.head'_iff.mp hcycle
    obtain ⟨node, hnode, rfl, -⟩ := hfirst
    exact List.mem_map_of_mem hnode
  refine htopological.acyclic (h.1.mem_iff.mpr hnode) ?_
  exact TransGen.mono (fun a b hab => (mem_graph hids).mpr hab) c c hcycle

end CampaignSpecFields

/-- **The search is exact.**  Whatever depth of calls beyond the number of nodes it may use, it
returns or raises its own error; it raises exactly when some node reaches itself along dependencies,
and returns exactly when the nodes have a topological order. -/
theorem dependency_search_exact (spec : CampaignSpecFields)
    (hids : (spec.nodes.map (·.nodeId)).Nodup)
    (hknown : ∀ node ∈ spec.nodes, ∀ d ∈ node.dependencies, d ∈ spec.nodes.map (·.nodeId))
    (depth : ℕ) (hdepth : spec.nodes.length < depth) :
    (spec.search depth = fail .modelValidation "campaign graph must be acyclic" ↔
        ∃ c, TransGen spec.Depends c c) ∧
      ((∃ st, spec.search depth = .ok st) ↔ ∀ c, ¬ TransGen spec.Depends c c) ∧
      ((∃ st, spec.search depth = .ok st) ↔ ∃ order, spec.TopologicalOrder order) := by
  have hknown' : ∀ a b, spec.Depends a b → b ∈ spec.nodes.map (·.nodeId) := by
    rintro a b ⟨node, hnode, -, hb⟩
    exact hknown node hnode b hb
  have hacyclic : (∃ st, spec.search depth = .ok st) → ∀ c, ¬ TransGen spec.Depends c c := by
    rintro ⟨st, hok⟩
    obtain ⟨order, horder⟩ := CampaignSpecFields.exists_order_of_search hids hknown' hok
    exact horder.acyclic hids
  rcases CampaignSpecFields.search_outcome hids hknown' hdepth with ⟨st, hok, -⟩ | ⟨hfail, c, hcycle⟩
  · have hnone := hacyclic ⟨st, hok⟩
    refine ⟨⟨fun hfail => ?_, fun ⟨c, hcycle⟩ => absurd hcycle (hnone c)⟩,
      ⟨fun _ => hnone, fun _ => ⟨st, hok⟩⟩,
      ⟨fun _ => CampaignSpecFields.exists_order_of_search hids hknown' hok, fun _ => ⟨st, hok⟩⟩⟩
    rw [hok] at hfail
    cases hfail
  · have hdepends : TransGen spec.Depends c c :=
      TransGen.mono (fun a b hab => (CampaignSpecFields.mem_graph hids).mp hab) c c hcycle
    have hraised : ¬ ∃ st, spec.search depth = .ok st := fun hok => hacyclic hok c hdepends
    refine ⟨⟨fun _ => ⟨c, hdepends⟩, fun _ => hfail⟩,
      ⟨fun hok => absurd hok hraised, fun hnone => absurd hdepends (hnone c)⟩,
      ⟨fun hok => absurd hok hraised, fun ⟨order, horder⟩ => ?_⟩⟩
    exact absurd hdepends (horder.acyclic hids c)

end Specification

namespace Sample

/-- A node that the sample node waits for nothing of, and that waits for the sample node. -/
def dependent : NodeSpec where
  nodeId := "a"
  objective := "use the change"
  dependencies := ["n"]
  allowedPaths := ["a.py"]
  validationCommandIds := ["unit"]
  valid := by decide
  deadline_ne_blank := node.deadline_ne_blank

end Sample

open Sample in
theorem dependency_search_exact_sample :
    ∃ st, CampaignSpecFields.search { fields with nodes := [dependent, node] } 3 = .ok st := by
  refine (dependency_search_exact _ (by decide) (by decide) 3 (by decide)).2.2.mpr ⟨["n", "a"], ?_, ?_⟩
  · decide
  · rintro before a after hsplit b ⟨x, hx, rfl, hb⟩
    obtain rfl | rfl : x = dependent ∨ x = node := by simpa using hx
    · obtain rfl : b = "n" := by simpa [dependent] using hb
      rcases before with _ | ⟨c, _⟩
      · simp [dependent] at hsplit
      · simp only [List.cons_append, List.cons.injEq] at hsplit
        simp [← hsplit.1]
    · simp [node] at hb

end CodingOS.Campaign
