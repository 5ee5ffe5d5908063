import CodingOS.Campaign.DependencyGraph

/-!
# Scheduling

`_step` of `DeterministicSupervisor`, up to the work on the active node: what a snapshot is due for, and
the node `select_next_approved_node` picks when no node is active.  The deadlines, which `_step` reads
from the clock before it schedules, end in a `FAIL_NODE` and are left out.

A running campaign without an active node has a node to admit: its unfinished nodes are pending, the
graph is acyclic, and a campaign whose last node is done is completed.
-/

namespace CodingOS.Supervisor

open CodingOS.Python CodingOS.Campaign Systems

/-- What the scheduling part of `_step` can raise. -/
inductive SchedulingError
  | key (name : String)
  | campaign (exc : CampaignError)
  | supervisor (message : String)
deriving DecidableEq

abbrev Scheduled (α : Type) := Except SchedulingError α

theorem forEach_ok {α : Type} {items : List α} {body : α → Result Unit}
    (h : ∀ item ∈ items, body item = .ok ()) : forEach items body = .ok () := by
  induction items with
  | nil => rfl
  | cons item items ih =>
      rw [forEach, List.foldlM_cons, h item List.mem_cons_self]
      exact ih fun item hitem => h item (List.mem_cons_of_mem _ hitem)

section Scheduling

variable [Runtime]

/-- `by_id[name]`. -/
def nodeById (s : CampaignSnapshot) (name : String) : Scheduled NodeSnapshot :=
  match s.nodes.find? (·.nodeId == name) with
  | some node => .ok node
  | none => .error (.key name)

/-- `all(by_id[item].state is NodeState.DONE for item in dependencies)`. -/
def allDone (s : CampaignSnapshot) : List String → Scheduled Bool
  | [] => .ok true
  | name :: names => do
      let node ← nodeById s name
      if node.state = .done then allDone s names else return false

/-- The loop of `select_next_approved_node`. -/
def firstApproved (s : CampaignSnapshot) : List NodeSpec → Scheduled (Option NodeSnapshot)
  | [] => .ok none
  | spec :: specs => do
      let node ← nodeById s spec.nodeId
      if node.state ≠ .pending then firstApproved s specs
      else if ← allDone s spec.dependencies then return some node
      else firstApproved s specs

/-- `select_next_approved_node`. -/
def selectNextApprovedNode (s : CampaignSnapshot) : Scheduled (Option NodeSnapshot) :=
  if s.state ≠ .running ∨ (nonemptyText s.activeNodeId).isSome then .ok none
  else firstApproved s s.spec.nodes

/-- What `_step` goes on to do. -/
inductive Task
  | terminal
  | start
  | yield (waitEvent : String)
  | admission (node : NodeSnapshot)
  | work (node : NodeSnapshot)
deriving DecidableEq

def noEligibleNode : String := "running campaign has no eligible node and is not terminal"

/-- The scheduling part of `_step`. -/
def schedule (s : CampaignSnapshot) : Scheduled Task := do
  if terminalCampaignStates.contains s.state then return .terminal
  if s.state = .approved then return .start
  if [CampaignState.draft, .waitingExternal, .waitingHuman].contains s.state then
    return .yield (if s.state = .draft then "approve" else "external_event")
  match ← selectNextApprovedNode s with
  | some node => return .admission node
  | none =>
      match nonemptyText s.activeNodeId with
      | none => throw (.supervisor noEligibleNode)
      | some nodeId => do
          let node ← (s.node nodeId).mapError .campaign
          return .work node

/-! ### Eligible nodes -/

/-- A pending node whose dependencies are all done. -/
structure Eligible (s : CampaignSnapshot) (n : NodeSnapshot) : Prop where
  mem : n ∈ s.nodes
  pending : n.state = .pending
  done : ∀ d, DependsOn s.spec n.nodeId d → IsDone s d

variable {s : CampaignSnapshot}

theorem nodeById_mem {n : NodeSnapshot} (hn : n ∈ s.nodes) : nodeById s n.nodeId = .ok n := by
  rw [nodeById, (find?_key_eq_some s.nodes_nodup).mpr ⟨hn, rfl⟩]

theorem node_ok {n : NodeSnapshot} (hn : n ∈ s.nodes) : s.node n.nodeId = .ok n := by
  rw [CampaignSnapshot.node, (find?_key_eq_some s.nodes_nodup).mpr ⟨hn, rfl⟩]
  rfl

/-- Every name of the graph is a node of the snapshot. -/
theorem exists_node {name : String} (h : name ∈ s.spec.nodes.map (·.nodeId)) :
    ∃ n ∈ s.nodes, n.nodeId = name := by
  rw [← s.node_ids] at h
  exact List.mem_map.mp h

theorem isDone_iff {n : NodeSnapshot} (hn : n ∈ s.nodes) : IsDone s n.nodeId ↔ n.state = .done := by
  constructor
  · rintro ⟨m, hm, hid, hdone⟩
    rw [← CampaignSnapshot.node_unique hn hm hid]
    exact hdone
  · exact fun hdone => ⟨n, hn, rfl, hdone⟩

theorem allDone_ok {names : List String} (h : ∀ d ∈ names, d ∈ s.spec.nodes.map (·.nodeId)) :
    ∃ b, allDone s names = .ok b ∧ (b = true ↔ ∀ d ∈ names, IsDone s d) := by
  induction names with
  | nil => exact ⟨true, rfl, by simp⟩
  | cons d names ih =>
      obtain ⟨n, hn, rfl⟩ := exists_node (h d List.mem_cons_self)
      obtain ⟨b, hb, hiff⟩ := ih fun d hd => h d (List.mem_cons_of_mem _ hd)
      have hfound : allDone s (n.nodeId :: names)
          = if n.state = .done then allDone s names else .ok false := by
        rw [allDone, nodeById_mem hn]
        rfl
      by_cases hdone : n.state = .done
      · refine ⟨b, by rw [hfound, if_pos hdone, hb], ?_⟩
        rw [List.forall_mem_cons, isDone_iff hn, hiff]
        simp [hdone]
      · refine ⟨false, by rw [hfound, if_neg hdone], ?_⟩
        rw [List.forall_mem_cons, isDone_iff hn]
        simp [hdone]

/-- **The loop.**  It raises nothing, and what it returns is the first eligible node, if there is
one. -/
theorem firstApproved_ok {specs : List NodeSpec} (h : ∀ spec ∈ specs, spec ∈ s.spec.nodes) :
    ∃ r, firstApproved s specs = .ok r ∧ (∀ n, r = some n → Eligible s n) ∧
      (r = none → ∀ n, Eligible s n → n.nodeId ∉ specs.map (·.nodeId)) := by
  induction specs with
  | nil => exact ⟨none, rfl, by simp, by simp⟩
  | cons spec specs ih =>
      have hspec := h spec List.mem_cons_self
      obtain ⟨r, hr, hsome, hnone⟩ := ih fun spec hspec => h spec (List.mem_cons_of_mem _ hspec)
      obtain ⟨n, hn, hid⟩ := exists_node (List.mem_map_of_mem (f := (·.nodeId)) hspec)
      have hknown : ∀ d ∈ spec.dependencies, d ∈ s.spec.nodes.map (·.nodeId) := fun d hd =>
        CampaignSpec.dependency_known ⟨spec, hspec, rfl, hd⟩
      obtain ⟨b, hb, hiff⟩ := allDone_ok hknown
      have hdepends : ∀ d, DependsOn s.spec n.nodeId d ↔ d ∈ spec.dependencies := by
        refine fun d => ⟨?_, fun hd => ⟨spec, hspec, hid.symm, hd⟩⟩
        rintro ⟨other, hother, hsame, hd⟩
        rwa [← List.inj_on_of_nodup_map s.spec.node_ids_nodup hother hspec (hsame.trans hid)]
      have hstep : firstApproved s (spec :: specs) = if n.state ≠ .pending then firstApproved s specs
          else if b then .ok (some n) else firstApproved s specs := by
        rw [firstApproved, ← hid, nodeById_mem hn, hb]
        cases b <;> rfl
      -- the node the loop looks at, when it is passed over
      have hpass : ¬ Eligible s n → ∃ r, firstApproved s specs = .ok r ∧
          (∀ n, r = some n → Eligible s n) ∧
            (r = none → ∀ n, Eligible s n → n.nodeId ∉ (spec :: specs).map (·.nodeId)) := by
        refine fun hnot => ⟨r, hr, hsome, fun hrnone m hm => ?_⟩
        rw [List.map_cons, List.mem_cons, not_or]
        refine ⟨fun hmid => hnot ?_, hnone hrnone m hm⟩
        rw [CampaignSnapshot.node_unique hm.mem hn (hid.trans hmid.symm)]
        exact hm
      by_cases hpending : n.state = .pending
      · rw [hstep, if_neg (not_not.mpr hpending)]
        cases b with
        | true =>
            have heligible : Eligible s n :=
              ⟨hn, hpending, fun d hd => hiff.mp rfl d ((hdepends d).mp hd)⟩
            refine ⟨some n, rfl, fun m hm => ?_, fun hnone => by cases hnone⟩
            rw [← Option.some.inj hm]
            exact heligible
        | false =>
            refine hpass fun heligible => ?_
            have hdone := hiff.mpr fun d hd => heligible.done d ((hdepends d).mpr hd)
            cases hdone
      · rw [hstep, if_pos hpending]
        exact hpass fun heligible => hpending heligible.pending

/-! ### A running campaign has unfinished nodes -/

variable {s' : CampaignSnapshot} {e : Event} {effects : List ExternalEffectIntent}
  {m m' : NodeSnapshot}

/-- No step makes a node pending, and none gives a node that stays pending a start head. -/
theorem stays_pending (h : NodeStep s e effects m m') (hpending : m'.state = .pending) :
    m.state = .pending ∧ m'.startHead = m.startHead := by
  cases h with
  | same | unlease => exact ⟨hpending, rfl⟩
  | cancel =>
      unfold cancelNode at hpending ⊢
      split at hpending
      · next hended => rw [if_pos hended]; exact ⟨hpending, rfl⟩
      · cases hpending
  | admitted | fail | publish => cases hpending
  | move _ hmove =>
      cases hmove with
      | acquireLease | releaseLease | authorizePublication => exact ⟨hpending, rfl⟩
      | _ => cases hpending
  | dispatch _ hmove => cases hmove <;> cases hpending
  | @confirm _ _ complete => cases complete <;> cases hpending

/-- A pending node has no start head. -/
theorem pending_startHead {spec : CampaignSpec} {history : List (Entry CampaignSnapshot Applied)}
    (h : CampaignRun spec history s) : ∀ n ∈ s.nodes, n.state = .pending → n.startHead = none := by
  refine h.node_invariant (fun _ _ => rfl) fun hm hstep hpending => ?_
  obtain ⟨hbefore, hsame⟩ := stays_pending hstep hpending
  rw [hsame]
  exact hm hbefore

/-- A node that becomes done was confirmed. -/
theorem becomes_done (h : NodeStep s e effects m m') (hdone' : m'.state = .done)
    (hdone : m.state ≠ .done) : e.eventType = .publishConfirmed := by
  cases h with
  | same | unlease => exact absurd hdone' hdone
  | cancel =>
      unfold cancelNode at hdone'
      split at hdone'
      · exact absurd hdone' hdone
      · cases hdone'
  | admitted | fail | publish => cases hdone'
  | move _ hmove =>
      cases hmove with
      | acquireLease | releaseLease | authorizePublication => exact absurd hdone' hdone
      | _ => cases hdone'
  | dispatch _ hmove => cases hmove <;> cases hdone'
  | confirm _ hguard => exact hguard.eventType

/-- The step of a confirmation. -/
theorem confirmed_step (h : Accepted s e effects s') (ht : e.eventType = .publishConfirmed) :
    ∃ n effect operationId complete, Names s e n ∧
      ConfirmGuard s e n effect operationId complete ∧
        s' = { s.recordPublication (n.confirmed effect operationId complete) complete with
          revision := s.revision + 1 } := by
  obtain ⟨s₁, hstep, rfl⟩ := h.step
  cases hstep with
  | control hmove => cases hmove <;> simp [ht] at *
  | advanceAuthority ht' | cancel ht' | consumeBudget ht' | admitted ht' => simp [ht] at ht'
  | move _ hmove => cases hmove <;> simp [ht] at *
  | dispatch _ hmove => cases hmove <;> simp [ht] at *
  | fail _ hmove => cases hmove <;> simp [ht] at *
  | publish _ _ _ hguard =>
      have hne := hguard.eventType
      simp [ht] at hne
  | confirm hn hguard => exact ⟨_, _, _, _, hn, hguard, rfl⟩

/-- **A campaign that has not ended has a node that is not done.**  The last confirmation completes it. -/
theorem unfinished_step (h : Accepted s e effects s') (hlive : s'.state ∉ terminalCampaignStates)
    (hs : ∃ m ∈ s.nodes, m.state ≠ .done) : ∃ m ∈ s'.nodes, m.state ≠ .done := by
  by_contra hall
  push Not at hall
  obtain ⟨m, hm, hstate⟩ := hs
  obtain ⟨m', hm', -, hstep⟩ := h.successor hm
  obtain ⟨n, effect, operationId, complete, hn, -, rfl⟩ :=
    confirmed_step h (becomes_done hstep (hall m' hm') hstate)
  have hmem : n.confirmed effect operationId complete ∈
      (s.replaceNode (n.confirmed effect operationId complete)).nodes :=
    List.mem_map.mpr ⟨n, hn.mem, if_pos rfl⟩
  have hdone := hall _ hmem
  cases complete with
  | false => cases hdone
  | true =>
      refine hlive ?_
      have hcompleted : ((s.replaceNode (n.confirmed effect operationId true)).nodes.all
          (·.state == .done)) = true := List.all_eq_true.mpr fun m hm => by simpa using hall m hm
      show (if _ then CampaignState.completed else s.state) ∈ _
      rw [if_pos (by simpa using hcompleted)]
      decide

theorem unfinished_run {spec : CampaignSpec} {history : List (Entry CampaignSnapshot Applied)}
    (h : CampaignRun spec history s) (hlive : s.state ∉ terminalCampaignStates) :
    ∃ m ∈ s.nodes, m.state ≠ .done := by
  obtain ⟨s₀, hinit, hrun⟩ := h
  refine hrun.invariant (fun s => s.state ∉ terminalCampaignStates → ∃ m ∈ s.nodes, m.state ≠ .done)
    (fun _ => ?_) (fun ih hstep hlive => ?_) hlive
  · have hspec := spec.valid
    simp only [CampaignSpecFields.postInit, bind_eq_ok, check_eq_ok, exists_const,
      Bool.not_eq_true', List.isEmpty_eq_false_iff] at hspec
    obtain ⟨_, -, -, -, hne, -⟩ := hspec
    obtain ⟨node, hnode⟩ := List.exists_mem_of_ne_nil _ hne
    obtain ⟨-, -, -, -, hnodes, -⟩ := initial_eq_ok hinit
    rw [hnodes]
    exact ⟨_, List.mem_map_of_mem hnode, by simp⟩
  · have haccepted := reduce_accepted hstep
    exact unfinished_step haccepted hlive (ih haccepted.live)

/-! ### The law -/

theorem nodeId_ne_empty (node : NodeSpec) : node.nodeId ≠ "" := by
  intro hempty
  have hvalid := node.valid
  simp only [NodeSpecFields.postInit, bind_eq_ok] at hvalid
  obtain ⟨_, hname, -⟩ := hvalid
  simp only [nonempty, bind_eq_ok, check_eq_ok, exists_const, hempty] at hname
  simp [Value.truthy, strip, lstripChars, rstripChars] at hname

/-- The node of a snapshot has a name. -/
theorem node_nodeId_ne_empty {n : NodeSnapshot} (hn : n ∈ s.nodes) : n.nodeId ≠ "" := by
  have hmem := List.mem_map_of_mem (f := (·.nodeId)) hn
  rw [s.node_ids] at hmem
  obtain ⟨node, -, hid⟩ := List.mem_map.mp hmem
  rw [← hid]
  exact nodeId_ne_empty node

theorem nodeFor_ok {e : Event} {n : NodeSnapshot} (hn : n ∈ s.nodes)
    (hnode : e.nodeId = some n.nodeId) : nodeFor s e = .ok n := by
  unfold nodeFor
  rw [hnode]
  split
  · next heq => cases heq
  · next heq => exact absurd (Option.some.inj heq) (node_nodeId_ne_empty hn)
  · next heq => rw [← Option.some.inj heq, node_ok hn]

/-- An `ADMIT_NODE` of the node, with an exact start head and the epochs of the snapshot. -/
structure Admission (s : CampaignSnapshot) (n : NodeSnapshot) (e : Event) : Prop where
  eventType : e.eventType = .admitNode
  campaign : e.campaignId = s.spec.campaignId
  revision : e.expectedRevision = s.revision
  authority : e.authorityEpoch = s.authorityEpoch
  cancellation : e.cancellationEpoch = s.cancellationEpoch
  node : e.nodeId = some n.nodeId
  startHead : isHexDigest 40 (casefold (payloadText e "start_head")) = true

/-- `ADMIT_NODE` is accepted for an eligible node. -/
theorem Eligible.admission {n : NodeSnapshot} (h : Eligible s n) (hrunning : s.state = .running)
    (hidle : s.activeNodeId = none) (hactive : s.cancellationState = .active)
    (hhead : n.startHead = none) (he : Admission s n e) :
    ∃ s', reduce s e = .ok (s', []) ∧ s'.activeNodeId = some n.nodeId ∧
      ∃ n' ∈ s'.nodes, n'.nodeId = n.nodeId ∧ n'.state = .admitted := by
  have hheader : checkEventHeader s e = .ok () := by
    simp [checkEventHeader, bind_eq_ok, he.campaign, he.revision, he.authority, he.cancellation,
      hactive, hrunning, terminalCampaignStates]
  have hfor : nodeFor s e = .ok n := nodeFor_ok h.mem he.node
  have hmem := List.mem_map_of_mem (f := (·.nodeId)) h.mem
  rw [s.node_ids] at hmem
  obtain ⟨nodeSpec, hspec, hid⟩ := List.mem_map.mp hmem
  have hnodeSpec : s.nodeSpec n.nodeId = .ok nodeSpec := by
    rw [CampaignSnapshot.nodeSpec, (find?_key_eq_some s.spec.node_ids_nodup).mpr ⟨hspec, hid⟩]
    rfl
  have hdependencies : forEach nodeSpec.dependencies (fun dependency => do
      let required ← s.node dependency
      require (required.state == .done) ("dependency is not done: " ++ dependency)) = .ok () := by
    refine forEach_ok fun d hd => ?_
    obtain ⟨m, hm, rfl, hdone⟩ := h.done d ⟨nodeSpec, hspec, hid, hd⟩
    exact bind_eq_ok.mpr ⟨m, node_ok hm, require_eq_ok.mpr (by simpa using hdone)⟩
  have hbranch : reduceBranch s e = .ok ({ s.replaceNode { n with
      state := .admitted, startHead := some (casefold (payloadText e "start_head")) } with
      activeNodeId := some n.nodeId }, []) := by
    rw [reduceBranch, he.eventType]
    show reduceAdmitNode s e = _
    simp only [reduceAdmitNode, bind_eq_ok, require_eq_ok, exists_const, pure_eq_ok]
    exact ⟨by simp [hrunning], n, hfor, by simp [h.pending], by simp [hidle], nodeSpec, hnodeSpec,
      (), hdependencies, he.startHead, by simp [hhead], rfl⟩
  refine ⟨_, bind_eq_ok.mpr ⟨(), hheader, bind_eq_ok.mpr ⟨_, hbranch,
    finishRevision_unpaid rfl rfl rfl⟩⟩, rfl, _, List.mem_map.mpr ⟨n, h.mem, if_pos rfl⟩, rfl, rfl⟩

/-- A running snapshot without an active node has an eligible node: it is picked, and it can be
admitted. -/
structure SchedulingLaw (s : CampaignSnapshot) : Prop where
  eligible : ∃ n, Eligible s n
  selected : ∃ n, selectNextApprovedNode s = .ok (some n) ∧ Eligible s n
  admits : ∀ n, selectNextApprovedNode s = .ok (some n) → ∀ e, Admission s n e →
    ∃ s', reduce s e = .ok (s', []) ∧ s'.activeNodeId = some n.nodeId ∧
      ∃ n' ∈ s'.nodes, n'.nodeId = n.nodeId ∧ n'.state = .admitted

theorem schedulingLaw_run {spec : CampaignSpec} {history : List (Entry CampaignSnapshot Applied)}
    (h : CampaignRun spec history s) (hrunning : s.state = .running) (hidle : s.activeNodeId = none) :
    SchedulingLaw s := by
  have hlive : s.state ∉ terminalCampaignStates := by
    rw [hrunning]
    decide
  have hshape := h.shaped.1 hlive
  obtain ⟨r, hr, hsome, hnone⟩ := firstApproved_ok (s := s)
    fun spec (hspec : spec ∈ s.spec.nodes) => hspec
  have hselect : selectNextApprovedNode s = .ok r := by
    rw [selectNextApprovedNode, if_neg (by simp [hrunning, hidle, nonemptyText]), hr]
  have heligible : ∃ n, Eligible s n := by
    obtain ⟨m, hm, hstate⟩ := unfinished_run h hlive
    have hpending : ∀ n ∈ s.nodes, n.state = .pending ∨ n.state = .done := fun n hn =>
      hshape.waiting n hn (by simp [hidle])
    have hacc := s.spec.acyclic (a := m.nodeId) (s.node_ids ▸ List.mem_map_of_mem hm)
    -- along the dependencies, some pending node has none that is pending
    obtain ⟨k, ⟨n, hn, rfl, hnpending⟩, hdone⟩ := exists_last
      (P := fun k => ∃ n ∈ s.nodes, n.nodeId = k ∧ n.state = .pending) (Q := IsDone s) hacc
      ⟨m, hm, rfl, (hpending m hm).resolve_right hstate⟩ fun x y _ hdepends => by
        obtain ⟨n, hn, hid⟩ := exists_node (CampaignSpec.dependency_known hdepends)
        rcases hpending n hn with hstate | hstate
        · exact .inl ⟨n, hn, hid, hstate⟩
        · exact .inr ⟨n, hn, hid, hstate⟩
    exact ⟨n, hn, hnpending, hdone⟩
  refine ⟨heligible, ?_, fun n hn e he => ?_⟩
  · cases r with
    | some n => exact ⟨n, hselect, hsome n rfl⟩
    | none =>
        obtain ⟨n, hn⟩ := heligible
        have hid := List.mem_map_of_mem (f := (·.nodeId)) hn.mem
        rw [s.node_ids] at hid
        exact absurd hid (hnone rfl n hn)
  · rw [hselect] at hn
    have hpicked := hsome n (Except.ok.inj hn)
    exact hpicked.admission hrunning hidle hshape.cancellation
      (pending_startHead h n hpicked.mem hpicked.pending) he

/-- **Scheduling never gets stuck.**  In every reached snapshot that is running without an active node,
a pending node has its dependencies done, `select_next_approved_node` picks such a node and `reduce`
admits it; and in no reached snapshot does the scheduling of `_step` raise. -/
theorem scheduling_live {spec : CampaignSpec} {history : List (Entry CampaignSnapshot Applied)}
    (h : CampaignRun spec history s) :
    (s.state = .running → s.activeNodeId = none → SchedulingLaw s) ∧
      ∃ task, schedule s = .ok task := by
  refine ⟨schedulingLaw_run h, ?_⟩
  have hdecides : ∀ state, state ∉ terminalCampaignStates → state ≠ .approved →
      state ∉ [CampaignState.draft, .waitingExternal, .waitingHuman] → state = .running := by
    intro state
    cases state <;> decide
  unfold schedule
  split_ifs with hterminal happroved hwaiting hdraft
  · exact ⟨_, rfl⟩
  · exact ⟨_, rfl⟩
  · exact ⟨_, rfl⟩
  · exact ⟨_, rfl⟩
  · have hlive : s.state ∉ terminalCampaignStates := by simpa using hterminal
    have hrunning := hdecides s.state hlive happroved (by simpa using hwaiting)
    cases hactive : s.activeNodeId with
    | none =>
        obtain ⟨n, hselect, -⟩ := (schedulingLaw_run h hrunning hactive).selected
        rw [hselect]
        exact ⟨_, rfl⟩
    | some k =>
        obtain ⟨n, hn, rfl, -⟩ := (h.shaped.1 hlive).working k hactive
        have hnamed : nonemptyText s.activeNodeId = some n.nodeId := by
          simp [nonemptyText, hactive, node_nodeId_ne_empty hn]
        have hselect : selectNextApprovedNode s = .ok none := by
          rw [selectNextApprovedNode, if_pos (.inr (by simp [hnamed]))]
        rw [hselect, ← hactive, hnamed]
        refine ⟨.work n, ?_⟩
        show (do
          let node ← (s.node n.nodeId).mapError SchedulingError.campaign
          return Task.work node) = _
        rw [node_ok hn]
        rfl

end Scheduling

namespace Sample

open CodingOS.Campaign.Sample

/-- The sample campaign, approved and started. -/
def startedRun : List (Entry CampaignSnapshot Applied) × CampaignSnapshot :=
  (foldEvents start (candidateEvents.take 2)).toOption.get (by decide +kernel)

theorem startedRun_run : CampaignRun spec startedRun.1 startedRun.2 :=
  ⟨start, initial_start, foldEvents_run (get_toOption _)⟩

end Sample

open Sample CodingOS.Campaign.Sample in
theorem scheduling_live_sample : SchedulingLaw startedRun.2 ∧ ∃ task, schedule startedRun.2 = .ok task :=
  ⟨(scheduling_live startedRun_run).1 (by decide +kernel) (by decide +kernel),
    (scheduling_live startedRun_run).2⟩

end CodingOS.Supervisor
