import CodingOS.Campaign.Step
import CodingOS.Systems.Run

/-!
# Runs of the reducer

A run of a campaign folds `reduce` over accepted events, from the initial snapshot of its
specification.  A rejected event raises and changes nothing, so it leaves no entry.
-/

namespace CodingOS.Campaign

open CodingOS.Python Systems

variable [Runtime]

/-- What a step of the reducer consumes and emits. -/
structure Applied where
  event : Event
  effects : List ExternalEffectIntent

/-- `reduce` as a step relation. -/
def reduceStep (s : CampaignSnapshot) (applied : Applied) (s' : CampaignSnapshot) : Prop :=
  reduce s applied.event = .ok (s', applied.effects)

/-- A run of `reduce` from `CampaignSnapshot.initial spec`. -/
def CampaignRun (spec : CampaignSpec) (history : List (Entry CampaignSnapshot Applied))
    (s : CampaignSnapshot) : Prop :=
  ∃ s₀, CampaignSnapshot.initial spec = .ok s₀ ∧ Run reduceStep s₀ history s

/-- The snapshot of a fresh campaign. -/
theorem initial_eq_ok {spec : CampaignSpec} {s₀ : CampaignSnapshot}
    (h : CampaignSnapshot.initial spec = .ok s₀) :
    s₀.spec = spec ∧ s₀.revision = 0 ∧ s₀.state = .draft ∧ s₀.cancellationState = .active ∧
      s₀.nodes = spec.nodes.map (fun node => { nodeId := node.nodeId }) ∧
      s₀.budgets = (spec.attemptBudgets.insertionSort fun a b => a.token.value ≤ b.token.value).map
        (fun item => ⟨item.token, item.limit, 0, Nat.zero_le _⟩) ∧
      s₀.budgetReceipts = [] ∧ s₀.autonomousRankRemaining = spec.autonomousRank ∧
      s₀.activeNodeId = none ∧ s₀.failureReason = none := by
  simp only [CampaignSnapshot.initial, bind_eq_ok, pure_eq_ok] at h
  obtain ⟨_, -, rfl⟩ := h
  exact ⟨rfl, rfl, rfl, rfl, rfl, rfl, rfl, rfl, rfl, rfl⟩

/-- Every node of a fresh campaign is pending and untouched. -/
theorem initial_node {spec : CampaignSpec} {s₀ : CampaignSnapshot}
    (h : CampaignSnapshot.initial spec = .ok s₀) {n : NodeSnapshot} (hn : n ∈ s₀.nodes) :
    n = { nodeId := n.nodeId } := by
  obtain ⟨-, -, -, -, hnodes, -⟩ := initial_eq_ok h
  rw [hnodes] at hn
  obtain ⟨node, -, rfl⟩ := List.mem_map.mp hn
  rfl

/-- **The node invariant rule.**  What holds of untouched pending nodes and is kept by every
`NodeStep` holds of every node of every reached snapshot. -/
theorem CampaignRun.node_invariant {Inv : NodeSnapshot → Prop} {spec : CampaignSpec}
    {history : List (Entry CampaignSnapshot Applied)} {s : CampaignSnapshot}
    (h : CampaignRun spec history s) (start : ∀ nodeId, Inv { nodeId })
    (keep : ∀ {s : CampaignSnapshot} {e : Event} {effects : List ExternalEffectIntent}
      {m m' : NodeSnapshot}, Inv m → NodeStep s e effects m m' → Inv m') :
    ∀ n ∈ s.nodes, Inv n := by
  obtain ⟨s₀, hinit, hrun⟩ := h
  refine hrun.invariant (fun s => ∀ n ∈ s.nodes, Inv n) ?_ ?_
  · intro n hn
    rw [initial_node hinit hn]
    exact start _
  · intro s s' applied ih hstep n hn
    obtain ⟨m, hm, -, hnode⟩ := (reduce_accepted hstep).node_cases hn
    exact keep (ih m hm) hnode

/-- A run cut before one of its entries, with the step the entry took. -/
theorem CampaignRun.cut {spec : CampaignSpec} {s : CampaignSnapshot}
    {earlier later : List (Entry CampaignSnapshot Applied)}
    {t : Entry CampaignSnapshot Applied} (h : CampaignRun spec (earlier ++ t :: later) s) :
    CampaignRun spec earlier t.before ∧
      Accepted t.before t.label.event t.label.effects t.after := by
  obtain ⟨s₀, hinit, hrun⟩ := h
  obtain ⟨hearlier, hstep, -⟩ := hrun.run_upto.last
  exact ⟨⟨s₀, hinit, hearlier⟩, reduce_accepted hstep⟩

/-! ### Folding a list of events -/

/-- `reduce` folded over a list of events, with the history of the fold. -/
def foldEvents (s₀ : CampaignSnapshot) (events : List Event) :
    Result (List (Entry CampaignSnapshot Applied) × CampaignSnapshot) :=
  events.foldlM (fun acc event => do
    let (s', effects) ← reduce acc.2 event
    return (acc.1 ++ [⟨acc.2, ⟨event, effects⟩, s'⟩], s')) ([], s₀)

/-- A fold that raises nothing is a run. -/
theorem foldEvents_run {s₀ : CampaignSnapshot} {events : List Event}
    {acc : List (Entry CampaignSnapshot Applied) × CampaignSnapshot}
    (h : foldEvents s₀ events = .ok acc) : Run reduceStep s₀ acc.1 acc.2 := by
  refine foldlM_eq_ok_induct (motive := fun acc => Run reduceStep s₀ acc.1 acc.2) ?_ h .start
  intro acc event acc' ih hstep
  simp only [bind_eq_ok, pure_eq_ok, Prod.exists] at hstep
  obtain ⟨s', effects, hreduce, rfl⟩ := hstep
  exact ih.snoc hreduce

end CodingOS.Campaign

/-! ### A small campaign

One node, an automated campaign and a clean review: the concrete run on which later modules show that
the hypotheses of their theorems can be met. -/

namespace CodingOS.Campaign.Sample

open CodingOS.Python Systems

/-- The digest is the one `hashlib` gives for the canonical text of `fields`, the only text the run
hashes. -/
scoped instance runtime : Runtime where
  casefoldUnicode := id
  lowerUnicode := id
  isPrintable _ := true
  decimalDigit _ := none
  floatRepr _ := "0.0"
  sha256 _ := "8dc417117cb169c69976f3b56f908d591975bc169686c9a4bcbf6892035f4552"
  sha512 _ := []
  resolvedPath := id
  absolutePath := id

def node : NodeSpec where
  nodeId := "n"
  objective := "change"
  allowedPaths := ["a.py"]
  validationCommandIds := ["unit"]
  valid := by decide
  deadline_ne_blank := by decide

def command : ValidationCommand where
  commandId := "unit"
  executable := "python"
  arguments := ["-m", "unittest"]
  workingDirectory := "/w"
  environmentAllowlist := []
  timeoutSeconds := 60
  outputLimitBytes := 1000
  expectedWorktreeCondition := "CLEAN"
  valid := by decide

def fields : CampaignSpecFields where
  campaignId := "c"
  specificationRevision := 1
  specificationDigest := "8dc417117cb169c69976f3b56f908d591975bc169686c9a4bcbf6892035f4552"
  authorityEpoch := 1
  cancellationEpoch := 0
  mode := .automated
  objective := "ship"
  objectiveKind := .productCode
  repositoryRemote := "r"
  gitRoot := "/g"
  worktree := "/w"
  branch := "b"
  baseSha := "0"
  allowedPaths := ["a.py"]
  nodes := [node]
  requiredValidationCommands := [command]
  requiredReviewCohort := ["alpha"]
  publicationAuthority := [
    ("allowed_effects", .tuple [.str "PUSH", .str "CREATE_PULL_REQUEST"]),
    ("automated", .bool true)]
  attemptBudgets := [⟨.childStart, 1⟩, ⟨.reviewDispatch, 1⟩, ⟨.push, 1⟩, ⟨.pullRequestCreation, 1⟩]
  stopConditions := ["done"]
  installedSourceCommit := "i"
  installedBundleDigest := "d"
  installTransaction := "t"
  autonomousRank := 4

def spec : CampaignSpec where
  toCampaignSpecFields := fields
  valid := by decide
  deadline_ne_blank := by decide

def start : CampaignSnapshot := (CampaignSnapshot.initial spec).toOption.get (by decide +kernel)

theorem c_nonblank : isBlank "c" = false := by decide

theorem e0_nonblank : isBlank "e0" = false := by decide

theorem e4_nonblank : isBlank "e4" = false := by decide

theorem e10_nonblank : isBlank "e10" = false := by decide

theorem unfenced : (none : Option ℕ) ≠ some 0 := by decide

/-- An event of the sample campaign under its first epochs. -/
def event (revision : ℕ) (eventId : String) (eventType : EventType) (nodeId : Option String)
    (payload : Mapping) (actorId : Option String := none) (fencingEpoch : Option ℕ := none)
    (id_nonblank : isBlank eventId = false := by decide)
    (fence_positive : fencingEpoch ≠ some 0 := by decide) : Event where
  eventId
  campaignId := "c"
  eventType
  expectedRevision := revision
  authorityEpoch := 1
  cancellationEpoch := 0
  nodeId
  actorId
  fencingEpoch
  payload
  event_id_nonblank := id_nonblank
  campaign_id_nonblank := c_nonblank
  fence_positive

/-- From the approval to the frozen candidate. -/
def candidateEvents : List Event := [
  event 0 "e0" .approve none [("specification_digest", .str "8dc417117cb169c69976f3b56f908d591975bc169686c9a4bcbf6892035f4552")],
  event 1 "e1" .start none [],
  event 2 "e2" .admitNode (some "n")
    [("start_head", .str "0123456789012345678901234567890123456789")],
  event 3 "e3" .acquireLease (some "n") [] (some "a") (some 1),
  event 4 "e4" .startImplementation (some "n")
    [("budget_token", .str "CHILD_START"), ("operation_id", .str "o1")] (some "a") (some 1),
  event 5 "e5" .implementationCompleted (some "n") [] (some "a") (some 1),
  event 6 "e6" .validationPassed (some "n")
    [("candidate_head", .str "h"), ("candidate_tree", .str "t"),
      ("candidate_diff_digest", .str "d"), ("candidate_node_diff_digest", .str "m")]
    (some "a") (some 1)]

/-- From the review to the first publication intent. -/
def publicationEvents : List Event := [
  event 7 "e7" .startReview (some "n")
    [("review_cohort", .tuple [.str "alpha"]), ("budget_token", .str "REVIEW_DISPATCH"),
      ("operation_id", .str "o2")],
  event 8 "e8" .freezeFindings (some "n") [],
  event 9 "e9" .markReadyToPublish (some "n") [],
  event 10 "e10" .startPublish (some "n")
    [("effect_kind", .str "PUSH"), ("operation_id", .str "o3"), ("budget_token", .str "PUSH")]]

/-- An interruption of the campaign once the candidate is frozen. -/
def waitEvent : Event := event 7 "w7" .waitExternal none []

def releaseEvent : Event := event 8 "e8" .releaseLease (some "n") [] (some "a") (some 1)

def reviewEvent : Event :=
  event 8 "e8" .startReview (some "n")
    [("review_cohort", .tuple [.str "alpha"]), ("budget_token", .str "REVIEW_DISPATCH"),
      ("operation_id", .str "o2")]

/-- The lease of the frozen candidate goes from `a` to `b`, and the review quotes the lease of `a`. -/
def handoverEvents : List Event := [
  event 7 "h7" .releaseLease (some "n") [] (some "a") (some 1),
  event 8 "h8" .acquireLease (some "n") [] (some "b") (some 2),
  event 9 "h9" .startReview (some "n")
    [("review_cohort", .tuple [.str "alpha"]), ("budget_token", .str "REVIEW_DISPATCH"),
      ("operation_id", .str "o2")] (some "a") (some 1)]

/-- A second campaign, in a worktree of its own. -/
def otherSpec : CampaignSpec where
  toCampaignSpecFields := { fields with
    campaignId := "d"
    worktree := "/v"
    requiredValidationCommands := [{ command with workingDirectory := "/v", valid := by decide }] }
  valid := by decide
  deadline_ne_blank := by decide

/-- The events of the sample campaign, submitted to the second one. -/
def otherEvents : List Event :=
  ((candidateEvents ++ publicationEvents).mapM fun e => EventFields.build { e.toEventFields with
    eventId := "d" ++ e.eventId
    campaignId := "d" }).toOption.get (by decide +kernel)

/-- The run up to the first publication intent. -/
def run : List (Entry CampaignSnapshot Applied) × CampaignSnapshot :=
  (foldEvents start (candidateEvents ++ publicationEvents)).toOption.get (by decide +kernel)

theorem get_toOption {α : Type} {x : Result α} (h : x.toOption.isSome) :
    x = .ok (x.toOption.get h) := by
  cases x with
  | error _ => simp [Except.toOption] at h
  | ok _ => rfl

theorem initial_start : CampaignSnapshot.initial spec = .ok start := get_toOption _

theorem fold_run : foldEvents start (candidateEvents ++ publicationEvents) = .ok run :=
  get_toOption _

theorem campaignRun : CampaignRun spec run.1 run.2 := ⟨start, initial_start, foldEvents_run fold_run⟩

end CodingOS.Campaign.Sample
