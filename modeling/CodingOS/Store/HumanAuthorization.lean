import CodingOS.Store.EventSourcing

/-!
# One-use human authorization

`AUTHORIZE_REPAIR` and `AUTHORIZE_PUBLICATION` enter a log through `apply_human_authorized_event`
alone.  The receipt of such an event was verified and named the state the event moved, field by field,
and its identifier is taken in the request ledger for good: two events of any campaigns have two
receipts.

`human_authorization` states it of every run of the store.
-/

namespace CodingOS.Store

open CodingOS.Python CodingOS.Campaign Systems

/-- The events that need a human receipt. -/
def humanEvents : List EventType := [.authorizeRepair, .authorizePublication]

theorem eq_str {v : Value} {text : String} (h : v.eq (.str text) = true) : v = .str text := by
  cases v with
  | str other => rw [show other = text by simpa [Value.eq] using h]
  | null | bool | int | float | tuple | mapping => simp [Value.eq, Value.number?] at h

section Authorization

variable [Runtime]

/-- The event of a receipt, as the ledger keeps it. -/
def OperationResult.authorizedEvent? : OperationResult → Option String
  | .humanAuthorization _ eventId _ => some eventId
  | _ => none

/-! ### What a receipt names -/

/-- `str(receipt.get("receipt_id", "")).strip()`. -/
def receiptId (receipt : Mapping) : String := (receipt.getD "receipt_id" (.str "")).stripped

/-- A text of a receipt: `str(receipt.get(key) or "")`. -/
def receiptText (receipt : Mapping) (key : String) : String :=
  if (receipt.read key).truthy then (receipt.read key).text else ""

theorem bindingMatches_int {observed : Value} {n : ℤ} (h : bindingMatches observed (.int n) = true) :
    observed.toInt = some n := by
  have heq : ∀ m : ℤ, (Value.int m).eq (.int n) = true → m = n := by
    intro m hm
    rw [Value.eq, Value.number?, beq_iff_eq, Option.some.injEq] at hm
    exact (Int.cast_inj.mp hm).symm
  cases hread : observed.toInt with
  | some m =>
      rw [bindingMatches, hread] at h
      rw [heq m h]
  | none =>
      rw [bindingMatches, hread] at h
      cases observed with
      | bool | int | float => cases hread
      | null | str | tuple | mapping => simp [Value.eq] at h

theorem bindingMatches_text {receipt : Mapping} {key expected : String}
    (h : bindingMatches (receipt.read key) (.str expected) = true) :
    receiptText receipt key = expected := by
  have htext : (Value.str (receiptText receipt key)).eq (.str expected) = true := h
  simpa [Value.eq] using htext

theorem bindingMatches_null {observed : Value} (h : bindingMatches observed .null = true) :
    observed = .null := by
  have hnull : observed.eq .null = true := h
  cases observed with
  | null => rfl
  | bool | int | float | str | tuple | mapping => simp [Value.eq, Value.number?] at hnull

/-- **A verified receipt that names the event**: its kind, its campaign and node, the revision and the
epochs, and the candidate head and the blockers of the node, as the snapshot has them. -/
structure ReceiptNames (s : CampaignSnapshot) (event : Event) (receipt : Mapping)
    (n : NodeSnapshot) : Prop where
  signed : verifyHumanAuthorizationSignature s receipt = .ok ()
  found : s.node n.nodeId = .ok n ∧ event.nodeId = some n.nodeId
  kind : authorizationKind? event.eventType = some (receiptText receipt "event_kind")
  campaign : receiptText receipt "campaign_id" = s.spec.campaignId
  node : receiptText receipt "node_id" = n.nodeId
  revision : (receipt.read "store_revision").toInt = some (s.revision : ℤ)
  authority : (receipt.read "authority_epoch").toInt = some (s.authorityEpoch : ℤ)
  cancellation : (receipt.read "cancellation_epoch").toInt = some (s.cancellationEpoch : ℤ)
  head : match n.candidateHead with
    | none => receipt.read "candidate_head" = .null
    | some head => receiptText receipt "candidate_head" = head
  blockers : ∃ items, (receipt.getD "frozen_blocker_ids" (.tuple [])).items? = some items ∧
    items.map Value.text = n.blockerIds
  identity : event.payload.read "authorization_receipt_id" = .str (receiptId receipt)

theorem validateHumanAuthorizationReceipt_eq_ok {s : CampaignSnapshot} {event : Event}
    {receipt : Mapping} {ids : String × String}
    (h : validateHumanAuthorizationReceipt s event receipt = .ok ids) :
    event.eventType ∈ humanEvents ∧ ∃ n, ReceiptNames s event receipt n := by
  simp only [validateHumanAuthorizationReceipt, bind_eq_ok, orRaise_eq_ok, check_eq_ok, pure_eq_ok,
    exists_const, Bool.and_eq_true, beq_iff_eq] at h
  obtain ⟨kind, hkind, nodeId, hnodeId, n, hn, -, _, hsigned, -, items, hitems, _, hbindings,
    hblockers, ⟨hidentity, -⟩, -⟩ := h
  have hevent : event.nodeId = some nodeId := (Option.filter_eq_some_iff.mp hnodeId).1
  have hid : n.nodeId = nodeId := by
    rw [CampaignSnapshot.node, orRaise_eq_ok] at hn
    simpa using List.find?_some hn
  have hbound : ∀ binding ∈ exactBindings s n kind nodeId,
      bindingMatches (receipt.read binding.1) binding.2 = true :=
    fun binding hmem => check_eq_ok.mp (forEach_eq_ok hbindings binding hmem)
  simp only [exactBindings, List.forall_mem_cons] at hbound
  obtain ⟨hkind', hcampaign, -, -, hrevision, hauthority, hcancellation, hnode, hhead, -⟩ := hbound
  refine ⟨?_, n, {
    signed := hsigned
    found := by rw [hid]; exact ⟨hn, hevent⟩
    kind := by rw [hkind, bindingMatches_text hkind']
    campaign := bindingMatches_text hcampaign
    node := (bindingMatches_text hnode).trans hid.symm
    revision := bindingMatches_int hrevision
    authority := bindingMatches_int hauthority
    cancellation := bindingMatches_int hcancellation
    head := ?_
    blockers := ⟨items, hitems, hblockers⟩
    identity := eq_str hidentity }⟩
  · cases ht : event.eventType <;> simp_all [authorizationKind?, humanEvents]
  · unfold candidateHeadValue at hhead
    split
    · next hnone =>
        rw [hnone] at hhead
        exact bindingMatches_null hhead
    · next head hsome =>
        rw [hsome] at hhead
        exact bindingMatches_text hhead

/-! ### How an event enters a log -/

variable {db db' : Db} {t : Transaction}

/-- The row of an event in a log is an old one, or that of the event the transaction applied. -/
theorem Committed.logged (h : Committed db t db') {r : EventRow} (hr : r ∈ db'.events.rows) :
    r ∈ db.events.rows ∨ ∃ row next effects, EventApplied db r.event row next effects db' ∧
      r.eventId = r.event.eventId ∧ (t.carries r.event ∨ r.event.eventType = .acquireLease ∨
        r.event.eventType = .releaseLease) := by
  have hquiet : db'.lifecycle = db.lifecycle → r ∈ db.events.rows := by
    intro hsame
    rwa [show db'.events = db.events from congrArg Lifecycle.events hsame] at hr
  have hevent : ∀ {event : Event} {row : CampaignRow} {next : CampaignSnapshot}
      {effects : List ExternalEffectIntent}, EventApplied db event row next effects db' →
      (t.carries event ∨ event.eventType = .acquireLease ∨ event.eventType = .releaseLease) →
      r ∈ db.events.rows ∨ ∃ row next effects, EventApplied db r.event row next effects db' ∧
        r.eventId = r.event.eventId ∧ (t.carries r.event ∨ r.event.eventType = .acquireLease ∨
          r.event.eventType = .releaseLease) := by
    intro event row next effects happlied hcarries
    obtain ⟨digest, hinsert⟩ := happlied.events
    rcases (Table.mem_insert? hinsert).mp hr with hold | rfl
    · exact .inl hold
    · exact .inr ⟨row, next, effects, happlied, rfl, hcarries⟩
  cases h with
  | beside hbeside => exact .inl (hquiet hbeside.lifecycle)
  | created hcreated =>
      rw [hcreated.events] at hr
      exact .inl hr
  | applied hcarries happlied => exact hevent happlied (.inl hcarries)
  | granted hgranted =>
      rcases hgranted.transition with ⟨-, -, hframe⟩ | ⟨-, -, _, _, _, _, hbuilt, happlied⟩
      · exact .inl (hquiet hframe.lifecycle)
      · exact hevent happlied (.inr (.inl (LeaseRequest.event_eq_ok hbuilt).2.2.1))
  | bound hbound => exact .inl (hquiet hbound.frame.lifecycle)
  | retired hretired =>
      rcases hretired.transition with ⟨-, hframe⟩ | ⟨-, _, _, _, _, hbuilt, happlied⟩
      · exact .inl (hquiet hframe.lifecycle)
      · exact hevent happlied (.inr (.inr (ReleaseRequest.event_eq_ok hbuilt).2.2.1))
  | recovered hrecovered => exact .inl (hquiet hrecovered.lifecycle)
  | prepared hprepared => exact .inl (hquiet hprepared.lifecycle)
  | updated hupdated =>
      obtain ⟨_, -, -, rfl⟩ := hupdated.revision
      exact .inl (hquiet rfl)

/-- A carried human event is one of `apply_human_authorized_event`. -/
theorem Transaction.carries_human {event : Event} (h : t.carries event)
    (hhuman : event.eventType ∈ humanEvents) :
    ∃ receipt, t = .applyHumanAuthorizedEvent event receipt := by
  cases t with
  | applyEvent =>
      obtain ⟨rfl, hrepair, hpublication⟩ := h
      simp [humanEvents, hrepair, hpublication] at hhuman
  | applyHumanAuthorizedEvent _ receipt => exact ⟨receipt, by rw [show _ = event from h.symm]⟩
  | reserveBudgetAttempt request =>
      have ht : event.eventType = .consumeBudget := by
        have hbuilt : event.toEventFields = _ := EventFields.build_eq_ok h
        rw [hbuilt]
      simp [humanEvents, ht] at hhuman
  | _ => exact h.elim

/-! ### The law -/

/-- **The transaction `e` applied the event of `r` under a receipt**: the receipt was verified and
named the state the event moved. -/
structure AuthorizedBy (e : Entry Db Transaction) (r : EventRow) (receipt : Mapping)
    (s : CampaignSnapshot) (n : NodeSnapshot) : Prop where
  label : e.label = .applyHumanAuthorizedEvent r.event receipt
  logged : r ∉ e.before.events.rows ∧ r ∈ e.after.events.rows
  loaded : e.before.loadSnapshot r.event.campaignId = .ok s
  accepted : ∃ next effects, reduce s r.event = .ok (next, effects)
  expected : r.event.campaignId = s.spec.campaignId ∧ r.event.expectedRevision = s.revision ∧
    r.event.authorityEpoch = s.authorityEpoch ∧ r.event.cancellationEpoch = s.cancellationEpoch
  names : ReceiptNames s r.event receipt n

/-- The receipts of the events in the logs. -/
structure HumanLog (history : List (Entry Db Transaction)) (db : Db) : Prop where
  authorized : ∀ r ∈ db.events.rows, r.event.eventType ∈ humanEvents →
    ∃ e ∈ history, ∃ receipt s n, AuthorizedBy e r receipt s n
  /-- The ledger has the receipt of an event under its identifier, with the event it was used for. -/
  consumed : ∀ r ∈ db.events.rows, r.event.eventType ∈ humanEvents → ∃ id row,
    r.event.payload.read "authorization_receipt_id" = .str id ∧ db.operations.get? id = some row ∧
      row.result.bind OperationResult.authorizedEvent? = some r.eventId

/-- A new human event was applied under a receipt, which the ledger took. -/
theorem Committed.authorized (hrun : t.run db = .ok db') {r : EventRow} (hr : r ∈ db'.events.rows)
    (hnew : r ∉ db.events.rows) (hhuman : r.event.eventType ∈ humanEvents) :
    (∃ receipt s n, AuthorizedBy ⟨db, t, db'⟩ r receipt s n) ∧ ∃ id row,
      r.event.payload.read "authorization_receipt_id" = .str id ∧
        db'.operations.get? id = some row ∧
        row.result.bind OperationResult.authorizedEvent? = some r.eventId := by
  obtain ⟨campaign, next, effects, happlied, hid, hcarries⟩ :=
    (Transaction.committed hrun).logged hr |>.resolve_left hnew
  have hcarried : t.carries r.event := by
    rcases hcarries with hcarries | ht | ht
    · exact hcarries
    · simp [humanEvents, ht] at hhuman
    · simp [humanEvents, ht] at hhuman
  obtain ⟨receipt, rfl⟩ := Transaction.carries_human hcarried hhuman
  obtain ⟨transition, hok⟩ := snd_map_eq_ok.mp hrun
  obtain ⟨s, hauthorized⟩ := Db.applyHumanAuthorizedEvent_eq_ok hok
  obtain ⟨-, n, hnames⟩ := validateHumanAuthorizationReceipt_eq_ok hauthorized.validated
  have hreduce : reduce s r.event = .ok (next, effects) := by
    obtain ⟨row, hrow, rfl⟩ := Db.loadSnapshot_eq_ok hauthorized.loaded
    obtain rfl := Option.some.inj (happlied.row_eq.symm.trans hrow)
    exact happlied.reduced
  have haccepted := reduce_accepted hreduce
  refine ⟨⟨receipt, s, n, {
    label := rfl
    logged := ⟨hnew, hr⟩
    loaded := hauthorized.loaded
    accepted := ⟨next, effects, hreduce⟩
    expected := ⟨haccepted.campaign, haccepted.revision, haccepted.authority,
      haccepted.cancellation⟩
    names := hnames }⟩, receiptId receipt, _, hnames.identity, hauthorized.recorded.written, ?_⟩
  rw [hid]
  rfl

theorem humanLog_run {history : List (Entry Db Transaction)} (h : StoreRun history db) :
    HumanLog history db := by
  induction h with
  | start =>
      refine ⟨fun r hr => ?_, fun r hr => ?_⟩
      · cases hr
      · cases hr
  | @snoc history db db' t hrun hstep ih =>
      refine ⟨fun r hr hhuman => ?_, fun r hr hhuman => ?_⟩
      · by_cases hold : r ∈ db.events.rows
        · obtain ⟨e, he, hby⟩ := ih.authorized r hold hhuman
          exact ⟨e, List.mem_append_left _ he, hby⟩
        · exact ⟨_, by simp, (Committed.authorized hstep hr hold hhuman).1⟩
      · by_cases hold : r ∈ db.events.rows
        · obtain ⟨id, row, hpayload, hrow, hresult⟩ := ih.consumed r hold hhuman
          exact ⟨id, row, hpayload, (Transaction.committed hstep).kept id row hrow, hresult⟩
        · exact (Committed.authorized hstep hr hold hhuman).2

/-- **Human authorization is one-use**, in every run: each human event in a log was applied under a
verified receipt that named its state, no two of them have one receipt, and `apply_event` commits
none. -/
theorem human_authorization {history : List (Entry Db Transaction)} (h : StoreRun history db) :
    (∀ r ∈ db.events.rows, r.event.eventType ∈ humanEvents →
      ∃ e ∈ history, ∃ receipt s n, AuthorizedBy e r receipt s n) ∧
    (∀ r ∈ db.events.rows, ∀ r' ∈ db.events.rows, r.event.eventType ∈ humanEvents →
      r'.event.eventType ∈ humanEvents →
      r.event.payload.read "authorization_receipt_id"
        = r'.event.payload.read "authorization_receipt_id" → r = r') ∧
    ∀ e ∈ history, ∀ event, e.label = .applyEvent event → event.eventType ∉ humanEvents := by
  have hlog := humanLog_run h
  refine ⟨hlog.authorized, fun r hr r' hr' hhuman hhuman' hsame => ?_, fun e he event hlabel => ?_⟩
  · obtain ⟨id, row, hid, hrow, hresult⟩ := hlog.consumed r hr hhuman
    obtain ⟨id', row', hid', hrow', hresult'⟩ := hlog.consumed r' hr' hhuman'
    rw [hid, hid', Value.str.injEq] at hsame
    rw [hsame, hrow', Option.some.injEq] at hrow
    rw [hrow, hresult, Option.some.injEq] at hresult'
    exact Table.eq_of_key hr hr' hresult'
  · obtain ⟨-, hstep⟩ := Run.step_of_mem h he
    rw [commits, hlabel] at hstep
    obtain ⟨_, hok⟩ := snd_map_eq_ok.mp hstep
    obtain ⟨hrepair, hpublication, -⟩ := Db.applyEvent_eq_ok hok
    simp [humanEvents, hrepair, hpublication]

end Authorization

namespace Sample

open CodingOS.Campaign.Sample

/-- The sample campaign with a human who authorizes its publication. -/
def manualSpec : CampaignSpec where
  toCampaignSpecFields := { fields with
    publicationAuthority := [
      ("allowed_effects", .tuple [.str "PUSH"]),
      ("authorized_by", .str "owner"),
      ("human_authorization", .mapping [("algorithm", .str "ED25519"),
        ("public_key_base64", .str "WGZmZmZmZmZmZmZmZmZmZmZmZmZmZmZmZmZmZmZmZmY=")])] }
  valid := by decide
  deadline_ne_blank := by decide

/-- The receipt of the human.  The digest of the sample process makes a challenge of zero, so the
signature is the one of the scalar 1. -/
def receipt : Mapping := [
  ("receipt_id", .str "r1"),
  ("authorized_by", .str "owner"),
  ("event_kind", .str "publication_authorized"),
  ("campaign_id", .str "c"),
  ("specification_digest",
    .str "8dc417117cb169c69976f3b56f908d591975bc169686c9a4bcbf6892035f4552"),
  ("specification_revision", .int 1),
  ("store_revision", .int 10),
  ("authority_epoch", .int 1),
  ("cancellation_epoch", .int 0),
  ("node_id", .str "n"),
  ("candidate_head", .str "h"),
  ("frozen_blocker_ids", .tuple []),
  ("signature_algorithm", .str "ED25519"),
  ("signature_base64", .str
    "WGZmZmZmZmZmZmZmZmZmZmZmZmZmZmZmZmZmZmZmZmYBAAAAAAAAAAAAAAAAAAAAAAAAAAAAAAAAAAAAAAAAAA==")]

def authorizeEvent : Event :=
  event 10 "e10" .authorizePublication (some "n")
    [("authorization_receipt_id", .str "r1"),
      ("authorization_receipt_digest",
        .str "8dc417117cb169c69976f3b56f908d591975bc169686c9a4bcbf6892035f4552")]
    none none e10_nonblank unfenced

/-- The sample campaign up to the authorization of its publication. -/
def authorizedTransactions : List Transaction :=
  .createCampaign manualSpec none none ::
    (candidateEvents ++ publicationEvents.take 3).map .applyEvent ++
      [.applyHumanAuthorizedEvent authorizeEvent receipt]

def authorizedRun : List (Entry Db Transaction) × Db :=
  (foldTransactions {} authorizedTransactions).toOption.get (by decide +kernel)

theorem authorizedRun_run : StoreRun authorizedRun.1 authorizedRun.2 :=
  foldTransactions_run (get_toOption _)

end Sample

open Sample in
/-- The log of the run has one human event. -/
theorem human_authorization_sample :
    ((authorizedRun.2.events.rows.filter fun r => humanEvents.contains r.event.eventType).map
        fun r => r.eventId) = ["e10"] ∧
      (∀ r ∈ authorizedRun.2.events.rows, r.event.eventType ∈ humanEvents →
        ∃ e ∈ authorizedRun.1, ∃ receipt s n, AuthorizedBy e r receipt s n) ∧
      (∀ r ∈ authorizedRun.2.events.rows, ∀ r' ∈ authorizedRun.2.events.rows,
        r.event.eventType ∈ humanEvents → r'.event.eventType ∈ humanEvents →
        r.event.payload.read "authorization_receipt_id"
          = r'.event.payload.read "authorization_receipt_id" → r = r') ∧
      ∀ e ∈ authorizedRun.1, ∀ event, e.label = .applyEvent event → event.eventType ∉ humanEvents :=
  ⟨by decide +kernel, human_authorization authorizedRun_run⟩

end CodingOS.Store
