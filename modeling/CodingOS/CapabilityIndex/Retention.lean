import CodingOS.CapabilityIndex.RouteRegistry
import CodingOS.Python.JsonRead
import CodingOS.Systems.Run

/-!
# Capacity and retention of the route registry

A call that registers a decision replaces one row and deletes expired ones only; a call that raises
changes nothing.  The number of unexpired rows stays within the bound as long as no call issues a decision
again whose row has expired, is still kept for audit, and finds the registry full: the capacity is checked
for new rows only.
-/

namespace CodingOS.CapabilityIndex

open CodingOS.Python Systems Systems.Result

/-! ### One issuance -/

section Issuance

variable {rows before after : Registry} {now : ℤ} {n : ℕ}

theorem mem_overflow {id : String} (h : id ∈ overflow rows now n) :
    ∃ r ∈ rows.rows, r.isActive now = false ∧ r.decisionId = id := by
  obtain ⟨r, hr, rfl⟩ := List.mem_map.mp h
  have hexpired := List.mem_filter.mp (List.mem_mergeSort.mp (List.mem_of_mem_drop hr))
  exact ⟨r, hexpired.1, by simpa using hexpired.2, rfl⟩

/-- An unexpired row fits. -/
theorem not_mem_overflow {r : RouteRow} (hr : r ∈ rows.rows) (hactive : r.isActive now = true) :
    (overflow rows now n).contains r.decisionId = false := by
  rw [← Bool.not_eq_true, List.contains_iff_mem]
  intro hmem
  obtain ⟨r', hr', hexpired, hid⟩ := mem_overflow hmem
  obtain rfl := Table.eq_of_key hr' hr hid
  rw [hactive] at hexpired
  cases hexpired

/-- An unexpired row is within the audit. -/
theorem not_beforeAudit {r : RouteRow} (h : r.isActive now = true) : beforeAudit now r = false := by
  have hle := of_decide_eq_true h
  refine decide_eq_false ?_
  unfold expiredRouteAuditRetentionSeconds
  omega

/-- A call issues a decision again whose row has expired and is still kept. -/
def Revives (rows : Registry) (id : String) (now : ℤ) : Prop :=
  ∃ r, rows.get? id = some r ∧ r.isActive now = false ∧ beforeAudit now r = false

/-- What the statements of one issuance do to the table. -/
structure Issued (before : Registry) (r : RouteRow) (n : ℕ) (after : Registry) : Prop where
  row : after.get? r.decisionId = some r
  mem : ∀ s ∈ after.rows, s = r ∨ s ∈ before.rows
  others : ∀ s ∈ before.rows, s.decisionId ≠ r.decisionId → s.isActive r.issuedAt = true →
    s ∈ after.rows
  count : active after r.issuedAt + ((before.get? r.decisionId).any (RouteRow.isActive r.issuedAt)).toNat
    = active before r.issuedAt + 1
  admitted : Revives before r.decisionId r.issuedAt ∨
    (before.get? r.decisionId).any (RouteRow.isActive r.issuedAt) = true ∨ active before r.issuedAt < n

/-- **The capacity of one issuance.**  When the unexpired rows are within the bound, they stay within it
exactly when the call does not revive a row while the registry is full. -/
theorem Issued.within_iff {r : RouteRow} (h : Issued before r n after) (hn : active before r.issuedAt ≤ n) :
    active after r.issuedAt ≤ n ↔ ¬ (Revives before r.decisionId r.issuedAt ∧ active before r.issuedAt = n) := by
  have hcount := h.count
  constructor
  · rintro hle ⟨⟨old, hold, hexpired, -⟩, hfull⟩
    rw [hold, Option.any_some, hexpired, Bool.toNat_false] at hcount
    omega
  · intro hroom
    rcases h.admitted with hrevives | hagain | hfree
    · have hne : active before r.issuedAt ≠ n := fun hfull => hroom ⟨hrevives, hfull⟩
      omega
    · rw [hagain, Bool.toNat_true] at hcount
      omega
    · omega

variable [Runtime] {registry : Option Registry} {decision : Mapping} {r : RouteRow}

theorem RouteRow.of_eq_ok :
    RouteRow.of decision now = .ok r ↔ ∃ row, routeColumns decision = .ok row ∧ r = row now := by
  simp only [RouteRow.of, bind_eq_ok, pure_eq_ok]

theorem routeColumns_eq_ok {row : ℤ → RouteRow} (now : ℤ) (h : routeColumns decision = .ok row) :
    column decision "decision_id" = .ok (row now).decisionId ∧ (row now).issuedAt = now ∧
      (row now).expiresAt = now + defaultRouteTtlSeconds ∧
      ∀ now', row now' = { row now with issuedAt := now', expiresAt := now' + defaultRouteTtlSeconds } := by
  simp only [routeColumns, bind_eq_ok, pure_eq_ok] at h
  obtain ⟨id, hid, _, -, _, -, _, -, _, -, _, -, _, -, _, -, _, -, rfl⟩ := h
  exact ⟨hid, rfl, rfl, fun _ => rfl⟩

/-- The rows of one decision differ in their times only. -/
theorem RouteRow.of_times {now' : ℤ} {r' : RouteRow} (h : RouteRow.of decision now = .ok r)
    (h' : RouteRow.of decision now' = .ok r') :
    r' = { r with issuedAt := now', expiresAt := now' + defaultRouteTtlSeconds } := by
  obtain ⟨row, hrow, rfl⟩ := RouteRow.of_eq_ok.mp h
  obtain ⟨row', hrow', rfl⟩ := RouteRow.of_eq_ok.mp h'
  obtain rfl := Except.ok.inj (hrow.symm.trans hrow')
  exact (routeColumns_eq_ok now hrow).2.2.2 now'

/-- **The statements of one issuance.** -/
theorem registerRoute_eq_ok (h : registerRoute registry decision now n = .ok (r, after)) :
    RouteRow.of decision now = .ok r ∧ r.issuedAt = now ∧ Issued (registry.getD .empty) r n after := by
  simp only [registerRoute, bind_eq_ok, pure_eq_ok, ensure_eq_ok, exists_const, Prod.mk.injEq] at h
  obtain ⟨id, hid, hadmitted, r', hrow, -, rfl, rfl⟩ := h
  obtain ⟨row, hcolumns, rfl⟩ := RouteRow.of_eq_ok.mp hrow
  obtain ⟨hid', hissued, hexpires, -⟩ := routeColumns_eq_ok now hcolumns
  obtain rfl := Except.ok.inj (hid.symm.trans hid')
  refine ⟨hrow, hissued, ?_⟩
  generalize row now = r at *
  generalize registry.getD .empty = before at *
  subst hissued
  have hactive : r.isActive r.issuedAt = true := by
    refine decide_eq_true ?_
    rw [hexpires, defaultRouteTtlSeconds]
    omega
  -- the rows the audit gives up have expired
  have hkept : active (before.delete (beforeAudit r.issuedAt)) r.issuedAt = active before r.issuedAt :=
    Table.countWhere_delete fun s _ => not_beforeAudit
  have hfound : ∀ old, (before.delete (beforeAudit r.issuedAt)).get? r.decisionId = some old →
      before.get? r.decisionId = some old ∧ beforeAudit r.issuedAt old = false := by
    intro old hold
    rw [Table.get?_delete, Option.filter_eq_some_iff] at hold
    exact ⟨hold.1, by simpa using hold.2⟩
  have hagain : ((before.delete (beforeAudit r.issuedAt)).get? r.decisionId).any
      (RouteRow.isActive r.issuedAt) = (before.get? r.decisionId).any (RouteRow.isActive r.issuedAt) := by
    rw [Table.get?_delete]
    cases hold : before.get? r.decisionId with
    | none => rfl
    | some old =>
        cases hunexpired : old.isActive r.issuedAt with
        | true => simp [Option.filter, not_beforeAudit hunexpired, hunexpired]
        | false => cases hpast : beforeAudit r.issuedAt old <;> simp [Option.filter, hpast, hunexpired]
  have hfits : ∀ s ∈ ((before.delete (beforeAudit r.issuedAt)).upsert r).rows,
      s.isActive r.issuedAt = true →
      (overflow ((before.delete (beforeAudit r.issuedAt)).upsert r) r.issuedAt n).contains s.decisionId
        = false := fun s hs => not_mem_overflow hs
  have hself : r ∈ ((before.delete (beforeAudit r.issuedAt)).upsert r).rows := Table.mem_upsert.mpr (.inl rfl)
  constructor
  · exact Table.get?_eq_some.mpr ⟨Table.mem_delete.mpr ⟨hself, hfits r hself hactive⟩, rfl⟩
  · intro s hs
    rcases Table.mem_upsert.mp (Table.mem_delete.mp hs).1 with rfl | ⟨hold, -⟩
    · exact .inl rfl
    · exact .inr (Table.mem_delete.mp hold).1
  · intro s hs hne hunexpired
    have hmem : s ∈ ((before.delete (beforeAudit r.issuedAt)).upsert r).rows :=
      Table.mem_upsert.mpr (.inr ⟨Table.mem_delete.mpr ⟨hs, not_beforeAudit hunexpired⟩, hne⟩)
    exact Table.mem_delete.mpr ⟨hmem, hfits s hmem hunexpired⟩
  · have hcount := Table.countWhere_upsert (t := before.delete (beforeAudit r.issuedAt)) (r := r)
      (p := RouteRow.isActive r.issuedAt)
    rw [hagain, hactive, Bool.toNat_true] at hcount
    rw [active, Table.countWhere_delete hfits, hcount]
    exact congrArg (· + 1) hkept
  · rw [hkept, Bool.or_eq_true, decide_eq_true_eq] at hadmitted
    rcases hadmitted with hsome | hfree
    · obtain ⟨old, hold⟩ := Option.isSome_iff_exists.mp hsome
      obtain ⟨hbefore, hkeep⟩ := hfound old hold
      cases hunexpired : old.isActive r.issuedAt with
      | true => exact .inr (.inl (by rw [hbefore, Option.any_some, hunexpired]))
      | false => exact .inl ⟨old, hbefore, hunexpired, hkeep⟩
    · exact .inr (.inr hfree)

end Issuance

/-! ### Calls -/

/-- The registry and the time of the last call. -/
structure RegistryWorld where
  registry : Option Registry
  clock : ℤ

/-- The rows, of which a registry without its table has none. -/
def RegistryWorld.rows (w : RegistryWorld) : Registry := w.registry.getD .empty

/-- A call issues a decision again whose row has expired and is still kept, while the registry is full. -/
def Crowded (maxRecords : ℤ) (w : RegistryWorld) (c : IssueCall) : Prop :=
  ∃ id, column c.decision "decision_id" = .ok id ∧ Revives w.rows id c.now ∧
    active w.rows c.now = retention maxRecords

section Calls

variable [Runtime] {registry : Option Registry} {c : IssueCall} {n : ℕ} {maxRecords : ℤ}

/-- A call that returns has issued the row of its receipt. -/
structure Returned (registry : Option Registry) (c : IssueCall) (n : ℕ) (receipt : Receipt)
    (after : Registry) : Prop where
  row : RouteRow.of c.decision c.now = .ok receipt.row
  issuedAt : receipt.row.issuedAt = c.now
  issued : Issued (registry.getD .empty) receipt.row n after

theorem attempt_cases (registry : Option Registry) (c : IssueCall) (n : ℕ) :
    (∃ e, attempt registry c n = (.error e, registry)) ∨
      ∃ receipt after, attempt registry c n = (.ok receipt, some after) ∧
        Returned registry c n receipt after := by
  unfold attempt
  cases h : registerRoute registry c.decision c.now n with
  | error e => exact .inl ⟨_, rfl⟩
  | ok result =>
      obtain ⟨r, after⟩ := result
      obtain ⟨hrow, hissuedAt, hissued⟩ := registerRoute_eq_ok h
      exact .inr ⟨_, after, rfl, hrow, hissuedAt, hissued⟩

theorem attempts_cases (registry : Option Registry) (c : IssueCall) (n retries : ℕ) (faults : List Fault) :
    (∃ e, attempts registry c n retries faults = (.error e, registry)) ∨
      ∃ receipt after, attempts registry c n retries faults = (.ok receipt, some after) ∧
        Returned registry c n receipt after := by
  induction faults generalizing retries with
  | nil => cases retries <;> exact attempt_cases registry c n
  | cons fault faults ih =>
      cases fault with
      | failed message => cases retries <;> exact .inl ⟨_, rfl⟩
      | locked =>
          cases retries with
          | zero => exact .inl ⟨_, rfl⟩
          | succ retries => exact ih retries

/-- A call raises and leaves the registry, or returns. -/
theorem issueRouteDecision_cases (registry : Option Registry) (c : IssueCall) (maxRecords : ℤ) :
    (∃ e, issueRouteDecision registry c maxRecords = (.error e, registry)) ∨
      ∃ receipt after, issueRouteDecision registry c maxRecords = (.ok receipt, some after) ∧
        Returned registry c (retention maxRecords) receipt after := by
  unfold issueRouteDecision
  cases checkIssuable c.decision with
  | error e => exact .inl ⟨e, rfl⟩
  | ok _ => exact attempts_cases registry c (retention maxRecords) 5 c.faults

/-- One call after another, at times that do not decrease. -/
structure Issues (maxRecords : ℤ) (w : RegistryWorld) (c : IssueCall) (w' : RegistryWorld) : Prop where
  ordered : w.clock ≤ c.now
  clock : w'.clock = c.now
  registry : w'.registry = (issueRouteDecision w.registry c maxRecords).2

variable {w w' : RegistryWorld}

/-- What a call does to the rows: nothing, or it returns. -/
theorem Issues.rows_cases (h : Issues maxRecords w c w') :
    (∃ e, (issueRouteDecision w.registry c maxRecords).1 = .error e ∧ w'.registry = w.registry) ∨
      ∃ receipt, (issueRouteDecision w.registry c maxRecords).1 = .ok receipt ∧
        Returned w.registry c (retention maxRecords) receipt w'.rows := by
  rcases issueRouteDecision_cases w.registry c maxRecords with ⟨e, he⟩ | ⟨receipt, after, ho, hreturned⟩
  · exact .inl ⟨e, by rw [he], by rw [h.registry, he]⟩
  · refine .inr ⟨receipt, by rw [ho], ?_⟩
    rw [RegistryWorld.rows, h.registry, ho]
    exact hreturned

omit [Runtime] in
/-- Later on, no more rows are unexpired. -/
theorem active_antitone {rows : Registry} {now now' : ℤ} (h : now ≤ now') : active rows now' ≤ active rows now :=
  Table.countWhere_mono fun _ _ hr => decide_eq_true (h.trans (of_decide_eq_true hr))

/-- A call with room keeps the unexpired rows within the bound. -/
theorem Issues.within (h : Issues maxRecords w c w') (hw : active w.rows w.clock ≤ retention maxRecords)
    (hroom : ¬ Crowded maxRecords w c) : active w'.rows c.now ≤ retention maxRecords := by
  have hbefore : active w.rows c.now ≤ retention maxRecords := (active_antitone h.ordered).trans hw
  rcases h.rows_cases with ⟨e, -, hsame⟩ | ⟨receipt, -, hreturned⟩
  · rw [RegistryWorld.rows, hsame]
    exact hbefore
  · have hid := (RouteRow.of_eq_ok.mp hreturned.row).elim fun row hrow =>
      hrow.2 ▸ (routeColumns_eq_ok _ hrow.1).1
    rw [← hreturned.issuedAt] at hbefore ⊢
    refine (hreturned.issued.within_iff hbefore).mpr fun hfull => hroom ⟨_, hid, ?_⟩
    rw [← hreturned.issuedAt]
    exact hfull

/-- A call keeps the unexpired rows of other decisions. -/
theorem Issues.others (h : Issues maxRecords w c w') {s : RouteRow} (hs : s ∈ w.rows.rows)
    (hunexpired : s.isActive c.now = true) (hother : column c.decision "decision_id" ≠ .ok s.decisionId) :
    s ∈ w'.rows.rows := by
  rcases h.rows_cases with ⟨e, -, hsame⟩ | ⟨receipt, -, hreturned⟩
  · rw [RegistryWorld.rows, hsame]
    exact hs
  · obtain ⟨row, hcolumns, hrow⟩ := RouteRow.of_eq_ok.mp hreturned.row
    refine hreturned.issued.others s hs ?_ (hreturned.issuedAt ▸ hunexpired)
    rintro heq
    rw [heq, hrow] at hother
    exact hother (routeColumns_eq_ok _ hcolumns).1

/-- A call that issues a decision again moves its two times. -/
theorem Issues.again (h : Issues maxRecords w c w') {receipt : Receipt} {r : RouteRow}
    (hreturns : (issueRouteDecision w.registry c maxRecords).1 = .ok receipt)
    (hr : RouteRow.of c.decision r.issuedAt = .ok r) :
    w'.rows.get? r.decisionId =
      some { r with issuedAt := c.now, expiresAt := c.now + defaultRouteTtlSeconds } := by
  rcases h.rows_cases with ⟨e, he, -⟩ | ⟨receipt', -, hreturned⟩
  · rw [he] at hreturns
    cases hreturns
  · have hmoved := RouteRow.of_times hr hreturned.row
    have hrow := hreturned.issued.row
    rw [hmoved] at hrow
    exact hrow

/-! ### Runs -/

theorem within_run {clock : ℤ} {history : List (Entry RegistryWorld IssueCall)}
    (hrun : Run (Issues maxRecords) ⟨none, clock⟩ history w)
    (hroom : ∀ e ∈ history, ¬ Crowded maxRecords e.before e.label) :
    active w.rows w.clock ≤ retention maxRecords := by
  refine (hrun.restrict (P := fun v c => ¬ Crowded maxRecords v c) hroom).invariant
    (fun v => active v.rows v.clock ≤ retention maxRecords)
    (Nat.zero_le _) fun {v v' c} hv hstep => ?_
  rw [hstep.1.clock]
  exact hstep.1.within hv hstep.2

end Calls

/-! ### The bound is missed -/

section Room

variable {rows after : Registry} {now : ℤ} {n : ℕ}

theorem overflow_eq_nil (h : rows.countWhere (fun r => !r.isActive now) ≤ n) : overflow rows now n = [] := by
  rw [overflow, List.drop_eq_nil_of_le, List.map_nil]
  rw [List.length_mergeSort, ← List.countP_eq_length_filter]
  exact h

variable [Runtime] {decision : Mapping} {r : RouteRow}

/-- An expired row within the audit that fits stays. -/
theorem registerRoute_keeps {registry : Option Registry}
    (h : registerRoute registry decision now n = .ok (r, after))
    (hfits : (registry.getD .empty).countWhere (fun s => !s.isActive now) ≤ n)
    {s : RouteRow} (hs : s ∈ (registry.getD .empty).rows) (hkept : beforeAudit now s = false)
    (hne : s.decisionId ≠ r.decisionId) : s ∈ after.rows := by
  simp only [registerRoute, bind_eq_ok, pure_eq_ok, ensure_eq_ok, exists_const, Prod.mk.injEq] at h
  obtain ⟨_, -, -, r, hrow, -, rfl, rfl⟩ := h
  generalize registry.getD .empty = before at *
  have hcount := Table.countWhere_upsert (t := before.delete (beforeAudit now)) (r := r)
    (p := fun s => !s.isActive now)
  have hactive : r.isActive now = true := by
    obtain ⟨row, hcolumns, rfl⟩ := RouteRow.of_eq_ok.mp hrow
    refine decide_eq_true ?_
    rw [(routeColumns_eq_ok now hcolumns).2.2.1, defaultRouteTtlSeconds]
    omega
  have hle : (before.delete (beforeAudit now)).countWhere (fun s => !s.isActive now) ≤ n :=
    Table.countWhere_delete_le.trans hfits
  rw [hactive, Bool.not_true, Bool.toNat_false] at hcount
  rw [Table.mem_delete, overflow_eq_nil (by omega)]
  exact ⟨Table.mem_upsert.mpr (.inr ⟨Table.mem_delete.mpr ⟨hs, hkept⟩, hne⟩), rfl⟩

/-- A call that finds room returns. -/
theorem issueRouteDecision_of (registry : Option Registry) (maxRecords : ℤ)
    (hissuable : checkIssuable decision = .ok ())
    (hrow : RouteRow.of decision now = .ok r) (hchecks : r.checks = true)
    (hroom : (((registry.getD .empty).delete (beforeAudit now)).get? r.decisionId).isSome = true ∨
      active (registry.getD .empty) now < retention maxRecords) :
    ∃ receipt after, issueRouteDecision registry ⟨decision, now, []⟩ maxRecords = (.ok receipt, some after) ∧
      registerRoute registry decision now (retention maxRecords) = .ok (r, after) := by
  obtain ⟨row, hcolumns, rfl⟩ := RouteRow.of_eq_ok.mp hrow
  obtain ⟨hid, -⟩ := routeColumns_eq_ok now hcolumns
  have hregister : ∃ after, registerRoute registry decision now (retention maxRecords) = .ok (row now, after) := by
    simp only [registerRoute, bind_eq_ok, pure_eq_ok, ensure_eq_ok, exists_const, Prod.mk.injEq]
    refine ⟨_, _, hid, ?_, row now, hrow, hchecks, rfl, rfl⟩
    rw [Bool.or_eq_true, decide_eq_true_eq, active,
      Table.countWhere_delete fun s _ => not_beforeAudit]
    exact hroom
  obtain ⟨after, hafter⟩ := hregister
  refine ⟨⟨row now, decision.read "execution_disposition", decision.read "execution_request_id"⟩, after, ?_,
    hafter⟩
  rw [issueRouteDecision, hissuable]
  show attempt registry _ _ = _
  rw [attempt, hafter]

end Room

namespace RegistrySample

/-- A digest of one repeated character. -/
def digestOf (c : Char) : String := String.ofList (List.replicate 64 c)

/-- A process whose digest tells the first value of a canonical text. -/
scoped instance runtime : Runtime where
  casefoldUnicode s := s
  lowerUnicode s := s
  isPrintable c := 32 ≤ c.toNat && c.toNat < 127
  decimalDigit c := if c.isDigit then some (c.toNat - 48) else none
  floatRepr _ := "0.0"
  sha256 s := digestOf (if s.toList[20]? = some 'a' then 'a' else 'b')
  sha512 bytes := bytes
  resolvedPath s := s
  absolutePath s := s

/-- A decision of the parent alone. -/
def decision (limit digest : String) : Mapping := [
  ("authority_limit", .str limit),
  ("capability_fallbacks", .tuple []),
  ("deadline_seconds", .int 60),
  ("decision_digest", .str digest),
  ("decision_id", .str digest),
  ("decision_snapshot", .str ""),
  ("evidence_ids", .tuple []),
  ("execution_disposition", .mapping [
    ("eligible_worker_families", .tuple []), ("mode", .str "codex_only")]),
  ("execution_owner", .str "codex_parent"),
  ("execution_request_id", .null),
  ("fallback", .mapping [("automatic_retry", .bool false), ("on_error", .str "return_to_codex"),
    ("on_timeout", .str "return_to_codex"), ("on_unavailable", .str "return_to_codex")]),
  ("issuance", .mapping [("failure_code", .null), ("registry_schema_version", .int 3),
    ("status", .str "registered"), ("worker_execution_requested", .bool false)]),
  ("local_execution", .mapping [
    ("admitted", .bool false), ("complexity", .str "low"), ("exact_evidence", .bool false),
    ("local_stack_purpose", .null), ("local_stack_role", .str "support"),
    ("memory", .mapping [("capture_when", .str "durable_task_outcome"), ("mode", .str "none"), ("scope", .null)]),
    ("mutation_authorized", .bool false), ("persistence_intent", .str "none"),
    ("project_id", .str "generic"), ("recipe_id", .null), ("requested_source_scopes", .tuple []),
    ("skill_refs", .mapping [("primary", .null), ("supports", .tuple [])]), ("source_need", .str "none"),
    ("task_input_requirements", .tuple []), ("task_type", .str "answer"), ("worker_roles", .tuple [])]),
  ("manifest_authority_sha256", .str (digestOf 'c')),
  ("manifest_snapshot", .str ""),
  ("model", .str "gpt-5.6-sol"),
  ("policy_authority_sha256", .str (digestOf 'c')),
  ("primary", .null),
  ("reason_codes", .tuple [.str "CODEX_PARENT"]),
  ("reasoning_effort", .str "low"),
  ("requires", .tuple []),
  ("rule_id", .str "default"),
  ("scenario", .str "default"),
  ("schema_version", .str "3.0"),
  ("skills", .mapping [("primary", .null), ("supports", .tuple [])]),
  ("support_workers", .tuple []),
  ("supports", .tuple []),
  ("task_fingerprint", .str (digestOf 'c')),
  ("task_input_mode", .str "complete"),
  ("task_input_sha256", .str (digestOf 'c')),
  ("task_text_sha256", .str (digestOf 'c'))]

theorem digestOf_ne {c d : Char} (h : c ≠ d) : digestOf c ≠ digestOf d := fun heq =>
  h ((List.replicate_right_inj (by decide)).mp (String.ofList_injective heq))

theorem digestOf_isSha256 {c : Char} (h : isLowerHex (String.ofList [c]) = true) :
    isSha256 (digestOf c) = true := by
  rw [isSha256, isLowerHex, digestOf, String.length_ofList, String.toList_ofList, List.length_replicate]
  rw [isLowerHex, String.toList_ofList, List.all_cons, Bool.and_eq_true] at h
  exact Bool.and_eq_true_iff.mpr ⟨rfl, List.all_eq_true.mpr fun d hd => (List.eq_of_mem_replicate hd).symm ▸ h.1⟩

theorem sha256_isSha256 (s : String) : isSha256 (Runtime.sha256 s) = true := by
  refine digestOf_isSha256 ?_
  split_ifs <;> decide

/-- The digest of a mapping is decided by the text of its first entry. -/
theorem canonicalJsonDigest_mapping {m rest : Mapping} (limit : String) (c : Char)
    (hc : limit.toList.flatMap jsonChar = [c])
    (h : sortByKey m = ("authority_limit", .str limit) :: rest) :
    canonicalJsonDigest (.mapping m) = digestOf (if c = 'a' then 'a' else 'b') := by
  have hchar : (canonicalJson (.mapping m)).toList[20]? = some c := by
    show (jsonChars (.mapping m))[20]? = some c
    rw [jsonChars_mapping, h, List.map_cons, entryChars, jsonChars, canonicalJson, jsonText_toList, hc]
    have hkey : "authority_limit".toList.flatMap jsonChar
        = ['a', 'u', 't', 'h', 'o', 'r', 'i', 't', 'y', '_', 'l', 'i', 'm', 'i', 't'] := by decide
    rw [hkey]
    cases rest.map entryChars <;> rfl
  rw [canonicalJsonDigest]
  show digestOf (if (canonicalJson (.mapping m)).toList[20]? = some 'a' then 'a' else 'b') = _
  rw [hchar]
  simp only [Option.some.injEq]

/-- Two decisions with different limits. -/
def first : Mapping := decision "a" (digestOf 'a')

def second : Mapping := decision "b" (digestOf 'b')

theorem decisionDigest_first : decisionDigest first = digestOf 'a' :=
  canonicalJsonDigest_mapping "a" 'a' rfl rfl

theorem decisionDigest_second : decisionDigest second = digestOf 'b' :=
  canonicalJsonDigest_mapping "b" 'b' rfl rfl

theorem accepts_first : DecisionSchema.schema.accepts (.mapping first) = true := by
  decide +kernel

theorem accepts_second : DecisionSchema.schema.accepts (.mapping second) = true := by
  decide +kernel

theorem checkIssuable_first : checkIssuable first = .ok () := by
  refine checkIssuable_eq_ok.mpr ⟨validateRouteDecision_eq_ok.mpr ⟨accepts_first, ?_, ?_⟩, _, rfl, rfl⟩
  · rw [decisionDigest_first]
    rfl
  · rw [decisionDigest_first]
    rfl

theorem checkIssuable_second : checkIssuable second = .ok () := by
  refine checkIssuable_eq_ok.mpr ⟨validateRouteDecision_eq_ok.mpr ⟨accepts_second, ?_, ?_⟩, _, rfl, rfl⟩
  · rw [decisionDigest_second]
    rfl
  · rw [decisionDigest_second]
    rfl

/-- The row of one of the two decisions. -/
def row (d : Mapping) (digest : String) (now : ℤ) : RouteRow where
  decisionId := digest
  decisionDigest := digest
  taskTextSha256 := digestOf 'c'
  taskInputSha256 := digestOf 'c'
  routeJson := canonicalRouteJson d
  routeJsonSha256 := Runtime.sha256 (canonicalRouteJson d)
  schemaVersion := "3.0"
  manifestSnapshot := ""
  decisionSnapshot := ""
  manifestAuthoritySha256 := digestOf 'c'
  policyAuthoritySha256 := digestOf 'c'
  issuedAt := now
  expiresAt := now + defaultRouteTtlSeconds

theorem row_first (now : ℤ) : RouteRow.of first now = .ok (row first (digestOf 'a') now) := rfl

theorem row_second (now : ℤ) : RouteRow.of second now = .ok (row second (digestOf 'b') now) := rfl

theorem row_checks (d : Mapping) {c : Char} (h : isLowerHex (String.ofList [c]) = true) (now : ℤ) :
    (row d (digestOf c) now).checks = true := by
  have hc : isSha256 (digestOf 'c') = true := digestOf_isSha256 (by decide)
  have htimes : now < now + defaultRouteTtlSeconds := by
    unfold defaultRouteTtlSeconds
    omega
  simp only [RouteRow.checks, row, List.all_cons, List.all_nil, digestOf_isSha256 h, hc, sha256_isSha256,
    Bool.and_true, Bool.true_and]
  exact decide_eq_true htimes

/-- The first call of a registry. -/
theorem registers_first : ∃ rows, (∃ receipt, issueRouteDecision none ⟨first, 0, []⟩ 1 = (.ok receipt, some rows)) ∧
    row first (digestOf 'a') 0 ∈ rows.rows ∧ ∀ s ∈ rows.rows, s = row first (digestOf 'a') 0 := by
  obtain ⟨receipt, rows, hcall, hregister⟩ := issueRouteDecision_of none 1
    checkIssuable_first (row_first 0) (row_checks first (by decide) 0) (.inr Nat.one_pos)
  obtain ⟨-, -, hissued⟩ := registerRoute_eq_ok hregister
  refine ⟨rows, ⟨receipt, hcall⟩, Table.mem_of_get? hissued.row, fun s hs => ?_⟩
  exact (hissued.mem s hs).resolve_right List.not_mem_nil

theorem replaces_first {before : Registry} (hfirst : row first (digestOf 'a') 0 ∈ before.rows)
    (honly : ∀ s ∈ before.rows, s = row first (digestOf 'a') 0) :
    ∃ rows, (∃ receipt, issueRouteDecision (some before) ⟨second, 86401, []⟩ 1 = (.ok receipt, some rows)) ∧
      row first (digestOf 'a') 0 ∈ rows.rows ∧ row second (digestOf 'b') 86401 ∈ rows.rows := by
  have hactive : active before 86401 = 0 :=
    List.countP_eq_zero.mpr fun s hs => by rw [honly s hs]; decide
  have hfits : before.countWhere (fun s => !s.isActive 86401) ≤ 1 := by
    have hrows := List.eq_replicate_of_mem honly
    have hkeys := before.keys_nodup
    rw [hrows, List.map_replicate, List.nodup_replicate] at hkeys
    exact List.countP_le_length.trans hkeys
  obtain ⟨receipt, rows, hcall, hregister⟩ := issueRouteDecision_of (some before) 1
    checkIssuable_second (row_second 86401) (row_checks second (by decide) 86401)
    (.inr (by rw [Option.getD_some, hactive]; decide))
  obtain ⟨-, -, hissued⟩ := registerRoute_eq_ok hregister
  refine ⟨rows, ⟨receipt, hcall⟩, ?_, Table.mem_of_get? hissued.row⟩
  exact registerRoute_keeps hregister hfits hfirst (by decide) (digestOf_ne (by decide))

theorem revives_first {before : Registry} (hfirst : row first (digestOf 'a') 0 ∈ before.rows)
    (hsecond : row second (digestOf 'b') 86401 ∈ before.rows) :
    ∃ rows, (∃ receipt, issueRouteDecision (some before) ⟨first, 86402, []⟩ 1 = (.ok receipt, some rows)) ∧
      1 < active rows 86402 := by
  have hget : before.get? (digestOf 'a') = some (row first (digestOf 'a') 0) :=
    Table.get?_eq_some.mpr ⟨hfirst, rfl⟩
  have hkept : ((before.delete (beforeAudit 86402)).get? (digestOf 'a')).isSome = true := by
    rw [Table.get?_delete, hget]
    rfl
  obtain ⟨receipt, rows, hcall, hregister⟩ := issueRouteDecision_of (some before) 1
    checkIssuable_first (row_first 86402) (row_checks first (by decide) 86402) (.inl hkept)
  obtain ⟨-, -, hissued⟩ := registerRoute_eq_ok hregister
  refine ⟨rows, ⟨receipt, hcall⟩, ?_⟩
  have hcount := hissued.count
  have hlive : 0 < active before 86402 := List.countP_pos_iff.mpr ⟨_, hsecond, rfl⟩
  have hexpired : ((some before).getD .empty).get? (row first (digestOf 'a') 86402).decisionId
      = some (row first (digestOf 'a') 0) := hget
  rw [hexpired] at hcount
  change active rows 86402 + 0 = active before 86402 + 1 at hcount
  omega

end RegistrySample

section Overfull

open RegistrySample

end Overfull

end CodingOS.CapabilityIndex
