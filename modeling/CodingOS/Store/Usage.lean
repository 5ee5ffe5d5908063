import CodingOS.Store.ActorAction
import CodingOS.Store.SnapshotPersistence
import CodingOS.Systems.TableInserts
import Mathlib.Data.List.MinMax
import Mathlib.Data.Prod.Lex

/-!
# Native usage

`usage_summary` of `store.py` over the rows `record_native_usage` writes.  The notifications are
cumulative and may come late, twice, or in any order.  A row is inserted under the digest of its actor
and its report, so the rows that a set of notifications leaves do not depend on how they came, and the
summary takes for each actor the greatest report, which is one of them.
-/

namespace CodingOS.Store

open CodingOS.Python CodingOS.Campaign Systems

/-! ### Counts -/

/-- The counts of a report. -/
structure TokenCounts where
  inputTokens : ℤ
  cachedInputTokens : ℤ
  cacheWriteInputTokens : ℤ
  outputTokens : ℤ
  reasoningOutputTokens : ℤ
  totalTokens : ℤ
deriving DecidableEq

attribute [ext] TokenCounts

namespace TokenCounts

/-- The counts under the names of `NATIVE_USAGE_FIELDS`. -/
def toDict (c : TokenCounts) : Mapping :=
  [("input_tokens", .int c.inputTokens), ("cached_input_tokens", .int c.cachedInputTokens),
    ("cache_write_input_tokens", .int c.cacheWriteInputTokens), ("output_tokens", .int c.outputTokens),
    ("reasoning_output_tokens", .int c.reasoningOutputTokens), ("total_tokens", .int c.totalTokens)]

/-- `counts[name]`. -/
def countAt (counts : Mapping) (name : String) : Result ℤ :=
  match counts.get? name with
  | some (.int n) => .ok n
  | _ => fail .python ("'" ++ name ++ "'")

def ofMapping (counts : Mapping) : Result TokenCounts := do
  let inputTokens ← countAt counts "input_tokens"
  let cachedInputTokens ← countAt counts "cached_input_tokens"
  let cacheWriteInputTokens ← countAt counts "cache_write_input_tokens"
  let outputTokens ← countAt counts "output_tokens"
  let reasoningOutputTokens ← countAt counts "reasoning_output_tokens"
  let totalTokens ← countAt counts "total_tokens"
  return { inputTokens, cachedInputTokens, cacheWriteInputTokens, outputTokens, reasoningOutputTokens,
           totalTokens }

instance : Zero TokenCounts := ⟨⟨0, 0, 0, 0, 0, 0⟩⟩

instance : Add TokenCounts := ⟨fun a b =>
  { inputTokens := a.inputTokens + b.inputTokens
    cachedInputTokens := a.cachedInputTokens + b.cachedInputTokens
    cacheWriteInputTokens := a.cacheWriteInputTokens + b.cacheWriteInputTokens
    outputTokens := a.outputTokens + b.outputTokens
    reasoningOutputTokens := a.reasoningOutputTokens + b.reasoningOutputTokens
    totalTokens := a.totalTokens + b.totalTokens }⟩

instance : AddCommMonoid TokenCounts where
  add_assoc _ _ _ := TokenCounts.ext (add_assoc _ _ _) (add_assoc _ _ _) (add_assoc _ _ _) (add_assoc _ _ _)
    (add_assoc _ _ _) (add_assoc _ _ _)
  zero_add _ := TokenCounts.ext (zero_add _) (zero_add _) (zero_add _) (zero_add _) (zero_add _) (zero_add _)
  add_zero _ := TokenCounts.ext (add_zero _) (add_zero _) (add_zero _) (add_zero _) (add_zero _) (add_zero _)
  add_comm _ _ := TokenCounts.ext (add_comm _ _) (add_comm _ _) (add_comm _ _) (add_comm _ _) (add_comm _ _)
    (add_comm _ _)
  nsmul := nsmulRec

/-- `any(item[name] > counts[name] for name in totals)`. -/
def exceeds (item counts : TokenCounts) : Bool :=
  item.inputTokens > counts.inputTokens || item.cachedInputTokens > counts.cachedInputTokens
    || item.cacheWriteInputTokens > counts.cacheWriteInputTokens || item.outputTokens > counts.outputTokens
    || item.reasoningOutputTokens > counts.reasoningOutputTokens || item.totalTokens > counts.totalTokens

theorem ofMapping_toDict (c : TokenCounts) : ofMapping c.toDict = .ok c := rfl

/-- The counts are what the frozen dictionary holds under their names. -/
theorem eq_of_freeze {c c' : TokenCounts} (h : Mapping.freeze c.toDict = Mapping.freeze c'.toDict) : c = c' := by
  have hcount : ∀ name, (c.toDict.get? name).map freeze = (c'.toDict.get? name).map freeze := fun name => by
    rw [← Mapping.get?_freeze, h, Mapping.get?_freeze]
  obtain ⟨i, ci, w, o, r, t⟩ := c
  obtain ⟨i', ci', w', o', r', t'⟩ := c'
  have hinput : i = i' := Value.int.inj (Option.some.inj (hcount "input_tokens"))
  have hcached : ci = ci' := Value.int.inj (Option.some.inj (hcount "cached_input_tokens"))
  have hwrite : w = w' := Value.int.inj (Option.some.inj (hcount "cache_write_input_tokens"))
  have houtput : o = o' := Value.int.inj (Option.some.inj (hcount "output_tokens"))
  have hreasoning : r = r' := Value.int.inj (Option.some.inj (hcount "reasoning_output_tokens"))
  have htotal : t = t' := Value.int.inj (Option.some.inj (hcount "total_tokens"))
  rw [hinput, hcached, hwrite, houtput, hreasoning, htotal]

end TokenCounts

/-- What `_native_usage_breakdown` accepts has all six counts. -/
theorem exists_nativeUsageBreakdown {v : Value} {m : Mapping} (h : nativeUsageBreakdown v = some m) :
    ∃ c : TokenCounts, m = c.toDict := by
  simp only [nativeUsageBreakdown, nativeUsageFields, List.mapM_cons, List.mapM_nil, Option.bind_eq_bind,
    Option.bind_eq_some_iff, Option.pure_def, Option.some.injEq] at h
  obtain ⟨usage, -, counts, ⟨⟨_, i⟩, ⟨_, -, hi⟩, _, ⟨⟨_, ci⟩, ⟨_, -, hci⟩, _, ⟨⟨_, w⟩, ⟨_, -, hw⟩, _, ⟨⟨_, o⟩, ⟨_, -, ho⟩,
    _, ⟨⟨_, r⟩, ⟨_, -, hr⟩, _, ⟨⟨_, t⟩, ⟨_, -, ht⟩, _, rfl, rfl⟩, rfl⟩, rfl⟩, rfl⟩, rfl⟩, rfl⟩, h⟩ := h
  cases hi
  cases hci
  cases hw
  cases ho
  cases hr
  cases ht
  split at h
  · cases h
  · exact ⟨⟨_, _, _, _, _, _⟩, (Option.some.inj h).symm⟩

/-! ### The report of a notification -/

/-- A thread or turn identifier of a notification. -/
def nativeIdentifier (notification : Mapping) (key : String) : Result String :=
  orRaise ((notification.read key).asText?.filter fun text => text != "" && text.length ≤ 256)
    .authority "native usage requires exact thread and turn identifiers"

/-- `report`. -/
def nativeReport (threadId turnId : String) (notification : Mapping) : Mapping :=
  let usage := ((notification.read "tokenUsage").asMapping?).getD []
  let cumulative := nativeUsageBreakdown (usage.read "total")
  let last := nativeUsageBreakdown (usage.read "last")
  [("native_thread_id", .str threadId),
    ("native_turn_id", .str turnId),
    ("cumulative", (cumulative.map Value.mapping).getD .null),
    ("last", (last.map Value.mapping).getD .null),
    ("status", .str (if cumulative.isSome && last.isSome then "observed" else "unavailable"))]

/-- A report of two breakdowns. -/
def reportDict (threadId turnId : String) (cumulative last : Option TokenCounts) : Mapping :=
  [("native_thread_id", .str threadId), ("native_turn_id", .str turnId),
    ("cumulative", (cumulative.map fun c => Value.mapping c.toDict).getD .null),
    ("last", (last.map fun c => Value.mapping c.toDict).getD .null),
    ("status", .str (if cumulative.isSome && last.isSome then "observed" else "unavailable"))]

/-- The two breakdowns of a report, and what is read of them. -/
theorem exists_nativeReport (threadId turnId : String) (notification : Mapping) :
    ∃ cumulative last : Option TokenCounts, nativeReport threadId turnId notification =
      reportDict threadId turnId cumulative last := by
  have hbreakdown : ∀ v : Value, ∃ c : Option TokenCounts, nativeUsageBreakdown v = c.map TokenCounts.toDict := by
    intro v
    cases hv : nativeUsageBreakdown v with
    | none => exact ⟨none, rfl⟩
    | some m =>
        obtain ⟨c, rfl⟩ := exists_nativeUsageBreakdown hv
        exact ⟨some c, rfl⟩
  rw [nativeReport]
  obtain ⟨c, hc⟩ := hbreakdown
    ((((notification.read "tokenUsage").asMapping?).getD []).read "total")
  obtain ⟨l, hl⟩ := hbreakdown
    ((((notification.read "tokenUsage").asMapping?).getD []).read "last")
  refine ⟨c, l, ?_⟩
  simp only [reportDict, hc, hl, Option.map_map, Option.isSome_map, Function.comp_def]

/-- Reports of one frozen form say the same. -/
theorem reported_of_freeze {threadId threadId' turnId turnId' : String}
    {cumulative cumulative' last last' : Option TokenCounts}
    (h : Mapping.freeze (reportDict threadId turnId cumulative last)
      = Mapping.freeze (reportDict threadId' turnId' cumulative' last')) :
    cumulative = cumulative' ∧ last = last' := by
  have hcounts : ∀ {c c' : Option TokenCounts}, freeze ((c.map fun c => Value.mapping c.toDict).getD .null)
      = freeze ((c'.map fun c => Value.mapping c.toDict).getD .null) → c = c' := by
    rintro (_ | c) (_ | c') heq
    · rfl
    · cases heq
    · cases heq
    · rw [TokenCounts.eq_of_freeze (Value.mapping.inj heq)]
  have hread := fun key => (Mapping.get?_freeze _ key).symm.trans
    ((congrArg (fun m => Mapping.get? m key) h).trans (Mapping.get?_freeze _ key))
  exact ⟨hcounts (Option.some.inj (hread "cumulative")), hcounts (Option.some.inj (hread "last"))⟩

/-- The greatest of a list by a key that tells its members apart does not depend on their order. -/
theorem argmax_perm {α β : Type*} [LinearOrder β] {f : α → β} (hf : f.Injective) {l l' : List α} (h : l.Perm l') :
    l.argmax f = l'.argmax f := by
  cases hl : l.argmax f with
  | none =>
      obtain rfl := List.argmax_eq_none.mp hl
      rw [List.nil_perm.mp h, List.argmax_nil]
  | some m =>
      cases hl' : l'.argmax f with
      | none =>
          obtain rfl := List.argmax_eq_none.mp hl'
          rw [List.perm_nil.mp h] at hl
          cases hl
      | some m' =>
          have hle := List.le_of_mem_argmax (h.mem_iff.mp (List.argmax_mem hl)) hl'
          have hge := List.le_of_mem_argmax (h.mem_iff.mpr (List.argmax_mem hl')) hl
          rw [hf (le_antisymm hle hge)]

/-! ### What is read of a report -/

/-- What `usage_summary` reads of a stored report: its actor, and its counts when it was observed. -/
structure UsageReport where
  actorId : String
  observed : Option TokenCounts

/-- The reports of a campaign among rows that tell their campaign and their report. -/
def reportsOf (campaignId : String) (told : List (String × Option UsageReport)) : List UsageReport :=
  told.filterMap fun t => if t.1 == campaignId then t.2 else none

theorem reportsOf_cons (campaignId : String) (t : String × Option UsageReport)
    (told : List (String × Option UsageReport)) : reportsOf campaignId (t :: told)
      = (if t.1 == campaignId then t.2.toList else []) ++ reportsOf campaignId told := by
  obtain ⟨c, r⟩ := t
  rw [reportsOf, List.filterMap_cons]
  by_cases h : c == campaignId
  · cases r <;> simp [h, reportsOf]
  · simp [h, reportsOf]

theorem mem_valid {reports : List UsageReport} {actorId : String} {c : TokenCounts} :
    c ∈ (reports.filter (·.actorId == actorId)).filterMap (·.observed) ↔ ⟨actorId, some c⟩ ∈ reports := by
  rw [List.mem_filterMap]
  constructor
  · rintro ⟨⟨id, observed⟩, hmem, rfl⟩
    obtain ⟨hreport, hid⟩ := List.mem_filter.mp hmem
    obtain rfl := beq_iff_eq.mp hid
    exact hreport
  · exact fun hreport => ⟨_, List.mem_filter.mpr ⟨hreport, beq_self_eq_true _⟩, rfl⟩

section Recording

variable [Runtime]

/-! ### The row of a notification -/

/-- A call of `record_native_usage`, and the time its clock gave. -/
structure UsageCall where
  actorId : String
  notification : Mapping
  recordedAt : String

/-- What a call says, its time apart. -/
def UsageCall.said (call : UsageCall) : String × Mapping := (call.actorId, call.notification)

/-- `telemetry_id`. -/
def nativeTelemetryId (actorId : String) (report : Mapping) : String :=
  "native-usage:" ++ canonicalJsonDigest (.mapping [("actor_id", .str actorId), ("report", .mapping report)])

/-- The actor a notification of a thread is accepted for. -/
def Db.nativeActor (db : Db) (actorId threadId : String) : Result ActorRow :=
  orRaise
    ((db.actors.get? actorId).filter fun actor =>
      actor.used && actor.identityDigest.any (· != "") && actor.boundRequestId.any (· != "")
        && actor.nativeThreadId != "UNBOUND" && actor.nativeThreadId == threadId)
    .authority "native usage does not match a durably bound actor"

/-- The row of a report. -/
def UsageCall.row (call : UsageCall) (actor : ActorRow) (snapshot : CampaignSnapshot) (report : Mapping) :
    TelemetryRow where
  telemetryId := nativeTelemetryId call.actorId report
  campaignId := actor.campaignId
  category := nativeUsageCategory
  payload := .mapping ([
    ("protocol_version", .str "ccos-native-provider-usage-v1"),
    ("source", .str "thread/tokenUsage/updated"),
    ("actor_id", .str call.actorId),
    ("role", .str actor.role.value),
    ("node_id", optionalText actor.nodeId),
    ("recorded_at_utc", .str call.recordedAt),
    ("recorded_campaign_state", .str snapshot.state.value)] ++ report)

/-- The row a call inserts unless its identifier is taken. -/
def Db.usageRow (db : Db) (call : UsageCall) : Result TelemetryRow := do
  let threadId ← nativeIdentifier call.notification "threadId"
  let turnId ← nativeIdentifier call.notification "turnId"
  let actor ← db.nativeActor call.actorId threadId
  let snapshot ← db.loadSnapshot actor.campaignId
  return call.row actor snapshot (nativeReport threadId turnId call.notification)

/-- The insert of a report, or the prior one. -/
def Db.insertUsage (db : Db) (call : UsageCall) (actor : ActorRow) (report : Mapping) : Result (Value × Db) :=
  match db.telemetry.get? (nativeTelemetryId call.actorId report) with
  | some prior => return (prior.payload, db)
  | none => do
      let snapshot ← db.loadSnapshot actor.campaignId
      let telemetry ← uniqueViolation (db.telemetry.insert? (call.row actor snapshot report))
        "telemetry.telemetry_id"
      return ((call.row actor snapshot report).payload, { db with telemetry })

theorem recordNativeUsage_eq (db : Db) (call : UsageCall) :
    db.recordNativeUsage call.actorId call.notification call.recordedAt = (do
      let threadId ← nativeIdentifier call.notification "threadId"
      let turnId ← nativeIdentifier call.notification "turnId"
      let actor ← db.nativeActor call.actorId threadId
      db.insertUsage call actor (nativeReport threadId turnId call.notification)) := rfl

/-- The database after a call, which is the one before when it raises. -/
def Db.recordUsage (db : Db) (call : UsageCall) : Db :=
  match db.recordNativeUsage call.actorId call.notification call.recordedAt with
  | .ok (_, db') => db'
  | .error _ => db

/-- The database after several calls. -/
def Db.recordUsages (db : Db) (calls : List UsageCall) : Db := calls.foldl Db.recordUsage db

/-- **A call inserts its row, unless its identifier is taken.** -/
theorem recordUsage_eq (db : Db) (call : UsageCall) : db.recordUsage call =
    match db.usageRow call with
    | .ok row => { db with telemetry := db.telemetry.insertOrIgnore row }
    | .error _ => db := by
  rw [Db.recordUsage, recordNativeUsage_eq, Db.usageRow]
  cases nativeIdentifier call.notification "threadId" with
  | error e => rfl
  | ok threadId =>
  cases nativeIdentifier call.notification "turnId" with
  | error e => rfl
  | ok turnId =>
  simp only [bind, Except.bind]
  cases db.nativeActor call.actorId threadId with
  | error e => rfl
  | ok actor =>
  simp only [Db.insertUsage]
  cases htaken : db.telemetry.get? (nativeTelemetryId call.actorId
      (nativeReport threadId turnId call.notification)) with
  | some prior =>
      cases db.loadSnapshot actor.campaignId with
      | error e => rfl
      | ok snapshot =>
          have hkept : db.telemetry.insertOrIgnore (call.row actor snapshot
              (nativeReport threadId turnId call.notification)) = db.telemetry :=
            Table.insertOrIgnore_of_get? htaken
          simp only [pure, Except.pure, hkept]
  | none =>
      cases hsnapshot : db.loadSnapshot actor.campaignId with
      | error e => simp only [bind, Except.bind]
      | ok snapshot =>
          obtain ⟨u, hu⟩ := Table.exists_insert? (r := call.row actor snapshot
            (nativeReport threadId turnId call.notification)) htaken
          simp only [bind, Except.bind, hu, uniqueViolation, orRaise, pure, Except.pure, Table.insertOrIgnore,
            Option.getD_some]

/-! ### What a report says -/

/-- The fields of a stored report that `usage_summary` reads.  Only `record_native_usage` writes rows of
this category, and its rows have them. -/
def readReport (payload : Value) : Result UsageReport := do
  let report ← orRaise payload.asMapping? .python "string indices must be integers"
  let actorId ← orRaise (report.read "actor_id").asText? .python "'actor_id'"
  let status ← orRaise (report.read "status").asText? .python "'status'"
  if status == "observed" then do
    let cumulative ← orRaise (report.read "cumulative").asMapping? .python "'NoneType' object is not subscriptable"
    let counts ← TokenCounts.ofMapping cumulative
    return { actorId, observed := some counts }
  else return { actorId, observed := none }

/-- What is read of a row that is written. -/
theorem readReport_row (call : UsageCall) (actor : ActorRow) (snapshot : CampaignSnapshot)
    (threadId turnId : String) (cumulative last : Option TokenCounts) :
    readReport (call.row actor snapshot (reportDict threadId turnId cumulative last)).payload
      = .ok ⟨call.actorId, if last.isSome then cumulative else none⟩ := by
  cases cumulative <;> cases last <;> rfl

/-- **What the identifier of a row tells.** -/
theorem told_of_telemetryId [FloatReader] (laws : FloatLaws)
    (hsha : Set.InjOn Runtime.sha256 (Set.range canonicalJson)) {actorId actorId' : String}
    {report report' : Mapping} (h : nativeTelemetryId actorId report = nativeTelemetryId actorId' report') :
    actorId = actorId' ∧ report.freeze = report'.freeze := by
  have hdigest : canonicalJsonDigest (.mapping [("actor_id", .str actorId), ("report", .mapping report)])
      = canonicalJsonDigest (.mapping [("actor_id", .str actorId'), ("report", .mapping report')]) :=
    String.append_right_inj _ |>.mp h
  have hjson := hsha (Set.mem_range_self _) (Set.mem_range_self _) hdigest
  have hfreeze := Value.mapping.inj (freeze_eq_of_canonicalJson laws hjson)
  have hread : ∀ key, (Mapping.get? [("actor_id", .str actorId), ("report", .mapping report)] key).map freeze
      = (Mapping.get? [("actor_id", .str actorId'), ("report", .mapping report')] key).map freeze := fun key => by
    rw [← Mapping.get?_freeze, ← Mapping.get?_freeze]
    exact congrArg (fun m => Mapping.get? m key) hfreeze
  exact ⟨Value.str.inj (Option.some.inj (hread "actor_id")),
    Value.mapping.inj (Option.some.inj (hread "report"))⟩

/-! ### The rows of several calls -/

/-- **What a row of a call holds.** -/
structure Written (db : Db) (call : UsageCall) (row : TelemetryRow) (observed : Option TokenCounts) : Prop where
  actor : ∃ actor, db.actors.get? call.actorId = some actor ∧ row.campaignId = actor.campaignId
  category : row.category = nativeUsageCategory
  report : readReport row.payload = .ok ⟨call.actorId, observed⟩
  identified : ∃ (threadId turnId : String) (cumulative last : Option TokenCounts),
    row.telemetryId = nativeTelemetryId call.actorId (reportDict threadId turnId cumulative last) ∧
      observed = if last.isSome then cumulative else none

theorem usageRow_written {db : Db} {call : UsageCall} {row : TelemetryRow} (h : db.usageRow call = .ok row) :
    ∃ observed, Written db call row observed := by
  simp only [Db.usageRow, Db.nativeActor, bind_eq_ok, orRaise_eq_ok, Option.filter_eq_some_iff, pure_eq_ok] at h
  obtain ⟨threadId, -, turnId, -, actor, ⟨hactor, -⟩, snapshot, -, rfl⟩ := h
  obtain ⟨cumulative, last, hreport⟩ := exists_nativeReport threadId turnId call.notification
  rw [hreport]
  exact ⟨_, ⟨actor, hactor, rfl⟩, rfl, readReport_row call actor snapshot threadId turnId cumulative last,
    threadId, turnId, cumulative, last, rfl, rfl⟩

/-- What `usage_summary` makes of a row. -/
def TelemetryRow.told (row : TelemetryRow) : String × Option UsageReport :=
  (row.campaignId, (readReport row.payload).toOption)

/-- Rows of one identifier tell the same. -/
theorem Written.told_eq [FloatReader] (laws : FloatLaws)
    (hsha : Set.InjOn Runtime.sha256 (Set.range canonicalJson)) {db : Db} {call call' : UsageCall}
    {row row' : TelemetryRow} {observed observed' : Option TokenCounts} (h : Written db call row observed)
    (h' : Written db call' row' observed') (hid : row.telemetryId = row'.telemetryId) :
    row.told = row'.told := by
  obtain ⟨threadId, turnId, cumulative, last, hrow, hobserved⟩ := h.identified
  obtain ⟨threadId', turnId', cumulative', last', hrow', hobserved'⟩ := h'.identified
  obtain ⟨hactor, hfreeze⟩ := told_of_telemetryId laws hsha (hrow.symm.trans (hid.trans hrow'))
  obtain ⟨rfl, rfl⟩ := reported_of_freeze hfreeze
  obtain ⟨actor, hget, hcampaign⟩ := h.actor
  obtain ⟨actor', hget', hcampaign'⟩ := h'.actor
  rw [hactor, hget'] at hget
  obtain rfl := Option.some.inj hget
  rw [TelemetryRow.told, TelemetryRow.told, h.report, h'.report, hcampaign, hcampaign', hactor, hobserved,
    hobserved']

/-- The rows several calls insert unless their identifiers are taken. -/
def Db.usageRows (db : Db) (calls : List UsageCall) : List TelemetryRow :=
  calls.filterMap fun call => (db.usageRow call).toOption

theorem mem_usageRows {db : Db} {calls : List UsageCall} {row : TelemetryRow} :
    row ∈ db.usageRows calls ↔ ∃ call ∈ calls, db.usageRow call = .ok row := by
  rw [Db.usageRows, List.mem_filterMap]
  refine exists_congr fun call => and_congr_right fun _ => ?_
  cases db.usageRow call with
  | error e => simp [Except.toOption]
  | ok r => simp [Except.toOption]

/-- **Several calls insert their rows.** -/
theorem recordUsages_eq (db : Db) (calls : List UsageCall) :
    db.recordUsages calls = { db with telemetry := db.telemetry.insertNew (db.usageRows calls) } := by
  suffices h : ∀ t, Db.recordUsages { db with telemetry := t } calls =
      { db with telemetry := t.insertNew (db.usageRows calls) } from h db.telemetry
  induction calls with
  | nil => exact fun _ => rfl
  | cons call calls ih =>
      intro t
      have hrow : Db.usageRow { db with telemetry := t } call = db.usageRow call := rfl
      have hstep : Db.recordUsages { db with telemetry := t } (call :: calls)
          = (Db.recordUsage { db with telemetry := t } call).recordUsages calls := rfl
      rw [hstep, recordUsage_eq, hrow, Db.usageRows]
      cases hcall : db.usageRow call with
      | error e =>
          rw [List.filterMap_cons_none (by rw [hcall]; rfl)]
          exact ih t
      | ok row =>
          rw [List.filterMap_cons_some (by rw [hcall]; rfl)]
          exact ih (t.insertOrIgnore row)

/-- Calls that say the same have rows of the same identifiers. -/
theorem telemetryId_of_said {db : Db} {call call' : UsageCall} {row : TelemetryRow} (h : call.said = call'.said)
    (hrow : db.usageRow call = .ok row) :
    ∃ row', db.usageRow call' = .ok row' ∧ row'.telemetryId = row.telemetryId := by
  obtain ⟨actorId, notification, recordedAt⟩ := call
  obtain ⟨actorId', notification', recordedAt'⟩ := call'
  obtain ⟨rfl, rfl⟩ := Prod.mk.inj h
  simp only [Db.usageRow, bind_eq_ok, pure_eq_ok] at hrow
  obtain ⟨threadId, hthread, turnId, hturn, actor, hactor, snapshot, hload, rfl⟩ := hrow
  refine ⟨UsageCall.row ⟨actorId, notification, recordedAt'⟩ actor snapshot
    (nativeReport threadId turnId notification), ?_, rfl⟩
  simp only [Db.usageRow, bind_eq_ok, pure_eq_ok]
  exact ⟨threadId, hthread, turnId, hturn, actor, hactor, snapshot, hload, rfl⟩

/-- **Calls that say the same add rows that tell the same.** -/
theorem exists_recordUsages [FloatReader] (laws : FloatLaws)
    (hsha : Set.InjOn Runtime.sha256 (Set.range canonicalJson)) (db : Db) {calls calls' : List UsageCall}
    (h : ∀ said, said ∈ calls.map UsageCall.said ↔ said ∈ calls'.map UsageCall.said) :
    ∃ new new' : List TelemetryRow, (db.telemetry.insertNew (db.usageRows calls)).rows = db.telemetry.rows ++ new ∧
      (db.telemetry.insertNew (db.usageRows calls')).rows = db.telemetry.rows ++ new' ∧
      (∀ row ∈ new, row ∈ db.usageRows calls) ∧ (∀ row ∈ new', row ∈ db.usageRows calls') ∧
      (new.map TelemetryRow.told).Perm (new'.map TelemetryRow.told) := by
  have hkeys : ∀ {calls calls' : List UsageCall},
      (∀ said, said ∈ calls.map UsageCall.said → said ∈ calls'.map UsageCall.said) → ∀ k,
        k ∈ (db.usageRows calls).map TelemetryRow.telemetryId →
          k ∈ (db.usageRows calls').map TelemetryRow.telemetryId := by
    intro calls calls' hsaid k hk
    obtain ⟨row, hrow, rfl⟩ := List.mem_map.mp hk
    obtain ⟨call, hcall, hrow⟩ := mem_usageRows.mp hrow
    obtain ⟨call', hcall', heq⟩ := List.mem_map.mp (hsaid _ (List.mem_map_of_mem hcall))
    obtain ⟨row', hrow', hid⟩ := telemetryId_of_said heq.symm hrow
    exact List.mem_map.mpr ⟨row', mem_usageRows.mpr ⟨call', hcall', hrow'⟩, hid⟩
  refine Table.insertNew_perm db.telemetry
    (fun k => ⟨hkeys (fun said => (h said).mp) k, hkeys (fun said => (h said).mpr) k⟩)
    fun row hrow row' hrow' hid => ?_
  obtain ⟨call, -, hrow⟩ := mem_usageRows.mp hrow
  obtain ⟨call', -, hrow'⟩ := mem_usageRows.mp hrow'
  obtain ⟨observed, hwritten⟩ := usageRow_written hrow
  obtain ⟨observed', hwritten'⟩ := usageRow_written hrow'
  exact hwritten.told_eq laws hsha hwritten' hid

/-! ### The summary -/

inductive UsageStatus | observed | partly | unavailable
deriving DecidableEq

def UsageStatus.value : UsageStatus → String
  | .observed => "observed"
  | .partly => "partial"
  | .unavailable => "unavailable"

/-- One entry of `summaries`. -/
structure ActorUsage where
  actorId : String
  role : ActorRole
  nodeId : Option String
  nativeThreadId : Option String
  status : UsageStatus
  totals : Option TokenCounts
  observedReportCount : ℕ
  unavailableReportCount : ℕ
  counterDiscontinuity : Bool

structure UsageCoverage where
  scope : String := "bound_native_actor_threads"
  actorCount : ℕ
  boundActorCount : ℕ
  measuredActorCount : ℕ
  unavailableActorIds : List String
  unboundParentUsage : String := "unavailable"
  completeProviderSpend : Bool := false

structure UsageSummary where
  campaignId : String
  source : String := "native_app_server_notifications"
  status : UsageStatus
  totals : Option TokenCounts
  coverage : UsageCoverage
  actors : List ActorUsage

/-- The comparison of `max`, by the total and then by the canonical JSON. -/
def usageBefore (c item : TokenCounts) : Bool :=
  c.totalTokens < item.totalTokens || c.totalTokens == item.totalTokens
    && canonicalJson (.mapping c.toDict) < canonicalJson (.mapping item.toDict)

/-- `max` of the observed counts. -/
def latestUsage : List TokenCounts → Option TokenCounts
  | [] => none
  | c :: rest => some (rest.foldl (fun best item => if usageBefore best item then item else best) c)

/-- What `usage_summary` says of one actor. -/
def actorUsage (reports : List UsageReport) (actor : ActorRow) : ActorUsage :=
  let observed := reports.filter (·.actorId == actor.actorId)
  let valid := observed.filterMap (·.observed)
  let cumulative := latestUsage valid
  let discontinuity := cumulative.any fun counts => valid.any (·.exceeds counts)
  { actorId := actor.actorId
    role := actor.role
    nodeId := actor.nodeId
    nativeThreadId := if actor.used then some actor.nativeThreadId else none
    status :=
      if cumulative.isNone then .unavailable
      else if valid.length ≠ observed.length ∨ discontinuity then .partly else .observed
    totals := cumulative
    observedReportCount := valid.length
    unavailableReportCount := observed.length - valid.length
    counterDiscontinuity := discontinuity }

/-- What `usage_summary` returns for the actors and the reports of a campaign. -/
def summarizeUsage (campaignId : String) (actors : List ActorRow) (reports : List UsageReport) : UsageSummary :=
  let summaries := actors.map (actorUsage reports)
  let measured := summaries.filterMap (·.totals)
  { campaignId
    status :=
      if measured.isEmpty then .unavailable
      else if summaries.all (·.status == .observed) then .observed else .partly
    totals := if measured.isEmpty then none else some (measured.foldl (· + ·) 0)
    coverage := {
      actorCount := actors.length
      boundActorCount := actors.countP (·.used)
      measuredActorCount := measured.length
      unavailableActorIds := (summaries.filter (·.status == .unavailable)).map (·.actorId) }
    actors := summaries }

/-- The actors of a campaign, by their identifiers. -/
def Db.campaignActors (db : Db) (campaignId : String) : List ActorRow :=
  (db.actors.rows.filter (·.campaignId == campaignId)).insertionSort fun a b => a.actorId ≤ b.actorId

/-- The stored reports of a campaign. -/
def Db.usageReports (db : Db) (campaignId : String) : Result (List UsageReport) :=
  (db.telemetry.rows.filter fun row => row.campaignId == campaignId && row.category == nativeUsageCategory).mapM
    fun row => readReport row.payload

/-- `usage_summary`. -/
def Db.usageSummary (db : Db) (campaignId : String) : Result UsageSummary := do
  let _ ← db.loadSnapshot campaignId
  let reports ← db.usageReports campaignId
  return summarizeUsage campaignId (db.campaignActors campaignId) reports

/-! ### The order does not matter -/

/-- The key of `max`. -/
def usageKey (c : TokenCounts) : ℤ ×ₗ String := toLex (c.totalTokens, canonicalJson (.mapping c.toDict))

theorem usageBefore_iff {c item : TokenCounts} : usageBefore c item = true ↔ usageKey c < usageKey item := by
  simp [usageBefore, usageKey, Prod.Lex.toLex_lt_toLex]

theorem latestUsage_eq (l : List TokenCounts) : latestUsage l = l.argmax usageKey := by
  cases l with
  | nil => rfl
  | cons c rest =>
      rw [latestUsage, List.argmax, List.foldl_cons, List.argAux]
      induction rest generalizing c with
      | nil => rfl
      | cons item rest ih =>
          rw [List.foldl_cons, List.foldl_cons, ih]
          refine congrArg (fun best => rest.foldl _ best) ?_
          simp only [List.argAux, ← usageBefore_iff]
          split <;> rfl

theorem usageKey_injective [FloatReader] (laws : FloatLaws) : Function.Injective usageKey := by
  intro c c' h
  exact TokenCounts.eq_of_freeze (Value.mapping.inj (freeze_eq_of_canonicalJson laws (Prod.mk.inj h).2))

theorem actorUsage_perm [FloatReader] (laws : FloatLaws) {reports reports' : List UsageReport}
    (h : reports.Perm reports') (actor : ActorRow) : actorUsage reports actor = actorUsage reports' actor := by
  have hobserved : (reports.filter (·.actorId == actor.actorId)).Perm (reports'.filter (·.actorId == actor.actorId)) :=
    h.filter _
  have hvalid := hobserved.filterMap UsageReport.observed
  have hany : ∀ p : TokenCounts → Bool,
      ((reports.filter (·.actorId == actor.actorId)).filterMap (·.observed)).any p
        = ((reports'.filter (·.actorId == actor.actorId)).filterMap (·.observed)).any p := fun p => by
    rw [Bool.eq_iff_iff, List.any_eq_true, List.any_eq_true]
    exact exists_congr fun _ => and_congr_left' hvalid.mem_iff
  simp only [actorUsage, latestUsage_eq, argmax_perm (usageKey_injective laws) hvalid, hobserved.length_eq, hvalid.length_eq, hany]

theorem summarizeUsage_perm [FloatReader] (laws : FloatLaws) (campaignId : String) (actors : List ActorRow)
    {reports reports' : List UsageReport} (h : reports.Perm reports') :
    summarizeUsage campaignId actors reports = summarizeUsage campaignId actors reports' := by
  have heq : actorUsage reports = actorUsage reports' := funext fun actor => actorUsage_perm laws h actor
  rw [summarizeUsage, summarizeUsage, heq]

/-- Rows that calls wrote are read. -/
theorem mapM_readReport {db : Db} {campaignId : String} {new : List TelemetryRow}
    (h : ∀ row ∈ new, ∃ call observed, Written db call row observed) :
    (new.filter fun row => row.campaignId == campaignId && row.category == nativeUsageCategory).mapM
        (fun row => readReport row.payload)
      = .ok (reportsOf campaignId (new.map TelemetryRow.told)) := by
  induction new with
  | nil => rfl
  | cons row new ih =>
      obtain ⟨hrow, hnew⟩ := List.forall_mem_cons.mp h
      obtain ⟨call, observed, hwritten⟩ := hrow
      have htold : row.told = (row.campaignId, some ⟨call.actorId, observed⟩) := by
        rw [TelemetryRow.told, hwritten.report]
        rfl
      rw [List.map_cons, reportsOf_cons, htold]
      by_cases hcampaign : row.campaignId = campaignId
      · rw [List.filter_cons_of_pos (by simp [hcampaign, hwritten.category]), List.mapM_cons, hwritten.report,
          ih hnew, if_pos (by simpa using hcampaign)]
        rfl
      · rw [List.filter_cons_of_neg (by simp [hcampaign]), ih hnew, if_neg (by simpa using hcampaign),
          List.nil_append]

/-- **The reports after several calls.** -/
theorem usageReports_insertNew {db : Db} {t : Table TelemetryRow.telemetryId} {new : List TelemetryRow}
    (hrows : t.rows = db.telemetry.rows ++ new)
    (h : ∀ row ∈ new, ∃ call observed, Written db call row observed) (campaignId : String) :
    Db.usageReports { db with telemetry := t } campaignId =
      (· ++ reportsOf campaignId (new.map TelemetryRow.told)) <$> db.usageReports campaignId := by
  rw [Db.usageReports, hrows, List.filter_append, List.mapM_append, mapM_readReport h, Db.usageReports]
  cases (db.telemetry.rows.filter fun row => row.campaignId == campaignId && row.category == nativeUsageCategory).mapM
    fun row => readReport row.payload <;> rfl

theorem written_of_usageRows {db : Db} {calls : List UsageCall} {new : List TelemetryRow}
    (h : ∀ row ∈ new, row ∈ db.usageRows calls) : ∀ row ∈ new, ∃ call observed, Written db call row observed := by
  intro row hrow
  obtain ⟨call, -, hcall⟩ := mem_usageRows.mp (h row hrow)
  exact ⟨call, usageRow_written hcall⟩

/-- **The summary does not depend on the order of the calls, nor on how often they are made.** -/
theorem usageSummary_recordUsages [FloatReader] (laws : FloatLaws)
    (hsha : Set.InjOn Runtime.sha256 (Set.range canonicalJson)) (db : Db) {calls calls' : List UsageCall}
    (h : ∀ said, said ∈ calls.map UsageCall.said ↔ said ∈ calls'.map UsageCall.said) (campaignId : String) :
    (db.recordUsages calls).usageSummary campaignId = (db.recordUsages calls').usageSummary campaignId := by
  obtain ⟨new, new', hrows, hrows', hnew, hnew', hperm⟩ := exists_recordUsages laws hsha db h
  have hsame : ∀ t, Db.usageSummary { db with telemetry := t } campaignId = (do
      let _ ← db.loadSnapshot campaignId
      let reports ← Db.usageReports { db with telemetry := t } campaignId
      return summarizeUsage campaignId (db.campaignActors campaignId) reports) := fun _ => rfl
  rw [recordUsages_eq, recordUsages_eq, hsame, hsame, usageReports_insertNew hrows (written_of_usageRows hnew),
    usageReports_insertNew hrows' (written_of_usageRows hnew')]
  cases db.usageReports campaignId with
  | error e => rfl
  | ok reports =>
      have hreports : (reports ++ reportsOf campaignId (new.map TelemetryRow.told)).Perm
          (reports ++ reportsOf campaignId (new'.map TelemetryRow.told)) := (hperm.filterMap _).append_left reports
      have hsummary := summarizeUsage_perm laws campaignId (db.campaignActors campaignId) hreports
      cases db.loadSnapshot campaignId with
      | error e => rfl
      | ok _ => exact congrArg Except.ok hsummary

/-! ### What the summary says -/

/-- **The totals of an actor are its greatest report.** -/
theorem actorUsage_totals {reports : List UsageReport} {actor : ActorRow} {c : TokenCounts}
    (h : (actorUsage reports actor).totals = some c) :
    ⟨actor.actorId, some c⟩ ∈ reports ∧
      ∀ c', ⟨actor.actorId, some c'⟩ ∈ reports → c'.totalTokens ≤ c.totalTokens := by
  have hmax : c ∈ ((reports.filter (·.actorId == actor.actorId)).filterMap (·.observed)).argmax usageKey := by
    rw [← latestUsage_eq]
    exact h
  refine ⟨mem_valid.mp (List.argmax_mem hmax), fun c' hc' => ?_⟩
  have hle := List.le_of_mem_argmax (mem_valid.mpr hc') hmax
  rcases Prod.Lex.toLex_le_toLex.mp hle with hlt | ⟨heq, -⟩
  · exact hlt.le
  · exact heq.le

theorem actorUsage_totals_eq_none {reports : List UsageReport} {actor : ActorRow} :
    (actorUsage reports actor).totals = none ↔ ∀ c, ⟨actor.actorId, some c⟩ ∉ reports := by
  have hmax : (actorUsage reports actor).totals
      = ((reports.filter (·.actorId == actor.actorId)).filterMap (·.observed)).argmax usageKey :=
    latestUsage_eq _
  rw [hmax, List.argmax_eq_none, List.eq_nil_iff_forall_not_mem]
  exact forall_congr' fun c => not_congr mem_valid

theorem actorUsage_status (reports : List UsageReport) (actor : ActorRow) :
    (actorUsage reports actor).status = .unavailable ↔ (actorUsage reports actor).totals = none := by
  simp only [actorUsage]
  generalize latestUsage _ = cumulative
  cases cumulative with
  | none => simp
  | some c =>
      simp only [Option.isNone_some, Bool.false_eq_true, if_false, reduceCtorEq, iff_false]
      split <;> simp

/-- **What a summary says of the actors and the reports it is of.** -/
structure UsageLaw (actors : List ActorRow) (reports : List UsageReport) (summary : UsageSummary) : Prop where
  actors : summary.actors.map (·.actorId) = actors.map (·.actorId)
  greatest : ∀ a ∈ summary.actors, ∀ c, a.totals = some c → ⟨a.actorId, some c⟩ ∈ reports ∧
    ∀ c', ⟨a.actorId, some c'⟩ ∈ reports → c'.totalTokens ≤ c.totalTokens
  unmeasured : ∀ a ∈ summary.actors, a.totals = none ↔ ∀ c, ⟨a.actorId, some c⟩ ∉ reports
  totals : summary.totals =
    if ∀ a ∈ summary.actors, a.totals = none then none else some (summary.actors.filterMap (·.totals)).sum
  unavailable : ∀ actorId, actorId ∈ summary.coverage.unavailableActorIds ↔
    ∃ a ∈ summary.actors, a.actorId = actorId ∧ a.totals = none
  status : summary.status = .observed → summary.coverage.unavailableActorIds = []

theorem summarizeUsage_law (campaignId : String) (actors : List ActorRow) (reports : List UsageReport) :
    UsageLaw actors reports (summarizeUsage campaignId actors reports) where
  actors := by
    rw [summarizeUsage, List.map_map]
    rfl
  greatest := by
    rintro a ha c hc
    obtain ⟨actor, -, rfl⟩ := List.mem_map.mp ha
    exact actorUsage_totals hc
  unmeasured := by
    rintro a ha
    obtain ⟨actor, -, rfl⟩ := List.mem_map.mp ha
    exact actorUsage_totals_eq_none
  totals := by
    have hempty : ((actors.map (actorUsage reports)).filterMap (·.totals)).isEmpty = true ↔
        ∀ a ∈ actors.map (actorUsage reports), a.totals = none := by
      rw [List.isEmpty_iff, List.filterMap_eq_nil_iff]
    simp only [summarizeUsage, hempty, List.sum_eq_foldl]
  unavailable := by
    intro actorId
    simp only [summarizeUsage, List.mem_map, List.mem_filter, beq_iff_eq]
    constructor
    · rintro ⟨_, ⟨⟨actor, hactor, rfl⟩, hstatus⟩, rfl⟩
      exact ⟨_, ⟨actor, hactor, rfl⟩, rfl, (actorUsage_status reports actor).mp hstatus⟩
    · rintro ⟨_, ⟨actor, hactor, rfl⟩, rfl, htotals⟩
      exact ⟨_, ⟨⟨actor, hactor, rfl⟩, (actorUsage_status reports actor).mpr htotals⟩, rfl⟩
  status := by
    intro h
    simp only [summarizeUsage, List.map_eq_nil_iff, List.filter_eq_nil_iff] at h ⊢
    intro a ha hunavailable
    rw [beq_iff_eq] at hunavailable
    split at h
    · cases h
    · split at h
      · next hall =>
          have hobserved := List.all_eq_true.mp hall a ha
          rw [hunavailable] at hobserved
          cases hobserved
      · cases h

/-- The reports of calls of which none is recorded yet. -/
theorem usageReports_recordUsages [FloatReader] (laws : FloatLaws)
    (hsha : Set.InjOn Runtime.sha256 (Set.range canonicalJson)) {db : Db} {calls : List UsageCall}
    (hfree : ∀ row ∈ db.usageRows calls, db.telemetry.get? row.telemetryId = none) {campaignId : String}
    {reports : List UsageReport} (h : db.usageReports campaignId = .ok reports) :
    ∃ reports', (db.recordUsages calls).usageReports campaignId = .ok reports' ∧
      ∀ r, r ∈ reports' ↔ r ∈ reports ∨ ∃ call ∈ calls, ∃ row, db.usageRow call = .ok row ∧
        row.campaignId = campaignId ∧ readReport row.payload = .ok r := by
  obtain ⟨new, hrows, hnew, -, hkeys⟩ := Table.exists_insertNew db.telemetry (db.usageRows calls)
  refine ⟨reports ++ reportsOf campaignId (new.map TelemetryRow.told), ?_, fun r => ?_⟩
  · rw [recordUsages_eq, usageReports_insertNew hrows (written_of_usageRows hnew), h]
    rfl
  -- what the new rows tell is what the rows of the calls tell
  have htold : ∀ t, t ∈ new.map TelemetryRow.told ↔ t ∈ (db.usageRows calls).map TelemetryRow.told := by
    intro t
    refine ⟨fun ht => List.map_subset _ hnew ht, fun ht => ?_⟩
    obtain ⟨row, hrow, rfl⟩ := List.mem_map.mp ht
    have hunused : row.telemetryId ∉ db.telemetry.rows.map TelemetryRow.telemetryId := fun hmem => by
      obtain ⟨old, hold, hid⟩ := List.mem_map.mp hmem
      exact Table.get?_eq_none.mp (hfree row hrow) old hold hid
    obtain ⟨row', hrow', hid⟩ := List.mem_map.mp ((hkeys _).mpr ⟨List.mem_map_of_mem hrow, hunused⟩)
    obtain ⟨call, -, hcall⟩ := mem_usageRows.mp hrow
    obtain ⟨call', -, hcall'⟩ := mem_usageRows.mp (hnew row' hrow')
    obtain ⟨_, hwritten⟩ := usageRow_written hcall
    obtain ⟨_, hwritten'⟩ := usageRow_written hcall'
    exact List.mem_map.mpr ⟨row', hrow', hwritten'.told_eq laws hsha hwritten hid⟩
  rw [List.mem_append, reportsOf, List.mem_filterMap]
  refine or_congr_right ?_
  constructor
  · rintro ⟨t, ht, hr⟩
    obtain ⟨row, hrow, rfl⟩ := List.mem_map.mp ((htold t).mp ht)
    obtain ⟨call, hcall, hok⟩ := mem_usageRows.mp hrow
    obtain ⟨observed, hwritten⟩ := usageRow_written hok
    by_cases hcampaign : row.campaignId = campaignId
    · refine ⟨call, hcall, row, hok, hcampaign, ?_⟩
      rw [if_pos (by simpa [TelemetryRow.told] using hcampaign), TelemetryRow.told, hwritten.report] at hr
      rw [hwritten.report, Option.some.inj hr]
    · rw [if_neg (by simpa [TelemetryRow.told] using hcampaign)] at hr
      cases hr
  · rintro ⟨call, hcall, row, hok, hcampaign, hr⟩
    refine ⟨row.told, (htold _).mpr (List.mem_map_of_mem (mem_usageRows.mpr ⟨call, hcall, hok⟩)), ?_⟩
    rw [if_pos (by simpa [TelemetryRow.told] using hcampaign), TelemetryRow.told, hr]
    rfl

/-- **Usage totals.**  The summary does not depend on how often or in which order notifications are
recorded.  The reports of calls of which none is recorded yet are added to those there are.  The totals
add up the greatest report of each actor that has one; an actor without one is listed, has no totals of
its own, and keeps the status from being observed. -/
theorem usage_totals [FloatReader] (laws : FloatLaws)
    (hsha : Set.InjOn Runtime.sha256 (Set.range canonicalJson)) (db : Db) :
    (∀ calls calls' : List UsageCall,
      (∀ said, said ∈ calls.map UsageCall.said ↔ said ∈ calls'.map UsageCall.said) → ∀ campaignId,
        (db.recordUsages calls).usageSummary campaignId = (db.recordUsages calls').usageSummary campaignId) ∧
    (∀ calls : List UsageCall, (∀ row ∈ db.usageRows calls, db.telemetry.get? row.telemetryId = none) →
      ∀ campaignId reports, db.usageReports campaignId = .ok reports →
        ∃ reports', (db.recordUsages calls).usageReports campaignId = .ok reports' ∧
          ∀ r, r ∈ reports' ↔ r ∈ reports ∨ ∃ call ∈ calls, ∃ row, db.usageRow call = .ok row ∧
            row.campaignId = campaignId ∧ readReport row.payload = .ok r) ∧
    ∀ campaignId summary, db.usageSummary campaignId = .ok summary →
      ∃ reports, db.usageReports campaignId = .ok reports ∧
        UsageLaw (db.campaignActors campaignId) reports summary := by
  refine ⟨fun calls calls' h => usageSummary_recordUsages laws hsha db h,
    fun calls hfree campaignId reports => usageReports_recordUsages laws hsha hfree,
    fun campaignId summary h => ?_⟩
  simp only [Db.usageSummary, bind_eq_ok, pure_eq_ok] at h
  obtain ⟨_, -, reports, hreports, rfl⟩ := h
  exact ⟨reports, hreports, summarizeUsage_law _ _ _⟩

end Recording

namespace Sample

open CodingOS.Campaign.Sample

/-- The cumulative usage of the first actor's thread. -/
def usageNotification : Mapping :=
  let counts := Value.mapping [
    ("inputTokens", .int 10), ("cachedInputTokens", .int 4), ("outputTokens", .int 5),
    ("reasoningOutputTokens", .int 1), ("totalTokens", .int 15)]
  [("threadId", .str "t"), ("turnId", .str "turn"),
    ("tokenUsage", .mapping [("total", counts), ("last", counts)])]

def secondActor : Actor where
  actorId := "b"
  campaignId := "c"
  nodeId := some "n"
  role := .implementer
  nativeThreadId := "t2"
  authorityEpoch := 1
  canWrite := true
  nativeIdentity := [("thread_id", .str "t2")]
  valid := by decide

/-- A second actor is bound after the first one is measured. -/
def usageTransactions : List Transaction :=
  bindTransactions ++ [
    .recordNativeUsage "a" usageNotification "now",
    .releaseLease firstRelease,
    .acquireLease { secondLease with actor := secondActor },
    .bindActor { bindRequest with
      leaseId := "l2"
      actorId := "b"
      nativeThreadId := "t2"
      nativeIdentity := bindRequest.nativeIdentity.set "thread_id" (.str "t2")
      fencingEpoch := 2
      requestId := "q5" }]

theorem usage_facts : ((foldTransactions {} usageTransactions).toOption.bind fun run =>
    (run.2.usageSummary "c").toOption.map fun summary =>
      (summary.totals.isSome, summary.coverage.unavailableActorIds)) = some (true, ["b"]) := by
  decide +kernel

end Sample

open Sample CodingOS.Campaign.Sample in
/-- A bound actor without a report does not make the totals unknown. -/
theorem totals_without_report : ∃ history db summary, StoreRun history db ∧
    db.usageSummary "c" = .ok summary ∧ "b" ∈ summary.coverage.unavailableActorIds ∧ summary.totals ≠ none := by
  obtain ⟨run, hrun, hsummary⟩ := Option.bind_eq_some_iff.mp usage_facts
  obtain ⟨summary, hok, hfacts⟩ := Option.map_eq_some_iff.mp hsummary
  obtain ⟨htotals, hunavailable⟩ := Prod.mk.inj hfacts
  refine ⟨run.1, run.2, summary, foldTransactions_run (toOption_eq_some hrun), toOption_eq_some hok, ?_, ?_⟩
  · rw [hunavailable]
    exact List.mem_singleton_self _
  · exact Option.isSome_iff_ne_none.mp htotals

namespace Sample

open CodingOS.Campaign.RecordSample

def measuredActor : Actor where
  actorId := "a"
  campaignId := "c"
  nodeId := some "n"
  role := .implementer
  nativeThreadId := "t"
  authorityEpoch := 1
  canWrite := true
  valid := by decide

/-- A campaign with one bound actor. -/
def measuredDb (snapshot : CampaignSnapshot) : Db where
  campaigns := ⟨[.ofSpec RecordSample.spec snapshot], List.nodup_singleton _⟩
  actors := ⟨[{
    actorId := "a"
    campaignId := "c"
    nodeId := some "n"
    role := .implementer
    nativeThreadId := "t"
    identityDigest := some "identity"
    nativeIdentity := []
    hostPid := none
    authorityEpoch := 1
    canWrite := true
    boundRequestId := some "q"
    used := true
    actor := measuredActor }], List.nodup_singleton _⟩

/-- A report of one turn. -/
def usageCall (turnId recordedAt : String) : UsageCall where
  actorId := "a"
  notification := usageNotification.set "turnId" (.str turnId)
  recordedAt := recordedAt

end Sample

open Sample CodingOS.Campaign.RecordSample in
theorem usage_totals_sample : ∃ snapshot, CampaignSnapshot.initial RecordSample.spec = .ok snapshot ∧
    ((measuredDb snapshot).usageRows [usageCall "first" "later", usageCall "second" "now"]).length = 2 ∧
    ((measuredDb snapshot).recordUsages [usageCall "first" "later", usageCall "second" "now"]).usageSummary "c" =
      ((measuredDb snapshot).recordUsages
        [usageCall "second" "now", usageCall "first" "now", usageCall "second" "later"]).usageSummary "c" := by
  refine ⟨_, bind_eq_ok.mpr ⟨(), recordSpec_verified, rfl⟩, rfl, ?_⟩
  refine (usage_totals RecordSample.laws Function.injective_id.injOn (measuredDb _)).1 _ _ (fun said => ?_) "c"
  simp only [List.map_cons, List.map_nil, List.mem_cons, List.not_mem_nil, or_false]
  constructor
  · rintro (rfl | rfl)
    · exact .inr (.inl rfl)
    · exact .inl rfl
  · rintro (rfl | rfl | rfl)
    · exact .inr rfl
    · exact .inl rfl
    · exact .inr rfl

end CodingOS.Store
