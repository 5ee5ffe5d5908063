import CodingOS.ManifestRecovery.TransactionMoves

/-!
# Operator transactions report the truth

Operator runs and automatic recoveries run one after another on one routing directory, each to its end or
to a crash.  A terminal record or a reply that says a transaction was committed comes after its swap of the
pointer, and no terminal record is written twice.  A replay infers from the current pointer alone whether
an interrupted transaction was committed: what it says is true when every transaction that swapped the
pointer and lost its terminal record to a crash is replayed while its generation is current.
-/

namespace CodingOS.ManifestRecovery

open CodingOS.Python Systems

abbrev Ledger := Logged Files (TransactionCall × RoutingOp)

/-- An operator's call swapped the pointer under a transaction identifier. -/
def Swapped (log : List (Entry Files (TransactionCall × RoutingOp))) (transactionId : String) : Prop :=
  ∃ e ∈ log, e.label.1.isOperator = true ∧ e.label.1.transactionId = transactionId ∧
    e.label.2.commits ≠ none

/-- What a terminal record says of the commit is so. -/
structure TerminalRecord.Honest (r : TerminalRecord) (swapped : Prop) : Prop where
  committed : r.status = .committed → swapped
  uncommitted : r.status ≠ .committed → r.reasonCode ≠ commitUnproven → ¬ swapped

/-- What a reply says of the commit is so. -/
structure Reply.Honest (reply : Reply) (swapped : Prop) : Prop where
  rebuilt : reply.status = .rebuilt → swapped
  other : reply.status ≠ .rebuilt → reply.reasonCode ∉ silentReasons → ¬ swapped

/-- A call for a transaction that swapped the pointer and has no terminal record comes while the pointer
is still its own. -/
def Timely (w : Ledger) (c : TransactionCall) : Prop :=
  c.isOperator = true → Swapped w.log c.transactionId →
    w.state.terminal c.transactionId = none → Current w.state c.transactionId

section Invariant

variable [Runtime] [FileDigest] [Decoder]

/-- What holds of the directory and its log between any two operations. -/
structure Truthful (w : Ledger) : Prop where
  sound : Sound w
  owned : ∀ e ∈ w.log, ∀ p, e.label.2.commits = some p →
    p.transactionId = e.label.1.transactionId ∧ Opened e.label.1 w.state
  closed : ∀ id, w.state.terminal id ≠ none → w.state.opening id ≠ none
  terminal : ∀ id r at', w.state.terminal id = some (.record r at') → r.lane = .operatorRebaseline →
    r.Honest (Swapped w.log id)
  once : ∀ e ∈ w.log, ∀ id stored, e.before.terminal id = some stored →
    e.after.terminal id = some stored

variable {w₀ w : Ledger} {c : TransactionCall} {op : RoutingOp} {t : Files} {id : String}

/-- The pointer is that of a logged commit. -/
theorem Truthful.current (h : Truthful w) (hcurrent : Current w.state id) :
    ∃ e ∈ w.log, e.label.2.commits ≠ none ∧ e.label.1.transactionId = id ∧ Opened e.label.1 w.state := by
  obtain ⟨p, hp, rfl⟩ := hcurrent
  rw [h.sound.pointer] at hp
  obtain ⟨e, he, hcommits⟩ := List.mem_filterMap.mp (List.mem_of_mem_getLast? hp)
  obtain ⟨hid, hopened⟩ := h.owned e he p hcommits
  exact ⟨e, he, by rw [hcommits]; nofun, hid.symm, hopened⟩

/-- An operator's transaction whose generation is current swapped the pointer. -/
theorem Truthful.swapped_of_current (h : Truthful w) (hopened : OpenedByOperator w.state id)
    (hcurrent : Current w.state id) : Swapped w.log id := by
  obtain ⟨e, he, hcommits, rfl, b, at', hb, hsuits⟩ := h.current hcurrent
  obtain ⟨b', at'', hb', hlane⟩ := hopened
  obtain ⟨rfl, -⟩ := Stored.record.inj (Option.some.inj (hb.symm.trans hb'))
  exact ⟨e, he, hsuits.mp hlane, rfl, hcommits⟩

/-- A transaction that swapped the pointer is open. -/
theorem Truthful.opening_of_swapped (h : Truthful w) (hswapped : Swapped w.log id) :
    w.state.opening id ≠ none := by
  obtain ⟨e, he, -, rfl, hcommits⟩ := hswapped
  obtain ⟨p, hp⟩ := Option.ne_none_iff_exists'.mp hcommits
  obtain ⟨-, b, at', hb, -⟩ := h.owned e he p hp
  rw [hb]
  nofun

/-! ### Within a call -/

/-- The log has grown by operations of the call. -/
def Extends (w₀ : Ledger) (c : TransactionCall) (w : Ledger) : Prop :=
  ∃ since, w.log = w₀.log ++ since ∧ ∀ e ∈ since, e.label.1 = c

omit [Runtime] [FileDigest] [Decoder] in
theorem Extends.snoc (h : Extends w₀ c w) : Extends w₀ c ⟨t, w.log ++ [⟨w.state, (c, op), t⟩]⟩ := by
  obtain ⟨since, hlog, hall⟩ := h
  refine ⟨since ++ [⟨w.state, (c, op), t⟩], ?_, ?_⟩
  · rw [← List.append_assoc, ← hlog]
  · rw [List.forall_mem_append, List.forall_mem_singleton]
    exact ⟨hall, rfl⟩

/-- While the pointer has not moved, nothing was committed. -/
theorem Extends.swapped_iff (h : Extends w₀ c w) (hw₀ : Truthful w₀) (hw : Truthful w)
    (hpointer : w.state.pointer = w₀.state.pointer) : Swapped w.log id ↔ Swapped w₀.log id := by
  obtain ⟨since, hlog, -⟩ := h
  have hsame : nextSequence (committed w.log).getLast? = nextSequence (committed w₀.log).getLast? := by
    rw [← hw.sound.pointer, ← hw₀.sound.pointer, hpointer]
  rw [hw.sound.chain.nextSequence, hw₀.sound.chain.nextSequence] at hsame
  have hsplit : committed w.log = committed w₀.log ++ committed since := by
    rw [hlog, committed, committed, committed, List.filterMap_append]
  have hnone : committed since = [] := by
    rw [hsplit, List.length_append] at hsame
    exact List.length_eq_zero_iff.mp (by omega)
  constructor
  · rintro ⟨e, he, hoperator, hid, hcommits⟩
    rw [hlog] at he
    rcases List.mem_append.mp he with he | he
    · exact ⟨e, he, hoperator, hid, hcommits⟩
    · exact absurd (List.filterMap_eq_nil_iff.mp hnone e he) hcommits
  · rintro ⟨e, he, hrest⟩
    exact ⟨e, hlog ▸ List.mem_append_left _ he, hrest⟩

/-- What shows that a transaction has not been committed is right, in a call made in time. -/
theorem Extends.uncommitted (h : Extends w₀ c w) (hw₀ : Truthful w₀) (hw : Truthful w)
    (hoperator : c.isOperator = true) (htimely : Timely w₀ c)
    (huncommitted : Uncommitted w₀.state w.state c.transactionId) :
    ¬ Swapped w.log c.transactionId := by
  rw [h.swapped_iff hw₀ hw huncommitted.pointer]
  intro hswapped
  rcases huncommitted.found with hopening | ⟨hterminal, hother⟩
  · exact hw₀.opening_of_swapped hswapped hopening
  · exact hother (htimely hoperator hswapped hterminal)

/-! ### Steps -/

omit [Runtime] [FileDigest] [Decoder] in
theorem swapped_snoc : Swapped (w.log ++ [⟨w.state, (c, op), t⟩]) id ↔
    Swapped w.log id ∨ (c.isOperator = true ∧ c.transactionId = id ∧ op.commits ≠ none) := by
  simp only [Swapped, List.mem_append, List.mem_singleton, or_and_right, exists_or, exists_eq_left]

omit [Runtime] [FileDigest] [Decoder] in
theorem swapped_snoc_none (h : op.commits = none) :
    Swapped (w.log ++ [⟨w.state, (c, op), t⟩]) id ↔ Swapped w.log id := by
  rw [swapped_snoc, or_iff_left]
  exact fun hcommits => hcommits.2.2 h

omit [Runtime] [FileDigest] [Decoder] in
theorem TerminalRecord.Honest.congr {r : TerminalRecord} {p q : Prop} (h : r.Honest p) (hiff : q ↔ p) :
    r.Honest q :=
  ⟨fun hstatus => hiff.mpr (h.committed hstatus), fun hstatus hreason hq =>
    h.uncommitted hstatus hreason (hiff.mp hq)⟩

/-- What an operation has to keep. -/
theorem Truthful.snoc (h : Truthful w) (hsound : Sound ⟨t, w.log ++ [⟨w.state, (c, op), t⟩]⟩)
    (hopening : ∀ id stored, w.state.opening id = some stored → t.opening id = some stored)
    (hcommits : ∀ p, op.commits = some p → p.transactionId = c.transactionId ∧ Opened c t)
    (hclosed : ∀ id, t.terminal id ≠ none → t.opening id ≠ none)
    (honce : ∀ id stored, w.state.terminal id = some stored → t.terminal id = some stored)
    (hterminal : ∀ id r at', t.terminal id = some (.record r at') → r.lane = .operatorRebaseline →
      r.Honest (Swapped (w.log ++ [⟨w.state, (c, op), t⟩]) id)) :
    Truthful ⟨t, w.log ++ [⟨w.state, (c, op), t⟩]⟩ where
  sound := hsound
  owned := by
    rw [List.forall_mem_append, List.forall_mem_singleton]
    refine ⟨fun e he p hp => ?_, hcommits⟩
    obtain ⟨hid, b, at', hb, hsuits⟩ := h.owned e he p hp
    exact ⟨hid, b, at', hopening _ _ hb, hsuits⟩
  closed := hclosed
  terminal := hterminal
  once := by
    rw [List.forall_mem_append, List.forall_mem_singleton]
    exact ⟨h.once, honce⟩

/-- **A step of a call made in time keeps the reports true.** -/
theorem Truthful.step (laws : ProcessLaws) (hw₀ : Truthful w₀) (hw : Truthful w)
    (hextends : Extends w₀ c w) (htimely : Timely w₀ c) (hstep : Steps c w₀.state w.state op t) :
    Truthful ⟨t, w.log ++ [⟨w.state, (c, op), t⟩]⟩ := by
  cases hstep with
  | quiet hsame hop =>
      refine hw.snoc (hw.sound.quiet (hw.sound.accepted.of_same hsame.pointer hsame.generation)
        hsame.pointer hop) (fun id stored hid => by rw [hsame.opening, hid])
        (fun p hp => by rw [hop] at hp; cases hp) ?_ (fun id stored hid => by rw [hsame.terminal, hid]) ?_
      · rw [hsame.terminal, hsame.opening]
        exact hw.closed
      · rw [hsame.terminal]
        exact fun id r at' hr hlane => (hw.terminal id r at' hr hlane).congr (swapped_snoc_none hop)
  | @opening _ stored _ hnone _ hop =>
      have hopening : ∀ id stored', w.state.opening id = some stored' →
          (w.state.setBegin c.transactionId stored).opening id = some stored' := by
        intro id stored' hid
        have hne : id ≠ c.transactionId := fun heq => by rw [heq, hnone] at hid; cases hid
        simp [Files.setBegin, hne, hid]
      refine hw.snoc (hw.sound.quiet (hw.sound.accepted.of_same rfl rfl) rfl hop) hopening
        (fun p hp => by rw [hop] at hp; cases hp) (fun id hid => ?_) (fun _ _ => id)
        fun id r at' hr hlane => (hw.terminal id r at' hr hlane).congr (swapped_snoc_none hop)
      obtain ⟨stored', hstored'⟩ := Option.ne_none_iff_exists'.mp (hw.closed id hid)
      rw [hopening id stored' hstored']
      nofun
  | @promote _ _ candidate o hmove hid hopened hfound =>
      have hrecords := hmove.records
      have hopened' : Opened c t := hopened.of_opening hrecords.1
      refine hw.snoc (hw.sound.move laws hmove) (fun id stored h => by rw [hrecords.1, h])
        (fun p hp => ⟨?_, hopened'⟩) ?_ (fun id stored h => by rw [hrecords.2, h])
        fun id r at' hr hlane => ?_
      · cases hmove with
        | quiet _ _ _ _ _ hop => rw [commits_eq_none hop] at hp; cases hp
        | create _ => cases hp
        | commit _ _ _ _ =>
            obtain rfl := Option.some.inj hp
            exact hid
      · rw [hrecords.1, hrecords.2]
        exact hw.closed
      · rw [hrecords.2] at hr
        refine (hw.terminal id r at' hr hlane).congr ?_
        rw [swapped_snoc, or_iff_left]
        rintro ⟨hoperator, rfl, -⟩
        rw [(hfound hoperator).2] at hr
        cases hr
  | @terminal _ stored hnone hopened hstored hop =>
      have hkept : ∀ id stored', w.state.terminal id = some stored' →
          (w.state.setTerminal c.transactionId stored).terminal id = some stored' := by
        intro id stored' hid
        have hne : id ≠ c.transactionId := fun heq => by rw [heq, hnone] at hid; cases hid
        simp [Files.setTerminal, hne, hid]
      refine hw.snoc (hw.sound.quiet (hw.sound.accepted.of_same rfl rfl) rfl hop) (fun _ _ => id)
        (fun p hp => by rw [hop] at hp; cases hp) (fun id hid => ?_) hkept fun id r at' hr hlane => ?_
      · by_cases heq : id = c.transactionId
        · obtain ⟨b, at', hb, -⟩ := hopened
          rw [heq]
          exact fun hopening => by cases hb.symm.trans hopening
        · refine hw.closed id ?_
          simpa [Files.setTerminal, heq] using hid
      · by_cases heq : id = c.transactionId
        · subst heq
          have hr' : stored = .record r at' := by simpa [Files.setTerminal] using hr
          obtain ⟨hkind, hbacked⟩ := hstored r at' hr'
          have hoperator := hkind.mp hlane
          refine TerminalRecord.Honest.congr ⟨fun hstatus => ?_, fun hstatus hreason => ?_⟩
            (swapped_snoc_none hop)
          · exact hw.swapped_of_current (hopened.byOperator hoperator)
              ((hbacked hoperator).committed hstatus)
          · exact hextends.uncommitted hw₀ hw hoperator htimely
              ((hbacked hoperator).uncommitted hstatus hreason)
        · have hr' : w.state.terminal id = some (.record r at') := by
            simpa [Files.setTerminal, heq] using hr
          exact (hw.terminal id r at' hr' hlane).congr (swapped_snoc_none hop)

/-! ### Calls -/

def TransactionCall.program : TransactionCall → Task Reply
  | .operator t reviewed => operatorRebaseline t reviewed
  | .recovery transactionId => attemptRecovery transactionId

/-- One call after another. -/
abbrev Transacting := routingMachine.Runs (Λ := TransactionCall) TransactionCall.program

/-- What a call does, and what backs an operator's reply. -/
theorem TransactionCall.wp_program (laws : ProcessLaws) (hw : Truthful w) :
    c.program.wp routingMachine (Steps c w.state)
      (fun reply f => c.isOperator = true → reply.Backed w.state f c.transactionId) (fun _ _ => True)
      w.state := by
  cases c with
  | operator t reviewed =>
      have hclosed : w.state.opening t.transactionId = none → w.state.terminal t.transactionId = none := by
        intro hopening
        by_contra hterminal
        exact hw.closed _ hterminal hopening
      have hwp := wp_operatorRebaseline (c := .operator t reviewed) laws hw.sound.accepted rfl hclosed
      exact Program.wp_mono hwp (fun _ _ h _ => h) fun _ _ h => h
  | recovery transactionId =>
      exact Program.wp_mono (wp_attemptRecovery laws hw.sound.accepted rfl rfl) (fun _ _ _ => nofun)
        fun _ _ h => h

variable {l : Session TransactionCall RoutingOp Files AuthorityError Reply} {w' : Ledger}

/-- A call made in time keeps the reports true. -/
theorem Truthful.call (laws : ProcessLaws) (hw : Truthful w) (hcall : Transacting w l w')
    (htimely : Timely w l.call) : Truthful w' ∧ Extends w l.call w' :=
  hcall.keeps (fun v => Truthful v ∧ Extends w l.call v) (TransactionCall.wp_program laws hw)
    ⟨hw, [], (List.append_nil _).symm, by simp⟩
    fun hv hstep => ⟨Truthful.step laws hw hv.1 hv.2 htimely hstep, hv.2.snoc⟩

/-- The reply of an operator's call is true when it is given. -/
theorem Truthful.reply (laws : ProcessLaws) (hw : Truthful w) (hcall : Transacting w l w')
    (htimely : Timely w l.call) (hoperator : l.call.isOperator = true) {reply : Reply}
    (hreply : l.outcome = .value reply) : reply.Honest (Swapped w'.log l.call.transactionId) := by
  obtain ⟨hw', hextends⟩ := hw.call laws hcall htimely
  obtain ⟨-, hmeets⟩ := hcall.exec.meets (TransactionCall.wp_program laws hw)
  rw [hreply] at hmeets
  have hbacked := hmeets hoperator
  refine ⟨fun hstatus => ?_, fun hstatus hspeaks => ?_⟩
  · obtain ⟨hcurrent, hopened⟩ := hbacked.rebuilt hstatus
    exact hw'.swapped_of_current hopened hcurrent
  · rcases hbacked.other hstatus hspeaks with huncommitted | ⟨r, at', hr, hlane, hrecord, hreason⟩
    · exact hextends.uncommitted hw hw' hoperator htimely huncommitted
    · exact (hw'.terminal _ r at' hr hlane).uncommitted hrecord hreason

/-- Once a transaction is open, no later call swaps the pointer under it. -/
theorem Truthful.decided (laws : ProcessLaws) (hw : Truthful w) (hcall : Transacting w l w')
    (hopening : w.state.opening id ≠ none) :
    w'.state.opening id ≠ none ∧ (Swapped w'.log id ↔ Swapped w.log id) := by
  refine hcall.keeps (fun v => v.state.opening id ≠ none ∧ (Swapped v.log id ↔ Swapped w.log id))
    (TransactionCall.wp_program laws hw) ⟨hopening, .rfl⟩ fun {v op t} hv hstep => ?_
  cases hstep with
  | quiet hsame hop => exact ⟨hsame.opening ▸ hv.1, (swapped_snoc_none hop).trans hv.2⟩
  | @opening _ stored _ hnone _ hop =>
      refine ⟨?_, (swapped_snoc_none hop).trans hv.2⟩
      have hne : id ≠ l.call.transactionId := by
        rintro rfl
        exact hv.1 hnone
      simpa [Files.setBegin, hne] using hv.1
  | @promote _ _ candidate o hmove _ _ hfound =>
      refine ⟨hmove.records.1 ▸ hv.1, swapped_snoc.trans ?_⟩
      rw [or_iff_left]
      · exact hv.2
      · rintro ⟨hoperator, rfl, -⟩
        exact hopening (hfound hoperator).1
  | @terminal _ stored _ _ _ hop => exact ⟨hv.1, (swapped_snoc_none hop).trans hv.2⟩

/-! ### Runs -/

abbrev Sessions := List (Entry Ledger (Session TransactionCall RoutingOp Files AuthorityError Reply))

/-- What a run of calls leaves: the replies were true, and once a call left its transaction open, whether
it was committed no longer changes. -/
structure Reported (history : Sessions) (w : Ledger) : Prop where
  truthful : Truthful w
  replies : ∀ e ∈ history, e.label.call.isOperator = true → ∀ reply, e.label.outcome = .value reply →
    reply.Honest (Swapped e.after.log e.label.call.transactionId)
  decided : ∀ e ∈ history, ∀ id, e.after.state.opening id ≠ none →
    w.state.opening id ≠ none ∧ (Swapped w.log id ↔ Swapped e.after.log id)

theorem Truthful.start {f : Files} (hpointer : f.pointer = none) (hterminal : ∀ id, f.terminal id = none) :
    Truthful (⟨f, []⟩ : Ledger) where
  sound := .start hpointer
  owned := by simp
  closed id h := absurd (hterminal id) h
  terminal id r at' h := by
    rw [hterminal id] at h
    cases h
  once := by simp

theorem Reported.run (laws : ProcessLaws) (hw : Truthful w₀) {history : Sessions}
    (hrun : Run Transacting w₀ history w) (htimely : ∀ e ∈ history, Timely e.before e.label.call) :
    Reported history w := by
  induction hrun with
  | start => exact ⟨hw, by simp, by simp⟩
  | @snoc history w l w' hrun hcall ih =>
      rw [List.forall_mem_append, List.forall_mem_singleton] at htimely
      have hreported := ih htimely.1
      refine ⟨(hreported.truthful.call laws hcall htimely.2).1, ?_, ?_⟩
      · rw [List.forall_mem_append, List.forall_mem_singleton]
        exact ⟨hreported.replies, fun hoperator reply hreply =>
          hreported.truthful.reply laws hcall htimely.2 hoperator hreply⟩
      · rw [List.forall_mem_append, List.forall_mem_singleton]
        refine ⟨fun e he id hopening => ?_, fun id hopening => ⟨hopening, .rfl⟩⟩
        obtain ⟨hstill, hiff⟩ := hreported.decided e he id hopening
        obtain ⟨hstill', hiff'⟩ := hreported.truthful.decided laws hcall hstill
        exact ⟨hstill', hiff'.trans hiff⟩

end Invariant

/-! ### A run -/

namespace LateReplay

open CodingOS.Python.SampleProcess
open Sample (zeros generation generationId manifest)

def secondId : String := "cc4ee00e082d66882e82e53e4bf8823a8bfb79166580f2e02ec078603be917ca"

/-- The generation of the second candidate, which the builder of a recovery made. -/
def secondGeneration : Mapping := [
  ("id", .str secondId), ("sequence", .int 2), ("previous_id", .str generationId),
  ("transaction_id", .str "t2"), ("promoted_at", .str "2026-01-01T00:00:00Z"),
  ("promotion_reason", .str "coherent_app_update"), ("static_authority_sha256", zeros),
  ("dynamic_authority_sha256", zeros), ("config_projection_sha256", zeros),
  ("plugin_inventory_sha256", zeros), ("worker_runtime_bom_sha256", zeros),
  ("authority_snapshot_sha256", zeros)]

def secondManifest : Mapping := [
  ("authority_generation", .mapping secondGeneration),
  ("snapshot_id", .str (snapshotOf secondId))]

/-- The candidate of the operator: the text of the manifest after a space. -/
def first : List UInt8 := 0x20 :: utf8 (dumps manifest)

/-- The candidate of the recovery: the text of the manifest after a line feed. -/
def second : List UInt8 := 0x0a :: utf8 (dumps secondManifest)

def firstDigest : String := "c065b0adae85d1d36c84cddf69c889dd78d9242c422b1f8674acb47201e54fec"

/-- The digests of the texts of the run, told apart by their lengths. -/
scoped instance (priority := high) process : Runtime :=
  { runtime with
    sha256 := fun s =>
      if Nat.ble s.utf8ByteSize 100 then
        "99b6333569c2e999985f7a44f7e3b1fa295062a2d0aff5a1cbdc1a59ed3b324a"
      else if Nat.ble s.utf8ByteSize 700 then generationId
      else secondId }

scoped instance digest : FileDigest where
  sha256 bytes :=
    if bytes.head? = some 0x20 then firstDigest
    else if bytes.head? = some 0x0a then
      "0fc9338821d1aafcf65c3fb343ecb6d4581af684a49ec288b8cc48748e7dfabe"
    else "e3b0c44298fc1c149afbf4c8996fb92427ae41e4649b934ca495991b7852b855"

scoped instance decoder : Decoder where
  loads
    | 0x20 :: _ => some (.mapping manifest)
    | 0x0a :: _ => some (.mapping secondManifest)
    | _ => none

theorem laws : ProcessLaws where
  digest bytes := by
    unfold FileDigest.sha256 digest
    dsimp only
    split_ifs <;> decide +kernel
  float _ := by
    show "0.0".toList.head? ≠ some 'a'
    decide

/-- A host where every check passes. -/
def host : (op : RoutingOp) → Files → RoutingAnswer op × Files
  | .readPointer, f => (f.current, f)
  | .review, f => (.ok first, f)
  | .finalSnapshot, f => (.stable "0000000000000000000000000000000000000000000000000000000000000000", f)
  | .recoveryPreflight, f => (.ok (.coherentAppUpdate,
      "0000000000000000000000000000000000000000000000000000000000000000"), f)
  | .build, f => (.ready second, f)
  | op, f => Sample.world op f

def operatorCall : TransactionCall :=
  .operator ⟨"t1", "operator-1", "0000000000000000000000000000000000000000000000000000000000000000",
    firstDigest⟩ true

def recoveryCall : TransactionCall := .recovery "t2"

def session (c : TransactionCall) (budget : ℕ) (w : Ledger) :
    Session TransactionCall RoutingOp Files AuthorityError Reply :=
  let run := c.program.compute host budget w.state
  ⟨c, run.1, run.2.1⟩

def next (c : TransactionCall) (budget : ℕ) (w : Ledger) : Ledger :=
  let run := c.program.compute host budget w.state
  ⟨run.2.2, w.log ++ run.1.map (·.under c)⟩

theorem next_calls (c : TransactionCall) (budget : ℕ) (w : Ledger) :
    Transacting w (session c budget w) (next c budget w) := by
  refine ⟨Program.compute_exec (fun op f => ?_) budget _ _, rfl⟩
  cases op with
  | repairCompatibility content => exact .inl ⟨rfl, rfl⟩
  | _ => first | exact rfl | exact ⟨rfl, rfl⟩

/-- An empty directory. -/
def origin : Ledger := ⟨{}, []⟩

/-- The operator's run is cut after its swap, a recovery commits the next generation, and the run is
replayed. -/
def late : Ledger := next operatorCall 100 (next recoveryCall 100 (next operatorCall 14 origin))

/-- Whether the log has the operator's swap of the pointer. -/
def isSwapped (log : List (Entry Files (TransactionCall × RoutingOp))) : Bool :=
  log.any fun e => e.label.1.isOperator && e.label.1.transactionId == "t1" && e.label.2.commits.isSome

theorem swapped_of_isSwapped {log : List (Entry Files (TransactionCall × RoutingOp))}
    (h : isSwapped log = true) : Swapped log "t1" := by
  obtain ⟨e, he, hfacts⟩ := List.any_eq_true.mp h
  simp only [Bool.and_eq_true, beq_iff_eq, Option.isSome_iff_ne_none] at hfacts
  exact ⟨e, he, hfacts.1.1, hfacts.1.2, hfacts.2⟩

/-! The run is followed one operation at a time: what the texts are, what the programs become, and the files
after each of the three calls. -/

def noDigest : String := "0000000000000000000000000000000000000000000000000000000000000000"

abbrev madeAt : String := "2026-01-01T00:00:00Z"

def reviewed : OperatorTransaction := ⟨"t1", "operator-1", noDigest, firstDigest⟩

def firstCandidate : Candidate := ⟨first, generation, generationId⟩

def secondCandidate : Candidate := ⟨second, secondGeneration, secondId⟩

def firstPointer : Pointer := firstCandidate.pointer "t1" none 1

def secondPointer : Pointer := secondCandidate.pointer "t2" (some generationId) 2

abbrev firstOptions : PromoteOptions := ⟨"t1", none, firstDigest⟩

abbrev secondOptions : PromoteOptions := ⟨"t2", some generationId, ""⟩

/-! ### Texts -/

/-- The texts of the operator's call. -/
theorem digest_texts : normalizedSha256 (.str noDigest) = noDigest ∧ normalizedSha256 (.str firstDigest) =
    firstDigest ∧ normalizedSha256 (.str "") = "" ∧ noDigest ≠ "" ∧ firstDigest ≠ "" ∧
    isTransactionId "t1" = true ∧ isTransactionId "t2" = true ∧ ("t2" : String) ≠ "t1" ∧
    secondId ≠ generationId ∧ isBlank "operator-1" = false := by
  refine ⟨?_, ?_, ?_, ?_, ?_, ?_, ?_, ?_, ?_, ?_⟩ <;> decide +kernel

/-- A manifest whose generation passes its checks under the identity, the transaction and the number. -/
structure Passes (manifest generation : Mapping) (id transactionId : String) (sequence : ℤ)
    (previous : Option String) : Prop where
  read : manifest.read "authority_generation" = .mapping generation
  numbered : numberedGeneration generation = true
  reason : isContainer (generation.read "promotion_reason") = false
  attested : attestedGeneration generation = true
  identity : Runtime.sha256 (dumps (generationPayload generation)) = id
  declared : declaredId generation = id
  digest : isDigest id = true
  transaction : (generation.read "transaction_id").eq (.str transactionId) = true
  snapshot : orEmpty (manifest.read "snapshot_id") = snapshotOf id
  sequence : (generation.read "sequence").eq (.int sequence) = true
  previous : (generation.read "previous_id").eq (optionalText previous) = true

theorem manifests_pass : Passes manifest generation generationId "t1" 1 none ∧
    Passes secondManifest secondGeneration secondId "t2" 2 (some generationId) := by
  constructor <;> constructor <;> decide +kernel

theorem Passes.computed {m g : Mapping} {id transactionId : String} {n : ℤ} {previous : Option String}
    (h : Passes m g id transactionId n previous) : authorityGenerationId g = .ok id := by
  rw [authorityGenerationId, h.numbered, h.reason, h.attested, h.identity]
  rfl

theorem first_read : readCandidate (some first) "t1" firstDigest = .ok firstCandidate := by
  have h := manifests_pass.1
  have hload : Decoder.loads first = some (.mapping manifest) := rfl
  have hsha : FileDigest.sha256 first = firstDigest := rfl
  refine readCandidate_of hload digest_texts.2.1 ?_ h.read h.declared h.digest h.computed h.transaction
    h.snapshot
  rw [hsha, beq_self_eq_true, Bool.or_true]

theorem second_read : readCandidate (some second) "t2" "" = .ok secondCandidate := by
  have h := manifests_pass.2
  have hload : Decoder.loads second = some (.mapping secondManifest) := rfl
  exact readCandidate_of hload digest_texts.2.2.1 rfl h.read h.declared h.digest h.computed h.transaction
    h.snapshot

theorem first_next : firstCandidate.Next firstOptions none :=
  ⟨rfl, manifests_pass.1.sequence, manifests_pass.1.previous⟩

theorem second_next : secondCandidate.Next secondOptions (some firstPointer) :=
  ⟨rfl, manifests_pass.2.sequence, manifests_pass.2.previous⟩

theorem current_first {f : Files} (hp : f.pointer = some firstPointer)
    (hstored : f.generation generationId = some first) : f.current = .ok (some firstPointer) := by
  rw [Files.current, hp]
  exact (readCandidate_eq_ok first_read).2.accepted laws hstored first_next.sequence first_next.previousId

theorem current_second {f : Files} (hp : f.pointer = some secondPointer)
    (hstored : f.generation secondId = some second) : f.current = .ok (some secondPointer) := by
  rw [Files.current, hp]
  exact (readCandidate_eq_ok second_read).2.accepted laws hstored second_next.sequence second_next.previousId

/-! ### Programs -/

theorem operator_program : operatorCall.program = operatorLocked reviewed ∧ reviewed.normalized = reviewed ∧
    reviewed.authority = noDigest ∧ reviewed.candidate = firstDigest := by
  obtain ⟨hno, hfirst, -, hno', hfirst', hid, -, -, -, hblank⟩ := digest_texts
  have hauthority : reviewed.authority = noDigest := hno
  have hcandidate : reviewed.candidate = firstDigest := hfirst
  refine ⟨?_, ?_, hauthority, hcandidate⟩
  · show operatorRebaseline reviewed true = _
    rw [operatorRebaseline, show isBlank reviewed.authorizationId = false from hblank,
      if_neg Bool.false_ne_true, if_neg (hauthority ▸ hno'), if_neg (hcandidate ▸ hfirst'),
      show isTransactionId reviewed.transactionId = true from hid]
    rfl
  · rw [OperatorTransaction.normalized, hauthority, hcandidate]
    rfl

/-- The record that opens the operator's transaction. -/
def firstBegin : BeginRecord := ⟨"t1", .operatorRebaseline, none, noDigest, firstDigest,
  if "operator-1" == "" then "" else Runtime.sha256 "operator-1"⟩

/-- The record that opens the recovery. -/
def secondBegin : BeginRecord := ⟨"t2", .coherentAppUpdate, some generationId, noDigest, "",
  if "" == "" then "" else Runtime.sha256 ""⟩

theorem first_begin : writeAuthorityTransactionBegin "t1" .operatorRebaseline none noDigest firstDigest
    "operator-1" = writeIdempotentTransactionRecord (ask (.readBegin "t1"))
      (fun recordedAt => ask (.createBegin "t1" firstBegin recordedAt)) firstBegin := by
  obtain ⟨hno, hfirst, -, hno', hfirst', hid, -, -, -, hblank⟩ := digest_texts
  have hlane : (Lane.operatorRebaseline == .operatorRebaseline) = (firstDigest != "") :=
    (bne_iff_ne.mpr hfirst').symm
  exact begin_of hid hno hno' hfirst hlane none "operator-1"

theorem second_begin : writeAuthorityTransactionBegin "t2" .coherentAppUpdate (some generationId) noDigest ""
    "" = writeIdempotentTransactionRecord (ask (.readBegin "t2"))
      (fun recordedAt => ask (.createBegin "t2" secondBegin recordedAt)) secondBegin := by
  obtain ⟨hno, -, hempty, hno', -, -, hid, -⟩ := digest_texts
  exact begin_of hid hno hno' hempty rfl (some generationId) ""

/-- How the recovery ends. -/
def recovered : Concluded := committedAs { status := .error, reasonCode := "RECOVERY_ABORTED" } "t2"
  Lane.coherentAppUpdate.reasonCode secondPointer.generationId

/-- How the replay of the operator's transaction ends. -/
def interrupted : Ending where
  status := .error
  reasonCode := "AUTHORITY_TRANSACTION_INTERRUPTED_BEFORE_COMMIT"
  expectedAuthority := noDigest
  expectedCandidate := firstDigest

theorem recovered_terminal : writeAuthorityTransactionTerminal "t2" .coherentAppUpdate recovered.ending =
    writeIdempotentTransactionRecord (ask (.readTerminal "t2"))
      (fun recordedAt => ask (.createTerminal "t2" (recovered.ending.record "t2" .coherentAppUpdate) recordedAt))
      (recovered.ending.record "t2" .coherentAppUpdate) := by
  refine terminal_of digest_texts.2.2.2.2.2.2.1 ?_
  rw [Ending.check, if_neg (by decide)]
  exact requireValue_true _

theorem interrupted_terminal : writeAuthorityTransactionTerminal "t1" .operatorRebaseline interrupted =
    writeIdempotentTransactionRecord (ask (.readTerminal "t1"))
      (fun recordedAt => ask (.createTerminal "t1" (interrupted.record "t1" .operatorRebaseline) recordedAt))
      (interrupted.record "t1" .operatorRebaseline) := by
  obtain ⟨hno, hfirst, -, hno', hfirst', hid, -, -, -, hblank⟩ := digest_texts
  refine terminal_of hid ?_
  have hexpected : (interrupted.record "" .operatorRebaseline).expectedAuthoritySnapshotSha256 = noDigest := hno
  have hreviewed : (interrupted.record "" .operatorRebaseline).expectedCandidateSha256 = firstDigest := hfirst
  rw [Ending.check, if_pos rfl, hexpected, hreviewed, bne_iff_ne.mpr hno', bne_iff_ne.mpr hfirst']
  show requireValue true _ >>= _ = _
  rw [requireValue_true, Program.ret_bind]
  show requireValue true _ >>= _ = _
  rw [requireValue_true, Program.ret_bind]
  show requireValue true _ >>= _ = _
  rw [requireValue_true, Program.ret_bind]
  exact requireValue_true _

/-! ### The three calls -/

theorem next_state (c : TransactionCall) (budget : ℕ) (w : Ledger) :
    (next c budget w).state = (c.program.compute host budget w.state).2.2 := rfl

theorem next_history (c : TransactionCall) (budget : ℕ) (w : Ledger) :
    (next c budget w).log = w.log ++ (c.program.compute host budget w.state).1.map (·.under c) := rfl

theorem host_readPointer {f : Files} {p : Option Pointer} (h : f.current = .ok p) :
    host .readPointer f = (.ok p, f) := by
  rw [host, h]

/-- What the cut leaves of the operator's run. -/
def cutFiles : Files where
  pointer := some firstPointer
  generation := Function.update (fun _ => none) generationId (some first)
  candidate := Function.update (fun _ => none) "t1" (some first)
  opening := Function.update (fun _ => none) "t1" (some (.record firstBegin madeAt))

theorem cut_run : (next operatorCall 14 origin).state = cutFiles ∧
    isSwapped (next operatorCall 14 origin).log = true := by
  obtain ⟨hprogram, hnormalized, hauthority, hcandidate⟩ := operator_program
  have hid : reviewed.transactionId = "t1" := rfl
  have hauthorization : reviewed.authorizationId = "operator-1" := rfl
  have hsnapshot : ("0000000000000000000000000000000000000000000000000000000000000000" : String) =
    noDigest := rfl
  have hsha : FileDigest.sha256 first = firstDigest := rfl
  have hopens : isTransactionId "t1" = true := digest_texts.2.2.2.2.2.1
  rw [next_history, next_state, hprogram, show origin.state = {} from rfl, show origin.log = [] from rfl,
    List.nil_append]
  -- The transaction is not open, and the reviewed candidate is the one that was named.
  simp -implicitDefEqProofs only [operatorLocked, hnormalized, replayOperatorTransaction, hid, hopens,
    requireValue_true, Program.ret_bind, Program.call_bind, Program.handle_call, ask,
    Program.perform_eq, Program.pure_eq_ret, Program.compute_call_state, Program.compute_call_history, host,
    Sample.world, attempt, currentPointer, Program.ofExcept, beginReviewed, hauthority, hcandidate,
    writeImmutableBytes]
  -- The transaction opens.
  simp -implicitDefEqProofs only [Files.current, readGenerationPointer, hsha, bne_self_eq_false,
    Bool.false_eq_true, if_false, Option.map_none, Option.isNone_none, Program.call_bind, Program.ret_bind,
    Program.handle_ret, Program.handle_call, Program.compute_call_state, Program.compute_call_history, host,
    Sample.world, hauthorization, first_begin, writeIdempotentTransactionRecord, ask, Program.perform_eq,
    require_true, Files.setCandidate, if_true]
  -- The candidate is promoted.
  simp -implicitDefEqProofs only [applyReviewed, settle, ask, Program.perform_eq, Program.call_bind,
    Program.ret_bind, Program.handle_call, Program.compute_call_state, Program.compute_call_history, host,
    Sample.world, hid, hauthority, hcandidate, hsnapshot, bne_self_eq_false, Bool.false_eq_true, if_false,
    Files.setBegin, Function.update_self, promote_of_read (o := firstOptions) first_read,
    currentPointer, Files.current, readGenerationPointer, Program.ofExcept]
  -- The pointer is replaced.
  simp -implicitDefEqProofs only [Program.call_bind, Program.ret_bind, Program.handle_call, Program.pure_eq_ret,
    Program.compute_call_state, Program.compute_call_history, Program.compute_cut_state,
    Program.compute_cut_history, host, Sample.world, commit_of_next first_next, Option.isNone_none, if_true,
    writeImmutableBytes, ask, Program.perform_eq, Files.current, readGenerationPointer, Program.ofExcept,
    Files.setGeneration, beq_self_eq_true, require_true, currentPointer, promotionResult]
  exact ⟨rfl, rfl⟩

theorem cutFiles_first : cutFiles.generation generationId = some first := by
  show Function.update (fun _ => none) generationId (some first) generationId = some first
  rw [Function.update_self]

theorem cutFiles_second : cutFiles.generation secondId = none := by
  show Function.update (fun _ => none) generationId (some first) secondId = none
  rw [Function.update_of_ne digest_texts.2.2.2.2.2.2.2.2.1]

theorem cutFiles_opening : cutFiles.opening "t2" = none := by
  show Function.update (fun _ => none) "t1" (some (Stored.record firstBegin madeAt)) "t2" = none
  rw [Function.update_of_ne digest_texts.2.2.2.2.2.2.2.1]

/-- What the recovery leaves. -/
def recoveredFiles : Files where
  pointer := some secondPointer
  generation := Function.update cutFiles.generation secondId (some second)
  compatibility := some second
  candidate := cutFiles.candidate
  opening := Function.update cutFiles.opening "t2" (some (.record secondBegin madeAt))
  terminal := Function.update (fun _ => none) "t2"
    (some (.record (recovered.ending.record "t2" .coherentAppUpdate) madeAt))

theorem recovery_run (log : List (Entry Files (TransactionCall × RoutingOp))) :
    (next recoveryCall 100 ⟨cutFiles, log⟩).state = recoveredFiles := by
  have hsnapshot : ("0000000000000000000000000000000000000000000000000000000000000000" : String) =
    noDigest := rfl
  have hprevious : firstPointer.generationId = generationId := rfl
  have hid : secondCandidate.generationId = secondId := rfl
  have hcontent : secondCandidate.content = second := rfl
  have hpointer : secondCandidate.pointer "t2" (some generationId) (nextSequence (some firstPointer)) =
    secondPointer := rfl
  have hfound : (cutFiles.setBegin "t2" (.record secondBegin madeAt)).current = .ok (some firstPointer) :=
    current_first rfl cutFiles_first
  have habsent : (cutFiles.setBegin "t2" (.record secondBegin madeAt)).generation secondId = none :=
    cutFiles_second
  have hagain : ((cutFiles.setBegin "t2" (.record secondBegin madeAt)).setGeneration secondId second).current =
      .ok (some firstPointer) := by
    refine current_first rfl ?_
    show Function.update cutFiles.generation secondId (some second) generationId = some first
    rw [Function.update_of_ne digest_texts.2.2.2.2.2.2.2.2.1.symm, cutFiles_first]
  have hother : secondCandidate.isReplay secondOptions firstPointer = false := by
    have hid : (firstPointer.generationId == secondCandidate.generationId) = false :=
      beq_eq_false_iff_ne.mpr digest_texts.2.2.2.2.2.2.2.2.1.symm
    rw [Candidate.isReplay, hid]
    rfl
  have hlane : (Lane.coherentAppUpdate = .operatorRebaseline) = False := eq_false (by decide)
  have hopen : ((cutFiles.setBegin "t2" (.record secondBegin madeAt)).setGeneration secondId second).terminal
    "t2" = none := rfl
  have houtcome : recovered.outcome =
    .ok ⟨.rebuilt, Lane.coherentAppUpdate.reasonCode, "t2", secondPointer.generationId⟩ := rfl
  rw [next_state]
  -- The recovery opens.
  simp -implicitDefEqProofs only [recoveryCall, TransactionCall.program, attemptRecovery, Program.call_bind,
    Program.ret_bind, Program.handle_call, Program.handle_ret, Program.pure_eq_ret, ask, Program.perform_eq,
    Program.compute_call_state, host.eq_4, host.eq_5, host.eq_6, Sample.world, attempt, currentPointer,
    host_readPointer (current_first (f := cutFiles) rfl cutFiles_first), Program.ofExcept, Option.map_some,
    hlane, if_false, hsnapshot, hprevious, second_begin, writeIdempotentTransactionRecord, cutFiles_opening,
    Option.isNone_none, if_true, require_true, applyBuilt, settle,
    promote_of_read (o := secondOptions) second_read]
  rw [host_readPointer hfound]
  -- It promotes its candidate.
  simp -implicitDefEqProofs only [Program.call_bind, Program.ret_bind, Program.handle_call,
    Program.compute_call_state, host.eq_6, Sample.world, Program.ofExcept, hother, Bool.false_eq_true, if_false,
    commit_of_next second_next, hid, hcontent, hpointer, ask, Program.perform_eq, writeImmutableBytes, habsent,
    Option.isNone_none, if_true, Program.pure_eq_ret, currentPointer]
  rw [host_readPointer hagain]
  simp -implicitDefEqProofs only [Program.call_bind, Program.ret_bind, Program.handle_call, Program.handle_ret,
    Program.compute_call_state, host.eq_6, Sample.world, Program.ofExcept, ask, Program.perform_eq,
    beq_self_eq_true, require_true, promotionResult, Program.pure_eq_ret]
  -- It ends.
  rw [show committedAs { status := .error, reasonCode := "RECOVERY_ABORTED" } "t2"
    Lane.coherentAppUpdate.reasonCode secondPointer.generationId = recovered from rfl]
  simp -implicitDefEqProofs only [conclude, recovered_terminal, writeIdempotentTransactionRecord, attempt,
    Program.call_bind, Program.ret_bind, Program.handle_call, Program.handle_ret, Program.pure_eq_ret, ask,
    Program.perform_eq, Program.compute_call_state, Program.compute_ret_state, host.eq_6, Sample.world, hopen,
    Option.isNone_none, if_true, require_true, Program.ofExcept,
    houtcome]
  rfl

theorem replay_run (log : List (Entry Files (TransactionCall × RoutingOp))) :
    (next operatorCall 100 ⟨recoveredFiles, log⟩).state.terminal "t1" =
      some (.record (interrupted.record "t1" .operatorRebaseline) madeAt) := by
  obtain ⟨hprogram, hnormalized, hauthority, hcandidate⟩ := operator_program
  have hid : reviewed.transactionId = "t1" := rfl
  have hvalid : isTransactionId "t1" = true := digest_texts.2.2.2.2.2.1
  have hne : ("t1" : String) ≠ "t2" := digest_texts.2.2.2.2.2.2.2.1.symm
  have hopening : recoveredFiles.opening "t1" = some (.record firstBegin madeAt) := by
    show Function.update cutFiles.opening "t2" (some (Stored.record secondBegin madeAt)) "t1" = _
    rw [Function.update_of_ne hne]
    show Function.update (fun _ => none) "t1" (some (Stored.record firstBegin madeAt)) "t1" = _
    rw [Function.update_self]
  have hterminal : recoveredFiles.terminal "t1" = none := by
    show Function.update (fun _ => none) "t2" (some (Stored.record
      (recovered.ending.record "t2" .coherentAppUpdate) madeAt)) "t1" = _
    rw [Function.update_of_ne hne]
  have hstored : recoveredFiles.generation secondId = some second := by
    show Function.update cutFiles.generation secondId (some second) secondId = _
    rw [Function.update_self]
  have hopens : reviewed.opens firstBegin = true := by
    have hauthorization : (if "operator-1" == "" then "" else Runtime.sha256 "operator-1") =
      Runtime.sha256 reviewed.authorizationId := if_neg (by decide)
    rw [OperatorTransaction.opens, hauthority, hcandidate, ← hauthorization, hid]
    simp only [firstBegin, beq_self_eq_true, Bool.and_self]
  have hother : (secondPointer.transactionId == "t1") = false := beq_eq_false_iff_ne.mpr hne.symm
  have hending : (⟨.error, "AUTHORITY_TRANSACTION_INTERRUPTED_BEFORE_COMMIT", "", noDigest, firstDigest, "",
    ""⟩ : Ending) = interrupted := rfl
  rw [next_state, hprogram]
  simp -implicitDefEqProofs only [operatorLocked, hnormalized, replayOperatorTransaction, hid, hvalid,
    requireValue_true, Program.ret_bind, Program.call_bind, Program.handle_call, Program.handle_ret,
    Program.pure_eq_ret, ask, Program.perform_eq, Program.compute_call_state, Program.compute_ret_state,
    host.eq_6, Sample.world, hopening, hterminal, Stored.stable?, hopens, Bool.not_true, Bool.false_eq_true,
    if_false, if_true, replayInterrupted, hauthority, hcandidate, attempt, currentPointer,
    host_readPointer (current_second (f := recoveredFiles) rfl hstored), Program.ofExcept, hother, hending,
    interrupted_terminal, writeIdempotentTransactionRecord, Option.isNone_none, require_true,
    Files.setTerminal, Function.update_self]

theorem eq_of_state {w : Ledger} {f : Files} (h : w.state = f) : w = ⟨f, w.log⟩ := by
  cases w
  rw [← h]

theorem late_state : late.state.terminal "t1" =
    some (.record (interrupted.record "t1" .operatorRebaseline) madeAt) := by
  rw [late, eq_of_state cut_run.1, eq_of_state (recovery_run _)]
  exact replay_run _

/-- What was swapped stays in the log. -/
theorem isSwapped_next {c : TransactionCall} {budget : ℕ} {w : Ledger} (h : isSwapped w.log = true) :
    isSwapped (next c budget w).log = true := by
  rw [isSwapped] at h
  rw [next_history, isSwapped, List.any_append, h, Bool.true_or]

theorem late_log : isSwapped late.log = true := isSwapped_next (isSwapped_next cut_run.2)

end LateReplay

section Runs

open LateReplay
open CodingOS.Python.SampleProcess

end Runs

end CodingOS.ManifestRecovery
