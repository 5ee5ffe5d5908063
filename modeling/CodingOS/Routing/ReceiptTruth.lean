import CodingOS.Routing.Calls

/-!
# Truthful and final receipts

A transaction gets one receipt, which never changes: a later call with its identifier returns it and
writes nothing, or raises because the target drifted or the facts differ.  An applied receipt is written
with the materialized policy in place.

A receipt that claims no effect says that the transaction left the target as it found it.  Recovery breaks
that where the transaction expected no policy, found one, and is retried without a receipt while the
target has its materialized bytes: it deletes the target.  `policy_receipts`: in every run without such a
retry the receipts are truthful.
-/

namespace CodingOS.Routing

open CodingOS.Python Systems

section Receipts

variable [FileDigest]

/-- The target as a transaction found it: when its journal appeared. -/
def found (log : List (Entry Files (Call × PolicyOp))) (id : String) :
    Option (Option (List UInt8)) :=
  (log.find? fun e => (e.before.workspace id).journal.isNone
    && (e.after.workspace id).journal.isSome).map (·.before.target)

/-- No call of the transaction wrote the target. -/
def Untouched (log : List (Entry Files (Call × PolicyOp))) (id : String) : Prop :=
  ∀ e ∈ log, e.label.1.options.transactionId = id → e.label.2.writesTarget = false

/-- The transaction never wrote the target, or the target has the digest it had when the transaction found
it. -/
def LeftAsFound (log : List (Entry Files (Call × PolicyOp))) (id : String) (f : Files) : Prop :=
  Untouched log id ∨ ∃ x, found log id = some x ∧ targetDigest f.target = targetDigest x

/-- The outcomes that claim no effect. -/
def noEffectOutcomes : List ReceiptOutcome := [.rolledBack, .recoveredRolledBack, .preconditionFailed]

/-- What an operation may do to the receipts. -/
structure ReceiptLaw (earlier : List (Entry Files (Call × PolicyOp)))
    (e : Entry Files (Call × PolicyOp)) : Prop where
  final : ∀ id r, (e.before.workspace id).receipt = some r → (e.after.workspace id).receipt = some r
  own : ∀ id r, (e.before.workspace id).receipt = none → (e.after.workspace id).receipt = some r →
    id = e.label.1.options.transactionId
  applied : ∀ id r, (e.before.workspace id).receipt = none → (e.after.workspace id).receipt = some r →
    r.outcome = .applied →
    ∃ m, e.label.1.accepted = some m ∧ e.before.target = some m.policyBytes
      ∧ e.after.target = some m.policyBytes
  noEffect : ∀ id r, (e.before.workspace id).receipt = none →
    (e.after.workspace id).receipt = some r → r.outcome ∈ noEffectOutcomes →
    LeftAsFound earlier id e.before ∧ e.after.target = e.before.target

variable [Runtime]

/-- A call of a transaction that has its receipt returns it and writes nothing, or raises because the
target drifted or the facts differ. -/
def Replays (e : Entry (Logged Files (Call × PolicyOp))
    (Session Call PolicyOp Files PolicyError Receipt)) : Prop :=
  ∀ r, (e.before.state.workspace e.label.call.options.transactionId).receipt = some r →
    (∀ o ∈ e.label.history, o.label.writesTarget = false ∧ o.after = o.before) ∧
      e.after.state = e.before.state ∧
      e.label.outcome.Meets (fun r' _ => r' = r ∧ e.label.call.binding = some r.binding)
        (fun _ f => e.label.call.binding = some r.binding → Drifted r.binding f r) e.after.state

/-- A call that finds its transaction interrupted, and the target at its own materialized digest where it
expected none, finds that the transaction had found none. -/
def FindsItsBaseline (w : Logged Files (Call × PolicyOp)) (c : Call) : Prop :=
  ∀ b j, c.binding = some b → Interrupted b w.state j →
    targetDigest w.state.target = b.materializedSha256 →
    b.materializedSha256 ≠ b.expectedTargetSha256 → b.expectedTargetSha256 = missing →
    ∃ x, found w.log b.transactionId = some x ∧ targetDigest x = missing

/-! ### What the log says of a transaction -/

variable {log : List (Entry Files (Call × PolicyOp))} {e : Entry Files (Call × PolicyOp)} {id : String}
  {b : Binding} {f f' f₀ : Files}

omit [Runtime] in
theorem found_snoc_of_same
    (h : (e.after.workspace id).journal = (e.before.workspace id).journal) :
    found (log ++ [e]) id = found log id := by
  have hnever : ((e.before.workspace id).journal.isNone
      && (e.after.workspace id).journal.isSome) = false := by
    rw [h]
    cases (e.before.workspace id).journal <;> rfl
  simp [found, hnever]

omit [Runtime] in
/-- Once a transaction was found it stays found. -/
theorem found_snoc_of_some {x : Option (List UInt8)} (h : found log id = some x) :
    found (log ++ [e]) id = some x := by
  obtain ⟨o, ho, rfl⟩ := Option.map_eq_some_iff.mp h
  rw [found, List.find?_append, ho]
  rfl

omit [Runtime] in
theorem found_snoc_of_opens (h : found log id = none)
    (hbefore : (e.before.workspace id).journal = none) {j : Journal}
    (hafter : (e.after.workspace id).journal = some j) :
    found (log ++ [e]) id = some e.before.target := by
  rw [found, List.find?_append, Option.map_eq_none_iff.mp h]
  simp [hbefore, hafter]

omit [Runtime] in
theorem Untouched.snoc (h : Untouched log id)
    (he : e.label.1.options.transactionId = id → e.label.2.writesTarget = false) :
    Untouched (log ++ [e]) id := by
  intro o ho hid
  rcases List.mem_append.mp ho with ho | ho
  · exact h o ho hid
  · obtain rfl := List.mem_singleton.mp ho
    exact he hid

/-! ### The invariant of one transaction -/

/-- What the log and the files agree on about a transaction. -/
structure Kept (log : List (Entry Files (Call × PolicyOp))) (f : Files) (id : String) : Prop where
  fresh : (f.workspace id).journal = none →
    found log id = none ∧ Untouched log id ∧ (f.workspace id).backup = none
  opened : ∀ j, (f.workspace id).journal = some j → j.binding.transactionId = id ∧
    ∃ x, found log id = some x ∧ (j.phase ∈ preparingPhases → Untouched log id) ∧
      (targetDigest x ≠ j.binding.expectedTargetSha256 →
        Untouched log id ∧ (f.workspace id).backup = none)
  receipt : ∀ r, (f.workspace id).receipt = some r →
    r.binding.transactionId = id ∧ Evidenced f r

/-- The invariant reads the records of the transaction, what it found and whether it wrote. -/
theorem Kept.frame {log' : List (Entry Files (Call × PolicyOp))} (h : Kept log f id)
    (hrecords : f'.records id = f.records id) (hfound : found log' id = found log id)
    (huntouched : Untouched log id → Untouched log' id) : Kept log' f' id := by
  have hjournal : (f'.workspace id).journal = (f.workspace id).journal := congrArg Prod.fst hrecords
  have hreceipt : (f'.workspace id).receipt = (f.workspace id).receipt :=
    congrArg (fun r => r.2.1) hrecords
  have hbackup : (f'.workspace id).backup = (f.workspace id).backup :=
    congrArg (fun r => r.2.2) hrecords
  refine ⟨fun hnone => ?_, fun j hj => ?_, fun r hr => ?_⟩
  · obtain ⟨hnever, hfree, hempty⟩ := h.fresh (hjournal ▸ hnone)
    exact ⟨hfound.trans hnever, huntouched hfree, hbackup.trans hempty⟩
  · obtain ⟨hid, x, hx, hpreparing, hother⟩ := h.opened j (hjournal ▸ hj)
    refine ⟨hid, x, hfound.trans hx, fun hphase => huntouched (hpreparing hphase), fun hne => ?_⟩
    exact ⟨huntouched (hother hne).1, hbackup.trans (hother hne).2⟩
  · obtain ⟨hid, hbody, j, hj, hdigest⟩ := h.receipt r (hreceipt ▸ hr)
    refine ⟨hid, hbody, j, ?_, hdigest⟩
    rw [hid] at hj ⊢
    exact hjournal.trans hj

/-! ### During a call -/

/-- What is known while a call under `b` runs that began in `w`. -/
structure During (b : Binding) (w v : Logged Files (Call × PolicyOp)) : Prop where
  same : (∀ j, (w.state.workspace b.transactionId).journal = some j → j.binding = b) →
    ∀ j, (v.state.workspace b.transactionId).journal = some j → j.binding = b
  found : ∀ x, found w.log b.transactionId = some x → found v.log b.transactionId = some x
  opening : (w.state.workspace b.transactionId).journal = none →
    (∀ j, (v.state.workspace b.transactionId).journal = some j → j.phase ∈ preparingPhases →
      v.state.target = w.state.target) ∧
    ((v.state.workspace b.transactionId).journal = none → v.state.target = w.state.target) ∧
    ∀ x, Routing.found v.log b.transactionId = some x → x = w.state.target
  resumed : ∀ j, (w.state.workspace b.transactionId).journal = some j → j.phase ∈ preparingPhases →
    Untouched v.log b.transactionId

/-- Nothing has happened before the first move. -/
theorem During.refl {w : Logged Files (Call × PolicyOp)}
    (h : ∀ id, Kept w.log w.state id) : During b w w where
  same hsame := hsame
  found _ hx := hx
  opening hnone := ⟨fun _ _ _ => rfl, fun _ => rfl, fun x hx => by
    rw [((h _).fresh hnone).1] at hx
    cases hx⟩
  resumed j hj hphase := by
    obtain ⟨-, x, -, hpreparing, -⟩ := (h _).opened j hj
    exact hpreparing hphase

variable {c : Call} {m : Materialized} {w v : Logged Files (Call × PolicyOp)} {op : PolicyOp} {t : Files}

/-- A move changes the records of its own transaction alone. -/
theorem Moves.other {policy : List UInt8} (h : Moves b policy f₀ f op f')
    (hid : id ≠ b.transactionId) : f'.records id = f.records id := by
  have hupdate : ∀ change, (f.update b.transactionId change).records id = f.records id := by
    intro change
    simp [Files.records, Files.update, hid]
  cases h with
  | quiet _ _ hrecords => exact congrFun hrecords id
  | journal | backup | receipt => exact hupdate _
  | promote _ _ _ _ _ _ _ hrecords => exact congrFun hrecords id
  | restore hrestores => exact congrFun hrestores.records id

/-- A promotion is made by the call that opened its transaction and found the target as expected, a
restoration too or by one that resumed it. -/
theorem During.writes {policy : List UInt8} (h : During b w v)
    (hmove : Moves b policy w.state v.state op t) (hop : op.writesTarget = true) :
    (w.state.workspace b.transactionId).journal = none ∧
        targetDigest w.state.target = b.expectedTargetSha256 ∧
        (∃ j, (v.state.workspace b.transactionId).journal = some j ∧ j.phase ∉ preparingPhases) ∨
      (∃ j, Interrupted b w.state j ∧ v.state = w.state ∧ Restores b v.state op t ∧
        targetDigest v.state.target = b.materializedSha256 ∧
        b.materializedSha256 ≠ b.expectedTargetSha256) := by
  cases hmove with
  | quiet hquiet => simp [hquiet] at hop
  | journal | backup | receipt => cases hop
  | promote hfresh hexpected _ hstored _ hphase =>
      exact .inl ⟨hfresh, hexpected, _, hstored, by simp [hphase, preparingPhases]⟩
  | restore hrestores hmaterialized hne hsource =>
      rcases hsource with ⟨hfresh, hexpected⟩ | ⟨j, hinterrupted, hstart⟩
      · refine .inl ⟨hfresh, hexpected, ?_⟩
        obtain ⟨hpreparing, hnone, -⟩ := h.opening hfresh
        cases hjournal : (v.state.workspace b.transactionId).journal with
        | none => exact absurd (hnone hjournal ▸ hexpected) hne
        | some j =>
            exact ⟨j, rfl, fun hphase => hne (hpreparing j hjournal hphase ▸ hexpected)⟩
      · exact .inr ⟨j, hinterrupted, hstart, hrestores, hmaterialized, hmaterialized ▸ hne⟩

/-- What is known during a call stays known after each move. -/
theorem During.move {policy : List UInt8} (hkept : Kept v.log v.state b.transactionId)
    (h : During b w v) (hmove : Moves b policy w.state v.state op t) :
    During b w ⟨t, v.log ++ [⟨v.state, (c, op), t⟩]⟩ := by
  -- a move that leaves the journal and the target alone
  have hquiet : op.writesTarget = false → t.target = v.state.target →
      (t.workspace b.transactionId).journal = (v.state.workspace b.transactionId).journal →
      During b w ⟨t, v.log ++ [⟨v.state, (c, op), t⟩]⟩ := by
    intro hop htarget hjournal
    refine ⟨fun hsame => ?_, fun x hx => found_snoc_of_some (h.found x hx), fun hnone => ?_, ?_⟩
    · rw [hjournal]
      exact h.same hsame
    · rw [found_snoc_of_same hjournal, hjournal, htarget]
      exact h.opening hnone
    · exact fun j hj hphase => (h.resumed j hj hphase).snoc fun _ => hop
  have hwriting := h.writes hmove
  cases hmove with
  | quiet hop htarget hrecords => exact hquiet hop htarget (Files.records_journal hrecords)
  | backup => exact hquiet rfl rfl (by rw [Files.update_workspace])
  | receipt => exact hquiet rfl rfl (by rw [Files.update_workspace])
  | @journal j _ hbinding hrecordable =>
      have hstored : ∀ j', ((v.state.update b.transactionId fun w => { w with journal := some j }
          ).workspace b.transactionId).journal = some j' → j' = j := by
        intro j' hj'
        rw [Files.update_workspace] at hj'
        exact (Option.some.inj hj').symm
      refine ⟨fun _ j' hj' => hstored j' hj' ▸ hbinding, fun x hx => found_snoc_of_some (h.found x hx),
        fun hnone => ⟨fun j' hj' hphase => ?_, fun hnone' => ?_, fun x hx => ?_⟩, ?_⟩
      · rw [hstored j' hj'] at hphase
        exact (hrecordable.preparing hphase).2.1
      · rw [Files.update_workspace] at hnone'
        cases hnone'
      · obtain ⟨-, htarget, hfound⟩ := h.opening hnone
        cases hjournal : (v.state.workspace b.transactionId).journal with
        | none =>
            rw [found_snoc_of_opens (hkept.fresh hjournal).1 hjournal (j := j)
              (by rw [Files.update_workspace])] at hx
            rw [← Option.some.inj hx]
            exact htarget hjournal
        | some j' =>
            obtain ⟨-, y, hy, -⟩ := hkept.opened j' hjournal
            rw [found_snoc_of_some hy] at hx
            exact hfound x (hy.trans hx)
      · exact fun j' hj' hphase => (h.resumed j' hj' hphase).snoc fun _ => rfl
  | promote hfresh hexpected _ hstored hbinding hphase _ hrecords =>
      have hjournal : (t.workspace b.transactionId).journal =
          (v.state.workspace b.transactionId).journal := Files.records_journal hrecords
      refine ⟨fun hsame => ?_, fun x hx => found_snoc_of_some (h.found x hx), fun hnone => ?_,
        fun j hj _ => ?_⟩
      · rw [hjournal]
        exact h.same hsame
      · rw [found_snoc_of_same hjournal, hjournal, hstored]
        refine ⟨fun j' hj' hpreparing => ?_, nofun, (h.opening hnone).2.2⟩
        rw [← Option.some.inj hj', hphase] at hpreparing
        simp [preparingPhases] at hpreparing
      · rw [hfresh] at hj
        cases hj
  | restore hrestores _ _ hsource =>
      have hjournal : (t.workspace b.transactionId).journal =
          (v.state.workspace b.transactionId).journal := Files.records_journal hrestores.records
      have hwrites := hwriting hrestores.writesTarget
      refine ⟨fun hsame => ?_, fun x hx => found_snoc_of_some (h.found x hx), fun hnone => ?_,
        fun j hj hphase => ?_⟩
      · rw [hjournal]
        exact h.same hsame
      · rw [found_snoc_of_same hjournal, hjournal]
        rcases hwrites with ⟨_, _, j, hj, hpast⟩ | ⟨j, hinterrupted, _⟩
        · rw [hj]
          refine ⟨fun j' hj' hpreparing => ?_, nofun, (h.opening hnone).2.2⟩
          rw [← Option.some.inj hj'] at hpreparing
          exact absurd hpreparing hpast
        · rw [hinterrupted.journal] at hnone
          cases hnone
      · rcases hsource with ⟨hfresh, _⟩ | ⟨j', hinterrupted, _⟩
        · rw [hfresh] at hj
          cases hj
        · rw [Option.some.inj (hinterrupted.journal.symm.trans hj)] at hinterrupted
          exact absurd hphase hinterrupted.phase

/-- The invariant of a transaction after an operation that keeps its journal and its receipt. -/
theorem Kept.rewritten {log' : List (Entry Files (Call × PolicyOp))} {j : Journal}
    (h : Kept log f id) (hstored : (f.workspace id).journal = some j)
    (hjournal : (f'.workspace id).journal = (f.workspace id).journal)
    (hreceipt : (f'.workspace id).receipt = (f.workspace id).receipt)
    (hfound : found log' id = found log id)
    (hpreparing : j.phase ∈ preparingPhases → Untouched log' id)
    (hother : ∀ x, found log id = some x → targetDigest x ≠ j.binding.expectedTargetSha256 →
      Untouched log' id ∧ (f'.workspace id).backup = none) : Kept log' f' id := by
  refine ⟨fun hnone => ?_, fun j' hj' => ?_, fun r hr => ?_⟩
  · rw [hjournal, hstored] at hnone
    cases hnone
  · obtain rfl := Option.some.inj (hj'.symm.trans (hjournal.trans hstored))
    obtain ⟨hid, x, hx, -⟩ := h.opened j' hstored
    exact ⟨hid, x, hfound.trans hx, hpreparing, hother x hx⟩
  · obtain ⟨hid, hbody, j', hj', hdigest⟩ := h.receipt r (hreceipt ▸ hr)
    refine ⟨hid, hbody, j', ?_, hdigest⟩
    rw [hid] at hj' ⊢
    exact hjournal.trans hj'

/-- **The step lemma of the invariant.** -/
theorem Kept.move {policy : List UInt8} (hkept : ∀ id, Kept v.log v.state id) (h : During b w v)
    (hbaseline : ∀ j, Interrupted b w.state j → targetDigest w.state.target = b.materializedSha256 →
      b.materializedSha256 ≠ b.expectedTargetSha256 → b.expectedTargetSha256 = missing →
      ∃ x, found w.log b.transactionId = some x ∧ targetDigest x = missing)
    (hid : c.options.transactionId = b.transactionId)
    (hmove : Moves b policy w.state v.state op t) (id : String) :
    Kept (v.log ++ [⟨v.state, (c, op), t⟩]) t id := by
  by_cases hother : id ≠ b.transactionId
  · refine (hkept id).frame (hmove.other hother)
      (found_snoc_of_same (congrArg Prod.fst (hmove.other hother))) fun huntouched => ?_
    exact huntouched.snoc fun heq => absurd (heq.symm.trans hid) hother
  obtain rfl := not_not.mp hother
  have hkept := hkept b.transactionId
  -- the call that opened the transaction found what it expected
  have hexact : ∀ {j : Journal} {x : Option (List UInt8)}, j.binding = b →
      (w.state.workspace b.transactionId).journal = none →
      targetDigest w.state.target = b.expectedTargetSha256 →
      found v.log b.transactionId = some x →
      ¬ targetDigest x ≠ j.binding.expectedTargetSha256 := by
    intro j x hbinding hfresh hexpected hx hne
    rw [hbinding, (h.opening hfresh).2.2 x hx] at hne
    exact hne hexpected
  have hwriting := h.writes hmove
  cases hmove with
  | quiet hop _ hrecords =>
      exact hkept.frame (congrFun hrecords _) (found_snoc_of_same (Files.records_journal hrecords))
        fun huntouched => huntouched.snoc fun _ => hop
  | @journal j hopen hbinding hrecordable =>
      refine ⟨fun hnone => ?_, fun j' hj' => ?_, fun r hr => ?_⟩
      · rw [Files.update_workspace] at hnone
        cases hnone
      · rw [Files.update_workspace] at hj'
        obtain rfl := Option.some.inj hj'
        refine ⟨by rw [hbinding], ?_⟩
        cases hjournal : (v.state.workspace b.transactionId).journal with
        | none =>
            obtain ⟨hnever, hfree, hempty⟩ := hkept.fresh hjournal
            have huntouched := hfree.snoc (e := ⟨v.state, (c, .saveJournal b.transactionId j),
              v.state.update b.transactionId fun w => { w with journal := some j }⟩) fun _ => rfl
            refine ⟨_, found_snoc_of_opens hnever hjournal (by rw [Files.update_workspace]),
              fun _ => huntouched, fun _ => ⟨huntouched, ?_⟩⟩
            rw [Files.update_workspace]
            exact hempty
        | some j' =>
            obtain ⟨-, x, hx, hpreparing, hother⟩ := hkept.opened j' hjournal
            refine ⟨x, found_snoc_of_some hx, fun hphase => ?_, fun hne => ?_⟩
            · exact (hpreparing ((hrecordable.preparing hphase).2.2 j' hjournal)).snoc fun _ => rfl
            · rw [hbinding, ← h.same hrecordable.same j' hjournal] at hne
              refine ⟨(hother hne).1.snoc fun _ => rfl, ?_⟩
              rw [Files.update_workspace]
              exact (hother hne).2
      · rw [Files.update_workspace] at hr
        rw [hopen] at hr
        cases hr
  | @backup j _ hfresh hexpected _ hstored hbinding =>
      have hjournal : ∀ backup, ((v.state.update b.transactionId fun w => { w with backup }).workspace
          b.transactionId).journal = (v.state.workspace b.transactionId).journal := by
        intro backup
        rw [Files.update_workspace]
      obtain ⟨-, x, hx, hpreparing, -⟩ := hkept.opened j hstored
      exact hkept.rewritten hstored (hjournal _) (by rw [Files.update_workspace])
        (found_snoc_of_same (hjournal _))
        (fun hphase => (hpreparing hphase).snoc fun _ => rfl)
        fun x hx hne => absurd hne (hexact hbinding hfresh hexpected hx)
  | promote hfresh hexpected _ hstored hbinding hphase _ hrecords =>
      have hjournal : (t.workspace b.transactionId).journal =
          (v.state.workspace b.transactionId).journal := Files.records_journal hrecords
      refine hkept.rewritten hstored hjournal (Files.records_receipt hrecords)
        (found_snoc_of_same hjournal) (fun hpreparing => ?_)
        fun x hx hne => absurd hne (hexact hbinding hfresh hexpected hx)
      rw [hphase] at hpreparing
      simp [preparingPhases] at hpreparing
  | restore hrestores _ _ _ =>
      have hjournal : (t.workspace b.transactionId).journal =
          (v.state.workspace b.transactionId).journal := Files.records_journal hrestores.records
      have hreceipt : (t.workspace b.transactionId).receipt =
          (v.state.workspace b.transactionId).receipt := Files.records_receipt hrestores.records
      rcases hwriting hrestores.writesTarget with
        ⟨hfresh, hexpected, j, hstored, hpast⟩ | ⟨j, hinterrupted, hstart, -, hdigest, hdiffer⟩
      · have hbinding : j.binding = b := h.same (same_of_fresh hfresh) j hstored
        exact hkept.rewritten hstored hjournal hreceipt (found_snoc_of_same hjournal)
          (fun hpreparing => absurd hpreparing hpast)
          fun x hx hne => absurd hne (hexact hbinding hfresh hexpected hx)
      · have hstored := hinterrupted.journal
        rw [← hstart] at hstored
        refine hkept.rewritten hstored hjournal hreceipt (found_snoc_of_same hjournal)
          (fun hpreparing => absurd hpreparing hinterrupted.phase) fun x hx hnot => ?_
        obtain ⟨-, y, hy, -, hother⟩ := hkept.opened j hstored
        obtain rfl := Option.some.inj (hx.symm.trans hy)
        have hempty := (hother hnot).2
        rw [hinterrupted.binding] at hnot
        cases hrestores with
        | unlink hmissing =>
            obtain ⟨y, hy, hbase⟩ := hbaseline j hinterrupted (hstart ▸ hdigest) hdiffer hmissing
            obtain rfl := Option.some.inj (hx.symm.trans (h.found y hy))
            exact absurd (hbase.trans hmissing.symm) hnot
        | rewrite hbackup _ =>
            rw [hempty] at hbackup
            cases hbackup
  | @receipt j r hopen hstored hreceipt hbinding hdigest hbody htruthful =>
      have hjournal : ((v.state.update b.transactionId fun w => { w with receipt := some r }).workspace
          b.transactionId).journal = (v.state.workspace b.transactionId).journal := by
        rw [Files.update_workspace]
      obtain ⟨hjid, x, hx, hpreparing, hother⟩ := hkept.opened j hstored
      refine ⟨fun hnone => ?_, fun j' hj' => ?_, fun r' hr' => ?_⟩
      · rw [hjournal, hstored] at hnone
        cases hnone
      · obtain rfl := Option.some.inj (hj'.symm.trans (hjournal.trans hstored))
        refine ⟨hjid, x, (found_snoc_of_same hjournal).trans hx,
          fun hphase => (hpreparing hphase).snoc fun _ => rfl, fun hne => ?_⟩
        refine ⟨(hother hne).1.snoc fun _ => rfl, ?_⟩
        rw [Files.update_workspace]
        exact (hother hne).2
      · rw [Files.update_workspace] at hr'
        obtain rfl := Option.some.inj hr'
        refine ⟨by rw [hreceipt], hbody, j, ?_, hdigest⟩
        rw [hreceipt]
        exact hjournal.trans hstored

/-! ### The law -/

omit [Runtime] in
/-- An operation that leaves the receipts alone keeps the law. -/
theorem ReceiptLaw.of_same (h : ∀ id, (e.after.workspace id).receipt = (e.before.workspace id).receipt) :
    ReceiptLaw log e where
  final id r hr := (h id).trans hr
  own id r hnone hsome := by
    rw [h id, hnone] at hsome
    cases hsome
  applied id r hnone hsome := by
    rw [h id, hnone] at hsome
    cases hsome
  noEffect id r hnone hsome := by
    rw [h id, hnone] at hsome
    cases hsome

/-- **The step lemma of the law.** -/
theorem ReceiptLaw.move (hkept : Kept v.log v.state b.transactionId) (h : During b w v)
    (hm : c.accepted = some m) (hid : c.options.transactionId = b.transactionId)
    (hmove : Moves b m.policyBytes w.state v.state op t) :
    ReceiptLaw v.log ⟨v.state, (c, op), t⟩ := by
  cases hmove with
  | quiet _ _ hrecords => exact .of_same fun _ => Files.records_receipt hrecords
  | promote _ _ _ _ _ _ _ hrecords => exact .of_same fun _ => Files.records_receipt hrecords
  | restore hrestores => exact .of_same fun _ => Files.records_receipt hrestores.records
  | journal | backup =>
      refine .of_same fun id => ?_
      by_cases hother : id = b.transactionId
      · rw [hother, Files.update_workspace]
      · simp [Files.update, hother]
  | @receipt j r hopen hstored hreceipt hbinding hdigest hbody htruthful =>
      obtain ⟨-, x, hx, -, hother⟩ := hkept.opened j hstored
      -- the only receipt that appears is `r`, of this transaction
      have hnew : ∀ id r', (v.state.workspace id).receipt = none →
          ((v.state.update b.transactionId fun w => { w with receipt := some r }).workspace id).receipt
            = some r' → id = b.transactionId ∧ r' = r := by
        intro id r' hnone hsome
        by_cases hother : id = b.transactionId
        · rw [hother, Files.update_workspace] at hsome
          exact ⟨hother, (Option.some.inj hsome).symm⟩
        · rw [show ((v.state.update b.transactionId fun w => { w with receipt := some r }).workspace
            id) = v.state.workspace id from by simp [Files.update, hother], hnone] at hsome
          cases hsome
      refine ⟨fun id r' hr' => ?_, fun id r' hnone hsome => ?_, fun id r' hnone hsome happlied => ?_,
        fun id r' hnone hsome houtcome => ⟨?_, rfl⟩⟩
      · by_cases hother : id = b.transactionId
        · rw [hother, hopen] at hr'
          cases hr'
        · simpa [Files.update, hother] using hr'
      · exact (hnew id r' hnone hsome).1.trans hid.symm
      · obtain ⟨rfl, rfl⟩ := hnew id r' hnone hsome
        rw [happlied] at htruthful
        exact ⟨m, hm, htruthful.2, htruthful.2⟩
      · obtain ⟨rfl, rfl⟩ := hnew id r' hnone hsome
        cases hout : r'.outcome with
        | applied | rollbackFailed => simp [hout, noEffectOutcomes] at houtcome
        | rolledBack =>
            rw [hout] at htruthful
            obtain ⟨hfresh, hexpected, hback⟩ := htruthful
            rw [(h.opening hfresh).2.2 x hx] at hx
            exact .inr ⟨_, hx, hback.trans hexpected.symm⟩
        | recoveredRolledBack =>
            rw [hout] at htruthful
            by_cases hbase : targetDigest x = j.binding.expectedTargetSha256
            · rw [hbinding] at hbase
              exact .inr ⟨x, hx, htruthful.2.trans hbase.symm⟩
            · exact .inl (hother hbase).1
        | preconditionFailed =>
            rw [hout] at htruthful
            obtain ⟨htarget, hphase⟩ := htruthful
            cases hjournal : (w.state.workspace b.transactionId).journal with
            | none =>
                rw [(h.opening hjournal).2.2 x hx] at hx
                exact .inr ⟨_, hx, by rw [htarget]⟩
            | some j' => exact .inl (h.resumed j' hjournal (hphase j' hjournal))

/-! ### Every run -/

/-- What every run keeps. -/
structure Settled (w : Logged Files (Call × PolicyOp)) : Prop where
  kept : ∀ id, Kept w.log w.state id
  lawful : Lawful ReceiptLaw w.log

theorem Settled.call {w w' : Logged Files (Call × PolicyOp)}
    {l : Session Call PolicyOp Files PolicyError Receipt}
    (h : policyMachine.Runs Call.program w l w') (hbaseline : FindsItsBaseline w l.call)
    (hsettled : Settled w) : Settled w' := by
  have hboth := Call.keeps (fun v => Settled v ∧
    ∀ b, l.call.binding = some b → During b w v) h ⟨hsettled, fun b _ => .refl hsettled.kept⟩ ?_
  · exact hboth.1
  · rintro m v op t hm ⟨hv, hduring⟩ hmove
    have hbinding := Call.binding_of_accepted hm
    have hd := hduring _ hbinding
    refine ⟨⟨Kept.move hv.kept hd (fun j => hbaseline _ j hbinding) rfl hmove,
      hv.lawful.snoc (ReceiptLaw.move (hv.kept _) hd hm rfl hmove)⟩, fun b hb => ?_⟩
    obtain rfl := Option.some.inj (hbinding.symm.trans hb)
    exact hd.move (hv.kept _) hmove

/-- A call of a transaction that has its receipt. -/
theorem Settled.replays {e : Entry (Logged Files (Call × PolicyOp))
    (Session Call PolicyOp Files PolicyError Receipt)}
    (h : policyMachine.Runs Call.program e.before e.label e.after) (hsettled : Settled e.before) :
    Replays e := by
  intro r hr
  obtain ⟨hid, hevidence⟩ := (hsettled.kept _).receipt r hr
  have hmeets : Run (fun s op t => op.writesTarget = false ∧ t = s) e.before.state e.label.history
        e.after.state ∧
      e.label.outcome.Meets (fun r' _ => r' = r ∧ e.label.call.binding = some r.binding)
        (fun _ _ => e.label.call.binding = some r.binding → Drifted r.binding e.before.state r)
        e.after.state := by
    rcases e.label.call.program_eq with ⟨m, hm, hprogram⟩ | ⟨hnone, exc, hprogram⟩
    · have hbinding := Call.binding_of_accepted hm
      refine h.exec.meets ?_
      rw [hprogram]
      refine Program.wp_mono (wp_applyLocked_replay hr) ?_ ?_
      · rintro r' _ ⟨rfl, hsame⟩
        exact ⟨rfl, hbinding.trans (congrArg some hsame.symm)⟩
      · intro _ _ hdrift hb
        have hsame := Option.some.inj (hb.symm.trans hbinding)
        rw [hsame]
        exact hdrift hsame hevidence
    · refine h.exec.meets ?_
      rw [hprogram]
      intro hb
      rw [Call.binding, hnone] at hb
      cases hb
  obtain ⟨hrun, hend⟩ := hmeets
  have hstill : e.after.state = e.before.state :=
    hrun.invariant (fun f => f = e.before.state) rfl fun hf hstep => hstep.2.trans hf
  refine ⟨fun o ho => (hrun.step_of_mem ho).2, hstill, ?_⟩
  cases hout : e.label.outcome with
  | value r' =>
      rw [hout] at hend
      exact hend
  | raised exc =>
      rw [hout] at hend
      show _ → Drifted _ e.after.state r
      rw [hstill]
      exact hend
  | crashed => trivial

/-- **Truthful and final receipts.**  In every run of calls on a target in which each retry of an
interrupted transaction that would delete the target finds that its transaction had found none, the
receipts are final and truthful, and a later call replays its receipt. -/
theorem policy_receipts (target : Option (List UInt8))
    {history : List (Entry (Logged Files (Call × PolicyOp))
      (Session Call PolicyOp Files PolicyError Receipt))}
    {w : Logged Files (Call × PolicyOp)}
    (h : Run (policyMachine.Runs Call.program) ⟨⟨target, fun _ => {}⟩, []⟩ history w)
    (hbaseline : ∀ e ∈ history, FindsItsBaseline e.before e.label.call) :
    Lawful ReceiptLaw w.log ∧ ∀ e ∈ history, Replays e := by
  have hrun := h.restrict (P := fun w l => FindsItsBaseline w l.call) hbaseline
  have hstart : Settled ⟨⟨target, fun _ => {}⟩, []⟩ := by
    refine ⟨fun id => ⟨fun _ => ⟨rfl, fun e he => ?_, rfl⟩, fun j hj => ?_, fun r hr => ?_⟩, .nil⟩
    · cases he
    · cases hj
    · cases hr
  have hstep : ∀ {w w' : Logged Files (Call × PolicyOp)}
      {l : Session Call PolicyOp Files PolicyError Receipt}, Settled w →
      policyMachine.Runs Call.program w l w' ∧ FindsItsBaseline w l.call → Settled w' :=
    fun hsettled hmove => Settled.call hmove.1 hmove.2 hsettled
  refine ⟨(hrun.invariant Settled hstart hstep).lawful, fun e he => ?_⟩
  obtain ⟨hreached, hmove⟩ := hrun.step_of_mem he
  exact Settled.replays hmove.1 (hreached.invariant Settled hstart hstep)

end Receipts

section Runs

open Sample

/-- The receipts of a call that crashes with the policy verified and is made again. -/
theorem policy_receipts_sample :
    Lawful ReceiptLaw (retried none 26).log ∧ ∀ e ∈ retriedCalls none 26, Replays e := by
  refine policy_receipts none (retried_run none 26) fun e he b j hb hinterrupted _ _ _ => ?_
  have hfirst : ((origin none).state.workspace b.transactionId).journal ≠ some j := nofun
  have hsecond : found (next 26 (origin none)).log "t1" = some none := by decide +kernel
  have hid : b.transactionId = e.label.call.options.transactionId := Call.binding_transactionId hb
  rcases List.mem_pair.mp he with rfl | rfl
  · exact absurd hinterrupted.journal hfirst
  · rw [hid]
    exact ⟨none, hsecond, rfl⟩

/-- A transaction that found a policy where it expected none, and crashed before its receipt, gets a
receipt of its rollback when it is retried, and has deleted the policy. -/
theorem untruthful_receipt :
    ∃ history w, Run (policyMachine.Runs Call.program) (origin (some [77])) history w ∧
      (w.state.workspace "t1").receipt.map (·.outcome) = some .recoveredRolledBack ∧
      w.state.target = none ∧ ¬ Lawful ReceiptLaw w.log := by
  refine ⟨_, _, retried_run (some [77]) 10, by decide +kernel, by decide +kernel, fun hlawful => ?_⟩
  have hlast : ((retried (some [77]) 10).log.getLast?.map fun e =>
      ((e.before.workspace "t1").receipt.isNone, (e.after.workspace "t1").receipt.map (·.outcome),
        e.before.target)) = some (true, some .recoveredRolledBack, none) := by decide +kernel
  have hwrote : ((retried (some [77]) 10).log.dropLast.any fun e =>
      e.label.1.options.transactionId == "t1" && e.label.2.writesTarget) = true := by decide +kernel
  have hfound : found (retried (some [77]) 10).log.dropLast "t1" = some (some [77]) := by
    decide +kernel
  obtain ⟨e, he, hfacts⟩ := Option.map_eq_some_iff.mp hlast
  simp only [Prod.mk.injEq] at hfacts
  obtain ⟨hnone, houtcome, htarget⟩ := hfacts
  obtain ⟨r, hr, hout⟩ := Option.map_eq_some_iff.mp houtcome
  have hlaw := hlawful (retried (some [77]) 10).log.dropLast e [] (List.dropLast_append_getLast? e he).symm
  obtain ⟨hleft, -⟩ := hlaw.noEffect "t1" r (by simpa using hnone) hr (by simp [hout, noEffectOutcomes])
  rcases hleft with huntouched | ⟨x, hx, hsame⟩
  · obtain ⟨o, ho, hwrites⟩ := List.any_eq_true.mp hwrote
    obtain ⟨hid, hwrites⟩ := Bool.and_eq_true_iff.mp hwrites
    rw [huntouched o ho (by simpa using hid)] at hwrites
    cases hwrites
  · rw [hfound] at hx
    rw [htarget, ← Option.some.inj hx] at hsame
    have hdiffer : targetDigest none ≠ targetDigest (some [77]) := by decide +kernel
    exact hdiffer hsame

end Runs

end CodingOS.Routing
