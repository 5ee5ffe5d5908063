import CodingOS.Deploy.Authority
import CodingOS.Systems.Framing

/-!
# What one deployment does to the live targets

`Moves` says once, for the whole program, when a call writes a live target: a transaction that is opened
by the call promotes, and a rollback writes the baseline of a record whose live state is the promoted one.
-/

namespace CodingOS.Deploy

open CodingOS.Python Systems

/-! ### The operations -/

/-- The live target an operation writes or deletes. -/
def DeployOp.writesLive : DeployOp → Option String
  | .restoreLive target _ | .unlinkLive target | .promote _ target => some target
  | _ => none

/-- Neither a live target nor a backup is written. -/
def DeployOp.quiet : DeployOp → Bool
  | .restoreLive _ _ | .unlinkLive _ | .promote _ _ | .writeBackup _ _ _ => false
  | _ => true

/-- The backups of every transaction. -/
def Files.backups (f : Files) (id : String) : String → Option (List UInt8) := (f.workspace id).backup

/-- The live targets and the backups stay. -/
def Same (f f' : Files) : Prop := f'.live = f.live ∧ f'.backups = f.backups

instance : IsPreorder Files Same where
  refl _ := ⟨rfl, rfl⟩
  trans _ _ _ h h' := ⟨h'.1.trans h.1, h'.2.trans h.2⟩

variable {f f' : Files} {id : String} {op : DeployOp}

@[simp] theorem Files.update_live (change : Workspace → Workspace) : (f.update id change).live = f.live :=
  rfl

@[simp] theorem Files.update_workspace (change : Workspace → Workspace) :
    (f.update id change).workspace id = change (f.workspace id) := by
  simp [Files.update]

/-- A change of one workspace that keeps its backups keeps all of them. -/
theorem Files.update_backups {change : Workspace → Workspace}
    (h : (change (f.workspace id)).backup = (f.workspace id).backup) :
    (f.update id change).backups = f.backups := by
  funext k
  by_cases hk : k = id
  · subst hk
    simp [Files.backups, h]
  · simp [Files.backups, Files.update, hk]

theorem DeployOp.apply_live (h : op.writesLive = none) : (op.apply f).live = f.live := by
  cases op with
  | restoreLive | unlinkLive | promote => cases h
  | createReceipt | createManifest =>
      simp only [DeployOp.apply]
      split <;> rfl
  | _ => rfl

theorem DeployOp.apply_same (h : op.quiet = true) : Same f (op.apply f) := by
  cases op with
  | restoreLive | unlinkLive | promote | writeBackup => cases h
  | createReceipt | createManifest =>
      simp only [DeployOp.apply]
      split
      · exact ⟨rfl, Files.update_backups rfl⟩
      · exact refl_of Same f
  | saveJournal | writeStage =>
      simp only [DeployOp.apply]
      exact ⟨rfl, Files.update_backups rfl⟩
  | _ => exact refl_of Same f

theorem DeployOp.writesLive_of_quiet (h : op.quiet = true) : op.writesLive = none := by
  cases op with
  | restoreLive | unlinkLive | promote => cases h
  | _ => rfl

theorem Cut.live (h : Cut op f f') (hop : op.writesLive = none) : f'.live = f.live := by
  rcases h with rfl | rfl | ⟨id, -, rfl | rfl⟩
  · rfl
  · exact DeployOp.apply_live hop
  · rfl
  · exact DeployOp.apply_live hop

/-- A write outside the workspaces leaves no temporary file in one. -/
theorem Cut.of_live (h : Cut op f f') (hop : op.writesLive ≠ none) : f' = f ∨ f' = op.apply f := by
  rcases h with rfl | rfl | ⟨id, hid, -⟩
  · exact .inl rfl
  · exact .inr rfl
  · cases op with
    | restoreLive | unlinkLive | promote => cases hid
    | _ => exact absurd rfl hop

section Moves

variable [FileDigest]

/-- The baseline of a record is what the call found, and its backup holds it. -/
def Backed (id : String) (f₀ f : Files) (r : Record) : Prop :=
  r.prior = pathState (f₀.live r.target) ∧
    ∀ payload, f₀.live r.target = some payload → f.backups id r.target = some payload

/-- The rollback can put the baseline of a record back. -/
def Restorable (id : String) (f : Files) (r : Record) : Prop :=
  ∀ sha256 size, r.prior = .present sha256 size →
    ∃ payload, f.backups id r.target = some payload ∧ FileDigest.sha256 payload = sha256

/-- An operation that puts the baseline of a record back. -/
inductive Restores (id : String) (f : Files) (r : Record) : DeployOp → Prop
  | unlink : r.prior = .missing → Restores id f r (.unlinkLive r.target)
  | restore {sha256 : String} {size : ℕ} {payload : List UInt8} : r.prior = .present sha256 size →
      f.backups id r.target = some payload → FileDigest.sha256 payload = sha256 →
      Restores id f r (.restoreLive r.target payload)

theorem Restores.restorable {r : Record} (h : Restores id f r op) : Restorable id f r := by
  intro sha256 size hprior
  cases h with
  | unlink hmissing => cases hmissing.symm.trans hprior
  | restore hpresent hbackup hdigest =>
      cases hpresent.symm.trans hprior
      exact ⟨_, hbackup, hdigest⟩

theorem Restores.writesLive {r : Record} (h : Restores id f r op) : op.writesLive = some r.target := by
  cases h <;> rfl

/-- What a restoration leaves of the files. -/
theorem Restores.apply {r : Record} (h : Restores id f r op) :
    op.apply f = f.setLive r.target ((op.apply f).live r.target) := by
  cases h <;> simp [DeployOp.apply, Files.setLive]

/-- A restoration of a backed record puts back what the call found. -/
theorem Restores.backed {f₀ : Files} {r : Record} (h : Restores id f r op) (hbacked : Backed id f₀ f r) :
    (op.apply f).live r.target = f₀.live r.target := by
  cases h with
  | unlink hmissing =>
      have hnone := hbacked.1.symm.trans hmissing
      cases hlive : f₀.live r.target with
      | none => simp [DeployOp.apply, Files.setLive]
      | some payload =>
          rw [hlive] at hnone
          cases hnone
  | restore hpresent hbackup hdigest =>
      cases hlive : f₀.live r.target with
      | none =>
          have hsome := hbacked.1.symm.trans hpresent
          rw [hlive] at hsome
          cases hsome
      | some payload =>
          obtain rfl := Option.some.inj (hbackup.symm.trans (hbacked.2 _ hlive))
          simp [DeployOp.apply, Files.setLive]

variable [Runtime]

/-- A call finds its transaction without a receipt, and its journal is that of the bundle: it will roll it
back. -/
structure Interrupted (options : DeploymentOptions) (m : Manifest) (f₀ : Files) (j : Journal) : Prop where
  receipt : (f₀.workspace options.transactionId).receipt = none
  journal : (f₀.workspace options.transactionId).journal = some j
  transactionId : j.transactionId = options.transactionId
  codexHome : j.codexHome = options.codexHome
  bundle : j.bundleSha256 = m.bundleSha256
  length : j.targets.length = m.entries.length
  records : (j.targets.zip m.entries).all (fun p => p.1.matches p.2) = true
  directories : (j.createdDirectories.dedup.length == j.createdDirectories.length
    && j.createdDirectories.all (allowedDirectories m.entries).contains) = true
  manifest : (f₀.workspace options.transactionId).manifest.map (·.text) = some m.text
  manifestSha256 : j.bundleManifestSha256 = some m.fileSha256

omit [FileDigest] [Runtime] in
/-- Records that match the entries of a bundle have their targets. -/
theorem targets_of_matches {rs : List Record} {es : List BundleEntry} (hlength : rs.length = es.length)
    (h : (rs.zip es).all (fun p => p.1.matches p.2) = true) :
    rs.map (·.target) = es.map (·.target) := by
  induction rs generalizing es with
  | nil =>
      cases es with
      | nil => rfl
      | cons e es => cases hlength
  | cons r rs ih =>
      cases es with
      | nil => cases hlength
      | cons e es =>
          rw [List.zip_cons_cons, List.all_cons, Bool.and_eq_true] at h
          have htarget : r.target = e.target := by
            have hmatches := h.1
            simp only [Record.matches, Bool.and_eq_true, beq_iff_eq] at hmatches
            exact hmatches.2
          rw [List.map_cons, List.map_cons, htarget, ih (Nat.succ.inj hlength) h.2]

omit [FileDigest] in
theorem Interrupted.nodup {options : DeploymentOptions} {m : Manifest} {f₀ : Files} {j : Journal}
    (h : Interrupted options m f₀ j) : (j.targets.map (·.target)).Nodup := by
  rw [targets_of_matches h.length h.records]
  exact m.targets_nodup

/-- When a rollback may write the baseline of a record: it is that of the call's own promotion, or the
transaction was interrupted and the target is as the call found it. -/
def May (options : DeploymentOptions) (m : Manifest) (f₀ f : Files) (r : Record) : Prop :=
  ((f₀.workspace options.transactionId).journal = none ∧ Backed options.transactionId f₀ f r) ∨
    ∃ j, Interrupted options m f₀ j ∧ r ∈ j.targets ∧ f.live r.target = f₀.live r.target ∧
      f.backups = f₀.backups

/-- The moves of a call that found the files `f₀`. -/
inductive Moves (options : DeploymentOptions) (m : Manifest) (f₀ : Files) :
    Files → DeployOp → Files → Prop
  | quiet {f f' : Files} {op : DeployOp} : op.writesLive = none → f'.live = f.live →
      Moves options m f₀ f op f'
  | promote {f f' : Files} {target : String} : (f₀.workspace options.transactionId).journal = none →
      (f' = f ∨ f' = (DeployOp.promote options.transactionId target).apply f) →
      Moves options m f₀ f (.promote options.transactionId target) f'
  | restore {f f' : Files} {op : DeployOp} {r : Record} : Restores options.transactionId f r op →
      (f' = f ∨ f' = op.apply f) → (r.promotionStarted || r.promoted) = true →
      pathState (f.live r.target) = r.new → r.new ≠ r.prior → May options m f₀ f r →
      Moves options m f₀ f op f'

/-! ### The programs that write no target -/

section Quiet

variable {options : DeploymentOptions} {m : Manifest} {f₀ : Files} {α : Type}

/-- A program that writes neither a target nor a backup. -/
abbrev Quiet (options : DeploymentOptions) (m : Manifest) (f₀ : Files) {ε α : Type}
    (p : Program DeployAnswer ε α) : Prop :=
  p.Along deployMachine (Moves options m f₀) Same

omit [FileDigest] [Runtime] in
/-- One operation: its guarantee, its reply and its failure. -/
theorem wp_ask {G : Files → DeployOp → Files → Prop} {Q : DeployReply op → Files → Prop}
    {E : DeployError → Files → Prop} (hmove : ∀ f', Cut op f f' → G f op f')
    (hreply : ∀ reply, Answers op f reply → Q reply (op.apply f))
    (hfail : ∀ e f', f' = f ∨ f' = op.apply f → E e f') :
    (ask op).wp deployMachine G Q E f := by
  refine ⟨hmove, fun answer f' hstep => ?_⟩
  rcases hstep with ⟨reply, rfl, hanswer, rfl⟩ | ⟨⟨e, rfl⟩, hcut⟩
  · exact ⟨hmove _ (.inr (.inl rfl)), hreply reply hanswer⟩
  · exact ⟨hmove _ (hcut.imp_right .inl), hfail e f' hcut⟩

/-- An operation that only looks. -/
theorem wp_look {Q : DeployReply op → Files → Prop} {E : DeployError → Files → Prop}
    (hquiet : op.writesLive = none) (happly : op.apply f = f)
    (hreply : ∀ reply, Answers op f reply → Q reply f) (hfail : ∀ e, E e f) :
    (ask op).wp deployMachine (Moves options m f₀) Q E f := by
  refine wp_ask (fun f' hcut => .quiet hquiet (hcut.live hquiet)) (fun reply h => ?_) fun e f' h => ?_
  · rw [happly]
    exact hreply reply h
  · rw [happly, or_self] at h
    rw [h]
    exact hfail e

omit [FileDigest] [Runtime] in
theorem wp_ensure {G : Files → DeployOp → Files → Prop} {condition : Bool} {kind : DeployErrorKind}
    {message : String} {Q : Unit → Files → Prop} {E : DeployError → Files → Prop}
    (hpass : condition = true → Q () f) (hfail : ∀ e, E e f) :
    (ensure condition kind message).wp deployMachine G Q E f := by
  cases condition with
  | true => exact hpass rfl
  | false => exact hfail _

theorem quiet_ask (h : op.quiet = true) : Quiet options m f₀ (ask op) := by
  intro f
  have hlive := DeployOp.writesLive_of_quiet h
  refine wp_ask (fun f' hcut => .quiet hlive (hcut.live hlive)) (fun _ _ => DeployOp.apply_same h)
    fun _ f' hf => ?_
  rcases hf with rfl | rfl
  · exact refl_of Same _
  · exact DeployOp.apply_same h

theorem quiet_ensure (condition : Bool) (kind : DeployErrorKind) (message : String) :
    Quiet options m f₀ (ensure condition kind message) := by
  cases condition with
  | true => exact .ret ()
  | false => exact .raise _

theorem Quiet.within {p : Task α} (h : Quiet options m f₀ p) (j : Journal) :
    Quiet options m f₀ (p.within j) :=
  h.handle fun _ => .raise _

theorem quiet_liveState (target : String) : Quiet options m f₀ (liveState target) :=
  (quiet_ask rfl).bind fun _ => .ret _

theorem quiet_saveJournal (j : Journal) : Quiet options m f₀ (saveJournal j) :=
  (quiet_ask rfl).bind fun _ => (quiet_ask rfl).bind fun _ => .ret _

theorem quiet_save (j : Journal) : Quiet options m f₀ (save j) := Quiet.within (quiet_saveJournal j) j

theorem quiet_writeOnce {read : Task (Option α)} {create : Task Bool} {same : α → Bool}
    (hread : Quiet options m f₀ read) (hcreate : Quiet options m f₀ create) :
    Quiet options m f₀ (writeOnce read create same) := by
  refine hread.bind fun found => ?_
  cases found with
  | some old => exact quiet_ensure _ _ _
  | none =>
      refine hcreate.bind fun created => ?_
      cases created with
      | true => exact .ret ()
      | false =>
          refine hread.bind fun found => ?_
          cases found with
          | some old => exact quiet_ensure _ _ _
          | none => exact .raise _

theorem quiet_writeManifest (id : String) (manifest : Manifest) :
    Quiet options m f₀ (writeManifest id manifest) :=
  quiet_writeOnce (quiet_ask rfl) (quiet_ask rfl)

theorem quiet_writeTerminalReceipt (j : Journal) (outcome : ReceiptOutcome) :
    Quiet options m f₀ (writeTerminalReceipt j outcome) := by
  refine Program.Along.bind ((quiet_ask rfl).bind fun stored => ?_) fun receipt =>
    (quiet_writeOnce (quiet_ask rfl) (quiet_ask rfl)).bind fun _ => .ret _
  cases stored with
  | none => exact .raise _
  | some j => exact .ret _

theorem quiet_conclude (j : Journal) (outcome : ReceiptOutcome) :
    Quiet options m f₀ (conclude j outcome) :=
  (quiet_saveJournal j).bind fun j => quiet_writeTerminalReceipt j outcome

theorem quiet_validate (id : String) (j : Journal) (manifest : Manifest) :
    Quiet options m f₀ (validateRecoveryJournal id j manifest) := by
  rw [validateRecoveryJournal]
  split
  · exact quiet_ensure _ _ _
  · exact (quiet_ensure _ _ _).bind fun _ => (quiet_ensure _ _ _).bind fun _ =>
      (quiet_ensure _ _ _).bind fun _ => (quiet_ask rfl).bind fun _ => quiet_ensure _ _ _

theorem quiet_verifyReplayState (receipt : Receipt) : Quiet options m f₀ (verifyReplayState receipt) := by
  rw [verifyReplayState]
  split
  · refine .forM (fun t => (quiet_liveState _).bind fun state => ?_) _
    split
    · exact quiet_ensure _ _ _
    · exact quiet_ensure _ _ _
  · exact .ret ()

theorem quiet_checkExisting (id codexHome : String) (manifest : Manifest) (receipt : Receipt) :
    Quiet options m f₀ (checkExisting id codexHome manifest receipt) := by
  refine (quiet_ensure _ _ _).bind fun _ => (quiet_ensure _ _ _).bind fun _ =>
    (quiet_ask rfl).bind fun stored => ?_
  cases stored with
  | none => exact .raise _
  | some j =>
      exact (quiet_ensure _ _ _).bind fun _ => (quiet_validate _ _ _).bind fun _ =>
        (quiet_ask rfl).bind fun _ => (quiet_ensure _ _ _).bind fun _ => quiet_verifyReplayState _

theorem quiet_checkPrior (message : String) (r : Record) : Quiet options m f₀ (checkPrior message r) :=
  (quiet_liveState _).bind fun _ => quiet_ensure _ _ _

theorem quiet_stageSource (id : String) (r : Record) : Quiet options m f₀ (stageSource id r) := by
  refine (quiet_ask rfl).bind fun content => ?_
  cases content with
  | none => exact .raise _
  | some payload =>
      exact (quiet_ensure _ _ _).bind fun _ => (quiet_ask rfl).bind fun _ =>
        (quiet_ask rfl).bind fun _ => quiet_ensure _ _ _

theorem quiet_readyToPromote (id : String) (r : Record) : Quiet options m f₀ (readyToPromote id r) :=
  (quiet_checkPrior _ r).bind fun _ => (quiet_ask rfl).bind fun _ => (quiet_ensure _ _ _).bind fun _ =>
    (quiet_ask rfl).bind fun _ => quiet_ensure _ _ _

theorem quiet_verifyPromoted (r : Record) : Quiet options m f₀ (verifyPromoted r) :=
  (quiet_liveState _).bind fun _ => quiet_ensure _ _ _

end Quiet

/-! ### The forward path -/

section Calls

variable {options : DeploymentOptions} {m : Manifest} {f₀ : Files}

omit [Runtime] in
theorem Backed.of_same {r : Record} (h : Backed id f₀ f r) (hsame : f'.backups = f.backups) :
    Backed id f₀ f' r :=
  ⟨h.1, fun payload hlive => by rw [hsame]; exact h.2 payload hlive⟩

/-- While the live targets are as the call found them, a backup holds what the call found. -/
theorem wp_targetRecord {e : BundleEntry} {done : List Record} {Q : Record → Files → Prop}
    {E : DeployError → Files → Prop} (hlive : f.live = f₀.live)
    (hdone : ∀ r ∈ done, Backed options.transactionId f₀ f r)
    (hvalue : ∀ record t, t.live = f₀.live →
      (∀ r ∈ done ++ [record], Backed options.transactionId f₀ t r) → Q record t)
    (hfail : ∀ e t, E e t) :
    (targetRecord options.transactionId e).wp deployMachine (Moves options m f₀) Q E f := by
  rw [targetRecord, Program.wp_bind]
  refine wp_look rfl rfl (fun content hcontent => ?_) fun _ => hfail _ _
  obtain rfl : content = f.live e.target := hcontent
  rw [hlive]
  cases hprior : f₀.live e.target with
  | none =>
      refine hvalue _ f hlive fun r hr => ?_
      rcases List.mem_append.mp hr with hr | hr
      · exact hdone r hr
      · obtain rfl := List.mem_singleton.mp hr
        refine ⟨by rw [hprior], fun payload hpayload => ?_⟩
        cases hprior.symm.trans hpayload
  | some payload =>
      refine Program.wp_bind.mpr (wp_ask (fun f' hcut => .quiet rfl (hcut.live rfl)) (fun _ _ => ?_)
        fun _ _ _ => hfail _ _)
      -- the only backup that is written is that of what the call found
      have hbackup : ∀ r : Record, (r.target = e.target ∨ Backed options.transactionId f₀ f r) →
          r.prior = pathState (f₀.live r.target) → Backed options.transactionId f₀
            ((DeployOp.writeBackup options.transactionId e.target payload).apply f) r := by
        intro r hr hprior'
        refine ⟨hprior', fun p hp => ?_⟩
        simp only [Files.backups, DeployOp.apply, Files.update_workspace]
        by_cases htarget : r.target = e.target
        · rw [htarget, Function.update_self, ← hprior, ← htarget, hp]
        · rw [Function.update_of_ne htarget]
          exact (hr.resolve_left htarget).2 p hp
      refine hvalue _ _ hlive fun r hr => ?_
      rcases List.mem_append.mp hr with hr | hr
      · exact hbackup r (.inr (hdone r hr)) (hdone r hr).1
      · obtain rfl := List.mem_singleton.mp hr
        exact hbackup _ (.inl rfl) (by rw [hprior])

theorem wp_targetRecords {es : List BundleEntry} {done : List Record}
    {Q : List Record → Files → Prop} {E : DeployError → Files → Prop} (hlive : f.live = f₀.live)
    (hdone : ∀ r ∈ done, Backed options.transactionId f₀ f r)
    (hvalue : ∀ records t, (∀ r ∈ done ++ records, Backed options.transactionId f₀ t r) → Q records t)
    (hfail : ∀ e t, E e t) :
    (targetRecords options.transactionId es).wp deployMachine (Moves options m f₀) Q E f := by
  induction es generalizing f done Q with
  | nil =>
      refine hvalue [] f fun r hr => ?_
      rw [List.append_nil] at hr
      exact hdone r hr
  | cons e es ih =>
      rw [targetRecords, Program.wp_bind]
      refine wp_targetRecord hlive hdone (fun record t hlive' hdone' => ?_) hfail
      rw [Program.wp_bind]
      refine ih hlive' hdone' fun records t hrecords => ?_
      refine hvalue (record :: records) t fun r hr => hrecords r ?_
      rw [List.append_assoc]
      exact hr

/-- What the handler of the `try` statement relies on: the journal is that of the call, and its baselines
are those the call found. -/
structure Abandoned (options : DeploymentOptions) (f₀ : Files) (j : Journal) (f : Files) : Prop where
  transactionId : j.transactionId = options.transactionId
  backed : ∀ r ∈ j.targets, Backed options.transactionId f₀ f r

omit [Runtime] in
theorem Abandoned.of_same {j : Journal} (h : Abandoned options f₀ j f) (hsame : f'.backups = f.backups) :
    Abandoned options f₀ j f' :=
  ⟨h.transactionId, fun r hr => (h.backed r hr).of_same hsame⟩

omit [Runtime] in
/-- The flags of a record are no part of its baseline. -/
theorem Abandoned.flag {j j' : Journal} {r r' : Record} {done rest : List Record}
    (h : Abandoned options f₀ j f) (hj : j.targets = done ++ r :: rest)
    (hj' : j'.targets = done ++ r' :: rest) (hid : j'.transactionId = j.transactionId)
    (htarget : r'.target = r.target) (hprior : r'.prior = r.prior) : Abandoned options f₀ j' f := by
  refine ⟨hid.trans h.transactionId, fun x hx => ?_⟩
  have hbacked := h.backed
  rw [hj, List.forall_mem_append, List.forall_mem_cons] at hbacked
  rw [hj', List.mem_append, List.mem_cons] at hx
  rcases hx with hx | rfl | hx
  · exact hbacked.1 x hx
  · rw [Backed, htarget, hprior]
    exact hbacked.2.1
  · exact hbacked.2.2 x hx

/-- A quiet step of the `try` statement. -/
theorem wp_within {α : Type} {p : Task α} {j : Journal} {Q : α → Files → Prop}
    (hp : Quiet options m f₀ p) (h : Abandoned options f₀ j f)
    (hvalue : ∀ a t, Abandoned options f₀ j t → t.live = f.live → Q a t) :
    (p.within j).wp deployMachine (Moves options m f₀) Q
      (fun failure t => Abandoned options f₀ failure.1 t) f :=
  Program.wp_handle.mpr (hp.wp (fun a t hsame => hvalue a t (h.of_same hsame.2) hsame.1)
    fun _ _ hsame => h.of_same hsame.2)

/-- The journal that is saved differs in its time only. -/
theorem wp_save {j : Journal} {Q : Journal → Files → Prop} (h : Abandoned options f₀ j f)
    (hvalue : ∀ j' t, j'.targets = j.targets → Abandoned options f₀ j' t → t.live = f.live → Q j' t) :
    (save j).wp deployMachine (Moves options m f₀) Q
      (fun failure t => Abandoned options f₀ failure.1 t) f := by
  refine Program.wp_handle.mpr ?_
  rw [saveJournal, Program.wp_bind]
  refine (quiet_ask rfl).wp (fun updatedAt t hsame => ?_) fun _ _ hsame => h.of_same hsame.2
  refine Program.wp_bind.mpr ((quiet_ask rfl).wp (fun _ u hsame' => ?_) fun _ _ hsame' => ?_)
  · refine hvalue _ u rfl ⟨h.transactionId, fun r hr => ?_⟩ (hsame'.1.trans hsame.1)
    exact ((h.backed r hr).of_same hsame.2).of_same hsame'.2
  · exact (h.of_same hsame.2).of_same hsame'.2

/-- The promotion, in a call that opened its transaction. -/
theorem wp_promoteRecord {r : Record} {Q : Unit → Files → Prop} {E : DeployError → Files → Prop}
    (hopens : (f₀.workspace options.transactionId).journal = none)
    (hvalue : ∀ t, t.backups = f.backups → Q () t) (hfail : ∀ e t, t.backups = f.backups → E e t) :
    (promoteRecord options.transactionId r).wp deployMachine (Moves options m f₀) Q E f := by
  rw [promoteRecord, Program.wp_bind]
  refine (quiet_checkPrior _ r).wp (fun _ t hsame => ?_) fun e t hsame => hfail e t hsame.2
  have hpromoted : ((DeployOp.promote options.transactionId r.target).apply t).backups = f.backups := by
    rw [← hsame.2]
    simp only [DeployOp.apply]
    split
    · exact Files.update_backups rfl
    · rfl
  rw [Program.wp_bind]
  refine wp_ask (fun f' hcut => .promote hopens (hcut.of_live nofun)) (fun moved _ => ?_) fun e f' hf' => ?_
  · rw [Program.wp_bind]
    refine (quiet_ensure _ _ _).wp (fun _ u hsame => ?_) fun e u hsame =>
      hfail e u (hsame.2.trans hpromoted)
    refine ((quiet_liveState _).bind fun _ => quiet_ensure _ _ _).wp
      (fun _ v hsame' => hvalue v ?_) fun e v hsame' => hfail e v ?_
    · exact hsame'.2.trans (hsame.2.trans hpromoted)
    · exact hsame'.2.trans (hsame.2.trans hpromoted)
  · refine hfail e f' ?_
    rcases hf' with rfl | rfl
    · exact hsame.2
    · exact hpromoted

theorem wp_promoteTargets {configured : Option String} {done rest : List Record} {j : Journal}
    {Q : Journal → Files → Prop} (hopens : (f₀.workspace options.transactionId).journal = none)
    (htargets : j.targets = done ++ rest) (h : Abandoned options f₀ j f)
    (hvalue : ∀ j t, Abandoned options f₀ j t → Q j t) :
    (promoteTargets j configured done rest).wp deployMachine (Moves options m f₀) Q
      (fun failure t => Abandoned options f₀ failure.1 t) f := by
  induction rest generalizing f done j with
  | nil => exact hvalue j f h
  | cons r rest ih =>
      rw [promoteTargets, h.transactionId, Program.wp_bind]
      refine wp_within (quiet_readyToPromote _ r) h fun _ t ht _ => ?_
      rw [Program.wp_bind]
      refine wp_save (ht.flag htargets rfl h.transactionId.symm rfl rfl) fun j₁ t₁ hj₁ ht₁ _ => ?_
      rw [Program.wp_bind]
      refine Program.wp_handle.mpr (wp_promoteRecord hopens (fun t₂ hsame => ?_) fun _ t₂ hsame =>
        ht₁.of_same hsame)
      rw [Program.wp_bind]
      refine wp_save ((ht₁.of_same hsame).flag hj₁ rfl rfl rfl rfl) fun j₃ t₃ hj₃ ht₃ _ => ?_
      rw [Program.wp_bind]
      refine wp_within (quiet_ensure _ _ _) ht₃ fun _ t₄ ht₄ _ => ?_
      exact ih (by rw [hj₃, List.append_assoc]; rfl) ht₄

/-- The body of the `try` statement, in a call that opened its transaction. -/
theorem wp_promoteBundle {configured : Option String} {j : Journal}
    (hopens : (f₀.workspace options.transactionId).journal = none) (hlive : f.live = f₀.live)
    (hid : j.transactionId = options.transactionId) (hempty : j.targets = []) :
    (promoteBundle configured m j).wp deployMachine (Moves options m f₀) (fun _ _ => True)
      (fun failure t => Abandoned options f₀ failure.1 t) f := by
  have hnone : ∀ (j : Journal) (t : Files), j.transactionId = options.transactionId → j.targets = [] →
      Abandoned options f₀ j t := fun j t hid hj => ⟨hid, by rw [hj]; nofun⟩
  rw [promoteBundle, hid, Program.wp_bind]
  refine wp_within (quiet_writeManifest _ m) (hnone j f hid hempty) fun _ t _ ht => ?_
  have hnil : ∀ r ∈ ([] : List Record), Backed options.transactionId f₀ t r := nofun
  rw [Program.wp_bind]
  refine Program.wp_handle.mpr (wp_targetRecords (ht.trans hlive) hnil
    (fun records t₁ hrecords => ?_) fun _ t₁ => hnone _ t₁ rfl hempty)
  rw [Program.wp_bind, enter]
  refine wp_save ⟨rfl, hrecords⟩ fun j₂ t₂ _ h₂ _ => ?_
  rw [Program.wp_bind]
  refine wp_within (.forM (quiet_stageSource _) _) h₂ fun _ t₃ h₃ _ => ?_
  rw [Program.wp_bind, enter]
  refine wp_save ⟨h₃.transactionId, h₃.backed⟩ fun j₄ t₄ _ h₄ _ => ?_
  rw [Program.wp_bind]
  refine wp_within (quiet_ensure _ _ _) h₄ fun _ t₅ h₅ _ => ?_
  rw [Program.wp_bind]
  refine wp_within (.forM (quiet_checkPrior _) _) h₅ fun _ t₆ h₆ _ => ?_
  rw [Program.wp_bind]
  refine wp_within (quiet_ask rfl) h₆ fun created t₇ h₇ _ => ?_
  rw [Program.wp_bind, enter]
  refine wp_save ⟨h₇.transactionId, h₇.backed⟩ fun j₈ t₈ _ h₈ _ => ?_
  rw [Program.wp_bind]
  refine wp_within (quiet_ensure _ _ _) h₈ fun _ t₉ h₉ _ => ?_
  rw [Program.wp_bind]
  refine wp_within (quiet_ask rfl) h₉ fun _ u hu _ => ?_
  rw [Program.wp_bind]
  refine wp_promoteTargets hopens rfl hu fun j₁ u₁ h₁ => ?_
  rw [Program.wp_bind]
  refine wp_within (.forM quiet_verifyPromoted _) h₁ fun _ u₂ h₂ _ => ?_
  rw [Program.wp_bind, enter]
  refine wp_save ⟨h₂.transactionId, h₂.backed⟩ fun j₃ u₃ _ h₃ _ => ?_
  rw [Program.wp_bind]
  refine wp_within (quiet_ensure _ _ _) h₃ fun _ u₄ h₄ _ => ?_
  rw [Program.wp_bind, enter]
  refine wp_save ⟨h₄.transactionId, h₄.backed⟩ fun j₅ u₅ _ h₅ _ => ?_
  exact wp_within (quiet_writeTerminalReceipt _ _) h₅ fun _ _ _ _ => trivial

/-! ### Rollback -/

theorem May.of_same {r : Record} (h : May options m f₀ f r) (hlive : f'.live r.target = f.live r.target)
    (hsame : f'.backups = f.backups) : May options m f₀ f' r := by
  rcases h with ⟨hopens, hbacked⟩ | ⟨j, hinterrupted, hr, hstart, hbackups⟩
  · exact .inl ⟨hopens, hbacked.of_same hsame⟩
  · exact .inr ⟨j, hinterrupted, hr, hlive.trans hstart, hsame.trans hbackups⟩

/-- The rollback of a record writes no other target, and no backup. -/
theorem wp_rollbackRecord {r : Record} {Q : Record × Bool → Files → Prop}
    {E : DeployError → Files → Prop} (hmay : May options m f₀ f r)
    (hvalue : ∀ result t, t.backups = f.backups → (∀ k ≠ r.target, t.live k = f.live k) → Q result t)
    (hfail : ∀ e t, E e t) :
    (rollbackRecord options.transactionId r).wp deployMachine (Moves options m f₀) Q E f := by
  -- what is done once the baseline was written
  have hwrite : ∀ {op : DeployOp} {next : DeployReply op → Task (Record × Bool)},
      Restores options.transactionId f r op → (r.promotionStarted || r.promoted) = true →
      pathState (f.live r.target) = r.new → r.new ≠ r.prior → (∀ reply, Quiet options m f₀ (next reply)) →
      (ask op >>= next).wp deployMachine (Moves options m f₀) Q E f := by
    intro op next hrestores hflags hnew hne hnext
    have hother : ∀ k ≠ r.target, (op.apply f).live k = f.live k := by
      intro k hk
      rw [hrestores.apply]
      exact Function.update_of_ne hk _ _
    have hbackups : (op.apply f).backups = f.backups := by
      rw [hrestores.apply]
      rfl
    rw [Program.wp_bind]
    refine wp_ask (fun f' hcut => ?_) (fun reply _ => (hnext reply).wp (fun result t hsame => ?_)
      fun _ _ _ => hfail _ _) fun _ _ _ => hfail _ _
    · refine .restore hrestores (hcut.of_live ?_) hflags hnew hne hmay
      rw [hrestores.writesLive]
      nofun
    · exact hvalue result t (hsame.2.trans hbackups) fun k hk => by rw [hsame.1, hother k hk]
  rw [rollbackRecord, liveState, Program.wp_bind, Program.wp_bind]
  refine wp_look rfl rfl (fun content hcontent => ?_) fun _ => hfail _ _
  obtain rfl : content = f.live r.target := hcontent
  rw [Program.wp_pure]
  split
  · exact hvalue _ f rfl fun _ _ => rfl
  · rename_i hprior
    split
    · exact hvalue _ f rfl fun _ _ => rfl
    · rename_i hflags
      have hflags' : (r.promotionStarted || r.promoted) = true := by
        simpa [Bool.or_eq_true, or_iff_not_imp_left] using hflags
      split
      · exact hvalue _ f rfl fun _ _ => rfl
      · rename_i hnew
        rw [not_not] at hnew
        have hne : r.new ≠ r.prior := hnew ▸ hprior
        split
        · rename_i hmissing
          exact hwrite (.unlink hmissing) hflags' hnew hne fun _ => (quiet_liveState _).bind fun _ => .ret _
        · rename_i sha256 size hpresent
          rw [Program.wp_bind]
          refine wp_look rfl rfl (fun backup hbackup => ?_) fun _ => hfail _ _
          cases backup with
          | none => exact hvalue _ f rfl fun _ _ => rfl
          | some payload =>
              dsimp only
              split
              · exact hvalue _ f rfl fun _ _ => rfl
              · rename_i hdigest
                rw [not_not] at hdigest
                exact hwrite (.restore hpresent hbackup.symm hdigest) hflags' hnew hne fun _ =>
                  (quiet_liveState _).bind fun _ => .ret _

theorem wp_rollbackRecords {j : Journal} {done todo : List Record}
    {Q : Journal × List String → Files → Prop} {E : Journal × DeployError → Files → Prop}
    (hid : j.transactionId = options.transactionId) (hmay : ∀ r ∈ todo, May options m f₀ f r)
    (hnodup : (f₀.workspace options.transactionId).journal ≠ none → (todo.map (·.target)).Nodup)
    (hvalue : ∀ result t, Q result t) (hfail : ∀ e t, E e t) :
    (rollbackRecords j done todo).wp deployMachine (Moves options m f₀) Q E f := by
  induction todo generalizing f done Q with
  | nil => exact hvalue _ _
  | cons r todo ih =>
      rw [rollbackRecords, hid, Program.wp_bind]
      refine Program.wp_handle.mpr (wp_rollbackRecord (hmay r (by simp)) (fun result t hbackups hlive => ?_)
        fun _ _ => hfail _ _)
      rw [Program.wp_bind]
      refine ih (fun x hx => ?_) (fun hold => (List.nodup_cons.mp (hnodup hold)).2) fun _ _ => hvalue _ _
      have hx' := hmay x (List.mem_cons_of_mem _ hx)
      rcases hx' with ⟨hopens, hbacked⟩ | ⟨j', hinterrupted, hmem, hstart, hsame⟩
      · exact .inl ⟨hopens, hbacked.of_same hbackups⟩
      · refine .inr ⟨j', hinterrupted, hmem, ?_, hbackups.trans hsame⟩
        have hne : x.target ≠ r.target := by
          intro htarget
          have hout := (List.nodup_cons.mp (hnodup (by rw [hinterrupted.journal]; nofun))).1
          exact hout (List.mem_map.mpr ⟨x, hx, htarget⟩)
        rw [hlive _ hne, hstart]

theorem wp_rollbackTargets {j : Journal} {Q : Journal → Files → Prop}
    {E : Journal × DeployError → Files → Prop} (hid : j.transactionId = options.transactionId)
    (hmay : ∀ r ∈ j.targets, May options m f₀ f r)
    (hnodup : (f₀.workspace options.transactionId).journal ≠ none → (j.targets.map (·.target)).Nodup)
    (hvalue : ∀ j t, Q j t) (hfail : ∀ e t, E e t) :
    (rollbackTargets j).wp deployMachine (Moves options m f₀) Q E f := by
  rw [rollbackTargets, Program.wp_bind]
  refine wp_rollbackRecords hid (fun r hr => hmay r (List.mem_reverse.mp hr)) (fun hold => ?_)
    (fun result t => ?_) hfail
  · rw [List.map_reverse, List.nodup_reverse]
    exact hnodup hold
  · have hrest : Quiet options m f₀ (do
        (ask (.removeDirectories result.1.createdDirectories)).within result.1
        (ensure result.2.isEmpty .recovery
          "rollback refused to overwrite drifted targets or lacked exact backups").within result.1
        return result.1 : Attempt Journal) :=
      ((quiet_ask rfl).within _).bind fun _ => ((quiet_ensure _ _ _).within _).bind fun _ => .ret _
    exact hrest.wp (fun j t _ => hvalue j t) fun e t _ => hfail e t

theorem wp_recoverInterrupted {j : Journal} (hid : j.transactionId = options.transactionId)
    (hmay : ∀ r ∈ j.targets, May options m f₀ f r)
    (hnodup : (f₀.workspace options.transactionId).journal ≠ none → (j.targets.map (·.target)).Nodup) :
    (recoverInterrupted j).wp deployMachine (Moves options m f₀) (fun _ _ => True) (fun _ _ => True) f := by
  rw [recoverInterrupted, Program.wp_bind]
  refine Program.wp_handle.mpr (wp_rollbackTargets hid hmay hnodup (fun j t => ?_) fun failure t => ?_)
  · exact (quiet_conclude _ _).wp (fun _ _ _ => trivial) fun _ _ _ => trivial
  · rw [Program.wp_bind]
    exact (quiet_conclude _ _).wp (fun _ _ _ => trivial) fun _ _ _ => trivial

theorem wp_abandon {failure : Journal × DeployError}
    (hopens : (f₀.workspace options.transactionId).journal = none)
    (h : Abandoned options f₀ failure.1 f) :
    (abandon failure).wp deployMachine (Moves options m f₀) (fun _ _ => True) (fun _ _ => True) f := by
  rw [abandon]
  dsimp only
  split
  · refine ((quiet_saveJournal _).bind fun _ => ?_).wp (fun _ _ _ => trivial) fun _ _ _ => trivial
    exact .raise _
  · rw [Program.wp_bind]
    refine Program.wp_handle.mpr (wp_rollbackTargets h.transactionId (fun r hr => .inl ⟨hopens, h.backed r hr⟩)
      (fun hold => absurd hopens hold) (fun j t => ?_) fun rollback t => ?_)
    · exact (quiet_conclude _ _).wp (fun _ _ _ => trivial) fun _ _ _ => trivial
    · rw [Program.wp_bind]
      exact (quiet_conclude _ _).wp (fun _ _ _ => trivial) fun _ _ _ => trivial

/-! ### The call -/

/-- The path of a transaction that is new. -/
theorem wp_start (hopens : (f₀.workspace options.transactionId).journal = none) :
    (start options m).wp deployMachine (Moves options m f₀) (fun _ _ => True) (fun _ _ => True) f₀ := by
  rw [start, Program.wp_bind]
  refine wp_look rfl rfl (fun occupied _ => ?_) fun _ => trivial
  rw [Program.wp_bind]
  refine (quiet_ensure _ _ _).wp (fun _ f hsame => ?_) fun _ _ _ => trivial
  rw [Program.wp_bind]
  refine (quiet_ask rfl).wp (fun now t ht => ?_) fun _ _ _ => trivial
  rw [Program.wp_bind, saveJournal, Program.wp_bind]
  refine (quiet_ask rfl).wp (fun updatedAt t₁ ht₁ => ?_) fun _ _ _ => trivial
  refine Program.wp_bind.mpr ((quiet_ask rfl).wp (fun _ t₂ ht₂ => ?_) fun _ _ _ => trivial)
  refine Program.wp_handle.mpr (Program.wp_mono (wp_promoteBundle hopens ?_ rfl rfl) (fun _ _ h => h)
    fun failure u hu => wp_abandon hopens hu)
  exact ht₂.1.trans (ht₁.1.trans (ht.1.trans hsame.1))

/-- The path of a transaction that was interrupted. -/
theorem wp_resume {j : Journal} (hreceipt : (f₀.workspace options.transactionId).receipt = none)
    (hjournal : (f₀.workspace options.transactionId).journal = some j) :
    (resume options m j).wp deployMachine (Moves options m f₀) (fun _ _ => True) (fun _ _ => True) f₀ := by
  rw [resume, verifyTransactionBinding, Program.wp_bind]
  refine wp_ensure (fun hbinding => ?_) fun _ => trivial
  simp only [Bool.and_eq_true, beq_iff_eq] at hbinding
  obtain ⟨⟨hid, hhome⟩, hbundle⟩ := hbinding
  cases htargets : j.targets with
  | nil =>
      -- the journal has no records: the rollback writes nothing
      have hrest : ∀ (j' : Journal) (t : Files), j'.transactionId = options.transactionId →
          j'.targets = [] → (recoverInterrupted j').wp deployMachine (Moves options m f₀)
            (fun _ _ => True) (fun _ _ => True) t := by
        intro j' t hid' hj'
        refine wp_recoverInterrupted hid' (fun r hr => ?_) fun _ => ?_
        · rw [hj'] at hr
          cases hr
        · rw [hj']
          exact List.nodup_nil
      rw [Program.wp_bind]
      refine (quiet_validate _ _ _).wp (fun _ t _ => ?_) fun _ _ _ => trivial
      rw [List.isEmpty_nil, if_pos rfl, Program.wp_bind]
      refine (quiet_writeManifest _ _).wp (fun _ t _ => ?_) fun _ _ _ => trivial
      rw [Program.wp_bind, saveJournal, Program.wp_bind]
      refine (quiet_ask rfl).wp (fun _ t _ => ?_) fun _ _ _ => trivial
      exact Program.wp_bind.mpr ((quiet_ask rfl).wp (fun _ t _ => hrest _ t hid rfl)
        fun _ _ _ => trivial)
  | cons r rest =>
      have hfull : j.targets.isEmpty = false := by rw [htargets, List.isEmpty_cons]
      rw [Program.wp_bind, validateRecoveryJournal, hfull, ← htargets, if_neg Bool.false_ne_true,
        Program.wp_bind]
      refine wp_ensure (fun hlength => ?_) fun _ => trivial
      rw [Program.wp_bind]
      refine wp_ensure (fun hrecords => ?_) fun _ => trivial
      rw [Program.wp_bind]
      refine wp_ensure (fun hdirectories => ?_) fun _ => trivial
      rw [Program.wp_bind]
      refine wp_look rfl rfl (fun stored hstored => ?_) fun _ => trivial
      refine wp_ensure (fun hmanifest => ?_) fun _ => trivial
      obtain rfl : stored = (f₀.workspace options.transactionId).manifest := hstored
      rw [Bool.and_eq_true, beq_iff_eq, beq_iff_eq] at hmanifest
      have hinterrupted : Interrupted options m f₀ j :=
        ⟨hreceipt, hjournal, hid, hhome, hbundle, beq_iff_eq.mp hlength, hrecords, hdirectories,
          hmanifest.1, hmanifest.2⟩
      rw [hfull, if_neg Bool.false_ne_true]
      exact wp_recoverInterrupted hid (fun r hr => .inr ⟨j, hinterrupted, hr, rfl, rfl⟩) fun _ =>
        hinterrupted.nodup

/-- **The part under the lock.** -/
theorem wp_deployLocked :
    (deployLocked options m).wp deployMachine (Moves options m f₀) (fun _ _ => True)
      (fun _ _ => True) f₀ := by
  rw [deployLocked, Program.wp_bind]
  refine wp_look rfl rfl (fun receipt hreceipt => ?_) fun _ => trivial
  cases receipt with
  | some r =>
      refine ((quiet_checkExisting _ _ _ _).bind fun _ => ?_).wp (fun _ _ _ => trivial)
        fun _ _ _ => trivial
      exact .ret r
  | none =>
      dsimp only
      rw [Program.wp_bind]
      refine wp_look rfl rfl (fun journal hjournal => ?_) fun _ => trivial
      cases journal with
      | some j => exact wp_resume hreceipt.symm hjournal.symm
      | none => exact wp_start hjournal.symm

end Calls

end Moves

end CodingOS.Deploy
