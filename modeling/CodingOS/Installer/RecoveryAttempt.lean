import CodingOS.Installer.Rules
import CodingOS.Systems.Session

/-!
# The single recovery attempt

An interrupted transaction is recovered by the next invocation with its roots, once.  The attempt is
recorded in the journal before the roots of the invocation are compared with those the journal was
written for, so an invocation with another `--skills-root` consumes it.  `refused_invocations`: a series
of such invocations leaves everything alone exactly when each is stopped before it takes the lock, and
then an invocation with the right roots makes the attempt.
-/

namespace CodingOS.Installer

open CodingOS.Python Systems

section Attempts

variable [Runtime] [FileDigest] [Host]

/-- An invocation of `install` or `uninstall`: what it returns or raises if it ends before it takes the
lock, and what it does after the recovery. -/
structure Invocation where
  roots : Roots
  early : Option (Except InstallError Unit) := none
  rest : Task Unit

def Invocation.program (i : Invocation) : Task Unit :=
  match i.early with
  | some result => Program.ofExcept result
  | none => recoverPending i.roots >>= fun _ => i.rest

/-- An invocation is stopped by an exception before it takes the lock. -/
def Invocation.stopped (i : Invocation) : Prop := ∃ e, i.early = some (.error e)

/-- The disk of a host whose operations do not fail. -/
abbrev undisturbed : Machine InstallAnswer Disk := installMachine fun _ => False

/-- An invocation that runs to its end. -/
def Invoked (d : Disk) (l : Session Invocation InstallOp Disk InstallError Unit) (d' : Disk) : Prop :=
  Exec undisturbed l.call.program d l.history l.outcome d' ∧ l.outcome ≠ .crashed

/-- The state root holds one interrupted transaction, whose recovery was not attempted yet. -/
structure Pending (d : Disk) (journal : Journal) : Prop where
  only : d.journals.filter (·.status == .inProgress) = [journal]
  unfailed : d.journals.any (·.status == .recoveryFailed) = false
  unattempted : journal.recoveryAttempted = false

/-- The roots do not match the workspaces the journal records. -/
def Mismatched (journal : Journal) (roots : Roots) : Prop :=
  ∃ e, validateJournalWorkspace journal roots = .error e

omit [Runtime] [FileDigest] in
theorem mismatched_iff {journal : Journal} {roots : Roots} :
    Mismatched journal roots ↔ (validateJournalWorkspace journal roots).toBool = false := by
  rw [Mismatched]
  cases validateJournalWorkspace journal roots <;> simp [Except.toBool]

/-- The invocation raised and left the targets, the workspaces, the pointer and the journals alone. -/
def Refused (e : Entry Disk (Session Invocation InstallOp Disk InstallError Unit)) : Prop :=
  (∃ exc, e.label.outcome = .raised exc) ∧ e.after = e.before

variable {d d' : Disk} {journal : Journal} {i : Invocation}

omit [Runtime] [FileDigest] [Host] in
/-- The attempt changes the journals. -/
theorem Pending.save_ne (h : Pending d journal) : d.save journal.attempted ≠ d := by
  intro hsame
  have hpending : ∀ j, j ∈ d.journals ∧ j.status = .inProgress ↔ j = journal := by
    intro j
    have hmem := congrArg (j ∈ ·) h.only
    simpa using hmem
  have hown := (hpending journal).mpr rfl
  have hany : d.journals.any (·.transactionId == journal.attempted.transactionId) = true :=
    List.any_eq_true.mpr ⟨journal, hown.1, by simp [Journal.attempted]⟩
  have hmem : journal.attempted ∈ (d.save journal.attempted).journals := by
    rw [Disk.save]
    dsimp only
    rw [if_pos hany]
    exact List.mem_map.mpr ⟨journal, hown.1, if_pos rfl⟩
  rw [hsame] at hmem
  -- the interrupted journal would then have its attempt recorded
  have hattempt := congrArg Journal.recoveryAttempted ((hpending _).mp ⟨hmem, hown.2⟩)
  rw [h.unattempted] at hattempt
  cases hattempt

omit [Runtime] [FileDigest] [Host] in
theorem Pending.pendingJournal (h : Pending d journal) :
    pendingJournal d.journals = .ok (some journal) := by
  rw [Installer.pendingJournal, h.only, h.unfailed]
  rfl

/-- The recovery of an interrupted transaction records its attempt and then compares the roots. -/
theorem Pending.attempt {history : List (Entry Disk InstallOp)} {o : Outcome InstallError Unit}
    {rest : Task Unit} {roots : Roots} (h : Pending d journal)
    (hexec : Exec undisturbed (recoverPending roots >>= fun _ => rest) d history o d')
    (hended : o ≠ .crashed) :
    ∃ later, Exec undisturbed (Program.ofExcept (validateJournalWorkspace journal.attempted roots) >>=
      fun _ => recoverJournal journal.attempted roots >>= fun _ => rest)
      (d.save journal.attempted) later o d' := by
  rw [recoverPending, Program.bind_assoc] at hexec
  obtain ⟨journals, u, later, hstep, -, hexec⟩ | ⟨e, hstep, -⟩ := Exec.ask_bind hexec hended
  · obtain ⟨hjournals, rfl⟩ | ⟨hfail, -⟩ := hstep
    · obtain rfl := Except.ok.inj hjournals
      rw [h.pendingJournal] at hexec
      replace hexec : Exec undisturbed (attemptRecovery journal roots >>= fun _ => rest) u later o d' :=
        hexec
      rw [attemptRecovery, h.unattempted] at hexec
      replace hexec : Exec undisturbed ((saveJournal journal.attempted >>= fun _ =>
        Program.ofExcept (validateJournalWorkspace journal.attempted roots) >>= fun _ =>
          recoverJournal journal.attempted roots) >>= fun _ => rest) u later o d' := hexec
      rw [Program.bind_assoc] at hexec
      obtain ⟨_, u', later', hsave, -, hexec⟩ | ⟨e, hsave, -⟩ := Exec.ask_bind hexec hended
      · obtain ⟨-, rfl⟩ | ⟨hfail, -⟩ := hsave
        · rw [Program.bind_assoc] at hexec
          exact ⟨later', hexec⟩
        · exact hfail.elim
      · obtain ⟨hnever, -⟩ | ⟨hfail, -⟩ := hsave
        · cases hnever
        · exact hfail.elim
    · exact hfail.elim
  · obtain ⟨hnever, -⟩ | ⟨hfail, -⟩ := hstep
    · cases hnever
    · exact hfail.elim

/-- An invocation with the roots of the journal makes the single attempt: after it is recorded, its run is
the recovery of the transaction and what follows. -/
def GetsAttempt (d : Disk) (journal : Journal) : Prop :=
  ∀ (i : Invocation) (history : List (Entry Disk InstallOp)) (o : Outcome InstallError Unit) (d' : Disk),
    i.early = none → ¬ Mismatched journal i.roots → Exec undisturbed i.program d history o d' →
    o ≠ .crashed →
    ∃ later, Exec undisturbed (recoverJournal journal.attempted i.roots >>= fun _ => i.rest)
      (d.save journal.attempted) later o d'

theorem Pending.getsAttempt (h : Pending d journal) : GetsAttempt d journal := by
  intro i history o d' hearly hmatch hexec hended
  rw [Invocation.program, hearly] at hexec
  obtain ⟨later, hexec⟩ := h.attempt hexec hended
  cases hvalid : validateJournalWorkspace journal.attempted i.roots with
  | error e => exact absurd ⟨e, hvalid⟩ hmatch
  | ok workspaces =>
      rw [hvalid] at hexec
      exact ⟨later, hexec⟩

/-- An invocation that is stopped does nothing. -/
theorem Invoked.of_stopped {l : Session Invocation InstallOp Disk InstallError Unit}
    (h : Invoked d l d') (hstopped : l.call.stopped) : Refused ⟨d, l, d'⟩ := by
  obtain ⟨e, hearly⟩ := hstopped
  have hexec := h.1
  rw [Invocation.program, hearly] at hexec
  obtain ⟨-, hout, hstay⟩ := Exec.of_raise hexec
  exact ⟨⟨e, hout⟩, hstay⟩

/-- An invocation with other roots that is refused was stopped before the recovery: there it would have
consumed the attempt. -/
theorem Pending.stopped_of_refused {l : Session Invocation InstallOp Disk InstallError Unit}
    (h : Pending d journal) (hinvoked : Invoked d l d') (hmismatch : Mismatched journal l.call.roots)
    (hrefused : Refused ⟨d, l, d'⟩) : l.call.stopped := by
  obtain ⟨⟨exc, hraised⟩, hsame⟩ := hrefused
  obtain ⟨hexec, hended⟩ := hinvoked
  rw [Invocation.program] at hexec
  cases hearly : l.call.early with
  | some result =>
      rw [hearly] at hexec
      cases result with
      | error e => exact ⟨e, hearly⟩
      | ok u =>
          have hvalue := (Exec.of_ret hexec).2.1
          cases hraised.symm.trans hvalue
  | none =>
      rw [hearly] at hexec
      obtain ⟨later, hexec⟩ := h.attempt hexec hended
      obtain ⟨e, hmismatch⟩ := hmismatch
      rw [show validateJournalWorkspace journal.attempted l.call.roots = .error e from hmismatch]
        at hexec
      exact absurd ((Exec.of_raise hexec).2.2.symm.trans hsame) h.save_ne

/-- Refused invocations leave the disk as it was. -/
theorem refused_stay {d₀ : Disk}
    {history : List (Entry Disk (Session Invocation InstallOp Disk InstallError Unit))}
    (hrun : Run Invoked d₀ history d) (hrefused : ∀ e ∈ history, Refused e) :
    d = d₀ ∧ ∀ e ∈ history, e.before = d₀ := by
  induction hrun with
  | start => exact ⟨rfl, fun e he => absurd he List.not_mem_nil⟩
  | @snoc history s s' l hrun hstep ih =>
      rw [List.forall_mem_append, List.forall_mem_singleton] at hrefused
      obtain ⟨rfl, hbefore⟩ := ih hrefused.1
      refine ⟨hrefused.2.2, ?_⟩
      rw [List.forall_mem_append, List.forall_mem_singleton]
      exact ⟨hbefore, rfl⟩

/-- **Refused invocations.**  While one interrupted transaction waits for its recovery, a series of
invocations with other roots raises and leaves everything alone, and the next invocation with the right
roots makes the attempt, exactly when each of the series is stopped before it takes the lock. -/
theorem refused_invocations {d₀ d : Disk} {journal : Journal}
    {history : List (Entry Disk (Session Invocation InstallOp Disk InstallError Unit))}
    (hpending : Pending d₀ journal) (hrun : Run Invoked d₀ history d)
    (hmismatch : ∀ e ∈ history, Mismatched journal e.label.call.roots) :
    ((∀ e ∈ history, Refused e) ∧ d = d₀ ∧ GetsAttempt d journal) ↔
      ∀ e ∈ history, e.label.call.stopped := by
  constructor
  · rintro ⟨hrefused, -⟩ e he
    have hbefore := (refused_stay hrun hrefused).2 e he
    have hinvoked := (hrun.step_of_mem he).2
    exact (hbefore ▸ hpending).stopped_of_refused hinvoked (hmismatch e he) (hrefused e he)
  · intro hstopped
    have hrefused : ∀ e ∈ history, Refused e := fun e he =>
      (hrun.step_of_mem he).2.of_stopped (hstopped e he)
    obtain ⟨rfl, -⟩ := refused_stay hrun hrefused
    exact ⟨hrefused, rfl, hpending.getsAttempt⟩

end Attempts

/-! ### Two invocations -/

section Runs

open Sample

namespace Sample

/-- The journal of an install that was interrupted before its targets were prepared. -/
def journal : Journal where
  transactionId := "0123456789abcdef0123456789abcdef"
  operation := .install
  status := .inProgress
  phase := some .lockAcquired
  transactionWorkspaces := some ⟨["home", "skills",
    ".coding-os-transaction-0123456789abcdef0123456789abcdef-skills"], ["home", "codex",
    ".coding-os-transaction-0123456789abcdef0123456789abcdef-codex-home"]⟩
  recoveryAttempted := false
  previousCurrent := none
  previousCurrentSha256 := none
  newPointerSha256 := none
  targets := []
  stageRoots := [["home", "skills",
    ".coding-os-transaction-0123456789abcdef0123456789abcdef-skills", "stage"], ["home", "codex",
    ".coding-os-transaction-0123456789abcdef0123456789abcdef-codex-home", "stage"]]
  rollbackRoots := [["home", "skills",
    ".coding-os-transaction-0123456789abcdef0123456789abcdef-skills", "rollback"], ["home", "codex",
    ".coding-os-transaction-0123456789abcdef0123456789abcdef-codex-home", "rollback"]]

def interrupted : Disk := ⟨fun _ => none, none, [journal]⟩

theorem interrupted_pending : Pending interrupted journal := ⟨by decide, by decide, rfl⟩

def rightRoots : Roots := ⟨["home", "skills"], ["home", "codex"]⟩

def wrongRoots : Roots := ⟨["home", "other"], ["home", "codex"]⟩

/-- An invocation that goes as far as the recovery. -/
def invocation (roots : Roots) : Invocation := { roots, rest := pure () }

/-- What an invocation leaves. -/
def invoke (i : Invocation) (d : Disk) :
    List (Entry Disk InstallOp) × Outcome InstallError Unit × Disk := i.program.compute world 100 d

theorem invoke_invoked (i : Invocation) (d : Disk) (h : (invoke i d).2.1 ≠ .crashed) :
    Invoked d ⟨i, (invoke i d).1, (invoke i d).2.1⟩ (invoke i d).2.2 :=
  ⟨Program.compute_exec (world_step _) 100 _ _, h⟩

end Sample

/-- An invocation that its arguments stop. -/
def stoppedInvocation : Invocation :=
  { invocation wrongRoots with early := some (.error ⟨.transaction, "install roots overlap"⟩) }

theorem refused_invocations_sample :
    (∀ e ∈ [(⟨interrupted, ⟨stoppedInvocation, [], .raised ⟨.transaction, "install roots overlap"⟩⟩,
        interrupted⟩ : Entry Disk (Session Invocation InstallOp Disk InstallError Unit))], Refused e) ∧
      interrupted = interrupted ∧ GetsAttempt interrupted journal := by
  refine (refused_invocations interrupted_pending (Run.start.snoc ⟨.raise _ _, ?_⟩)
    fun e he => ?_).mpr fun e he => ?_
  · intro hcrashed
    cases hcrashed
  · obtain rfl := List.mem_singleton.mp he
    exact mismatched_iff.mpr (by decide +kernel)
  · obtain rfl := List.mem_singleton.mp he
    exact ⟨_, rfl⟩

/-- An invocation with another skills root consumes the attempt, and the next one, with the right root,
leaves the transaction in RECOVERY_FAILED. -/
theorem consumed_attempt :
    ∃ l₁ d₁ l₂ d₂, Invoked interrupted l₁ d₁ ∧ Mismatched journal l₁.call.roots ∧
      ¬ Refused ⟨interrupted, l₁, d₁⟩ ∧ Invoked d₁ l₂ d₂ ∧ ¬ Mismatched journal l₂.call.roots ∧
      d₂.journals.map (·.status) = [.recoveryFailed] := by
  have hattempted : (invoke (invocation wrongRoots) interrupted).2.2.journals.map
      (·.recoveryAttempted) = [true] := by decide +kernel
  refine ⟨_, _, _, _,
    invoke_invoked (invocation wrongRoots) interrupted (ne_crashed (by decide +kernel)),
    mismatched_iff.mpr (by decide +kernel), fun hrefused => ?_,
    invoke_invoked (invocation rightRoots) _ (ne_crashed (by decide +kernel)), fun hmismatch => ?_,
    by decide +kernel⟩
  · have hsame := hrefused.2
    dsimp only at hsame
    rw [hsame] at hattempted
    cases hattempted
  · have hmatch : (validateJournalWorkspace journal rightRoots).toBool = true := by decide +kernel
    rw [mismatched_iff] at hmismatch
    rw [show (invocation rightRoots).roots = rightRoots from rfl, hmatch] at hmismatch
    cases hmismatch

end Runs

end CodingOS.Installer
