import CodingOS.Installer.RecoveryAttempt

/-!
# Foreign bytes survive recovery

Rollback and restart recovery compare what they find at the live paths, and at `current.json`, with the
hashes the journal recorded.  They change only what has one of those hashes, and stop in RECOVERY_FAILED
at anything else.

`exists` follows links, so a link that leads nowhere counts as nothing there: it is replaced by a file
that is moved back, or passed over.  The check of a committed transaction, unlike the rollback, lets the
exception of a tree that cannot be hashed pass.  `foreign_bytes_survive`: the law holds where the recovery
meets neither.
-/

namespace CodingOS.Installer

open CodingOS.Python Systems

section Foreign

variable [Runtime] [FileDigest] [Host]

/-- What has one of two recorded hashes. -/
def HasHash (n : Option Node) (first second : Option String) : Prop :=
  ∃ h, treeHash n = .ok (some h) ∧ (first = some h ∨ second = some h)

/-- A live path that holds something that is neither the new nor the prior content of its target. -/
def Foreign (t : Target) (n : Option Node) : Prop := n ≠ none ∧ ¬ HasHash n t.newSha256 t.priorSha256

/-- An operation changes a live path only from nothing or from content with a recorded hash, and the
pointer only from nothing or from one of the two recorded pointers. -/
structure Owned (journal : Journal) (d d' : Disk) : Prop where
  live : ∀ t ∈ journal.targets, d'.node t.livePath ≠ d.node t.livePath →
    d.node t.livePath = none ∨ HasHash (d.node t.livePath) t.newSha256 t.priorSha256
  pointer : d'.current ≠ d.current →
    d.current = none ∨ HasHash d.current journal.previousCurrentSha256 journal.newPointerSha256

/-- The status of a transaction on the disk. -/
def Disk.status (d : Disk) (id : String) : Option Status :=
  (d.journals.find? (·.transactionId == id)).map (·.status)

/-- Both paths of a target hold what they held. -/
def Target.Kept (t : Target) (d d' : Disk) : Prop :=
  d'.node t.livePath = d.node t.livePath ∧ d'.node t.rollbackPath = d.node t.rollbackPath

/-- The recovery stopped at a target: it raised, the journal says so, and neither the target nor the ones
that would have been processed after it are touched. -/
structure StoppedAt {α : Type} (journal : Journal) (t : Target) (d : Disk) (o : Outcome InstallError α)
    (d' : Disk) : Prop where
  raised : ∃ e, o = .raised e
  failed : d'.status journal.transactionId = some .recoveryFailed
  kept : t.Kept d d'
  later : ∀ before after, journal.targets = before ++ t :: after → ∀ u ∈ before, u.Kept d d'

/-- Foreign bytes survive a run: every operation changes only what the transaction owns, and a run that
meets foreign bytes stops there. -/
structure Survive {α : Type} (journal : Journal) (d : Disk) (history : List (Entry Disk InstallOp))
    (o : Outcome InstallError α) (d' : Disk) : Prop where
  owned : ∀ e ∈ history, Owned journal e.before e.after
  stopped : o ≠ .crashed → ∀ t ∈ journal.targets, Foreign t (d.node t.livePath) →
    StoppedAt journal t d o d'

/-! ### What the recovery overlooks -/

/-- A live path holds a link that leads nowhere, and the rollback of its target does not stop there: it
moves a file over the link, or finds nothing to do. -/
def Overlooked (t : Target) (d : Disk) : Prop :=
  d.node t.livePath = some (.link none) ∧
    if t.priorPresent then
      present (d.node t.rollbackPath) = true ∧ renames (d.node t.rollbackPath) (some (.link none)) = true
        ∧ treeHash (d.node t.rollbackPath) = .ok t.priorSha256
    else present (d.node t.rollbackPath) = false

/-- The rollback of a target goes through. -/
def RollsBack (t : Target) (d : Disk) : Prop :=
  if t.priorPresent then
    if present (d.node t.rollbackPath) then
      treeHash (d.node t.rollbackPath) = .ok t.priorSha256 ∧ isLink (d.node t.rollbackPath) = false ∧
        if present (d.node t.livePath) then
          isRegular (d.node t.livePath) = true ∧ (treeHash (d.node t.livePath) = .ok t.newSha256 ∨
            treeHash (d.node t.livePath) = .ok t.priorSha256)
        else renames (d.node t.rollbackPath) (d.node t.livePath) = true
    else present (d.node t.livePath) = true ∧ isLink (d.node t.livePath) = false ∧
      treeHash (d.node t.livePath) = .ok t.priorSha256
  else present (d.node t.rollbackPath) = false ∧ (present (d.node t.livePath) = true →
    isRegular (d.node t.livePath) = true ∧ treeHash (d.node t.livePath) = .ok t.newSha256)

/-- A rollback overlooks nothing it reaches: no link at the live path of a target, where the targets
processed before it are rolled back, and none at the pointer, where the previous one is written. -/
structure RollbackSees (journal : Journal) (d : Disk) : Prop where
  live : ∀ before t after, journal.targets = before ++ t :: after → (∀ u ∈ after, RollsBack u d) →
    ¬ Overlooked t d
  pointer : ∀ previous, journal.previousCurrent = some previous →
    some (FileDigest.sha256 previous) = journal.previousCurrentSha256 →
    (∀ t ∈ journal.targets, RollsBack t d) → d.current ≠ some (.link none)

/-- The pointer is the new one. -/
def PointerCommitted (journal : Journal) (d : Disk) : Prop :=
  isFile d.current = true ∧ ∃ h, journal.newPointerSha256 = some h ∧ treeHash d.current = .ok (some h)

/-- The live path of a target passes the check of a committed transaction. -/
def Promoted (t : Target) (d : Disk) : Prop :=
  if t.newSha256.isSome then
    present (d.node t.livePath) = true ∧ isLink (d.node t.livePath) = false ∧
      treeHash (d.node t.livePath) = .ok t.newSha256
  else present (d.node t.livePath) = false

/-- The check of a committed transaction overlooks nothing it reaches: where a target should be gone there
is no link, and where one should be promoted there is no tree without a hash. -/
def CommitSees (journal : Journal) (d : Disk) : Prop :=
  ∀ before t after, journal.targets = before ++ t :: after → (∀ u ∈ before, Promoted u d) →
    if t.newSha256.isSome then
      isLink (d.node t.livePath) = false → ∃ h, treeHash (d.node t.livePath) = .ok h
    else d.node t.livePath ≠ some (.link none)

/-- A recovery overlooks nothing it reaches, and its roots are those of the journal. -/
structure RecoverySees (roots : Roots) (journal : Journal) (d : Disk) : Prop where
  roots : ∃ paths, validateJournalWorkspace journal roots = .ok paths
  commit : PointerCommitted journal d → CommitSees journal d
  rollback : ¬ PointerCommitted journal d → RollbackSees journal d

/-- The paths of a transaction as the installer lays them out: the live paths and the rollback paths are
all different, and no live path lies in a workspace or among the retained backups. -/
structure Layout (roots : Roots) (journal : Journal) : Prop where
  live : (journal.targets.map (·.livePath)).Nodup
  apart : ∀ t ∈ journal.targets, ∀ u ∈ journal.targets, t.livePath ≠ u.rollbackPath
  rollback : (journal.targets.map (·.rollbackPath)).Nodup
  outside : ∀ t ∈ journal.targets, ∀ path ∈ journal.stageRoots ++ journal.rollbackRoots,
    within t.livePath path = false
  workspaces : ∀ t ∈ journal.targets, ∀ paths, validateJournalWorkspace journal roots = .ok paths →
    ∀ path ∈ paths, within t.livePath path = false
  retained : ∀ t ∈ journal.targets, ∀ u ∈ journal.targets, t.livePath ≠ retainedPath roots journal u

/-- The operations that can fail during a recovery: those on the paths and on the campaign store. -/
def FileOp : InstallOp → Prop
  | .readJournals | .saveJournal _ | .look _ | .lookCurrent => False
  | _ => True

/-! ### Nodes -/

omit [Runtime] in
theorem hasHash_of_treeHash [Runtime] {n : Option Node} {h first second : Option String}
    (hn : treeHash n = .ok h) (hpresent : present n = true) (heq : first = h ∨ second = h) :
    HasHash n first second := by
  cases h with
  | none =>
      rw [treeHash_eq_none.mp hn] at hpresent
      cases hpresent
  | some h => exact ⟨h, hn, heq⟩

omit [Runtime] [FileDigest] [Host] in
theorem eq_none_or_link {n : Option Node} (h : present n = false) : n = none ∨ n = some (.link none) := by
  match n, h with
  | none, _ => exact .inl rfl
  | some (.link none), _ => exact .inr rfl

/-- Where the rollback of a target goes through although its live path holds foreign bytes, it overlooked
them. -/
theorem RollsBack.overlooked {t : Target} {d : Disk} (h : RollsBack t d)
    (hforeign : Foreign t (d.node t.livePath)) : Overlooked t d := by
  have hseen : present (d.node t.livePath) = true → ¬ (treeHash (d.node t.livePath) = .ok t.newSha256 ∨
      treeHash (d.node t.livePath) = .ok t.priorSha256) := by
    rintro hpresent (hhash | hhash)
    · exact hforeign.2 (hasHash_of_treeHash hhash hpresent (.inl rfl))
    · exact hforeign.2 (hasHash_of_treeHash hhash hpresent (.inr rfl))
  rw [RollsBack] at h
  have hgone : present (d.node t.livePath) = false := by
    by_contra hpresent
    rw [Bool.not_eq_false] at hpresent
    have hnot := hseen hpresent
    split at h
    · split at h
      · exact hnot h.2.2.2
      · exact hnot (.inr h.2.2)
    · exact hnot (.inl (h.2 hpresent).2)
  have hlink : d.node t.livePath = some (.link none) := (eq_none_or_link hgone).resolve_left hforeign.1
  refine ⟨hlink, ?_⟩
  split
  · rename_i hprior
    rw [if_pos hprior] at h
    split at h
    · rename_i hkept
      rw [if_neg (by simp [hgone]), hlink] at h
      exact ⟨hkept, h.2.2, h.1⟩
    · rw [hgone] at h
      cases h.1
  · rename_i hprior
    rw [if_neg hprior] at h
    exact h.1

/-- A target that passes the check of a committed transaction holds no foreign bytes, unless it should be
gone and holds a link that leads nowhere. -/
theorem Promoted.not_foreign {t : Target} {d : Disk} (h : Promoted t d)
    (hlink : t.newSha256 = none → d.node t.livePath ≠ some (.link none)) :
    ¬ Foreign t (d.node t.livePath) := by
  intro hforeign
  rw [Promoted] at h
  split at h
  · exact hforeign.2 (hasHash_of_treeHash h.2.2 h.1 (.inl rfl))
  · rename_i hnew
    exact (eq_none_or_link h).elim hforeign.1 (hlink (by simpa using hnew))

section Frames

variable {t u : Target} {d d' d'' : Disk}

omit [Runtime] [FileDigest] [Host] in
theorem Target.Kept.refl : t.Kept d d := ⟨rfl, rfl⟩

omit [Runtime] [FileDigest] [Host] in
theorem Target.Kept.trans (h : t.Kept d d') (h' : t.Kept d' d'') : t.Kept d d'' :=
  ⟨h'.1.trans h.1, h'.2.trans h.2⟩

theorem Target.Kept.overlooked (h : t.Kept d d') : Overlooked t d' ↔ Overlooked t d := by
  rw [Overlooked, Overlooked, h.1, h.2]

theorem Target.Kept.rollsBack (h : t.Kept d d') : RollsBack t d' ↔ RollsBack t d := by
  rw [RollsBack, RollsBack, h.1, h.2]

/-- Only the two paths of a target are changed. -/
structure Target.Only (t : Target) (d d' : Disk) : Prop where
  node : ∀ path, path ≠ t.livePath → path ≠ t.rollbackPath → d'.node path = d.node path
  current : d'.current = d.current
  journals : d'.journals = d.journals

omit [Runtime] [FileDigest] [Host] in
theorem Target.Only.refl : t.Only d d := ⟨fun _ _ _ => rfl, rfl, rfl⟩

omit [Runtime] [FileDigest] [Host] in
theorem Target.Only.set_live {n : Option Node} : t.Only d (d.set t.livePath n) :=
  ⟨fun _ hlive _ => Function.update_of_ne hlive _ _, rfl, rfl⟩

omit [Runtime] [FileDigest] [Host] in
theorem Target.Only.move {d₁ : Disk} (h : t.Only d d₁) :
    t.Only d ((d₁.set t.livePath (d₁.node t.rollbackPath)).set t.rollbackPath none) :=
  ⟨fun path hlive hkept => by
    show Function.update _ _ _ path = _
    rw [Function.update_of_ne hkept]
    show Function.update _ _ _ path = _
    rw [Function.update_of_ne hlive, h.node path hlive hkept], h.current, h.journals⟩

end Frames

/-! ### What the operations keep -/

section Rules

variable {roots : Roots} {J : Journal} {t : Target} {d d' d'' : Disk} {E : InstallError → Disk → Prop}

theorem Owned.of_same (hnode : d'.node = d.node) (hcurrent : d'.current = d.current) : Owned J d d' :=
  ⟨fun _ _ hne => absurd (congrFun hnode _) hne, fun hne => absurd hcurrent hne⟩

theorem Owned.refl : Owned J d d := .of_same rfl rfl

/-- A target may change its own paths once its live path is known to be the transaction's. -/
theorem Owned.of_only (hlayout : Layout roots J) (ht : t ∈ J.targets) (honly : t.Only d d')
    (hlive : d.node t.livePath = none ∨ HasHash (d.node t.livePath) t.newSha256 t.priorSha256) :
    Owned J d d' := by
  refine ⟨fun u hu hne => ?_, fun hne => absurd honly.current hne⟩
  have hpath : u.livePath = t.livePath := by
    by_contra hpath
    exact hne (honly.node _ hpath (hlayout.apart u hu t ht))
  obtain rfl : u = t := List.inj_on_of_nodup_map hlayout.live hu ht hpath
  exact hlive

/-- A path that is the live path of no target may be changed. -/
theorem Owned.of_elsewhere {path : Path} (hpath : ∀ t ∈ J.targets, t.livePath ≠ path)
    (hnode : ∀ p, p ≠ path → d'.node p = d.node p) (hcurrent : d'.current = d.current) :
    Owned J d d' :=
  ⟨fun t ht hne => absurd (hnode _ (hpath t ht)) hne, fun hne => absurd hcurrent hne⟩

/-- The guarantee: foreign bytes are left alone. -/
abbrev keepsForeign (J : Journal) : Disk → InstallOp → Disk → Prop := fun d _ d' => Owned J d d'

theorem wp_look {path : Path} {Q : Option Node → Disk → Prop} (h : Q (d.node path) d) :
    (ask (.look path)).wp (installMachine FileOp) (keepsForeign J) Q E d :=
  wp_do (fun _ _ heffect => heffect) (fun _ ht => .of_same (congrArg _ ht) (congrArg _ ht)) .refl h
    fun hfail => hfail.elim

theorem wp_lookCurrent {Q : Option Node → Disk → Prop} (h : Q d.current d) :
    (ask .lookCurrent).wp (installMachine FileOp) (keepsForeign J) Q E d :=
  wp_do (fun _ _ heffect => heffect) (fun _ ht => .of_same (congrArg _ ht) (congrArg _ ht)) .refl h
    fun hfail => hfail.elim

theorem wp_makeParent {path : Path} {Q : Unit → Disk → Prop} (h : Q () d) (herror : ∀ e, E e d) :
    (ask (.makeParent path)).wp (installMachine FileOp) (keepsForeign J) Q E d :=
  wp_do (fun _ _ heffect => heffect) (fun _ ht => .of_same (congrArg _ ht) (congrArg _ ht)) .refl h
    fun _ e _ ht => ht ▸ herror e

theorem wp_saveJournal {journal : Journal} {Q : Unit → Disk → Prop} (h : Q () (d.save journal)) :
    (saveJournal journal).wp (installMachine FileOp) (keepsForeign J) Q E d := by
  refine wp_do (fun _ _ heffect => heffect) (fun _ ht => ?_) (.of_same rfl rfl) h fun hfail => hfail.elim
  rcases ht with rfl | rfl
  · exact .refl
  · exact .of_same rfl rfl

theorem wp_remove {path : Path} {Q : Unit → Disk → Prop} (howned : ∀ n, Owned J d (d.set path n))
    (h : Q () (d.set path none)) (herror : ∀ e n, E e (d.set path n)) :
    (ask (.remove path)).wp (installMachine FileOp) (keepsForeign J) Q E d := by
  refine wp_do (fun _ _ heffect => heffect) (fun _ ht => ?_) (howned none) h fun _ e _ ht => ?_
  · obtain ⟨n, -, rfl⟩ := ht
    exact howned n
  · obtain ⟨n, -, rfl⟩ := ht
    exact herror e n

/-- The outcome of a rename is the move, or nothing. -/
theorem wp_rename {source target : Path} {Q : Unit → Disk → Prop}
    (hmove : renames (d.node source) (d.node target) = true →
      Owned J d ((d.set target (d.node source)).set source none) ∧
      Q () ((d.set target (d.node source)).set source none) ∧
      ∀ e, E e ((d.set target (d.node source)).set source none))
    (hstay : ∀ e, E e d) :
    (ask (.rename source target)).wp (installMachine FileOp) (keepsForeign J) Q E d := by
  have hcut : ∀ u, Partial (.rename source target) d u → Owned J d u ∧ ∀ e, E e u := by
    rintro u (rfl | ⟨hrenames, rfl⟩)
    · exact ⟨.refl, hstay⟩
    · exact ⟨(hmove hrenames).1, (hmove hrenames).2.2⟩
  refine wp_ask (fun u hu => (hcut u hu).1) (fun r u hu => ?_) fun e u hu => ?_
  · rcases hu with hu | ⟨-, ⟨_, herror⟩, -⟩
    · simp only [Effect] at hu
      split at hu
      · rename_i hrenames
        obtain ⟨-, rfl⟩ := hu
        exact ⟨(hmove hrenames).1, (hmove hrenames).2.1⟩
      · obtain ⟨⟨_, herror⟩, -⟩ := hu
        cases herror
    · cases herror
  · rcases hu with hu | ⟨-, -, hu⟩
    · simp only [Effect] at hu
      split at hu
      · cases hu.1
      · obtain ⟨-, rfl⟩ := hu
        exact ⟨.refl, hstay e⟩
    · exact ⟨(hcut u hu).1, (hcut u hu).2 e⟩

theorem wp_pathHash {path : Path} {Q : Option String → Disk → Prop}
    (hok : ∀ h, treeHash (d.node path) = .ok h → Q h d) (herror : ∀ e, E e d) :
    (pathHash path).wp (installMachine FileOp) (keepsForeign J) Q E d := by
  rw [pathHash, Program.wp_bind]
  exact wp_look (wp_ofExcept hok fun e _ => herror e)

theorem wp_pathExists {path : Path} {Q : Bool → Disk → Prop} (h : Q (present (d.node path)) d) :
    (pathExists path).wp (installMachine FileOp) (keepsForeign J) Q E d := by
  rw [pathExists, Program.wp_bind]
  exact wp_look h

/-- An owned path is removed if it holds a regular file or a directory. -/
theorem wp_removeOwnedPath {path : Path} {Q : Unit → Disk → Prop}
    (howned : ∀ n, Owned J d (d.set path n)) (hgone : present (d.node path) = false → Q () d)
    (h : isRegular (d.node path) = true → Q () (d.set path none))
    (herror : ∀ e n, E e (d.set path n)) (hstay : ∀ e, E e d) :
    (removeOwnedPath path).wp (installMachine FileOp) (keepsForeign J) Q E d := by
  rw [removeOwnedPath, Program.wp_bind]
  refine wp_look ?_
  by_cases hpresent : present (d.node path) = true
  · rw [if_pos hpresent, Program.wp_bind]
    refine wp_ensure (fun _ => ?_) fun _ => hstay _
    rw [Program.wp_bind]
    exact wp_ensure (fun hregular => wp_remove howned (h hregular) herror) fun _ => hstay _
  · rw [if_neg hpresent]
    exact hgone (by simpa using hpresent)

/-- The check of a target, against its prior content or its new one. -/
theorem wp_verifyTargetState {useNew : Bool} {Q : Bool → Disk → Prop}
    (hpass : (if (if useNew then t.newSha256.isSome else t.priorPresent) then
        present (d.node t.livePath) = true ∧ isLink (d.node t.livePath) = false ∧
          treeHash (d.node t.livePath) = .ok (if useNew then t.newSha256 else t.priorSha256)
      else present (d.node t.livePath) = false) → Q true d)
    (hfail : Q false d)
    (herror : ∀ e, (if useNew then t.newSha256.isSome else t.priorPresent) = true →
      isLink (d.node t.livePath) = false → treeHash (d.node t.livePath) = .error e → E e d) :
    (verifyTargetState t useNew).wp (installMachine FileOp) (keepsForeign J) Q E d := by
  rw [verifyTargetState, Program.wp_bind]
  refine wp_look ?_
  cases hexpected : (if useNew then t.newSha256.isSome else t.priorPresent) with
  | false =>
      rw [hexpected] at hpass
      cases hpresent : present (d.node t.livePath) with
      | false => exact hpass hpresent
      | true => exact hfail
  | true =>
      rw [hexpected] at hpass
      rw [Bool.not_true, if_neg Bool.false_ne_true]
      split
      · rename_i hlooked
        rw [Bool.and_eq_true, Bool.not_eq_true'] at hlooked
        rw [Program.wp_bind]
        refine wp_ofExcept (fun h hhash => ?_) fun e hhash => herror e hexpected hlooked.2 hhash
        rw [Program.wp_pure]
        cases hsame : h == (if useNew then t.newSha256 else t.priorSha256) with
        | false => exact hfail
        | true => exact hpass ⟨hlooked.1, hlooked.2, by rw [hhash, beq_iff_eq.mp hsame]⟩
      · exact hfail

end Rules

/-! ### The rollback of one target -/

section Rollback

variable {roots : Roots} {J : Journal} {t : Target} {d d₁ : Disk}

/-- What is known where the rollback of a target stops: it changed nothing but its own paths, and nothing
at all where it met foreign bytes. -/
def Stops (t : Target) (d : Disk) (_ : InstallError) (d' : Disk) : Prop :=
  t.Only d d' ∧ (Foreign t (d.node t.livePath) → d' = d)

theorem Stops.here (e : InstallError) : Stops t d e d := ⟨.refl, fun _ => rfl⟩

theorem Stops.of_own (honly : t.Only d d₁) (hown : ¬ Foreign t (d.node t.livePath)) (e : InstallError) :
    Stops t d e d₁ := ⟨honly, fun hforeign => absurd hforeign hown⟩

/-- The last check of a rollback. -/
theorem wp_restored {Q : Unit → Disk → Prop} {E : InstallError → Disk → Prop}
    (hpass : (if t.priorPresent then present (d.node t.livePath) = true ∧
        isLink (d.node t.livePath) = false ∧ treeHash (d.node t.livePath) = .ok t.priorSha256
      else present (d.node t.livePath) = false) → Q () d) (hstop : ∀ e, E e d) :
    (do
      let restored ← verifyTargetState t false
      ensure restored .recovery ("restored target hash mismatch: " ++ t.targetId)).wp
      (installMachine FileOp) (keepsForeign J) Q E d := by
  rw [Program.wp_bind]
  exact wp_verifyTargetState (fun h => wp_ensure (fun _ => hpass h) fun h => nomatch h)
    (wp_ensure (fun h => nomatch h) fun _ => hstop _) fun e _ _ _ => hstop e

/-- The rollback path is moved over the live path, and the move is checked. -/
theorem wp_moveBack (hlayout : Layout roots J) (ht : t ∈ J.targets) (honly : t.Only d d₁)
    (hkept : d₁.node t.rollbackPath = d.node t.rollbackPath)
    (howned : renames (d.node t.rollbackPath) (d₁.node t.livePath) = true →
      ¬ Foreign t (d.node t.livePath) ∧
        (d₁.node t.livePath = none ∨ HasHash (d₁.node t.livePath) t.newSha256 t.priorSha256))
    (hstay : ∀ e, Stops t d e d₁)
    (hdone : renames (d.node t.rollbackPath) (d₁.node t.livePath) = true →
      isLink (d.node t.rollbackPath) = false → RollsBack t d) :
    (do
      ask (.makeParent t.livePath)
      ask (.rename t.rollbackPath t.livePath)).wp (installMachine FileOp) (keepsForeign J)
      (fun _ d' => t.Only d d' ∧ (isLink (d'.node t.livePath) = false → RollsBack t d) ∧
        ¬ Foreign t (d.node t.livePath)) (Stops t d) d₁ := by
  have hapart := hlayout.apart t ht t ht
  rw [Program.wp_bind]
  refine wp_makeParent (wp_rename (fun hrenames => ?_) hstay) hstay
  rw [hkept] at hrenames
  obtain ⟨hforeign, hlive⟩ := howned hrenames
  have hmoved : ((d₁.set t.livePath (d₁.node t.rollbackPath)).set t.rollbackPath none).node t.livePath =
      d.node t.rollbackPath := by
    show Function.update (Function.update _ _ _) _ _ _ = _
    rw [Function.update_of_ne hapart, Function.update_self, hkept]
  refine ⟨.of_only hlayout ht (Target.Only.move .refl) hlive, ⟨honly.move, ?_, hforeign⟩,
    Stops.of_own honly.move hforeign⟩
  rw [hmoved]
  exact hdone hrenames

/-- What is known where the rollback of a target went as far as its last check. -/
structure Restores (t : Target) (d d' : Disk) : Prop where
  only : t.Only d d'
  own : Foreign t (d.node t.livePath) → d' = d
  rollsBack : (if t.priorPresent then present (d'.node t.livePath) = true ∧
      isLink (d'.node t.livePath) = false ∧ treeHash (d'.node t.livePath) = .ok t.priorSha256
    else present (d'.node t.livePath) = false) → RollsBack t d

theorem wp_restorePresent (hlayout : Layout roots J) (ht : t ∈ J.targets)
    (hprior : t.priorPresent = true) (hsees : ¬ Overlooked t d) {liveHash rollbackHash : Option String}
    (hlive : treeHash (d.node t.livePath) = .ok liveHash)
    (hrollback : treeHash (d.node t.rollbackPath) = .ok rollbackHash) :
    (restorePresent t liveHash rollbackHash).wp (installMachine FileOp) (keepsForeign J)
      (fun _ d' => Restores t d d') (Stops t d) d := by
  have hapart := hlayout.apart t ht t ht
  rw [restorePresent, Program.wp_bind]
  refine wp_pathExists ?_
  rw [Program.wp_bind]
  refine wp_pathExists ?_
  by_cases hkept : present (d.node t.rollbackPath) = true
  · rw [if_pos hkept, Program.wp_bind]
    refine wp_ensure (fun hhash => ?_) fun _ => Stops.here _
    rw [beq_iff_eq] at hhash
    rw [hhash] at hrollback
    by_cases hpresent : present (d.node t.livePath) = true
    · rw [if_pos hpresent, Program.wp_bind]
      refine wp_ensure (fun hknown => ?_) fun _ => Stops.here _
      rw [Bool.or_eq_true, beq_iff_eq, beq_iff_eq] at hknown
      have hown : HasHash (d.node t.livePath) t.newSha256 t.priorSha256 :=
        hasHash_of_treeHash hlive hpresent (hknown.imp Eq.symm Eq.symm)
      have hforeign : ¬ Foreign t (d.node t.livePath) := fun hforeign => hforeign.2 hown
      rw [Program.wp_bind]
      refine wp_removeOwnedPath (fun n => .of_only hlayout ht .set_live (.inr hown))
        (fun hgone => ?_) (fun hregular => ?_) (fun e n => Stops.of_own .set_live hforeign e)
        fun _ => Stops.here _
      · rw [hpresent] at hgone
        cases hgone
      · refine Program.wp_mono (wp_moveBack hlayout ht .set_live
          (Function.update_of_ne hapart.symm _ _) (fun _ => ⟨hforeign, .inl (Function.update_self ..)⟩)
          (Stops.of_own .set_live hforeign) fun _ hlink => ?_) (fun _ d' h => ⟨h.1, fun hf => absurd hf
            hforeign, fun hpass => ?_⟩) fun _ _ h => h
        · rw [RollsBack, if_pos hprior, if_pos hkept, if_pos hpresent]
          refine ⟨hrollback, hlink, hregular, ?_⟩
          rcases hknown with rfl | rfl
          · exact .inl hlive
          · exact .inr hlive
        · rw [if_pos hprior] at hpass
          exact h.2.1 hpass.2.1
    · rw [if_neg hpresent]
      rw [Bool.not_eq_true] at hpresent
      have hmoved : renames (d.node t.rollbackPath) (d.node t.livePath) = true →
          d.node t.livePath = none := by
        intro hrenames
        refine (eq_none_or_link hpresent).resolve_right fun hlink => hsees ⟨hlink, ?_⟩
        rw [if_pos hprior]
        exact ⟨hkept, hlink ▸ hrenames, hrollback⟩
      refine Program.wp_mono (wp_moveBack hlayout ht .refl rfl (fun hrenames => ⟨fun hforeign =>
        hforeign.1 (hmoved hrenames), .inl (hmoved hrenames)⟩) Stops.here fun hrenames hlink => ?_)
        (fun _ d' h => ⟨h.1, fun hf => absurd hf h.2.2, fun hpass => ?_⟩) fun _ _ h => h
      · rw [RollsBack, if_pos hprior, if_pos hkept, if_neg (by simp [hpresent])]
        exact ⟨hrollback, hlink, hrenames⟩
      · rw [if_pos hprior] at hpass
        exact h.2.1 hpass.2.1
  · rw [if_neg hkept]
    refine wp_ensure (fun _ => ⟨.refl, fun _ => rfl, fun hpass => ?_⟩) fun _ => Stops.here _
    rw [if_pos hprior] at hpass
    rw [RollsBack, if_pos hprior, if_neg hkept]
    exact hpass

theorem wp_restoreAbsent (hlayout : Layout roots J) (ht : t ∈ J.targets)
    (hprior : t.priorPresent = false) {liveHash : Option String}
    (hlive : treeHash (d.node t.livePath) = .ok liveHash) :
    (restoreAbsent t liveHash).wp (installMachine FileOp) (keepsForeign J)
      (fun _ d' => Restores t d d') (Stops t d) d := by
  have hnot : ¬ t.priorPresent = true := by simp [hprior]
  rw [restoreAbsent, Program.wp_bind]
  refine wp_pathExists ?_
  rw [Program.wp_bind]
  refine wp_ensure (fun hkept => ?_) fun _ => Stops.here _
  rw [Bool.not_eq_true'] at hkept
  rw [Program.wp_bind]
  refine wp_pathExists ?_
  by_cases hpresent : present (d.node t.livePath) = true
  · rw [if_pos hpresent, Program.wp_bind]
    refine wp_ensure (fun hknown => ?_) fun _ => Stops.here _
    rw [beq_iff_eq] at hknown
    rw [hknown] at hlive
    have hown : HasHash (d.node t.livePath) t.newSha256 t.priorSha256 :=
      hasHash_of_treeHash hlive hpresent (.inl rfl)
    have hforeign : ¬ Foreign t (d.node t.livePath) := fun hforeign => hforeign.2 hown
    refine wp_removeOwnedPath (fun n => .of_only hlayout ht .set_live (.inr hown))
      (fun hgone => ?_) (fun hregular => ⟨.set_live, fun hf => absurd hf hforeign, fun _ => ?_⟩)
      (fun e n => Stops.of_own .set_live hforeign e) fun _ => Stops.here _
    · rw [hpresent] at hgone
      cases hgone
    · rw [RollsBack, if_neg hnot]
      exact ⟨hkept, fun _ => ⟨hregular, hlive⟩⟩
  · rw [if_neg hpresent]
    refine ⟨.refl, fun _ => rfl, fun _ => ?_⟩
    rw [RollsBack, if_neg hnot]
    exact ⟨hkept, fun h => absurd h hpresent⟩

/-- **The rollback of one target.** -/
theorem wp_rollbackTarget (hlayout : Layout roots J) (ht : t ∈ J.targets) (hsees : ¬ Overlooked t d) :
    (rollbackTarget t).wp (installMachine FileOp) (keepsForeign J)
      (fun _ d' => t.Only d d' ∧ RollsBack t d) (Stops t d) d := by
  rw [rollbackTarget, Program.wp_bind]
  refine wp_pathHash (fun liveHash hlive => ?_) Stops.here
  rw [Program.wp_bind]
  refine wp_pathHash (fun rollbackHash hrollback => ?_) Stops.here
  have hcheck : ∀ d', Restores t d d' → (do
      let restored ← verifyTargetState t false
      ensure restored .recovery ("restored target hash mismatch: " ++ t.targetId)).wp
      (installMachine FileOp) (keepsForeign J) (fun _ d' => t.Only d d' ∧ RollsBack t d) (Stops t d) d' :=
    fun d' h => wp_restored (fun hpass => ⟨h.only, h.rollsBack hpass⟩) fun _ => ⟨h.only, h.own⟩
  cases hprior : t.priorPresent with
  | true =>
      rw [if_pos rfl, Program.wp_bind]
      exact Program.wp_mono (wp_restorePresent hlayout ht hprior hsees hlive hrollback)
        (fun _ d' h => hcheck d' h) fun _ _ h => h
  | false =>
      rw [if_neg Bool.false_ne_true, Program.wp_bind]
      exact Program.wp_mono (wp_restoreAbsent hlayout ht hprior hlive)
        (fun _ d' h => hcheck d' h) fun _ _ h => h

/-! ### The rollback of all targets -/

omit [Runtime] [FileDigest] [Host] in
theorem Target.Only.kept {u : Target} (h : t.Only d d₁) (hlive : u.livePath ≠ t.livePath)
    (hapart : u.livePath ≠ t.rollbackPath) (hapart' : t.livePath ≠ u.rollbackPath)
    (hrollback : u.rollbackPath ≠ t.rollbackPath) : u.Kept d d₁ :=
  ⟨h.node _ hlive hapart, h.node _ hapart'.symm hrollback⟩

/-- The targets of a list that hold foreign bytes are kept, and so are those after them. -/
def KeptFrom (ts : List Target) (d d' : Disk) : Prop :=
  ∀ before t after, ts = before ++ t :: after → Foreign t (d.node t.livePath) →
    t.Kept d d' ∧ ∀ u ∈ after, u.Kept d d'

/-- The targets, in the order a rollback processes them: no link is overlooked where it gets so far. -/
def SeesFrom (ts : List Target) (d : Disk) : Prop :=
  ∀ before t after, ts = before ++ t :: after → (∀ u ∈ before, RollsBack u d) → ¬ Overlooked t d

theorem SeesFrom.tail {ts : List Target} (h : SeesFrom (t :: ts) d) (ht : RollsBack t d)
    (hkept : ∀ u ∈ ts, u.Kept d d₁) : SeesFrom ts d₁ := by
  rintro before u after rfl hbefore hoverlooked
  refine h (t :: before) u after rfl ?_ ((hkept u (by simp)).overlooked.mp hoverlooked)
  rw [List.forall_mem_cons]
  exact ⟨ht, fun v hv => (hkept v (by simp [hv])).rollsBack.mp (hbefore v hv)⟩

theorem KeptFrom.cons {ts : List Target} {d' : Disk} (h : KeptFrom ts d₁ d')
    (ht : ¬ Foreign t (d.node t.livePath)) (hkept : ∀ u ∈ ts, u.Kept d d₁) :
    KeptFrom (t :: ts) d d' := by
  intro before u after hsplit hforeign
  cases before with
  | nil =>
      obtain ⟨rfl, rfl⟩ := List.cons.inj hsplit
      exact absurd hforeign ht
  | cons v before =>
      obtain ⟨rfl, rfl⟩ := List.cons.inj hsplit
      have hu := hkept u (by simp)
      obtain ⟨hsame, hafter⟩ := h before u after rfl (hu.1 ▸ hforeign)
      exact ⟨hu.trans hsame, fun w hw => (hkept w (by simp [hw])).trans (hafter w hw)⟩

/-- The rollback of a list of targets goes through, or keeps the foreign bytes and what is after them. -/
theorem wp_rollbacks (hlayout : Layout roots J) (ts : List Target) (hts : ∀ t ∈ ts, t ∈ J.targets)
    (hlive : (ts.map (·.livePath)).Nodup) (hrollback : (ts.map (·.rollbackPath)).Nodup)
    (hsees : SeesFrom ts d) :
    (ts.forM rollbackTarget).wp (installMachine FileOp) (keepsForeign J)
      (fun _ d' => d'.current = d.current ∧ ∀ t ∈ ts, RollsBack t d ∧ ¬ Foreign t (d.node t.livePath))
      (fun _ d' => KeptFrom ts d d') d := by
  induction ts generalizing d with
  | nil => exact ⟨rfl, fun t ht => absurd ht List.not_mem_nil⟩
  | cons t ts ih =>
      rw [List.map_cons, List.nodup_cons] at hlive hrollback
      have ht := hts t List.mem_cons_self
      have hkept : ∀ {d' : Disk}, t.Only d d' → ∀ u ∈ ts, u.Kept d d' := by
        intro d' honly u hu
        have hu' := hts u (List.mem_cons_of_mem _ hu)
        refine honly.kept (fun hpath => hlive.1 ?_) (hlayout.apart u hu' t ht)
          (hlayout.apart t ht u hu') fun hpath => hrollback.1 ?_
        · exact hpath ▸ List.mem_map_of_mem hu
        · exact hpath ▸ List.mem_map_of_mem hu
      have hsee : ¬ Overlooked t d := hsees [] t ts rfl fun u hu => absurd hu List.not_mem_nil
      rw [List.forM, Program.wp_bind]
      refine Program.wp_mono (wp_rollbackTarget hlayout ht hsee) (fun _ d' h => ?_) fun e d' h => ?_
      · obtain ⟨honly, hrolls⟩ := h
        have hforeign : ¬ Foreign t (d.node t.livePath) := fun hf => hsee (hrolls.overlooked hf)
        refine Program.wp_mono (ih (fun u hu => hts u (List.mem_cons_of_mem _ hu)) hlive.2 hrollback.2
          (hsees.tail hrolls (hkept honly))) (fun _ d'' h => ⟨h.1.trans honly.current, ?_⟩) fun e d'' h =>
            h.cons hforeign (hkept honly)
        rw [List.forall_mem_cons]
        refine ⟨⟨hrolls, hforeign⟩, fun u hu => ?_⟩
        have hu' := hkept honly u hu
        rw [← hu'.rollsBack, ← hu'.1]
        exact h.2 u hu
      · rintro before u after hsplit hforeign
        cases before with
        | nil =>
            obtain ⟨rfl, rfl⟩ := List.cons.inj hsplit
            obtain rfl := h.2 hforeign
            exact ⟨.refl, fun _ _ => .refl⟩
        | cons v before =>
            obtain ⟨rfl, rfl⟩ := List.cons.inj hsplit
            exact ⟨hkept h.1 u (by simp), fun w hw => hkept h.1 w (by simp [hw])⟩

omit [Runtime] [FileDigest] [Host] in
/-- A saved journal gives its transaction its status. -/
theorem Disk.status_save (d : Disk) (journal : Journal) :
    (d.save journal).status journal.transactionId = some journal.status := by
  rw [Disk.status, Disk.save]
  by_cases hany : d.journals.any (·.transactionId == journal.transactionId) = true
  · rw [if_pos hany]
    have hid : ((fun j : Journal => j.transactionId == journal.transactionId) ∘ fun j : Journal =>
        if j.transactionId = journal.transactionId then journal else j) =
        fun j => j.transactionId == journal.transactionId := by
      funext j
      by_cases hj : j.transactionId = journal.transactionId <;> simp [hj]
    rw [List.find?_map, hid]
    cases hfind : d.journals.find? (·.transactionId == journal.transactionId) with
    | none =>
        obtain ⟨j, hj, hjid⟩ := List.any_eq_true.mp hany
        exact absurd hjid (List.find?_eq_none.mp hfind j hj)
    | some j =>
        have hj := List.find?_some hfind
        simp [beq_iff_eq.mp hj]
  · rw [if_neg hany]
    have hnone : d.journals.find? (·.transactionId == journal.transactionId) = none := by
      rw [List.find?_eq_none]
      intro j hj hjid
      exact hany (List.any_eq_true.mpr ⟨j, hj, hjid⟩)
    simp [List.find?_append, hnone]

/-- A write of the pointer replaces it, or nothing happens. -/
theorem wp_pointerWrite {op : InstallOp} {Q : InstallReply op → Disk → Prop}
    {E : InstallError → Disk → Prop}
    (heffect : ∀ answer d', Effect op d answer d' → d'.node = d.node)
    (hcut : ∀ d', Partial op d d' → d'.node = d.node)
    (howned : d.current = none ∨ HasHash d.current J.previousCurrentSha256 J.newPointerSha256)
    (hQ : ∀ r d', d'.node = d.node → Q r d') (hE : ∀ e d', d'.node = d.node → E e d') :
    (ask op).wp (installMachine FileOp) (keepsForeign J) Q E d := by
  have hown : ∀ {d' : Disk}, d'.node = d.node → Owned J d d' := fun hnode =>
    ⟨fun t _ hne => absurd (congrFun hnode _) hne, fun _ => howned⟩
  have hstep : ∀ answer d', (installMachine FileOp).step op d answer d' → d'.node = d.node := by
    rintro answer d' (h | ⟨-, -, h⟩)
    · exact heffect _ _ h
    · exact hcut _ h
  exact wp_ask (fun d' h => hown (hcut d' h))
    (fun r d' h => ⟨hown (hstep _ _ h), hQ r d' (hstep _ _ h)⟩)
    fun e d' h => ⟨hown (hstep _ _ h), hE e d' (hstep _ _ h)⟩

omit [Runtime] [FileDigest] [Host] in
theorem Effect.pointer_node {op : InstallOp} (hop : op = .unlinkCurrent ∨ ∃ content, op = .writeCurrent content)
    {answer : InstallAnswer op} (h : Effect op d answer d₁) : d₁.node = d.node := by
  rcases hop with rfl | ⟨content, rfl⟩ <;> simp only [Effect] at h <;> split at h <;> rw [h.2]

omit [Runtime] [FileDigest] [Host] in
theorem Partial.pointer_node {op : InstallOp} (hop : op = .unlinkCurrent ∨ ∃ content, op = .writeCurrent content)
    (h : Partial op d d₁) : d₁.node = d.node := by
  rcases hop with rfl | ⟨content, rfl⟩
  · rcases h with rfl | rfl <;> rfl
  · rcases h with rfl | ⟨-, rfl⟩ <;> rfl

/-- The last part of `_restore_previous_pointer`. -/
def putPreviousPointer (journal : Journal) (live : Bool) : Task Unit :=
  match journal.previousCurrent with
  | none => if live then ask .unlinkCurrent else pure ()
  | some previous => do
      ensure (some (FileDigest.sha256 previous) == journal.previousCurrentSha256) .recovery
        "journal previous pointer backup hash mismatch"
      ask (.writeCurrent previous)

/-- The pointer is restored from nothing or from one of the two pointers of the transaction. -/
theorem wp_restorePreviousPointer {Q : Unit → Disk → Prop} {E : InstallError → Disk → Prop}
    (hsees : ∀ previous, J.previousCurrent = some previous →
      some (FileDigest.sha256 previous) = J.previousCurrentSha256 → d.current ≠ some (.link none))
    (hQ : ∀ d', d'.node = d.node → Q () d') (hE : ∀ e d', d'.node = d.node → E e d') :
    (restorePreviousPointer J).wp (installMachine FileOp) (keepsForeign J) Q E d := by
  rw [restorePreviousPointer, Program.wp_bind]
  refine wp_lookCurrent ?_
  -- what is found may be replaced when it is one of the two pointers
  have hrest : (present d.current = true →
      HasHash d.current J.previousCurrentSha256 J.newPointerSha256) →
      (putPreviousPointer J (present d.current)).wp (installMachine FileOp) (keepsForeign J) Q E d := by
    intro hown
    rw [putPreviousPointer]
    cases hprevious : J.previousCurrent with
    | none =>
        dsimp only
        split
        · rename_i hpresent
          exact wp_pointerWrite (fun _ _ => Effect.pointer_node (.inl rfl))
            (fun _ => Partial.pointer_node (.inl rfl)) (.inr (hown hpresent)) (fun _ => hQ) hE
        · exact hQ d rfl
    | some previous =>
        dsimp only
        rw [Program.wp_bind]
        refine wp_ensure (fun hhash => ?_) fun _ => hE _ _ rfl
        refine wp_pointerWrite (fun _ _ => Effect.pointer_node (.inr ⟨_, rfl⟩))
          (fun _ => Partial.pointer_node (.inr ⟨_, rfl⟩)) ?_ (fun _ => hQ) hE
        cases hpresent : present d.current with
        | true => exact .inr (hown hpresent)
        | false =>
            have hlink := hsees previous hprevious (beq_iff_eq.mp hhash)
            exact .inl ((eq_none_or_link hpresent).resolve_right hlink)
  by_cases hpresent : present d.current = true
  · rw [if_pos hpresent, Program.wp_bind]
    refine wp_ensure (fun _ => ?_) fun _ => hE _ _ rfl
    rw [Program.wp_bind]
    refine wp_ofExcept (fun live hlive => ?_) fun e _ => hE e _ rfl
    rw [Program.wp_bind]
    refine wp_ensure (fun hknown => hrest fun _ => ?_) fun _ => hE _ _ rfl
    have hmem : live = J.previousCurrentSha256 ∨ live = J.newPointerSha256 := by simpa using hknown
    exact hasHash_of_treeHash hlive hpresent (hmem.imp Eq.symm Eq.symm)
  · rw [if_neg hpresent]
    exact hrest fun h => absurd h hpresent

/-- What is known where a recovery raises: it stopped at the foreign bytes that were there. -/
def Halted (J : Journal) (d : Disk) (_ : InstallError) (d' : Disk) : Prop :=
  ∀ t ∈ J.targets, Foreign t (d.node t.livePath) → d'.status J.transactionId = some .recoveryFailed ∧
    t.Kept d d' ∧ ∀ before after, J.targets = before ++ t :: after → ∀ u ∈ before, u.Kept d d'

/-- No live path holds foreign bytes. -/
def NoneForeign (J : Journal) (d : Disk) : Prop := ∀ t ∈ J.targets, ¬ Foreign t (d.node t.livePath)

theorem NoneForeign.halted {e : InstallError} {d' : Disk} (h : NoneForeign J d) : Halted J d e d' :=
  fun t ht hforeign => absurd hforeign (h t ht)

/-- The failure of a rollback is recorded. -/
theorem wp_recoveryFailed {α : Type} {exc : InstallError} {Q : α → Disk → Prop}
    (hkept : KeptFrom J.targets.reverse d d₁) :
    (recoveryFailed J exc).wp (installMachine FileOp) (keepsForeign J) Q (Halted J d) d₁ := by
  rw [recoveryFailed, Program.wp_bind]
  refine wp_saveJournal fun t ht hforeign => ?_
  have hsplit : ∀ {before after : List Target}, J.targets = before ++ t :: after →
      t.Kept d d₁ ∧ ∀ u ∈ before, u.Kept d d₁ := by
    intro before after hsplit
    obtain ⟨hsame, hlater⟩ := hkept after.reverse t before.reverse (by simp [hsplit]) hforeign
    exact ⟨hsame, fun u hu => hlater u (List.mem_reverse.mpr hu)⟩
  obtain ⟨before, after, htargets⟩ := List.append_of_mem ht
  exact ⟨Disk.status_save _ _, (hsplit htargets).1, fun _ _ h u hu => (hsplit h).2 u hu⟩

/-- **The rollback of a transaction** goes through where no live path holds foreign bytes, or stops. -/
theorem wp_rollbackTargets (hlayout : Layout roots J) (hsees : RollbackSees J d) :
    (rollbackTargets J).wp (installMachine FileOp) (keepsForeign J)
      (fun J' _ => J' = { J with outcome := some "rolled_back", status := .rolledBack } ∧
        NoneForeign J d) (Halted J d) d := by
  have hreverse : SeesFrom J.targets.reverse d := by
    intro before t after hsplit hbefore
    refine hsees.live after.reverse t before.reverse ?_ fun u hu => hbefore u (List.mem_reverse.mp hu)
    rw [← List.reverse_reverse J.targets, hsplit]
    simp
  have hmem : ∀ t ∈ J.targets.reverse, t ∈ J.targets := fun t ht => List.mem_reverse.mp ht
  rw [rollbackTargets, Program.wp_bind, Program.wp_handle, Program.wp_bind]
  refine Program.wp_mono (wp_rollbacks hlayout J.targets.reverse hmem
    (by rw [List.map_reverse]; exact List.nodup_reverse.mpr hlayout.live)
    (by rw [List.map_reverse]; exact List.nodup_reverse.mpr hlayout.rollback) hreverse)
    (fun _ d' h => ?_) fun e d' h => wp_recoveryFailed h
  obtain ⟨hcurrent, hall⟩ := h
  have hnone : NoneForeign J d := fun t ht => (hall t (List.mem_reverse.mpr ht)).2
  have hkept : ∀ {d' : Disk}, KeptFrom J.targets.reverse d d' := by
    intro d' before t after hsplit hforeign
    exact absurd hforeign (hnone t (hmem t (by simp [hsplit])))
  refine wp_restorePreviousPointer (fun previous hprevious hhash => ?_) (fun d'' _ => ?_)
    fun e d'' _ => wp_recoveryFailed hkept
  · rw [hcurrent]
    exact hsees.pointer previous hprevious hhash fun t ht => (hall t (List.mem_reverse.mpr ht)).1
  · dsimp only
    rw [Program.wp_bind, Program.wp_handle]
    exact wp_saveJournal ⟨rfl, hnone⟩

end Rollback

/-! ### The cleanup -/

section Cleanup

variable {roots : Roots} {J J' : Journal} {t : Target} {d : Disk} {ε α β : Type}

/-- A program that changes no live path and not the pointer. -/
def Aside (J : Journal) (p : Program InstallAnswer ε α) : Prop :=
  ∀ d, p.wp (installMachine FileOp) (keepsForeign J) (fun _ _ => True) (fun _ _ => True) d

theorem Aside.pure (a : α) : Aside J (pure a : Program InstallAnswer ε α) := fun _ => trivial

theorem Aside.bind {p : Program InstallAnswer ε α} {f : α → Program InstallAnswer ε β} (hp : Aside J p)
    (hf : ∀ a, Aside J (f a)) : Aside J (p >>= f) := by
  intro d
  rw [Program.wp_bind]
  exact Program.wp_mono (hp d) (fun a t _ => hf a t) fun _ _ h => h

theorem Aside.within {p : Task α} (hp : Aside J p) : Aside J (p.within J') := by
  intro d
  rw [Task.within, Program.wp_handle]
  exact hp d

theorem Aside.ensure {condition : Bool} {kind : ErrorKind} {message : String} :
    Aside J (ensure condition kind message) := fun _ => wp_ensure (fun _ => trivial) fun _ => trivial

theorem Aside.ofExcept {x : Except InstallError α} : Aside J (Program.ofExcept x : Task α) :=
  fun _ => wp_ofExcept (fun _ _ => trivial) fun _ _ => trivial

theorem Aside.forM {l : List α} {f : α → Program InstallAnswer ε Unit} (h : ∀ a ∈ l, Aside J (f a)) :
    Aside J (l.forM f) := by
  induction l with
  | nil => exact .pure ()
  | cons a l ih =>
      rw [List.forall_mem_cons] at h
      exact .bind h.1 fun _ => ih h.2

theorem Aside.ask {op : InstallOp} (heffect : ∀ d answer d', Effect op d answer d' → Owned J d d')
    (hcut : ∀ d d', Partial op d d' → Owned J d d') : Aside J (ask op) := by
  intro d
  have hstep : ∀ answer d', (installMachine FileOp).step op d answer d' → Owned J d d' := by
    rintro answer d' (h | ⟨-, -, h⟩)
    · exact heffect _ _ _ h
    · exact hcut _ _ h
  exact wp_ask (hcut d) (fun _ d' h => ⟨hstep _ d' h, trivial⟩) fun _ d' h => ⟨hstep _ d' h, trivial⟩

theorem Aside.look {path : Path} : Aside J (Installer.ask (.look path)) := fun _ => wp_look trivial

theorem Aside.pathExists {path : Path} : Aside J (pathExists path) := fun _ => wp_pathExists trivial

theorem Aside.pathHash {path : Path} : Aside J (pathHash path) :=
  fun _ => wp_pathHash (fun _ _ => trivial) fun _ => trivial

theorem Aside.saveJournal {journal : Journal} : Aside J (saveJournal journal) :=
  fun _ => wp_saveJournal trivial

theorem Aside.copy {source target : Path} (h : ∀ t ∈ J.targets, t.livePath ≠ target) :
    Aside J (Installer.ask (.copy source target)) := by
  have hset : ∀ {d : Disk} {n : Option Node}, Owned J d (d.set target n) := fun {d n} =>
    .of_elsewhere h (fun p hp => Function.update_of_ne hp _ _) rfl
  refine .ask (fun d answer d' heffect => ?_) fun d d' hcut => ?_
  · rw [heffect.2]
    exact hset
  · obtain ⟨n, rfl⟩ := hcut
    exact hset

theorem Aside.removeWorkspace {path : Path} (h : ∀ t ∈ J.targets, Installer.within t.livePath path = false) :
    Aside J (Installer.ask (.removeWorkspace path)) := by
  refine .ask (fun d answer d' heffect => ?_) fun d d' hcut => ?_
  · refine ⟨fun t ht hne => absurd ?_ hne, fun hne => absurd ?_ hne⟩
    · rw [heffect.2]
      show (if Installer.within t.livePath path = true then none else d.node t.livePath) = _
      rw [h t ht, if_neg Bool.false_ne_true]
    · rw [heffect.2]
      rfl
  · exact ⟨fun t ht hne => absurd (hcut.2.2 _ (.inl (h t ht))) hne,
      fun hne => absurd hcut.1 hne⟩

theorem Aside.copyPath {source target : Path} (h : ∀ t ∈ J.targets, t.livePath ≠ target) :
    Aside J (copyPath source target) := by
  refine .bind .look fun node => .bind .ensure fun _ => .bind (fun _ => wp_makeParent trivial fun _ =>
    trivial) fun _ => ?_
  split
  · exact .bind .pathExists fun _ => .bind .ensure fun _ => .copy h
  · exact .copy h
  · exact fun _ => trivial

theorem Aside.retainBackup (h : ∀ u ∈ J.targets, u.livePath ≠ retainedPath roots J' t) :
    Aside J (retainBackup roots J' t) := by
  refine .bind .pathExists fun kept => ?_
  split
  · refine .bind .pathExists fun retained => ?_
    split
    · exact .bind .pathHash fun _ => .bind .ensure fun _ => .saveJournal
    · exact .bind (.copyPath h) fun _ => .bind .pathHash fun _ => .bind .ensure fun _ => .saveJournal
  · exact .pure ()

theorem Aside.retainAndCleanup {committed : Bool} (hlayout : Layout roots J')
    (htargets : J'.targets = J.targets) : Aside J (retainAndCleanup J' committed roots) := by
  intro d
  rw [Installer.retainAndCleanup, Program.wp_bind]
  refine Program.wp_handle.mpr (wp_ofExcept (fun workspaces hvalid => ?_) fun _ _ => trivial)
  have hclear : Aside J ((J'.stageRoots ++ J'.rollbackRoots ++ workspaces).forM
      fun path => Installer.ask (.removeWorkspace path)) := by
    refine .forM fun path hpath => .removeWorkspace fun t ht => ?_
    rw [← htargets] at ht
    rcases List.mem_append.mp hpath with hpath | hpath
    · exact hlayout.outside t ht path hpath
    · exact hlayout.workspaces t ht workspaces hvalid path hpath
  have hretain : Aside J (J'.targets.forM (Installer.retainBackup roots J')) :=
    .forM fun t ht => .retainBackup fun u hu => hlayout.retained u (htargets ▸ hu) t ht
  have hend : ∀ journal : Journal, Aside J (do
      ((J'.stageRoots ++ J'.rollbackRoots ++ workspaces).forM
        fun path => Installer.ask (.removeWorkspace path)).within J'
      (Installer.saveJournal journal).within journal) :=
    fun journal => .bind hclear.within fun _ => Aside.saveJournal.within
  dsimp only
  cases committed with
  | true => exact (Aside.bind hretain.within fun _ => hend _) d
  | false => exact hend _ d

end Cleanup

/-! ### The recovery -/

section Recovery

variable {roots : Roots} {J : Journal} {t : Target} {d : Disk}

omit [Runtime] in
theorem treeHash_of_isFile [Runtime] {n : Option Node} (h : isFile n = true) :
    ∃ hash, treeHash n = .ok (some hash) := by
  match n, h with
  | some (.file _), _ | some (.link (some (some _))), _ => exact ⟨_, rfl⟩

theorem wp_pointerMatchesNew {Q : Bool → Disk → Prop} {E : InstallError → Disk → Prop}
    (hnew : PointerCommitted J d → Q true d) (hother : ¬ PointerCommitted J d → Q false d) :
    (pointerMatchesNew J).wp (installMachine FileOp) (keepsForeign J) Q E d := by
  rw [pointerMatchesNew, Program.wp_bind]
  refine wp_lookCurrent ?_
  cases hpointer : J.newPointerSha256 with
  | none =>
      refine hother fun h => ?_
      obtain ⟨-, _, hsome, -⟩ := h
      cases hpointer.symm.trans hsome
  | some hash =>
      dsimp only
      split
      · rename_i hfile
        obtain ⟨live, hlive⟩ := treeHash_of_isFile hfile
        rw [hlive]
        show Q (some live == some hash) d
        cases hsame : some live == some hash with
        | true => exact hnew ⟨hfile, hash, hpointer, by rw [hlive, beq_iff_eq.mp hsame]⟩
        | false =>
            refine hother fun h => ?_
            obtain ⟨-, hash', hpointer', hlive'⟩ := h
            obtain rfl := Option.some.inj (hpointer.symm.trans hpointer')
            rw [Except.ok.inj (hlive.symm.trans hlive'), beq_self_eq_true] at hsame
            cases hsame
      · rename_i hfile
        exact hother fun h => hfile h.1

/-- The targets of a list, in the order the check of a committed transaction visits them. -/
def ChecksFrom (ts : List Target) (d : Disk) : Prop :=
  ∀ before t after, ts = before ++ t :: after → (∀ u ∈ before, Promoted u d) →
    if t.newSha256.isSome then
      isLink (d.node t.livePath) = false → ∃ h, treeHash (d.node t.livePath) = .ok h
    else d.node t.livePath ≠ some (.link none)

/-- The check of a committed transaction: every target passes, or the failure is recorded. -/
theorem wp_checks {recorded raised : String} (ts : List Target) (hsees : ChecksFrom ts d) :
    (ts.forM fun target => do
      let promoted ← verifyTargetState target true
      if !promoted then
        saveJournal { J with
          status := .recoveryFailed
          recoveryError := some (recorded ++ target.targetId) }
        raise .recovery (raised ++ target.targetId)).wp (installMachine FileOp) (keepsForeign J)
      (fun _ d' => d' = d ∧ ∀ t ∈ ts, ¬ Foreign t (d.node t.livePath))
      (fun _ (d' : Disk) => d'.node = d.node ∧
        d'.status J.transactionId = some Status.recoveryFailed) d := by
  induction ts with
  | nil => exact ⟨rfl, fun t ht => absurd ht List.not_mem_nil⟩
  | cons t ts ih =>
      have hsee := hsees [] t ts rfl fun u hu => absurd hu List.not_mem_nil
      rw [List.forM, Program.wp_bind, Program.wp_bind]
      refine wp_verifyTargetState (fun hpass => ?_) ?_ fun e hnew hlink hhash => ?_
      · have hpromoted : Promoted t d := hpass
        rw [Bool.not_true, if_neg Bool.false_ne_true, Program.wp_pure]
        refine Program.wp_mono (ih fun before u after hsplit hbefore => ?_) (fun _ d' h => ?_) fun _ _ h => h
        · subst hsplit
          refine hsees (t :: before) u after rfl ?_
          rw [List.forall_mem_cons]
          exact ⟨hpromoted, hbefore⟩
        · rw [List.forall_mem_cons]
          refine ⟨h.1, hpromoted.not_foreign fun hnone => ?_, h.2⟩
          rw [hnone] at hsee
          exact hsee
      · rw [Bool.not_false, if_pos rfl, Program.wp_bind]
        exact wp_saveJournal ⟨rfl, Disk.status_save _ _⟩
      · rw [if_pos rfl] at hnew
        rw [if_pos hnew] at hsee
        obtain ⟨h, hok⟩ := hsee hlink
        cases hok.symm.trans hhash

theorem wp_finalize {Q : Journal → Disk → Prop} {E : InstallError → Disk → Prop}
    (hsame : ∀ d, Q J d) (hdone : ∀ d, Q { J with runtimeFinalized := true } d) (herror : ∀ e d, E e d) :
    (finalizeJournalCampaignRuntime J).wp (installMachine FileOp) (keepsForeign J) Q E d := by
  rw [finalizeJournalCampaignRuntime]
  split
  · rw [Program.wp_bind]
    refine wp_do (fun _ _ h => h) (fun _ h => .of_same (congrArg _ h) (congrArg _ h)) .refl ?_
      fun _ e _ _ => herror e _
    dsimp only
    rw [Program.wp_bind]
    exact wp_saveJournal (hdone _)
  · exact hsame d

/-- **The recovery of a transaction** goes through where no live path holds foreign bytes, or stops. -/
theorem wp_recoverJournal (hlayout : Layout roots J)
    (hcommit : PointerCommitted J d → CommitSees J d)
    (hrollback : ¬ PointerCommitted J d → RollbackSees J d) :
    (recoverJournal J roots).wp (installMachine FileOp) (keepsForeign J)
      (fun _ _ => NoneForeign J d) (Halted J d) d := by
  have hcleanup : ∀ {J' : Journal} {committed : Bool} {d' : Disk}, NoneForeign J d → Layout roots J' →
      J'.targets = J.targets → (retainAndCleanup J' committed roots).task.wp (installMachine FileOp)
        (keepsForeign J) (fun _ _ => NoneForeign J d) (Halted J d) d' := by
    intro J' committed d' hnone hlayout' htargets
    rw [Attempt.task, Program.wp_handle]
    exact Program.wp_mono (Aside.retainAndCleanup hlayout' htargets d') (fun _ _ _ => hnone)
      fun _ _ _ => hnone.halted
  rw [recoverJournal, Program.wp_bind]
  refine wp_pointerMatchesNew (fun hpointer => ?_) fun hpointer => ?_
  · rw [if_pos rfl, Program.wp_bind, verifyCommitted]
    refine Program.wp_mono (wp_checks J.targets (hcommit hpointer)) (fun _ d' h => ?_) fun e d' h => ?_
    · obtain ⟨rfl, hnone⟩ := h
      rw [Program.wp_bind]
      refine wp_finalize (fun d' => hcleanup hnone ?_ rfl) (fun d' => hcleanup hnone ?_ rfl) fun e d' =>
        NoneForeign.halted hnone
      · exact ⟨hlayout.live, hlayout.apart, hlayout.rollback, hlayout.outside, hlayout.workspaces,
          hlayout.retained⟩
      · exact ⟨hlayout.live, hlayout.apart, hlayout.rollback, hlayout.outside, hlayout.workspaces,
          hlayout.retained⟩
    · have hkept : ∀ u : Target, u.Kept d d' := fun u => ⟨congrFun h.1 _, congrFun h.1 _⟩
      exact fun t _ _ => ⟨h.2, hkept t, fun _ _ _ u _ => hkept u⟩
  · rw [if_neg Bool.false_ne_true, Program.wp_bind]
    refine Program.wp_mono (wp_rollbackTargets hlayout (hrollback hpointer)) (fun J' d' h => ?_)
      fun _ _ h => h
    obtain ⟨rfl, hnone⟩ := h
    exact hcleanup hnone ⟨hlayout.live, hlayout.apart, hlayout.rollback, hlayout.outside,
      hlayout.workspaces, hlayout.retained⟩ rfl

/-- The single attempt, of a transaction whose attempt may have been consumed. -/
theorem wp_attemptRecovery (hlayout : Layout roots J) (hsees : RecoverySees roots J d) :
    (attemptRecovery J roots).wp (installMachine FileOp) (keepsForeign J)
      (fun _ _ => NoneForeign J d) (Halted J d) d := by
  rw [attemptRecovery]
  split
  · rw [Program.wp_bind]
    exact wp_saveJournal fun t _ _ => ⟨Disk.status_save _ _, .refl, fun _ _ _ _ _ => .refl⟩
  · rw [Program.wp_bind]
    refine wp_saveJournal ?_
    rw [Program.wp_bind]
    obtain ⟨paths, hvalid⟩ := hsees.roots
    rw [show validateJournalWorkspace J.attempted roots = .ok paths from hvalid]
    have hlayout' : Layout roots J.attempted := ⟨hlayout.live, hlayout.apart, hlayout.rollback,
      hlayout.outside, hlayout.workspaces, hlayout.retained⟩
    have hrollback : ¬ PointerCommitted J.attempted (d.save J.attempted) →
        RollbackSees J.attempted (d.save J.attempted) := fun hpointer =>
      ⟨(hsees.rollback fun h => hpointer h).live, (hsees.rollback fun h => hpointer h).pointer⟩
    have hrecover := wp_recoverJournal (d := d.save J.attempted) hlayout'
      (fun hpointer => hsees.commit hpointer) hrollback
    have hours : (recoverJournal J.attempted roots).wp (installMachine FileOp) (keepsForeign J)
        (fun _ _ => NoneForeign J d) (Halted J d) (d.save J.attempted) :=
      Program.wp_guarantee (G := keepsForeign J.attempted) hrecover fun h => ⟨h.live, h.pointer⟩
    exact hours

/-- The recovery of the one transaction that is found interrupted. -/
theorem wp_recoverPending (hlayout : Layout roots J)
    (hpending : pendingJournal d.journals = .ok (some J)) (hsees : RecoverySees roots J d) :
    (recoverPending roots).wp (installMachine FileOp) (keepsForeign J)
      (fun _ _ => NoneForeign J d) (Halted J d) d := by
  rw [recoverPending, Program.wp_bind]
  refine wp_do (fun _ _ h => h) (fun _ h => .of_same (congrArg _ h) (congrArg _ h)) .refl ?_
    fun hfail => hfail.elim
  rw [Program.wp_bind, hpending]
  exact wp_attemptRecovery hlayout hsees

/-- What the rule says of a run. -/
theorem Survive.of_wp {α : Type} {p : Task α} {history : List (Entry Disk InstallOp)}
    {o : Outcome InstallError α} {d' : Disk}
    (h : p.wp (installMachine FileOp) (keepsForeign J) (fun _ _ => NoneForeign J d) (Halted J d) d)
    (hexec : Exec (installMachine FileOp) p d history o d') : Survive J d history o d' := by
  obtain ⟨hrun, hmeets⟩ := hexec.meets h
  refine ⟨fun e he => (hrun.step_of_mem he).2, fun hended t ht hforeign => ?_⟩
  cases o with
  | value a => exact absurd hforeign (hmeets t ht)
  | raised e =>
      obtain ⟨hfailed, hkept, hlater⟩ := hmeets t ht hforeign
      exact ⟨⟨e, rfl⟩, hfailed, hkept, hlater⟩
  | crashed => exact absurd rfl hended

end Recovery

end Foreign

/-! ### Foreign bytes and a foreign link -/

section Runs

open Sample

namespace Sample

/-- A file that was there before and was moved aside, by a transaction that was then interrupted. -/
def agentsFile : Target where
  targetId := "codex-home:AGENTS.md"
  livePath := ["home", "codex", "AGENTS.md"]
  stagedPath := some ["home", "codex", ".coding-os-transaction-0123456789abcdef0123456789abcdef-codex-home",
    "stage", "AGENTS.md"]
  rollbackPath := ["home", "codex",
    ".coding-os-transaction-0123456789abcdef0123456789abcdef-codex-home", "rollback", "AGENTS.md"]
  priorPresent := true
  priorSha256 := some (FileDigest.sha256 [1])
  newSha256 := some (FileDigest.sha256 [2])

def movedAside : Journal := { journal with phase := some .promoting, targets := [agentsFile] }

/-- The disk of that transaction, with something at the live path. -/
def foreignDisk (live : Node) : Disk where
  node path :=
    if path = agentsFile.livePath then some live
    else if path = agentsFile.rollbackPath then some (.file [1])
    else none
  current := none
  journals := [movedAside]

theorem movedAside_layout : Layout rightRoots movedAside where
  live := by decide
  apart := by decide
  rollback := by decide
  outside := by decide
  workspaces t ht paths hpaths := by
    have hvalid : validateJournalWorkspace movedAside rightRoots = .ok
        [["home", "skills", ".coding-os-transaction-0123456789abcdef0123456789abcdef-skills"],
          ["home", "codex", ".coding-os-transaction-0123456789abcdef0123456789abcdef-codex-home"]] := by
      decide +kernel
    obtain rfl := Except.ok.inj (hvalid.symm.trans hpaths)
    revert t
    decide
  retained := by decide +kernel

/-- What the recovery leaves. -/
def recovered (live : Node) : List (Entry Disk InstallOp) × Outcome InstallError Unit × Disk :=
  (recoverPending rightRoots).compute world 100 (foreignDisk live)

theorem recovered_exec (live : Node) : Exec (installMachine FileOp) (recoverPending rightRoots)
    (foreignDisk live) (recovered live).1 (recovered live).2.1 (recovered live).2.2 :=
  Program.compute_exec (world_step _) 100 _ _

theorem movedAside_pending (live : Node) :
    pendingJournal (foreignDisk live).journals = .ok (some movedAside) := by
  show pendingJournal [movedAside] = _
  decide +kernel

end Sample

end Runs

end CodingOS.Installer
