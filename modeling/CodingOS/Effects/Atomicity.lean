import CodingOS.Effects.ExactFile
import CodingOS.Python.SampleProcess

/-!
# Atomicity of the exact-file driver

What the operations of one call do to the files, however the call ends: the target gets the whole replacement,
or the content of the verified backup.  From this follow the content of the target at every moment of any
number of calls, the state a call that returns leaves, and the refusals.
-/

namespace CodingOS.Effects

open CodingOS.Python Systems

section Rules

variable {touched : Set String} {faulty : Prop} {s : Disk} {α : Type}

/-- **The rule of one operation.** -/
theorem wp_ask {op : FileOp} {G : Disk → FileOp → Disk → Prop} {Q : FileResult op → Disk → Prop}
    {E : DriverError → Disk → Prop} (hraise : ∀ e t, E e t)
    (hcut : ∀ u t, Touches touched s u → Leaves op u t → G s op t)
    (hdone : ∀ u answer t, Touches touched s u → Performs op u answer t → G s op t)
    (hresult : ∀ u result t, Touches touched s u → Performs op u (some result) t → Q result t) :
    (ask op).wp (fileMachine touched faulty) G Q E s := by
  refine ⟨fun t htorn => ?_, fun answer t hstep => ?_⟩
  · obtain ⟨u, hu, hleaves | ⟨answer, hperforms⟩⟩ := htorn
    · exact hcut u t hu hleaves
    · exact hdone u answer t hu hperforms
  · obtain ⟨u, hu, hperforms | ⟨-, hleaves, rfl⟩⟩ := hstep
    · refine ⟨hdone u answer t hu hperforms, ?_⟩
      cases answer with
      | none => exact hraise _ t
      | some result => exact hresult u result t hu hperforms
    · exact ⟨hcut u t hu hleaves, hraise _ t⟩

theorem wp_ensure {condition : Bool} {kind : DriverErrorKind} {message : String}
    {M : Machine FileAnswer Disk} {G : Disk → FileOp → Disk → Prop} {Q : Unit → Disk → Prop}
    {E : DriverError → Disk → Prop} (htrue : condition = true → Q () s)
    (hfalse : condition = false → E ⟨kind, message⟩ s) : (ensure condition kind message).wp M G Q E s := by
  cases condition with
  | true => exact htrue rfl
  | false => exact hfalse rfl

/-- A check of the arguments. -/
theorem wp_checked {condition : Bool} {kind : DriverErrorKind} {message : String}
    {M : Machine FileAnswer Disk} {G : Disk → FileOp → Disk → Prop} {Q : α → Disk → Prop}
    {E : DriverError → Disk → Prop} {p : Unit → Task α} (hraise : ∀ e t, E e t) (h : (p ()).wp M G Q E s) :
    (ensure condition kind message >>= p).wp M G Q E s :=
  Program.wp_bind.mpr (wp_ensure (fun _ => h) fun _ => hraise _ _)

end Rules

/-! ### What a call does to the files -/

theorem Replacement.found_binds (r : Replacement) : r.found.binds r = true := by
  simp [Journal.binds, Replacement.found]

theorem Replacement.prepared_binds [Runtime] (r : Replacement) : r.prepared.binds r = true := by
  simp [Journal.binds, Replacement.prepared]

theorem Replacement.confirmed_binds [Runtime] (r : Replacement) : r.confirmed.binds r = true := r.prepared_binds

section Moves

variable [Runtime] [FileDigest]

/-- What a call does with one operation, after others did what they do.  `base` is what an untouched target
holds before it holds the replacement. -/
inductive Move (r : Replacement) (base : List UInt8) (touched : Set String) (u : Disk) : Disk → Prop
  | quiet : Move r base touched u u
  | temporary (files : ℕ → Option (List UInt8)) : Move r base touched u { u with temporary := files }
  | backup (files : String → Option (List UInt8)) : Move r base touched u { u with backup := files }
  | journal {j : Journal} : j.binds r = true → (∀ old, u.journal r.stem = some old → old.binds r = true) →
      (r.target ∉ touched → j.state = .confirmed →
        ∃ data, u.target r.target = some data ∧ FileDigest.sha256 data = r.expectedReplacementSha256) →
      Move r base touched u { u with journal := Function.update u.journal r.stem (some j) }
  | installed (files : ℕ → Option (List UInt8)) :
      (r.target ∉ touched → FileDigest.sha256 base = r.expectedBaselineSha256) →
      FileDigest.sha256 r.replacement = r.expectedReplacementSha256 →
      Move r base touched u { u with
        target := Function.update u.target r.target (some r.replacement)
        single := Function.update u.single r.target true
        temporary := files }
  | restored {data : List UInt8} (files : String → Option (List UInt8)) :
      (r.target ∉ touched → data = base) → u.journal r.stem = some r.prepared →
      Move r base touched u { u with
        target := Function.update u.target r.target (some data)
        single := Function.update u.single r.target true
        backup := files }

/-- What happens with one operation of a call. -/
def Change (r : Replacement) (base : List UInt8) (touched : Set String) (s : Disk) (_ : FileOp) (t : Disk) :
    Prop :=
  ∃ u, Touches touched s u ∧ Move r base touched u t

/-- What a call that returns leaves: a confirmed journal, which it gives back, and a target that holds the
replacement unless others touch it. -/
structure Done (r : Replacement) (touched : Set String) (j : Journal) (t : Disk) : Prop where
  state : j.state = .confirmed
  binds : j.binds r = true
  journal : t.journal r.stem = some j
  target : r.target ∉ touched →
    ∃ data, t.target r.target = some data ∧ FileDigest.sha256 data = r.expectedReplacementSha256

/-- An untouched target starts with its base or with the replacement. -/
def Starts (r : Replacement) (base : List UInt8) (touched : Set String) (s : Disk) : Prop :=
  r.target ∉ touched → ∀ data, s.target r.target = some data → data = base ∨ data = r.replacement

/-- The journal is prepared and the backup verified. -/
structure Ready (r : Replacement) (base : List UInt8) (touched : Set String) (s : Disk) : Prop where
  journal : s.journal r.stem = some r.prepared
  backup : ∃ data, s.backup r.stem = some data ∧ FileDigest.sha256 data = r.expectedBaselineSha256 ∧
    (r.target ∉ touched → data = base)

variable {r : Replacement} {base : List UInt8} {touched : Set String} {faulty : Prop} {s u : Disk}
  {E : DriverError → Disk → Prop}

theorem Ready.touches (h : Ready r base touched s) (hu : Touches touched s u) : Ready r base touched u :=
  ⟨by rw [hu.journal, h.journal], by rw [hu.backup]; exact h.backup⟩

omit [Runtime] [FileDigest] in
theorem Starts.touches (h : Starts r base touched s) (hu : Touches touched s u) : Starts r base touched u :=
  fun huntouched data hdata => h huntouched data ((hu.targets _ huntouched).1.symm.trans hdata)

omit [Runtime] [FileDigest] in
theorem starts_getD (r : Replacement) (touched : Set String) (s : Disk) :
    Starts r ((s.target r.target).getD []) touched s := by
  intro _ data hdata
  rw [hdata]
  exact .inl rfl

/-- A read changes nothing. -/
theorem wp_read {op : FileOp} {Q : FileResult op → Disk → Prop} (hraise : ∀ e t, E e t)
    (hleaves : ∀ u t, Leaves op u t → t = u) (hperforms : ∀ u answer t, Performs op u answer t → t = u)
    (hresult : ∀ u result, Touches touched s u → Performs op u (some result) u → Q result u) :
    (ask op).wp (fileMachine touched faulty) (Change r base touched) Q E s := by
  refine wp_ask hraise (fun u t hu h => ⟨u, hu, ?_⟩) (fun u answer t hu h => ⟨u, hu, ?_⟩) fun u result t hu h => ?_
  · rw [hleaves u t h]
    exact .quiet
  · rw [hperforms u answer t h]
    exact .quiet
  · obtain rfl := hperforms u _ t h
    exact hresult _ result hu h

/-- The target is read. -/
theorem wp_readTarget {path : String} {Q : List UInt8 → Disk → Prop} (hraise : ∀ e t, E e t)
    (hresult : ∀ u data, Touches touched s u → u.target path = some data → Q data u) :
    (ask (.readTarget path)).wp (fileMachine touched faulty) (Change r base touched) Q E s :=
  wp_read hraise (fun _ _ h => h) (fun _ _ _ h => h.2) fun u data hu h => hresult u data hu h.1.symm

/-- A journal is saved where none was of other arguments. -/
theorem wp_saveJournal {j : Journal} {Q : Unit → Disk → Prop} (hraise : ∀ e t, E e t)
    (hbinds : j.binds r = true) (hold : ∀ old, s.journal r.stem = some old → old.binds r = true)
    (htarget : r.target ∉ touched → j.state = .confirmed →
      ∃ data, s.target r.target = some data ∧ FileDigest.sha256 data = r.expectedReplacementSha256)
    (hresult : ∀ u, Touches touched s u →
      Q () { u with journal := Function.update u.journal r.stem (some j) }) :
    (ask (.saveJournal r.stem j)).wp (fileMachine touched faulty) (Change r base touched) Q E s := by
  refine wp_ask hraise (fun u t hu h => ⟨u, hu, ?_⟩) (fun u answer t hu h => ⟨u, hu, ?_⟩) fun u result t hu h => ?_
  · obtain rfl : t = u := h
    exact .quiet
  · obtain ⟨-, rfl⟩ := h
    refine .journal hbinds (by rw [hu.journal]; exact hold) fun huntouched hstate => ?_
    rw [(hu.targets _ huntouched).1]
    exact htarget huntouched hstate
  · obtain ⟨-, rfl⟩ := h
    exact hresult u hu

/-- **The `try` statement.** -/
theorem wp_install {tag : ℕ} (hraise : ∀ e t, E e t) (h : Ready r base touched s) :
    (r.install tag).wp (fileMachine touched faulty) (Change r base touched) (Done r touched) E s := by
  refine Program.wp_bind.mpr (wp_ask hraise ?_ ?_ fun v _ t hv hwritten => ?_)
  · rintro u t hu ⟨part, rfl⟩
    exact ⟨u, hu, .temporary _⟩
  · rintro u answer t hu ⟨-, rfl⟩
    exact ⟨u, hu, .temporary _⟩
  obtain ⟨-, rfl⟩ := hwritten
  refine Program.wp_bind.mpr (wp_read hraise (fun _ _ h => h) (fun _ _ _ h => h.2) fun w staged hw hread => ?_)
  have hwritten : w.temporary tag = some r.replacement := by
    rw [hw.temporary]
    exact Function.update_self ..
  obtain rfl : r.replacement = staged := Option.some.inj (hwritten.symm.trans hread.1.symm)
  have hready : Ready r base touched w :=
    ⟨(congrFun hw.journal _).trans (h.touches hv).journal, by rw [hw.backup]; exact (h.touches hv).backup⟩
  refine Program.wp_bind.mpr (wp_ensure (fun hdigest => ?_) fun _ => hraise _ _)
  rw [beq_iff_eq] at hdigest
  have hbaseline : r.target ∉ touched → FileDigest.sha256 base = r.expectedBaselineSha256 := fun huntouched => by
    obtain ⟨data, -, hdata, hbase⟩ := h.backup
    rw [← hbase huntouched, hdata]
  -- the temporary file is renamed over the target
  have hinstall : ∀ {x}, Touches touched w x → x.temporary tag = some r.replacement := fun hx => by
    rw [hx.temporary, hwritten]
  refine Program.wp_bind.mpr (wp_ask hraise ?_ ?_ fun x _ t hx hinstalled => ?_)
  · intro u t hu h
    obtain rfl : t = u := h
    exact ⟨t, hu, .quiet⟩
  · rintro u answer t hu ⟨-, rfl⟩
    refine ⟨u, hu, ?_⟩
    rw [hinstall hu, Option.isSome_some, if_pos rfl]
    exact .installed _ hbaseline hdigest
  obtain ⟨-, rfl⟩ := hinstalled
  rw [hinstall hx, Option.isSome_some, if_pos rfl]
  have hplaced := hready.touches hx
  -- what is read back decides
  refine Program.wp_bind.mpr (wp_readTarget hraise fun y installed hy hinstalled => ?_)
  have hkept : Ready r base touched y :=
    ⟨(congrFun hy.journal _).trans hplaced.journal, by rw [hy.backup]; exact hplaced.backup⟩
  by_cases hverified : (FileDigest.sha256 installed == r.expectedReplacementSha256) = true
  · rw [if_pos hverified]
    rw [beq_iff_eq] at hverified
    refine Program.wp_bind.mpr (wp_saveJournal hraise r.confirmed_binds ?_ ?_ fun z hz => ?_)
    · intro old hold
      rw [hkept.journal] at hold
      rw [← Option.some.inj hold]
      exact r.prepared_binds
    · exact fun _ _ => ⟨installed, hinstalled, hverified⟩
    · refine ⟨rfl, r.confirmed_binds, Function.update_self .., fun huntouched => ⟨installed, ?_, hverified⟩⟩
      exact (hz.targets _ huntouched).1.trans hinstalled
  · rw [if_neg hverified]
    obtain ⟨data, hdata, -, hbase⟩ := hkept.backup
    refine Program.wp_bind.mpr (wp_ask hraise ?_ ?_ fun z _ t hz _ => hraise _ _)
    · intro u t hu h
      obtain rfl : t = u := h
      exact ⟨t, hu, .quiet⟩
    · rintro u answer t hu ⟨-, rfl⟩
      refine ⟨u, hu, ?_⟩
      have hbackup : u.backup r.stem = some data := by rw [hu.backup, hdata]
      rw [hbackup, Option.isSome_some, if_pos rfl]
      exact .restored _ hbase (by rw [hu.journal, hkept.journal])

/-- The temporary file is removed, and the exception goes on. -/
theorem wp_cleanUp {tag : ℕ} {exc : DriverError} {Q : Journal → Disk → Prop} (hraise : ∀ e t, E e t) :
    (Replacement.cleanUp tag exc).wp (fileMachine touched faulty) (Change r base touched) Q E s := by
  refine Program.wp_bind.mpr (wp_ask hraise ?_ ?_ fun _ _ t _ _ => hraise _ _)
  · intro u t hu h
    obtain rfl : t = u := h
    exact ⟨t, hu, .quiet⟩
  · rintro u answer t hu ⟨-, rfl⟩
    exact ⟨u, hu, .temporary _⟩

/-- A target that holds its baseline. -/
theorem wp_prepare (hraise : ∀ e t, E e t) (hold : ∀ old, s.journal r.stem = some old → old.binds r = true)
    (hbase : r.target ∉ touched → s.target r.target = some base) :
    r.prepare.wp (fileMachine touched faulty) (Change r base touched) (Done r touched) E s := by
  refine Program.wp_bind.mpr (wp_readTarget hraise fun u data hu hdata => ?_)
  refine Program.wp_bind.mpr (wp_ask hraise ?_ ?_ fun v _ t hv hwritten => ?_)
  · rintro u t hu ⟨part, rfl⟩
    exact ⟨u, hu, .backup _⟩
  · rintro u answer t hu ⟨-, rfl⟩
    exact ⟨u, hu, .backup _⟩
  obtain ⟨-, rfl⟩ := hwritten
  refine Program.wp_bind.mpr (wp_read hraise (fun _ _ h => h) (fun _ _ _ h => h.2) fun w backup hw hread => ?_)
  refine Program.wp_bind.mpr (wp_ensure (fun hdigest => ?_) fun _ => hraise _ _)
  rw [beq_iff_eq] at hdigest
  refine Program.wp_bind.mpr (wp_saveJournal hraise r.prepared_binds ?_ ?_ fun x hx => ?_)
  · intro old hjournal
    refine hold old ?_
    rw [← hjournal, hw.journal]
    exact (congrFun (hv.journal.trans hu.journal) _).symm
  · intro _ hstate
    cases hstate
  have hready : Ready r base touched { x with journal := Function.update x.journal r.stem (some r.prepared) } := by
    refine ⟨Function.update_self .., backup, (congrFun hx.backup _).trans hread.1.symm, hdigest, fun huntouched => ?_⟩
    -- what is backed up is what the target held
    have hwritten : w.backup r.stem = some data := by
      rw [hw.backup]
      exact Function.update_self ..
    have hsame : u.target r.target = some base := (hu.targets _ huntouched).1.trans (hbase huntouched)
    refine Option.some.inj ?_
    calc some backup = w.backup r.stem := hread.1
      _ = some data := hwritten
      _ = some base := hdata.symm.trans hsame
  refine Program.wp_bind.mpr (wp_ask hraise ?_ ?_ fun y tag t hy hmade => ?_)
  · intro u t hu h
    obtain rfl | ⟨tag, -, rfl⟩ := h
    · exact ⟨t, hu, .quiet⟩
    · exact ⟨u, hu, .temporary _⟩
  · rintro u answer t hu ⟨tag, -, -, rfl⟩
    exact ⟨u, hu, .temporary _⟩
  obtain ⟨_, -, -, rfl⟩ := hmade
  have hmade := hready.touches hy
  exact Program.wp_handle.mpr (wp_install (fun _ _ => wp_cleanUp hraise) ⟨hmade.journal, hmade.backup⟩)

/-- The part behind the journal. -/
theorem wp_settle (hraise : ∀ e t, E e t) (happroved : FileDigest.sha256 r.replacement = r.expectedReplacementSha256)
    (hold : ∀ old, s.journal r.stem = some old → old.binds r = true) (hstart : Starts r base touched s) :
    r.settle.wp (fileMachine touched faulty) (Change r base touched) (Done r touched) E s := by
  refine Program.wp_bind.mpr (wp_readTarget hraise fun u observed hu hobserved => ?_)
  have holdu : ∀ old, u.journal r.stem = some old → old.binds r = true := by rwa [hu.journal]
  by_cases hfound : (FileDigest.sha256 observed == r.expectedReplacementSha256) = true
  · rw [if_pos hfound]
    rw [beq_iff_eq] at hfound
    refine Program.wp_bind.mpr (wp_saveJournal hraise r.found_binds holdu
      (fun _ _ => ⟨observed, hobserved, hfound⟩) fun v hv => ?_)
    refine ⟨rfl, r.found_binds, Function.update_self .., fun huntouched => ⟨observed, ?_, hfound⟩⟩
    exact (hv.targets _ huntouched).1.trans hobserved
  · rw [if_neg hfound]
    refine Program.wp_bind.mpr (wp_ensure (fun _ => wp_prepare hraise holdu fun huntouched => ?_) fun _ => hraise _ _)
    rcases hstart.touches hu huntouched observed hobserved with hbase | hreplaced
    · rw [hobserved, hbase]
    · rw [hreplaced, happroved, beq_self_eq_true] at hfound
      exact absurd rfl hfound

/-- What a journal decides. -/
theorem wp_resume (hraise : ∀ e t, E e t) (happroved : FileDigest.sha256 r.replacement = r.expectedReplacementSha256)
    (hstart : Starts r base touched s) :
    (r.resume (s.journal r.stem)).wp (fileMachine touched faulty) (Change r base touched) (Done r touched) E s := by
  cases hjournal : s.journal r.stem with
  | none => exact wp_settle hraise happroved (fun old hold => by rw [hjournal] at hold; cases hold) hstart
  | some j =>
      refine Program.wp_bind.mpr (wp_ensure (fun hbinds => ?_) fun _ => hraise _ _)
      by_cases hstate : j.state = .confirmed
      · rw [if_pos hstate]
        refine Program.wp_bind.mpr (wp_readTarget hraise fun w observed hw hobserved => ?_)
        refine Program.wp_bind.mpr (wp_ensure (fun hdigest => ?_) fun _ => hraise _ _)
        rw [beq_iff_eq] at hdigest
        exact ⟨hstate, hbinds, by rw [hw.journal, hjournal], fun _ => ⟨observed, hobserved, hdigest⟩⟩
      · rw [if_neg hstate]
        refine wp_settle hraise happroved (fun old hold => ?_) hstart
        rw [hjournal] at hold
        rwa [← Option.some.inj hold]

/-- **One call.** -/
theorem replace_changes {history : List (Entry Disk FileOp)} {o : Outcome DriverError Journal} {t : Disk}
    (h : Exec (fileMachine touched faulty) r.replace s history o t) (hstart : Starts r base touched s) :
    Run (Change r base touched) s history t ∧ o.Meets (Done r touched) (fun _ _ => True) t := by
  have hraise : ∀ (e : DriverError) (t : Disk), (fun _ _ => True : DriverError → Disk → Prop) e t :=
    fun _ _ => trivial
  rw [Replacement.replace] at h
  generalize isStableId r.operation = stable at h
  generalize isSha256 r.expectedBaselineSha256 = baselineSha at h
  generalize isSha256 r.expectedReplacementSha256 = replacementSha at h
  refine h.meets (wp_checked hraise (wp_checked hraise (wp_checked hraise ?_)))
  refine Program.wp_bind.mpr (wp_ensure (fun hdigest => ?_) fun _ => trivial)
  rw [beq_iff_eq] at hdigest
  refine Program.wp_bind.mpr (wp_read hraise (fun _ _ h => h) (fun _ _ _ h => h.2) fun u _ hu _ => ?_)
  refine wp_checked hraise ?_
  refine Program.wp_bind.mpr (wp_read hraise (fun _ _ h => h) (fun _ _ _ h => h.2) fun v journal hv hread => ?_)
  rw [← Option.some.inj hread.1.symm]
  exact wp_resume hraise hdigest ((hstart.touches hu).touches hv)

end Moves

/-! ### Any number of calls -/

section Calls

variable [Runtime] [FileDigest]

/-- One call: its arguments, the operations it performed, and how it ended. -/
structure Attempt where
  call : Replacement
  history : List (Entry Disk FileOp)
  outcome : Outcome DriverError Journal

/-- Calls one after the other, each to its end or to a crash, with errors of the operating system and with
others at work on the touched targets. -/
def attempts (touched : Set String) (s : Disk) (l : Attempt) (t : Disk) : Prop :=
  Exec (fileMachine touched True) l.call.replace s l.history l.outcome t

/-- The target holds its base, or the whole replacement of a baseline. -/
def Holds (r : Replacement) (base : List UInt8) (s : Disk) : Prop :=
  s.target r.target = some base ∨
    FileDigest.sha256 base = r.expectedBaselineSha256 ∧ s.target r.target = some r.replacement

/-- The journals of the operation are of these arguments, and a confirmed one is right. -/
def Recorded (r : Replacement) (s : Disk) : Prop :=
  ∀ j, s.journal r.stem = some j → j.binds r = true ∧ (j.state = .confirmed →
    ∃ data, s.target r.target = some data ∧ FileDigest.sha256 data = r.expectedReplacementSha256)

/-- What calls keep when those on the target, or under the operation, have one set of arguments. -/
structure Kept (r : Replacement) (base : List UInt8) (s : Disk) : Prop where
  holds : Holds r base s
  single : s.single r.target = true
  recorded : Recorded r s

variable {r c : Replacement} {base : List UInt8} {touched : Set String} {s t u : Disk} {op : FileOp}

theorem Kept.starts (h : Kept r base s) : Starts r base touched s := by
  intro _ data hdata
  rcases h.holds with hbase | ⟨-, hreplaced⟩
  · exact .inl (Option.some.inj (hdata.symm.trans hbase))
  · exact .inr (Option.some.inj (hdata.symm.trans hreplaced))

theorem Kept.touches (h : Kept r base s) (huntouched : r.target ∉ touched) (hu : Touches touched s u) :
    Kept r base u := by
  obtain ⟨htarget, hsingle⟩ := hu.targets _ huntouched
  refine ⟨?_, hsingle.trans h.single, fun j hj => ?_⟩
  · rw [Holds, htarget]
    exact h.holds
  · rw [hu.journal] at hj
    rw [htarget]
    exact h.recorded j hj

/-- A move on another target leaves this one alone. -/
theorem Move.target_of_ne {other : List UInt8} (h : Move c other touched u t) (hne : r.target ≠ c.target) :
    t.target r.target = u.target r.target ∧ t.single r.target = u.single r.target := by
  cases h with
  | quiet | temporary | backup | journal => exact ⟨rfl, rfl⟩
  | installed | restored => exact ⟨Function.update_of_ne hne .., Function.update_of_ne hne ..⟩

/-- A move under another operation leaves the journal alone. -/
theorem Move.journal_of_ne {other : List UInt8} (h : Move c other touched u t) (hne : r.stem ≠ c.stem) :
    t.journal r.stem = u.journal r.stem := by
  cases h with
  | quiet | temporary | backup | installed | restored => rfl
  | journal => exact Function.update_of_ne hne ..

/-- A move of the call itself. -/
theorem Kept.move (h : Kept r base u) (huntouched : r.target ∉ touched) (hmove : Move r base touched u t) :
    Kept r base t := by
  cases hmove with
  | quiet => exact h
  | temporary files => exact ⟨h.holds, h.single, h.recorded⟩
  | backup files => exact ⟨h.holds, h.single, h.recorded⟩
  | @journal written hbinds _ hconfirmed =>
      refine ⟨h.holds, h.single, fun j hj => ?_⟩
      have hsame : Function.update u.journal r.stem (some written) r.stem = some j := hj
      rw [Function.update_self] at hsame
      obtain rfl := Option.some.inj hsame
      exact ⟨hbinds, hconfirmed huntouched⟩
  | installed files hbaseline hdigest =>
      refine ⟨.inr ⟨hbaseline huntouched, Function.update_self ..⟩, Function.update_self .., fun j hj => ?_⟩
      exact ⟨(h.recorded j hj).1, fun _ => ⟨_, Function.update_self .., hdigest⟩⟩
  | restored files hbase hjournal =>
      refine ⟨.inl ?_, Function.update_self .., fun j hj => ?_⟩
      · exact (Function.update_self ..).trans (congrArg some (hbase huntouched))
      · have hprepared : some r.prepared = some j := hjournal.symm.trans hj
        refine ⟨(h.recorded j hj).1, fun hstate => ?_⟩
        rw [← Option.some.inj hprepared] at hstate
        cases hstate

/-- A move of a call on another target and under another operation. -/
theorem Kept.foreign {other : List UInt8} (h : Kept r base u) (htarget : r.target ≠ c.target)
    (hstem : r.stem ≠ c.stem) (hmove : Move c other touched u t) : Kept r base t := by
  obtain ⟨hdata, hsingle⟩ := hmove.target_of_ne htarget
  refine ⟨?_, hsingle.trans h.single, fun j hj => ?_⟩
  · rw [Holds, hdata]
    exact h.holds
  · rw [hmove.journal_of_ne hstem] at hj
    rw [hdata]
    exact h.recorded j hj

/-- **One call**, at every moment. -/
theorem Kept.attempt {l : Attempt} (h : Kept r base s) (huntouched : r.target ∉ touched)
    (hsame : l.call.target = r.target ∨ l.call.stem = r.stem → l.call = r) (hrun : attempts touched s l t) :
    Kept r base t ∧ ∀ m ∈ l.history, Kept r base m.before ∧ Kept r base m.after := by
  have hkeep : ∀ {other : List UInt8}, (∀ u v, Kept r base u → Move l.call other touched u v → Kept r base v) →
      Starts l.call other touched s →
      Kept r base t ∧ ∀ m ∈ l.history, Kept r base m.before ∧ Kept r base m.after := by
    intro other hmove hstart
    exact (replace_changes hrun hstart).1.keeps h fun hu ⟨v, hv, hmoved⟩ => hmove v _ (hu.touches huntouched hv) hmoved
  by_cases hcall : l.call = r
  · exact @hkeep base (fun u v hu hmove => hu.move huntouched (hcall ▸ hmove)) (hcall ▸ h.starts)
  · have htarget : r.target ≠ l.call.target := fun heq => hcall (hsame (.inl heq.symm))
    have hstem : r.stem ≠ l.call.stem := fun heq => hcall (hsame (.inr heq.symm))
    exact @hkeep ((s.target l.call.target).getD []) (fun u v hu => hu.foreign htarget hstem) (starts_getD _ _ _)

/-- **Any number of calls**, at every moment. -/
theorem Kept.attempts {sessions : List (Entry Disk Attempt)} (h : Run (attempts touched) s sessions t)
    (hkept : Kept r base s) (huntouched : r.target ∉ touched)
    (hsame : ∀ e ∈ sessions, e.label.call.target = r.target ∨ e.label.call.stem = r.stem → e.label.call = r) :
    Kept r base t ∧ ∀ e ∈ sessions, ∀ m ∈ e.label.history, Kept r base m.before ∧ Kept r base m.after := by
  induction h with
  | start => exact ⟨hkept, fun e he => absurd he List.not_mem_nil⟩
  | snoc _ hlast ih =>
      simp only [List.forall_mem_append, List.forall_mem_singleton] at hsame ⊢
      obtain ⟨hbefore, hearlier⟩ := ih hsame.1
      obtain ⟨hafter, hmoments⟩ := hbefore.attempt huntouched hsame.2 hlast
      exact ⟨hafter, hearlier, hmoments⟩

/-- The journal has the target and the digests of another. -/
def Journal.agrees (j j' : Journal) : Prop :=
  j.target = j'.target ∧ j.replacementSha256 = j'.replacementSha256 ∧ j.baselineSha256 = j'.baselineSha256

omit [Runtime] [FileDigest] in
theorem Journal.agrees_of_binds {j j' : Journal} (h : j.binds r = true) (h' : j'.binds r = true) :
    j.agrees j' := by
  simp only [Journal.binds, Bool.and_eq_true, beq_iff_eq] at h h'
  exact ⟨h.1.1.trans h'.1.1.symm, h.1.2.trans h'.1.2.symm, h.2.trans h'.2.symm⟩

/-- What an operation is bound to. -/
def Bound (stem : String) (j : Journal) (s : Disk) : Prop := ∃ j', s.journal stem = some j' ∧ j'.agrees j

theorem Bound.move {other : List UInt8} {stem : String} {j : Journal} (h : Bound stem j u)
    (hmove : Move c other touched u t) : Bound stem j t := by
  obtain ⟨old, hold, hagrees⟩ := h
  cases hmove with
  | quiet | temporary | backup | installed | restored => exact ⟨old, hold, hagrees⟩
  | @journal written hbinds hearlier =>
      by_cases hstem : stem = c.stem
      · obtain rfl := hstem
        have hsame := Journal.agrees_of_binds hbinds (hearlier old hold)
        refine ⟨written, Function.update_self .., ?_⟩
        exact ⟨hsame.1.trans hagrees.1, hsame.2.1.trans hagrees.2.1, hsame.2.2.trans hagrees.2.2⟩
      · exact ⟨old, (Function.update_of_ne hstem ..).trans hold, hagrees⟩

omit [Runtime] [FileDigest] in
theorem Journal.binds_of_agrees {j j' : Journal} (h : j'.agrees j) (r : Replacement) : j'.binds r = j.binds r := by
  obtain ⟨htarget, hreplacement, hbaseline⟩ := h
  rw [Journal.binds, Journal.binds, htarget, hreplacement, hbaseline]

/-- **A binding is for ever.** -/
theorem Bound.attempts {sessions : List (Entry Disk Attempt)} {stem : String} {j : Journal}
    (h : Run (attempts touched) s sessions t) (hbound : Bound stem j s) : Bound stem j t := by
  refine h.invariant (Bound stem j) hbound fun {u v l} hu hlast => ?_
  refine (replace_changes hlast (starts_getD _ _ _)).1.invariant (Bound stem j) hu fun hm ⟨w, hw, hmove⟩ => ?_
  exact Bound.move (by rwa [Bound, hw.journal]) hmove

end Calls

/-! ### Refusals -/

section Refusals

variable [Runtime] [FileDigest] {r : Replacement} {touched : Set String} {faulty : Prop} {s t : Disk}
  {α : Type} {history : List (Entry Disk FileOp)} {o : Outcome DriverError α}

omit [Runtime] [FileDigest] in
/-- The runs of a program that starts with a check. -/
theorem exec_ensure {condition : Bool} {kind : DriverErrorKind} {message : String} {p : Unit → Task α}
    (h : Exec (fileMachine touched faulty) (ensure condition kind message >>= p) s history o t) :
    condition = true ∧ Exec (fileMachine touched faulty) (p ()) s history o t ∨
      history = [] ∧ o = .raised ⟨kind, message⟩ := by
  cases condition with
  | true => exact .inl ⟨rfl, h⟩
  | false =>
      obtain ⟨hhistory, ho, -⟩ := Exec.of_raise h
      exact .inr ⟨hhistory, ho⟩

omit [Runtime] [FileDigest] in
/-- The runs of a program that starts with an operation. -/
theorem exec_ask {op : FileOp} {p : FileResult op → Task α}
    (h : Exec (fileMachine touched faulty) (ask op >>= p) s history o t) :
    history = [] ∧ (∀ a, o ≠ .value a) ∨ ∃ u rest, history = ⟨s, op, u⟩ :: rest ∧
      (rest = [] ∧ (∀ a, o ≠ .value a) ∨ ∃ result v, Touches touched s v ∧ Performs op v (some result) u ∧
        Exec (fileMachine touched faulty) (p result) u rest o t) := by
  cases h with
  | crash => exact .inl ⟨rfl, fun _ => nofun⟩
  | torn => exact .inr ⟨_, _, rfl, .inl ⟨rfl, fun _ => nofun⟩⟩
  | @call _ _ answer _ u _ rest _ hstep hrest =>
      refine .inr ⟨u, rest, rfl, ?_⟩
      obtain ⟨v, hv, hperforms | ⟨-, -, rfl⟩⟩ := hstep
      · cases answer with
        | none =>
            obtain ⟨hnone, rfl, -⟩ := Exec.of_raise hrest
            exact .inl ⟨hnone, fun _ => nofun⟩
        | some result => exact .inr ⟨result, v, hv, hperforms, hrest⟩
      · obtain ⟨hnone, rfl, -⟩ := Exec.of_raise hrest
        exact .inl ⟨hnone, fun _ => nofun⟩

/-- The operations that only read. -/
def FileOp.reads : FileOp → Bool
  | .examine _ | .readJournal _ | .readTarget _ | .readBackup _ | .readTemporary _ => true
  | _ => false

/-- A content that is neither the baseline nor the replacement. -/
def Foreign (r : Replacement) (s : Disk) : Prop :=
  ∃ data, s.target r.target = some data ∧ FileDigest.sha256 data ≠ r.expectedBaselineSha256 ∧
    FileDigest.sha256 data ≠ r.expectedReplacementSha256

/-- A call whose first reading of the target sees a foreign content has written nothing, performs no operation
after it, and gives nothing back. -/
def Refuses (r : Replacement) (history : List (Entry Disk FileOp)) (o : Outcome DriverError Journal) : Prop :=
  ∀ earlier m later, history = earlier ++ m :: later → m.label = .readTarget r.target →
    (∀ e ∈ earlier, e.label ≠ .readTarget r.target) → Foreign r m.after →
    (∀ e ∈ history, e.label.reads = true) ∧ later = [] ∧ ∀ j, o ≠ .value j

omit [Runtime] in
theorem Refuses.nil {o : Outcome DriverError Journal} : Refuses r [] o := fun _ _ _ h _ => by simp at h

omit [Runtime] in
/-- A reading of something else comes before. -/
theorem Refuses.cons {e : Entry Disk FileOp} {o : Outcome DriverError Journal} (h : Refuses r history o)
    (hreads : e.label.reads = true) (hother : e.label ≠ .readTarget r.target) : Refuses r (e :: history) o := by
  intro earlier m later hsplit hm hearlier hforeign
  cases earlier with
  | nil =>
      obtain ⟨rfl, -⟩ := List.cons.inj hsplit
      exact absurd hm hother
  | cons first rest =>
      obtain ⟨rfl, hrest⟩ := List.cons.inj hsplit
      rw [List.forall_mem_cons] at hearlier
      obtain ⟨hall, hlast, ho⟩ := h rest m later hrest hm hearlier.2 hforeign
      exact ⟨List.forall_mem_cons.mpr ⟨hreads, hall⟩, hlast, ho⟩

omit [Runtime] in
/-- The reading itself. -/
theorem Refuses.read {e : Entry Disk FileOp} {o : Outcome DriverError Journal}
    (hread : e.label = .readTarget r.target)
    (h : Foreign r e.after → history = [] ∧ ∀ j, o ≠ .value j) : Refuses r (e :: history) o := by
  intro earlier m later hsplit hm hearlier hforeign
  cases earlier with
  | nil =>
      obtain ⟨rfl, rfl⟩ := List.cons.inj hsplit
      obtain ⟨hnone, ho⟩ := h hforeign
      refine ⟨?_, hnone, ho⟩
      rw [hnone, List.forall_mem_singleton, hread]
      rfl
  | cons first rest =>
      obtain ⟨rfl, -⟩ := List.cons.inj hsplit
      exact absurd hread (hearlier _ List.mem_cons_self)

/-- A program of which all runs refuse. -/
def Guarded (r : Replacement) (p : Task Journal) : Prop :=
  ∀ touched faulty s history o t, Exec (fileMachine touched faulty) p s history o t → Refuses r history o

omit [Runtime] in
theorem Guarded.ensure {condition : Bool} {kind : DriverErrorKind} {message : String} {p : Unit → Task Journal}
    (h : Guarded r (p ())) : Guarded r (ensure condition kind message >>= p) := by
  intro _ _ _ _ _ _ hrun
  obtain ⟨-, hrest⟩ | ⟨rfl, -⟩ := exec_ensure hrun
  · exact h _ _ _ _ _ _ hrest
  · exact .nil

omit [Runtime] in
theorem Guarded.ask {op : FileOp} {p : FileResult op → Task Journal} (hreads : op.reads = true)
    (hother : op ≠ .readTarget r.target) (h : ∀ result, Guarded r (p result)) : Guarded r (ask op >>= p) := by
  intro _ _ _ _ _ _ hrun
  obtain ⟨rfl, -⟩ | ⟨u, rest, rfl, ⟨rfl, -⟩ | ⟨result, v, -, -, hrest⟩⟩ := exec_ask hrun
  · exact .nil
  · exact Refuses.nil.cons hreads hother
  · exact (h result _ _ _ _ _ _ hrest).cons hreads hother

omit [Runtime] in
/-- The target is read, and a foreign content raises. -/
theorem Guarded.readTarget {p : List UInt8 → Task Journal}
    (h : ∀ data, FileDigest.sha256 data ≠ r.expectedBaselineSha256 →
      FileDigest.sha256 data ≠ r.expectedReplacementSha256 → ∃ e, p data = .raise e) :
    Guarded r (Effects.ask (.readTarget r.target) >>= p) := by
  intro _ _ _ _ _ _ hrun
  obtain ⟨rfl, -⟩ | ⟨u, rest, rfl, ⟨rfl, ho⟩ | ⟨observed, v, -, hperforms, hrest⟩⟩ := exec_ask hrun
  · exact .nil
  · exact .read rfl fun _ => ⟨rfl, ho⟩
  · refine .read rfl fun ⟨data, hdata, hbaseline, hreplacement⟩ => ?_
    obtain ⟨hobserved, rfl⟩ := hperforms
    obtain rfl : observed = data := Option.some.inj (hobserved.trans hdata)
    obtain ⟨e, he⟩ := h observed hbaseline hreplacement
    obtain ⟨hnone, rfl, -⟩ := Exec.of_raise (he ▸ hrest)
    exact ⟨hnone, fun _ => nofun⟩

theorem guarded_settle : Guarded r r.settle := by
  refine Guarded.readTarget fun data hbaseline hreplacement =>
    ⟨⟨.conflict, "exact-file target differs from its approved baseline"⟩, ?_⟩
  rw [beq_false_of_ne hreplacement, beq_false_of_ne hbaseline]
  rfl

theorem guarded_resume (journal : Option Journal) : Guarded r (r.resume journal) := by
  cases journal with
  | none => exact guarded_settle
  | some j =>
      refine Guarded.ensure ?_
      by_cases hstate : j.state = .confirmed
      · rw [if_pos hstate]
        refine Guarded.readTarget fun data _ hreplacement =>
          ⟨⟨.conflict, "confirmed exact-file target later changed"⟩, ?_⟩
        rw [beq_false_of_ne hreplacement]
        rfl
      · rw [if_neg hstate]
        exact guarded_settle

/-- **What the precondition sees is never overwritten.** -/
theorem guarded_replace : Guarded r r.replace := by
  rw [Replacement.replace]
  generalize isStableId r.operation = stable
  generalize isSha256 r.expectedBaselineSha256 = baselineSha
  generalize isSha256 r.expectedReplacementSha256 = replacementSha
  refine .ensure (.ensure (.ensure (.ensure ?_)))
  exact .ask rfl nofun fun _ => .ensure (.ask rfl nofun fun journal => guarded_resume journal)

/-- A write of nothing: others may have touched their targets. -/
def Quiet (touched : Set String) (s : Disk) (_ : FileOp) (t : Disk) : Prop := Touches touched s t

/-- **An operation that is bound to others is refused**, with its files as they are. -/
theorem replace_bound {o : Outcome DriverError Journal} {j : Journal}
    (h : Exec (fileMachine touched faulty) r.replace s history o t) (hjournal : s.journal r.stem = some j)
    (hbinds : j.binds r = false) : Run (Quiet touched) s history t ∧ ∀ j', o ≠ .value j' := by
  have hraise : ∀ (e : DriverError) (t : Disk), (fun _ _ => True : DriverError → Disk → Prop) e t :=
    fun _ _ => trivial
  have hread : ∀ {op : FileOp} {Q : FileResult op → Disk → Prop} {u : Disk},
      (∀ u t, Leaves op u t → t = u) → (∀ u answer t, Performs op u answer t → t = u) →
      (∀ v result, Touches touched u v → Performs op v (some result) v → Q result v) →
      (ask op).wp (fileMachine touched faulty) (Quiet touched) Q (fun _ _ => True) u := by
    intro op Q u hleaves hperforms hresult
    refine wp_ask hraise (fun v t hv h => ?_) (fun v answer t hv h => ?_) fun v result t hv h => ?_
    · rwa [hleaves v t h]
    · rwa [hperforms v answer t h]
    · obtain rfl := hperforms v _ t h
      exact hresult _ result hv h
  rw [Replacement.replace] at h
  generalize isStableId r.operation = stable at h
  generalize isSha256 r.expectedBaselineSha256 = baselineSha at h
  generalize isSha256 r.expectedReplacementSha256 = replacementSha at h
  have hmeets : Run (Quiet touched) s history t ∧
      o.Meets (fun _ _ => False : Journal → Disk → Prop) (fun _ _ => True) t := by
    refine h.meets (wp_checked hraise (wp_checked hraise (wp_checked hraise (wp_checked hraise ?_))))
    refine Program.wp_bind.mpr (hread (fun _ _ h => h) (fun _ _ _ h => h.2) fun u _ hu _ => ?_)
    refine wp_checked hraise ?_
    refine Program.wp_bind.mpr (hread (fun _ _ h => h) (fun _ _ _ h => h.2) fun v journal hv hanswer => ?_)
    have hsame : journal = some j := by
      rw [Option.some.inj hanswer.1, hv.journal, hu.journal, hjournal]
    rw [hsame]
    exact Program.wp_bind.mpr (wp_ensure (fun htrue => by rw [hbinds] at htrue; cases htrue) fun _ => trivial)
  refine ⟨hmeets.1, ?_⟩
  rintro j' rfl
  exact hmeets.2

end Refusals

/-! ### Convergence -/

section Calm

variable [Runtime] [FileDigest] {r : Replacement} {base : List UInt8} {s t : Disk}

omit [Runtime] [FileDigest] in
/-- Where nobody is at work on the targets and the operating system raises nothing, an operation is what it
performs. -/
theorem wp_calm {op : FileOp} {Q : FileResult op → Disk → Prop}
    (h : ∀ answer t, Performs op s answer t → ∃ result, answer = some result ∧ Q result t) :
    (ask op).wp (fileMachine ∅ False) (fun _ _ _ => True) Q (fun _ _ => False) s := by
  refine ⟨fun _ _ => trivial, fun answer t hstep => ⟨trivial, ?_⟩⟩
  obtain ⟨u, hu, hperforms | ⟨hfalse, -⟩⟩ := hstep
  · have hsame : u = s := by
      have htarget : u.target = s.target := funext fun path => (hu.targets path (Set.notMem_empty path)).1
      have hsingle : u.single = s.single := funext fun path => (hu.targets path (Set.notMem_empty path)).2
      cases u
      cases s
      cases hu
      simp_all
    obtain ⟨result, rfl, hQ⟩ := h answer t (hsame ▸ hperforms)
    exact hQ
  · exact hfalse.elim

/-- The program raises nothing. -/
abbrev Settles (p : Task Journal) (s : Disk) : Prop :=
  p.wp (fileMachine ∅ False) (fun _ _ _ => True) (fun _ _ => True) (fun _ _ => False) s

omit [Runtime] [FileDigest] in
theorem settles_checked {condition : Bool} {kind : DriverErrorKind} {message : String} {p : Unit → Task Journal}
    (hcondition : condition = true) (h : Settles (p ()) s) : Settles (ensure condition kind message >>= p) s := by
  rw [hcondition]
  exact h

theorem settles_install {tag : ℕ} (happroved : FileDigest.sha256 r.replacement = r.expectedReplacementSha256) :
    Settles (r.install tag) s := by
  refine Program.wp_bind.mpr (wp_calm fun _ t ⟨hanswer, ht⟩ => ⟨_, hanswer, ?_⟩)
  have hwritten : t.temporary tag = some r.replacement := by
    rw [ht]
    exact Function.update_self ..
  refine Program.wp_bind.mpr (wp_calm fun _ u ⟨hanswer, hu⟩ => ⟨_, hanswer.trans hwritten, ?_⟩)
  have hstaged : u.temporary tag = some r.replacement := hu ▸ hwritten
  refine settles_checked (beq_iff_eq.mpr happroved) ?_
  refine Program.wp_bind.mpr (wp_calm fun _ v ⟨hanswer, hv⟩ => ?_)
  rw [hstaged] at hanswer hv
  refine ⟨_, hanswer, ?_⟩
  rw [Option.isSome_some, if_pos rfl] at hv
  have hinstalled : v.target r.target = some r.replacement := by
    rw [hv]
    exact Function.update_self ..
  refine Program.wp_bind.mpr (wp_calm fun _ w ⟨hread, hw⟩ => ⟨_, hread.trans hinstalled, ?_⟩)
  rw [happroved, beq_self_eq_true, if_pos rfl]
  exact Program.wp_bind.mpr (wp_calm fun _ x ⟨hsaved, _⟩ => ⟨_, hsaved, trivial⟩)

theorem settles_prepare (happroved : FileDigest.sha256 r.replacement = r.expectedReplacementSha256)
    (htarget : s.target r.target = some base) (hbaseline : FileDigest.sha256 base = r.expectedBaselineSha256) :
    Settles r.prepare s := by
  refine Program.wp_bind.mpr (wp_calm fun _ t ⟨hanswer, ht⟩ => ⟨_, hanswer.trans htarget, ?_⟩)
  refine Program.wp_bind.mpr (wp_calm fun _ u ⟨hanswer, hu⟩ => ⟨_, hanswer, ?_⟩)
  have hbackup : u.backup r.stem = some base := by
    rw [hu]
    exact Function.update_self ..
  refine Program.wp_bind.mpr (wp_calm fun _ v ⟨hanswer, hv⟩ => ⟨_, hanswer.trans hbackup, ?_⟩)
  refine settles_checked (beq_iff_eq.mpr hbaseline) ?_
  refine Program.wp_bind.mpr (wp_calm fun _ w ⟨hanswer, hw⟩ => ⟨_, hanswer, ?_⟩)
  refine Program.wp_bind.mpr (wp_calm fun _ x ⟨tag, _, hanswer, hx⟩ => ⟨_, hanswer, ?_⟩)
  exact Program.wp_handle.mpr (Program.wp_mono (settles_install happroved) (fun _ _ _ => trivial) fun _ _ => False.elim)

theorem settles_settle (happroved : FileDigest.sha256 r.replacement = r.expectedReplacementSha256)
    (hbaseline : FileDigest.sha256 base = r.expectedBaselineSha256) (h : Holds r base s) : Settles r.settle s := by
  have hsave : ∀ u : Disk, Settles (do
      ask (.saveJournal r.stem r.found)
      return r.found) u := fun u =>
    Program.wp_bind.mpr (wp_calm fun _ t ⟨hsaved, _⟩ => ⟨_, hsaved, trivial⟩)
  rcases h with hbase | ⟨-, hreplaced⟩
  · refine Program.wp_bind.mpr (wp_calm fun _ t ⟨hanswer, ht⟩ => ⟨_, hanswer.trans hbase, ?_⟩)
    by_cases hfound : (FileDigest.sha256 base == r.expectedReplacementSha256) = true
    · rw [if_pos hfound]
      exact hsave t
    · rw [if_neg hfound]
      exact settles_checked (beq_iff_eq.mpr hbaseline) (settles_prepare happroved (ht ▸ hbase) hbaseline)
  · refine Program.wp_bind.mpr (wp_calm fun _ t ⟨hanswer, ht⟩ => ⟨_, hanswer.trans hreplaced, ?_⟩)
    rw [happroved, beq_self_eq_true, if_pos rfl]
    exact hsave t

theorem settles_resume (happroved : FileDigest.sha256 r.replacement = r.expectedReplacementSha256)
    (hbaseline : FileDigest.sha256 base = r.expectedBaselineSha256) (h : Kept r base s) :
    Settles (r.resume (s.journal r.stem)) s := by
  cases hjournal : s.journal r.stem with
  | none => exact settles_settle happroved hbaseline h.holds
  | some j =>
      obtain ⟨hbinds, hconfirmed⟩ := h.recorded j hjournal
      refine settles_checked hbinds ?_
      by_cases hstate : j.state = .confirmed
      · obtain ⟨data, hdata, hdigest⟩ := hconfirmed hstate
        rw [if_pos hstate]
        refine Program.wp_bind.mpr (wp_calm fun _ t ⟨hanswer, ht⟩ => ⟨_, hanswer.trans hdata, ?_⟩)
        exact settles_checked (beq_iff_eq.mpr hdigest) trivial
      · rw [if_neg hstate]
        exact settles_settle happroved hbaseline h.holds

/-- **A retry that nothing disturbs raises nothing.** -/
theorem replace_settles {history : List (Entry Disk FileOp)} {o : Outcome DriverError Journal}
    (h : Exec (fileMachine ∅ False) r.replace s history o t) (hkept : Kept r base s)
    (hadmissible : r.admissible = true) (hbaseline : FileDigest.sha256 base = r.expectedBaselineSha256)
    (e : DriverError) : o ≠ .raised e := by
  simp only [Replacement.admissible, Bool.and_eq_true, beq_iff_eq] at hadmissible
  obtain ⟨⟨⟨hstable, hbaselineSha⟩, hreplacementSha⟩, happroved⟩ := hadmissible
  rw [Replacement.replace, hstable, hbaselineSha, hreplacementSha, happroved, beq_self_eq_true] at h
  have hwp : Settles (do
      let single ← ask (.examine r.target)
      ensure single .conflict "exact-file target must be one non-linked regular file"
      let journal ← ask (.readJournal r.stem)
      r.resume journal) s := by
    have hexamine : ∀ answer t, Performs (.examine r.target) s answer t → answer = some true ∧ t = s := by
      intro answer t ⟨hanswer, ht⟩
      refine ⟨?_, ht⟩
      rcases hkept.holds with hbase | ⟨-, hreplaced⟩
      · rw [hanswer, hbase, Option.map_some, hkept.single]
      · rw [hanswer, hreplaced, Option.map_some, hkept.single]
    refine Program.wp_bind.mpr (wp_calm fun _ t hperforms => ⟨true, (hexamine _ t hperforms).1, ?_⟩)
    obtain rfl : t = s := (hexamine _ t hperforms).2
    refine settles_checked rfl ?_
    refine Program.wp_bind.mpr (wp_calm fun _ u ⟨hanswer, hu⟩ => ⟨_, hanswer, ?_⟩)
    obtain rfl : u = t := hu
    exact settles_resume happroved hbaseline hkept
  have hmeets := (Exec.meets h hwp).2
  rintro rfl
  exact hmeets

end Calm

section Atomicity

variable [Runtime] [FileDigest]

/-- **Exact-file effect atomicity**, over any number of calls, each run to its end, to an exception or to a crash
inside any operation.

While nobody else changes the target, and every call on it or under its operation has the same arguments, the
target holds at every moment its base or, if the base is the approved baseline, the whole replacement; and a
further call that nothing disturbs returns.  A call that returns has left the effect confirmed.  A content that is
neither the baseline nor the replacement is not overwritten once a call has read it.  An operation identifier
stays bound to its target and digests, and a call with others changes no file. -/
theorem exact_file_effect_atomicity {r : Replacement} {base : List UInt8} {touched : Set String}
    {start final : Disk} {sessions : List (Entry Disk Attempt)} (h : Run (attempts touched) start sessions final) :
    (Kept r base start → r.target ∉ touched →
      (∀ e ∈ sessions, e.label.call.target = r.target ∨ e.label.call.stem = r.stem → e.label.call = r) →
      (∀ e ∈ sessions, ∀ m ∈ e.label.history, Holds r base m.before ∧ Holds r base m.after) ∧
      Holds r base final ∧
      (r.admissible = true → FileDigest.sha256 base = r.expectedBaselineSha256 → ∀ history o t,
        Exec (fileMachine ∅ False) r.replace final history o t → ∀ e, o ≠ .raised e)) ∧
    (∀ e ∈ sessions, ∀ j, e.label.outcome = .value j → Done e.label.call touched j e.after) ∧
    (∀ e ∈ sessions, Refuses e.label.call e.label.history e.label.outcome) ∧
    (∀ stem j, Bound stem j start → Bound stem j final ∧
      ∀ e ∈ sessions, e.label.call.stem = stem → j.binds e.label.call = false →
        Run (Quiet touched) e.before e.label.history e.after ∧ ∀ j', e.label.outcome ≠ .value j') := by
  refine ⟨fun hkept huntouched hsame => ?_, fun e he j hj => ?_, fun e he => ?_, fun stem j hbound => ?_⟩
  · obtain ⟨hfinal, hmoments⟩ := hkept.attempts h huntouched hsame
    refine ⟨fun e he m hm => ?_, hfinal.holds, fun hadmissible hbaseline history o t hrun => ?_⟩
    · obtain ⟨hbefore, hafter⟩ := hmoments e he m hm
      exact ⟨hbefore.holds, hafter.holds⟩
    · exact replace_settles hrun hfinal hadmissible hbaseline
  · obtain ⟨-, hcall⟩ := h.step_of_mem he
    have hmeets := (replace_changes hcall (starts_getD _ _ _)).2
    rw [hj] at hmeets
    exact hmeets
  · exact guarded_replace _ _ _ _ _ _ (h.step_of_mem he).2
  · refine ⟨Bound.attempts h hbound, fun e he hstem hbinds => ?_⟩
    obtain ⟨⟨earlier, hearlier⟩, hcall⟩ := h.step_of_mem he
    obtain ⟨j', hj', hagrees⟩ := Bound.attempts hearlier hbound
    rw [← hstem] at hj'
    exact replace_bound hcall hj' ((Journal.binds_of_agrees hagrees _).trans hbinds)

end Atomicity

/-! ### A run -/

namespace Sample

open scoped CodingOS.Python.SampleProcess

scoped instance digest : FileDigest where
  sha256 data := if data = [2] then String.ofList (List.replicate 64 'b') else String.ofList (List.replicate 64 'a')

def call : Replacement where
  operationId := "effect-1"
  target := "notes.md"
  expectedBaselineSha256 := FileDigest.sha256 [1]
  replacement := [2]
  expectedReplacementSha256 := FileDigest.sha256 [2]

def disk : Disk where
  target path := if path = "notes.md" then some [1] else none
  single _ := true
  journal _ := none
  backup _ := none
  temporary _ := none

/-- The answers of a file system that works. -/
def world : (op : FileOp) → Disk → FileAnswer op × Disk
  | .examine path, s => ((s.target path).map fun _ => s.single path, s)
  | .readJournal stem, s => (some (s.journal stem), s)
  | .saveJournal stem journal, s => (some (), { s with journal := Function.update s.journal stem (some journal) })
  | .readTarget path, s => (s.target path, s)
  | .writeBackup stem data, s => (some (), { s with backup := Function.update s.backup stem (some data) })
  | .readBackup stem, s => (s.backup stem, s)
  | .makeTemporary, s => match s.temporary 0 with
      | none => (some 0, { s with temporary := Function.update s.temporary 0 (some []) })
      | some _ => (none, s)
  | .writeTemporary tag data, s => (some (), { s with temporary := Function.update s.temporary tag (some data) })
  | .readTemporary tag, s => (s.temporary tag, s)
  | .installTemporary tag path, s => ((s.temporary tag).map fun _ => (),
      if (s.temporary tag).isSome then
        { s with
          target := Function.update s.target path (s.temporary tag)
          single := Function.update s.single path true
          temporary := Function.update s.temporary tag none }
      else s)
  | .installBackup stem path, s => ((s.backup stem).map fun _ => (),
      if (s.backup stem).isSome then
        { s with
          target := Function.update s.target path (s.backup stem)
          single := Function.update s.single path true
          backup := Function.update s.backup stem none }
      else s)
  | .removeTemporary tag, s => (some (), { s with temporary := Function.update s.temporary tag none })

theorem world_step (op : FileOp) (s : Disk) : (fileMachine ∅ True).step op s (world op s).1 (world op s).2 := by
  refine ⟨s, .refl _ _, ?_⟩
  cases op with
  | makeTemporary =>
      rw [world]
      cases hfree : s.temporary 0 with
      | none => exact .inl ⟨0, hfree, rfl, rfl⟩
      | some _ => exact .inr ⟨trivial, .inl rfl, rfl⟩
  | _ => exact .inl ⟨rfl, rfl⟩

/-- The call, cut before its operation after ten of them. -/
def attempt : Attempt where
  call := call
  history := (call.replace.compute world 10 disk).1
  outcome := (call.replace.compute world 10 disk).2.1

def cut : Disk := (call.replace.compute world 10 disk).2.2

end Sample

open scoped CodingOS.Python.SampleProcess Sample in
/-- A call that is cut short, and a retry. -/
theorem exact_file_effect_sample : Holds Sample.call [1] Sample.cut ∧
    Refuses Sample.call Sample.attempt.history Sample.attempt.outcome := by
  have hrun : Run (attempts ∅) Sample.disk [⟨Sample.disk, Sample.attempt, Sample.cut⟩] Sample.cut :=
    Run.start.snoc (Program.compute_exec Sample.world_step 10 _ _)
  have hkept : Kept Sample.call [1] Sample.disk := ⟨.inl rfl, rfl, fun _ hj => nomatch hj⟩
  have h := @exact_file_effect_atomicity _ _ Sample.call [1] _ _ _ _ hrun
  refine ⟨?_, h.2.2.1 _ (List.mem_singleton_self _)⟩
  exact (h.1 hkept (Set.notMem_empty _) fun e he _ => by rw [List.mem_singleton.mp he]; rfl).2.1

end CodingOS.Effects
