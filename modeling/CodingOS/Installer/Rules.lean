import CodingOS.Installer.Transaction

/-!
# Rules for the operations of the installer

What a proof about a program needs of one operation, and of the questions the programs ask about a path.
-/

namespace CodingOS.Installer

open CodingOS.Python Systems

section Rules

variable {mayFail : InstallOp → Prop} {G : Disk → InstallOp → Disk → Prop}
  {E : InstallError → Disk → Prop} {d d' : Disk}

theorem wp_ask {σ : Type} {M : Machine InstallAnswer σ} {G : σ → InstallOp → σ → Prop}
    {E : InstallError → σ → Prop} {s : σ} {op : InstallOp} {Q : InstallReply op → σ → Prop}
    (htorn : ∀ t, M.torn op s t → G s op t)
    (hok : ∀ r t, M.step op s (.ok r) t → G s op t ∧ Q r t)
    (herror : ∀ e t, M.step op s (.error e) t → G s op t ∧ E e t) :
    (ask op).wp M G Q E s := by
  refine ⟨htorn, fun answer t ht => ?_⟩
  cases answer with
  | ok r => exact hok r t ht
  | error e => exact herror e t ht

theorem wp_ensure {σ : Type} {M : Machine InstallAnswer σ} {G : σ → InstallOp → σ → Prop}
    {E : InstallError → σ → Prop} {s : σ} {condition : Bool} {kind : ErrorKind} {message : String}
    {Q : Unit → σ → Prop} (hpass : condition = true → Q () s)
    (hfail : condition = false → E ⟨kind, message⟩ s) : (ensure condition kind message).wp M G Q E s := by
  cases condition with
  | true => exact hpass rfl
  | false => exact hfail rfl

theorem wp_ofExcept {σ α : Type} {M : Machine InstallAnswer σ} {G : σ → InstallOp → σ → Prop}
    {E : InstallError → σ → Prop} {s : σ} {x : Except InstallError α} {Q : α → σ → Prop}
    (hok : ∀ a, x = .ok a → Q a s) (herror : ∀ e, x = .error e → E e s) :
    (Program.ofExcept x : Task α).wp M G Q E s := by
  cases x with
  | ok a => exact hok a rfl
  | error e => exact herror e rfl

/-- An operation with one undisturbed effect. -/
theorem wp_do {op : InstallOp} {r : InstallReply op} {Q : InstallReply op → Disk → Prop}
    (heffect : ∀ answer t, Effect op d answer t → answer = .ok r ∧ t = d')
    (hcut : ∀ t, Partial op d t → G d op t) (hstep : G d op d') (h : Q r d')
    (hfail : mayFail op → ∀ e t, Partial op d t → E e t) :
    (ask op).wp (installMachine mayFail) G Q E d := by
  refine wp_ask hcut (fun r' t ht => ?_) fun e t ht => ?_
  · rcases ht with ht | ⟨_, ⟨_, herror⟩, _⟩
    · obtain ⟨hr, rfl⟩ := heffect _ _ ht
      cases hr
      exact ⟨hstep, h⟩
    · cases herror
  · rcases ht with ht | ⟨hmay, _, ht⟩
    · cases (heffect _ _ ht).1
    · exact ⟨hcut t ht, hfail hmay e t ht⟩

/-- A run that begins with an operation and does not crash. -/
theorem Exec.ask_bind {σ α : Type} {M : Machine InstallAnswer σ} {s t : σ} {op : InstallOp}
    {f : InstallReply op → Task α} {history : List (Entry σ InstallOp)} {o : Outcome InstallError α}
    (h : Exec M (ask op >>= f) s history o t) (hended : o ≠ .crashed) :
    (∃ r u later, M.step op s (.ok r) u ∧ history = ⟨s, op, u⟩ :: later ∧ Exec M (f r) u later o t) ∨
      ∃ e, M.step op s (.error e) t ∧ history = [⟨s, op, t⟩] ∧ o = .raised e := by
  cases h with
  | @call _ _ answer _ u _ later _ hstep hrest =>
      cases answer with
      | ok r => exact .inl ⟨r, u, later, hstep, rfl, hrest⟩
      | error e =>
          cases hrest
          exact .inr ⟨e, hstep, rfl, rfl⟩
  | crash => exact absurd rfl hended
  | torn => exact absurd rfl hended

end Rules

/-! ### Computed operations -/

namespace Sample

/-- The undisturbed effect of an operation. -/
def world : (op : InstallOp) → Disk → InstallAnswer op × Disk
  | .readJournals, d => (.ok d.journals, d)
  | .saveJournal journal, d => (.ok (), d.save journal)
  | .look path, d => (.ok (d.node path), d)
  | .makeParent _, d | .effectRecord, d | .finalize, d => (.ok (), d)
  | .remove path, d => (.ok (), d.set path none)
  | .rename source target, d =>
      if renames (d.node source) (d.node target) then
        (.ok (), (d.set target (d.node source)).set source none)
      else (.error ⟨.os, "rename"⟩, d)
  | .copy source target, d => (.ok (), d.set target (d.node source))
  | .replaceFile path content, d => (.ok (), d.set path (some (.file content)))
  | .lookCurrent, d => (.ok d.current, d)
  | .writeCurrent content, d =>
      if renames (some (.file content)) d.current then (.ok (), { d with current := some (.file content) })
      else (.error ⟨.os, "rename"⟩, d)
  | .unlinkCurrent, d =>
      if renames (some (.file [])) d.current then (.ok (), { d with current := none })
      else (.error ⟨.os, "unlink"⟩, d)
  | .removeWorkspace path, d => (.ok (), d.clear path)

theorem world_effect (op : InstallOp) (d : Disk) : Effect op d (world op d).1 (world op d).2 := by
  cases op with
  | rename source target =>
      simp only [Effect, world]
      split
      · exact ⟨rfl, rfl⟩
      · exact ⟨⟨_, rfl⟩, rfl⟩
  | writeCurrent | unlinkCurrent =>
      simp only [Effect, world]
      split
      · exact ⟨rfl, rfl⟩
      · exact ⟨⟨_, rfl⟩, rfl⟩
  | _ => exact ⟨rfl, rfl⟩

theorem world_step (mayFail : InstallOp → Prop) (op : InstallOp) (d : Disk) :
    (installMachine mayFail).step op d (world op d).1 (world op d).2 :=
  .inl (world_effect op d)

/-- A run that did not crash. -/
def ended : Outcome InstallError Unit → Bool
  | .crashed => false
  | _ => true

theorem ne_crashed {o : Outcome InstallError Unit} (h : ended o = true) : o ≠ .crashed := by
  rintro rfl
  cases h

scoped instance runtime : Runtime where
  casefoldUnicode s := s
  lowerUnicode s := s
  isPrintable c := 32 ≤ c.toNat && c.toNat < 127
  decimalDigit c := if c.isDigit then some (c.toNat - 48) else none
  floatRepr _ := "0.0"
  sha256 s := s
  sha512 bytes := bytes
  resolvedPath s := s
  absolutePath s := s

/-- A digest that is the content itself, as hexadecimal digits. -/
scoped instance fileDigest : FileDigest where
  sha256 content := String.ofList (content.flatMap fun byte => hexDigits 2 byte.toNat)

scoped instance host : Host where
  nfc s := s
  temporaryRoot := ["tmp"]

end Sample

end CodingOS.Installer
