import CodingOS.ManifestRecovery.Promotion

/-!
# What a promotion does to the routing directory

`Moves` says once what a promotion can do to the files, with what it has checked when it does it: a new
generation file appears, or the pointer is replaced by that of the next generation.  The rule of the whole
program says when it returns and when it is refused.
-/

namespace CodingOS.ManifestRecovery

open CodingOS.Python Systems Systems.Result

section Moves

variable [Runtime] [FileDigest] [Decoder]

/-- The candidate is the generation after the current one. -/
structure Candidate.Next (k : Candidate) (o : PromoteOptions) (current : Option Pointer) : Prop where
  previous : current.map (·.generationId) = o.expectedPreviousGenerationId
  sequence : (k.generation.read "sequence").eq (.int (nextSequence current)) = true
  previousId : (k.generation.read "previous_id").eq (optionalText o.expectedPreviousGenerationId) = true

/-- The candidate is the generation after the current one, or the current one. -/
def Candidate.Admits (k : Candidate) (o : PromoteOptions) (current : Option Pointer) : Prop :=
  k.Next o current ∨ ∃ p, current = some p ∧ k.isReplay o p = true

/-- The generation file is absent or holds the candidate. -/
def Candidate.Fresh (k : Candidate) (f : Files) : Prop :=
  f.generation k.generationId = none ∨ f.generation k.generationId = some k.content

/-- The pointer is one the call commits. -/
structure Candidate.Owns (k : Candidate) (o : PromoteOptions) (p : Pointer) : Prop where
  generationId : p.generationId = k.generationId
  transactionId : p.transactionId = o.transactionId
  previous : p.previousGenerationId = o.expectedPreviousGenerationId
  sha256 : lower p.manifestSha256 = k.sha256

/-- The current pointer is accepted, or there is none. -/
def Files.Accepted (f : Files) : Prop := f.current = .ok f.pointer

/-- The moves of a promotion. -/
inductive Moves (candidate : Option (List UInt8)) (o : PromoteOptions) : Files → RoutingOp → Files → Prop
  | quiet {f f' : Files} {op : RoutingOp} : f'.pointer = f.pointer → f'.generation = f.generation →
      f'.candidate = f.candidate → f'.opening = f.opening → f'.terminal = f.terminal →
      (∀ p, op ≠ .replacePointer p) → Moves candidate o f op f'
  | create {f : Files} {id : String} {content written : List UInt8} : f.generation id = none →
      Moves candidate o f (.createGeneration id content) (f.setGeneration id written)
  | commit {f : Files} {k : Candidate} : f.Accepted →
      readCandidate candidate o.transactionId o.expectedCandidateSha256 = .ok k →
      k.Next o f.pointer → f.generation k.generationId = some k.content →
      Moves candidate o f
        (.replacePointer (k.pointer o.transactionId o.expectedPreviousGenerationId
          (nextSequence f.pointer)))
        { f with pointer := some (k.pointer o.transactionId o.expectedPreviousGenerationId
          (nextSequence f.pointer)) }

omit [Decoder] in
/-- What the committing branch becomes for the next generation. -/
theorem commit_of_next {k : Candidate} {o : PromoteOptions} {current : Option Pointer} (h : k.Next o current) :
    commitPromotion k o current = (do
      writeImmutableBytes (ask (.createGeneration k.generationId k.content)) k.content
      let again ← currentPointer
      require (again == current) "authority generation pointer changed before commit"
      ask (.replacePointer (k.pointer o.transactionId o.expectedPreviousGenerationId (nextSequence current)))
      promotionResult (k.pointer o.transactionId o.expectedPreviousGenerationId (nextSequence current))
        k.content) := by
  have hnumbered : ((k.generation.read "sequence").eq (.int (nextSequence current)) &&
      (k.generation.read "previous_id").eq (optionalText o.expectedPreviousGenerationId)) = true :=
    Bool.and_eq_true_iff.mpr ⟨h.sequence, h.previousId⟩
  rw [commitPromotion, h.previous, beq_self_eq_true]
  simp only [hnumbered]
  rfl

/-! ### What the pointer depends on -/

variable {f f' : Files} {p : Pointer} {generation generation' : String → Option (List UInt8)}

theorem readGenerationPointer_eq_ok {current : Option Pointer}
    (h : readGenerationPointer (some p) generation = .ok current) :
    current = some p ∧ ∃ content, generation (lower p.generationId) = some content ∧
      FileDigest.sha256 content = lower p.manifestSha256 := by
  simp only [readGenerationPointer, bind_eq_ok, ensure_eq_ok, orRaise_eq_ok, pure_eq_ok, exists_const,
    beq_iff_eq] at h
  obtain ⟨-, content, hcontent, hdigest, -, -, -, rfl⟩ := h
  exact ⟨rfl, content, hcontent, hdigest⟩

theorem readGenerationPointer_congr (h : generation' (lower p.generationId) = generation (lower p.generationId)) :
    readGenerationPointer (some p) generation' = readGenerationPointer (some p) generation := by
  simp only [readGenerationPointer, h]

/-- The file the current pointer names. -/
theorem Files.Accepted.stored (h : f.Accepted) (hp : f.pointer = some p) :
    ∃ content, f.generation (lower p.generationId) = some content ∧
      FileDigest.sha256 content = lower p.manifestSha256 := by
  rw [Files.Accepted, Files.current, hp] at h
  exact (readGenerationPointer_eq_ok h).2

theorem Files.Accepted.of_same (h : f.Accepted) (hpointer : f'.pointer = f.pointer)
    (hgeneration : f'.generation = f.generation) : f'.Accepted := by
  rw [Files.Accepted, Files.current, hpointer, hgeneration]
  exact h

/-- A file that appears is not the one the pointer names. -/
theorem Files.Accepted.setGeneration (h : f.Accepted) {id : String} (hnone : f.generation id = none)
    (written : List UInt8) : (f.setGeneration id written).Accepted := by
  cases hpointer : f.pointer with
  | none =>
      show readGenerationPointer f.pointer _ = .ok f.pointer
      rw [hpointer]
      rfl
  | some p =>
      obtain ⟨content, hcontent, -⟩ := h.stored hpointer
      have hne : lower p.generationId ≠ id := by
        intro heq
        rw [heq, hnone] at hcontent
        cases hcontent
      have hsame : (f.setGeneration id written).generation (lower p.generationId) =
          f.generation (lower p.generationId) := by
        simp [Files.setGeneration, hne]
      show readGenerationPointer f.pointer _ = .ok f.pointer
      rw [hpointer, readGenerationPointer_congr hsame, ← hpointer]
      exact h

/-- **A move keeps the pointer accepted.** -/
theorem Moves.accepted {candidate : Option (List UInt8)} {o : PromoteOptions} {op : RoutingOp}
    (laws : ProcessLaws) (h : Moves candidate o f op f') (hf : f.Accepted) : f'.Accepted := by
  cases h with
  | quiet hpointer hgeneration => exact hf.of_same hpointer hgeneration
  | create hnone => exact hf.setGeneration hnone _
  | commit _ hread hnext hstored =>
      exact (readCandidate_eq_ok hread).2.accepted laws hstored hnext.sequence hnext.previousId

/-- A move keeps every generation file. -/
theorem Moves.keeps_generation {candidate : Option (List UInt8)} {o : PromoteOptions} {op : RoutingOp}
    (h : Moves candidate o f op f') {id : String} {content : List UInt8}
    (hid : f.generation id = some content) : f'.generation id = some content := by
  cases h with
  | quiet _ hgeneration => rw [hgeneration, hid]
  | create hnone =>
      have hne : id ≠ _ := fun heq => by rw [heq, hnone] at hid; cases hid
      simp [Files.setGeneration, hne, hid]
  | commit => exact hid

/-! ### The program -/

variable {G : Files → RoutingOp → Files → Prop} {E : AuthorityError → Files → Prop}
  {candidate : Option (List UInt8)} {o : PromoteOptions} {k : Candidate}

theorem wp_require {condition : Bool} {message : String} {Q : Unit → Files → Prop}
    (hvalue : condition = true → Q () f) (hraise : condition = false → E ⟨.runtime, message⟩ f) :
    (require condition message).wp routingMachine G Q E f := by
  cases condition with
  | true => exact hvalue rfl
  | false => exact hraise rfl

theorem wp_ofExcept {α : Type} {result : Except AuthorityError α} {Q : α → Files → Prop}
    (hvalue : ∀ a, result = .ok a → Q a f) (hraise : ∀ e, result = .error e → E e f) :
    (Program.ofExcept result : Task α).wp routingMachine G Q E f := by
  cases result with
  | ok a => exact hvalue a rfl
  | error e => exact hraise e rfl

theorem wp_currentPointer {Q : Option Pointer → Files → Prop} (hf : f.Accepted)
    (hquiet : G f .readPointer f) (hvalue : Q f.pointer f) :
    currentPointer.wp routingMachine G Q E f := by
  refine ⟨nofun, ?_⟩
  rintro answer t ⟨rfl, rfl⟩
  refine ⟨hquiet, ?_⟩
  rw [hf]
  exact hvalue

/-- The copy for older readers is repaired or not, and the rest stays. -/
theorem wp_promotionResult {pointer : Pointer} {content : List UInt8} {Q : Promotion → Files → Prop}
    (hvalue : ∀ v t, v.pointer = pointer → t.pointer = f.pointer → Q v t) :
    (promotionResult pointer content).wp routingMachine (Moves candidate o) Q E f := by
  refine ⟨nofun, ?_⟩
  rintro answer t (⟨rfl, rfl⟩ | ⟨hsome, rfl⟩)
  · exact ⟨.quiet rfl rfl rfl rfl rfl nofun, hvalue _ _ rfl rfl⟩
  · obtain ⟨name, rfl⟩ := Option.isSome_iff_exists.mp hsome
    exact ⟨.quiet rfl rfl rfl rfl rfl nofun, hvalue _ _ rfl rfl⟩

/-- The file of the generation is written, or was there with the same bytes. -/
theorem wp_writeGeneration {Q : Unit → Files → Prop} (hf : f.Accepted)
    (hvalue : ∀ t, k.Fresh f → t.Accepted → t.pointer = f.pointer →
      t.generation k.generationId = some k.content → Q () t)
    (hraise : ∀ e, ¬ k.Fresh f → E e f) :
    (writeImmutableBytes (ask (.createGeneration k.generationId k.content)) k.content).wp routingMachine
      (Moves candidate o) Q E f := by
  rw [writeImmutableBytes, Program.wp_bind]
  refine ⟨?_, ?_⟩
  · rintro t ⟨hnone, written, -, rfl⟩
    exact .create hnone
  · rintro answer t ⟨rfl, rfl⟩
    cases hstored : f.generation k.generationId with
    | none =>
        refine ⟨.create hstored, hvalue _ (.inl hstored) (hf.setGeneration hstored _) rfl ?_⟩
        simp [Files.setGeneration]
    | some old =>
        refine ⟨.quiet rfl rfl rfl rfl rfl nofun, wp_require (fun hsame => ?_) fun hother => ?_⟩
        · have hcontent := hstored.trans (congrArg some (beq_iff_eq.mp hsame))
          exact hvalue _ (.inr hcontent) hf rfl hcontent
        · refine hraise _ fun hfresh => ?_
          rcases hfresh with hnone | hsame
          · rw [hstored] at hnone
            cases hnone
          · rw [hstored] at hsame
            exact absurd (Option.some.inj hsame) (beq_eq_false_iff_ne.mp hother)

theorem wp_replayPromotion (hf : f.Accepted) {p : Pointer} (hp : f.pointer = some p)
    (hk : k.Valid o.transactionId) (hreplay : k.isReplay o p = true) :
    (replayPromotion k p).wp routingMachine (Moves candidate o)
      (fun v t => k.Fresh f ∧ t.pointer = some v.pointer ∧ k.Owns o v.pointer)
      (fun _ t => t.pointer = f.pointer ∧ ¬ k.Fresh f) f := by
  simp only [Candidate.isReplay, Bool.and_eq_true, beq_iff_eq] at hreplay
  obtain ⟨⟨hid, htransaction⟩, hprevious⟩ := hreplay
  have hlower : lower p.generationId = p.generationId := hid ▸ lower_digest hk.digest
  obtain ⟨content, hcontent, hdigest⟩ := hf.stored hp
  rw [hlower] at hcontent
  rw [replayPromotion, Program.wp_bind]
  refine ⟨nofun, ?_⟩
  rintro answer t ⟨rfl, rfl⟩
  refine ⟨.quiet rfl rfl rfl rfl rfl nofun, ?_⟩
  rw [Program.wp_ret, Program.wp_bind]
  refine wp_require (fun hsame => ?_) fun hother => ⟨rfl, fun hfresh => ?_⟩
  · rw [Bool.and_eq_true, beq_iff_eq, beq_iff_eq] at hsame
    refine wp_promotionResult fun v t hv ht => ⟨.inr (hid ▸ hsame.1), ?_, ?_⟩
    · rw [ht, hp, hv]
    · rw [hv]
      exact ⟨hid, htransaction, hprevious, hsame.2⟩
  · have hbytes : content = k.content := by
      rcases hfresh with hnone | hsame
      · rw [← hid, hcontent] at hnone
        cases hnone
      · rw [← hid, hcontent] at hsame
        exact Option.some.inj hsame
    rw [hcontent, hbytes, ← hdigest, hbytes, Candidate.sha256, beq_self_eq_true, beq_self_eq_true] at hother
    cases hother

theorem wp_commitPromotion (hf : f.Accepted)
    (hread : readCandidate candidate o.transactionId o.expectedCandidateSha256 = .ok k)
    (laws : ProcessLaws) :
    (commitPromotion k o f.pointer).wp routingMachine (Moves candidate o)
      (fun v t => k.Next o f.pointer ∧ k.Fresh f ∧ t.pointer = some v.pointer ∧ k.Owns o v.pointer)
      (fun _ t => t.pointer = f.pointer ∧ (k.Next o f.pointer → ¬ k.Fresh f)) f := by
  rw [commitPromotion, Program.wp_bind]
  refine wp_require (fun hprevious => ?_) fun hother =>
    ⟨rfl, fun hnext => absurd hnext.previous (beq_eq_false_iff_ne.mp hother)⟩
  rw [Program.wp_bind]
  refine wp_require (fun hsequence => ?_) fun hother => ⟨rfl, fun hnext => ?_⟩
  · rw [Bool.and_eq_true] at hsequence
    have hnext : k.Next o f.pointer := ⟨beq_iff_eq.mp hprevious, hsequence.1, hsequence.2⟩
    rw [Program.wp_bind]
    refine wp_writeGeneration hf (fun t hfresh ht hpointer hstored => ?_) fun e hstale =>
      ⟨rfl, fun _ => hstale⟩
    rw [← hpointer] at hnext ⊢
    rw [Program.wp_bind]
    refine wp_currentPointer ht (.quiet rfl rfl rfl rfl rfl nofun) ?_
    rw [Program.wp_bind, beq_self_eq_true]
    refine wp_require (fun _ => ?_) nofun
    rw [Program.wp_bind]
    refine ⟨nofun, ?_⟩
    rintro answer t rfl
    refine ⟨.commit ht hread hnext hstored, ?_⟩
    refine wp_promotionResult fun v u hv hu => ⟨hnext, hfresh, ?_, ?_⟩
    · rw [hu, hv]
    · rw [hv]
      exact ⟨rfl, rfl, rfl, lower_digest (laws.digest _)⟩
  · rw [hnext.sequence, hnext.previousId] at hother
    cases hother

/-- **The rule of a promotion.**  It returns when its candidate is the current generation or the one
after it and the generation file is absent or holds the candidate, and is refused otherwise. -/
theorem wp_promote (hf : f.Accepted) (laws : ProcessLaws) :
    (promoteManifestGeneration candidate o).wp routingMachine (Moves candidate o)
      (fun v t => ∃ k, readCandidate candidate o.transactionId o.expectedCandidateSha256 = .ok k ∧
        k.Admits o f.pointer ∧ k.Fresh f ∧ t.pointer = some v.pointer ∧ k.Owns o v.pointer)
      (fun _ t => t.pointer = f.pointer ∧
        ∀ k, readCandidate candidate o.transactionId o.expectedCandidateSha256 = .ok k →
          k.Admits o f.pointer → ¬ k.Fresh f) f := by
  rw [promoteManifestGeneration, Program.wp_bind]
  refine wp_ofExcept (fun k hread => ?_) fun e herror => ⟨rfl, fun k hread => ?_⟩
  · rw [Program.wp_bind]
    refine wp_currentPointer hf (.quiet rfl rfl rfl rfl rfl fun _ h => by cases h) ?_
    have hcommit : (∀ p, f.pointer = some p → k.isReplay o p = false) →
        (commitPromotion k o f.pointer).wp routingMachine (Moves candidate o)
          (fun v t => ∃ k, readCandidate candidate o.transactionId o.expectedCandidateSha256 = .ok k ∧
            k.Admits o f.pointer ∧ k.Fresh f ∧ t.pointer = some v.pointer ∧ k.Owns o v.pointer)
          (fun _ t => t.pointer = f.pointer ∧
            ∀ k, readCandidate candidate o.transactionId o.expectedCandidateSha256 = .ok k →
              k.Admits o f.pointer → ¬ k.Fresh f) f := by
      intro hnew
      refine Program.wp_mono (wp_commitPromotion hf hread laws) (fun v t h => ?_) fun e t h => ?_
      · exact ⟨k, hread, .inl h.1, h.2⟩
      · refine ⟨h.1, fun k' hread' hadmits => ?_⟩
        obtain rfl := Except.ok.inj (hread.symm.trans hread')
        rcases hadmits with hnext | ⟨p, hp, hreplay⟩
        · exact h.2 hnext
        · rw [hnew p hp] at hreplay
          cases hreplay
    cases hpointer : f.pointer with
    | none =>
        rw [hpointer] at hcommit
        exact hcommit fun p hp => by cases hp
    | some p =>
        dsimp only
        split
        · next hreplay =>
            refine Program.wp_mono (wp_replayPromotion hf hpointer (readCandidate_eq_ok hread).2 hreplay)
              (fun v t h => ⟨k, hread, .inr ⟨p, rfl, hreplay⟩, h⟩) fun e t h => ?_
            refine ⟨h.1.trans hpointer, fun k' hread' _ => ?_⟩
            obtain rfl := Except.ok.inj (hread.symm.trans hread')
            exact h.2
        · next hnew =>
            rw [hpointer] at hcommit
            refine hcommit fun q hq => ?_
            obtain rfl := Option.some.inj hq
            exact Bool.not_eq_true _ ▸ hnew
  · rw [herror] at hread
    cases hread

end Moves

end CodingOS.ManifestRecovery
