import CodingOS.ManifestRecovery.RoutingDirectory
import CodingOS.Systems.Result

/-!
# The promotion of a generation

`promote_manifest_generation`: a validated candidate becomes an immutable file, and one replacement of
the pointer commits it.  A candidate that passed its checks is committed with a pointer that
`_read_generation_pointer` accepts.
-/

namespace CodingOS.ManifestRecovery

open CodingOS.Python Systems Systems.Result

/-! ### The program -/

structure PromoteOptions where
  transactionId : String
  expectedPreviousGenerationId : Option String
  expectedCandidateSha256 : String := ""

/-- The result of a promotion. -/
structure Promotion where
  pointer : Pointer
  compatibilityCopyStatus : String
  repairWarning : String

/-- `_write_immutable_bytes`, given how its file is created. -/
def writeImmutableBytes (create : Task (Option (List UInt8))) (content : List UInt8) : Task Unit := do
  match ← create with
  | none => return ()
  | some old =>
      require (old == content) "immutable authority artifact already exists with different bytes"

/-- `_read_generation_pointer`. -/
def currentPointer : Task (Option Pointer) := do
  Program.ofExcept (← ask .readPointer)

/-- `_generation_promotion_result_with_compatibility_repair`. -/
def promotionResult (pointer : Pointer) (content : List UInt8) : Task Promotion := do
  match ← ask (.repairCompatibility content) with
  | none => return ⟨pointer, "current", ""⟩
  | some name => return ⟨pointer, "repair_pending", name⟩

/-- The sequence number after the current one. -/
def nextSequence : Option Pointer → ℤ
  | none => 1
  | some p => p.sequence + 1

section Program

variable [Runtime] [FileDigest] [Decoder]

/-- Whether the current pointer is the one the call commits. -/
def Candidate.isReplay (k : Candidate) (o : PromoteOptions) (p : Pointer) : Bool :=
  p.generationId == k.generationId && p.transactionId == o.transactionId
    && p.previousGenerationId == o.expectedPreviousGenerationId

/-- The branch of a call whose generation is the current one. -/
def replayPromotion (k : Candidate) (p : Pointer) : Task Promotion := do
  let stored ← ask (.readGeneration p.generationId)
  require (stored == some k.content && lower p.manifestSha256 == k.sha256)
    "authority generation replay bytes do not match"
  promotionResult p k.content

/-- The branch of a call that commits. -/
def commitPromotion (k : Candidate) (o : PromoteOptions) (current : Option Pointer) :
    Task Promotion := do
  require (current.map (·.generationId) == o.expectedPreviousGenerationId)
    "authority generation compare-and-swap precondition failed"
  let sequence := nextSequence current
  require ((k.generation.read "sequence").eq (.int sequence)
      && (k.generation.read "previous_id").eq (optionalText o.expectedPreviousGenerationId))
    "candidate authority generation sequence is invalid"
  writeImmutableBytes (ask (.createGeneration k.generationId k.content)) k.content
  let pointer := k.pointer o.transactionId o.expectedPreviousGenerationId sequence
  let again ← currentPointer
  require (again == current) "authority generation pointer changed before commit"
  ask (.replacePointer pointer)
  promotionResult pointer k.content

/-- `promote_manifest_generation`, given the bytes of the candidate. -/
def promoteManifestGeneration (candidate : Option (List UInt8)) (o : PromoteOptions) :
    Task Promotion := do
  let k ← Program.ofExcept (readCandidate candidate o.transactionId o.expectedCandidateSha256)
  let current ← currentPointer
  match current with
  | some p => if k.isReplay o p then replayPromotion k p else commitPromotion k o current
  | none => commitPromotion k o current

theorem promote_of_read {candidate : Option (List UInt8)} {o : PromoteOptions} {k : Candidate}
    (h : readCandidate candidate o.transactionId o.expectedCandidateSha256 = .ok k) :
    promoteManifestGeneration candidate o = (do
      let current ← currentPointer
      match current with
      | some p => if k.isReplay o p then replayPromotion k p else commitPromotion k o current
      | none => commitPromotion k o current) := by
  rw [promoteManifestGeneration, h]
  rfl

end Program

/-! ### Texts and digests -/

/-- What the process promises: a digest has 64 lower-case digits, and a float prints with a digit or a
sign first. -/
structure ProcessLaws [Runtime] [FileDigest] : Prop where
  digest : ∀ content, isDigest (FileDigest.sha256 content) = true
  float : ∀ q, (Runtime.floatRepr q).toList.head? ≠ some 'a'

theorem ensure_eq_ok {condition : Bool} {message : String} {u : Unit} :
    ensure condition message = .ok u ↔ condition = true := by
  cases condition <;> simp [ensure]

theorem orRaise_eq_ok {α : Type} {value : Option α} {message : String} {a : α} :
    orRaise value message = .ok a ↔ value = some a := by
  cases value <;> simp [orRaise]

section Texts

variable [Runtime]

/-- A digest is its own lower case. -/
theorem lower_digest {text : String} (h : isDigest text = true) : lower text = text := by
  have hchars : ∀ c ∈ text.toList, c ∈ "0123456789abcdef".toList := by
    intro c hc
    simp only [isDigest, Bool.and_eq_true] at h
    exact List.contains_iff_mem.mp (List.all_eq_true.mp h.2 c hc)
  have hdigits : "0123456789abcdef".toList =
      ['0', '1', '2', '3', '4', '5', '6', '7', '8', '9', 'a', 'b', 'c', 'd', 'e', 'f'] := rfl
  have hlower : ∀ c ∈ "0123456789abcdef".toList, c.toNat < 128 ∧ c.toLower = c := by
    rw [hdigits]
    simp
  have hascii : isAscii text = true :=
    List.all_eq_true.mpr fun c hc => decide_eq_true (hlower c (hchars c hc)).1
  rw [lower, if_pos hascii, List.map_congr_left fun c hc => (hlower c (hchars c hc)).2, List.map_id',
    String.ofList_toList]

omit [Runtime] in
theorem head_intText (n : ℤ) : (intText n).toList.head? ≠ some 'a' := by
  cases n with
  | ofNat n =>
      intro h
      have hdecimal : (intText (Int.ofNat n)).toList = Nat.toDigits 10 n := by
        show (toString n).toList = _
        simp [Nat.repr]
      rw [hdecimal] at h
      exact absurd (Nat.isDigit_of_mem_toDigits (by decide) (by decide) (List.mem_of_mem_head? h))
        (by decide)
  | negSucc n =>
      have hsign : intText (Int.negSucc n) = "-" ++ toString (n + 1) := rfl
      rw [hsign, String.toList_append]
      exact fun h => absurd (Option.some.inj h) (by decide)

theorem head_tuple (items : List Value) : (Value.tuple items).text.toList.head? = some '(' := by
  rcases items with _ | ⟨x, _ | ⟨y, items⟩⟩
  · show "()".toList.head? = _
    rfl
  · show ("(" ++ x.repr ++ ",)").toList.head? = _
    rw [String.toList_append, String.toList_append]
    rfl
  · show ("(" ++ x.repr ++ ", " ++ y.repr ++ Value.reprItems items ++ ")").toList.head? = _
    simp only [String.toList_append]
    rfl

theorem head_mapping (entries : Mapping) :
    (Value.mapping entries).text.toList.head? = some (Char.ofNat 0x7b) := by
  rcases entries with _ | ⟨⟨k, x⟩, entries⟩
  · show "\x7b\x7d".toList.head? = _
    rfl
  · show ("\x7b" ++ reprText k ++ ": " ++ x.repr ++ Value.reprEntries entries ++ "\x7d").toList.head? = _
    simp only [String.toList_append]
    rfl

variable [FileDigest]

/-- Only a text prints with that letter first. -/
theorem eq_str_of_orEmpty (laws : ProcessLaws) {v : Value} {text : String}
    (h : orEmpty v = text) (hhead : text.toList.head? = some 'a') : v = .str text := by
  subst h
  unfold orEmpty at hhead ⊢
  split at hhead
  · next htruthy =>
      rw [if_pos htruthy]
      cases v with
      | null => cases htruthy
      | bool b =>
          obtain rfl : b = true := htruthy
          have htrue : "True".toList.head? = some 'a' := hhead
          exact absurd htrue (by decide)
      | int n => exact absurd hhead (head_intText n)
      | float q => exact absurd hhead (laws.float q)
      | str s => rfl
      | tuple items =>
          rw [head_tuple] at hhead
          exact absurd (Option.some.inj hhead) (by decide)
      | mapping entries =>
          rw [head_mapping] at hhead
          exact absurd (Option.some.inj hhead) (by decide)
  · cases hhead

end Texts

/-! ### Candidates that passed their checks -/

section Candidates

variable [Runtime] [FileDigest] [Decoder]

/-- What the checks of a candidate leave to be known of it. -/
structure Candidate.Valid (k : Candidate) (transactionId : String) : Prop where
  digest : isDigest k.generationId = true
  declared : declaredId k.generation = k.generationId
  identity : authorityGenerationId k.generation = .ok k.generationId
  transaction : k.generation.read "transaction_id" = .str transactionId
  generation : (readManifest k.content).read "authority_generation" = .mapping k.generation
  snapshot : orEmpty ((readManifest k.content).read "snapshot_id") = snapshotOf k.generationId

omit [Runtime] [FileDigest] [Decoder] in
theorem head_snapshotOf (id : String) : (snapshotOf id).toList.head? = some 'a' := by
  have hparts : (snapshotOf id).toList = "authority-generation:".toList ++ id.toList :=
    String.toList_append
  rw [hparts, List.head?_append]
  simp

omit [Runtime] [FileDigest] [Decoder] in
theorem eq_mapping_of_asMapping {v : Value} {m : Mapping} (h : v.asMapping? = some m) :
    v = .mapping m := by
  cases v with
  | mapping entries => exact congrArg Value.mapping (Option.some.inj h)
  | _ => cases h

omit [Runtime] [FileDigest] [Decoder] in
/-- What compares equal to the value of an optional text is that value. -/
theorem eq_optionalText {v : Value} {previous : Option String}
    (h : v.eq (optionalText previous) = true) : v = optionalText previous := by
  cases previous with
  | none => exact (Value.eq_null v).mp h
  | some text => exact (Value.eq_str v text).mp h

variable {k : Candidate} {file : Option (List UInt8)} {transactionId expected : String}

theorem readCandidate_eq_ok (h : readCandidate file transactionId expected = .ok k) :
    file = some k.content ∧ k.Valid transactionId := by
  simp only [readCandidate, bind_eq_ok, orRaise_eq_ok, ensure_eq_ok, pure_eq_ok, exists_const,
    Bool.and_eq_true, beq_iff_eq] at h
  obtain ⟨content, rfl, value, hvalue, manifest, hmanifest, -, -, generation, hgeneration, hdigest,
    computed, hcomputed, ⟨⟨rfl, htransaction⟩, hsnapshot⟩, rfl⟩ := h
  obtain rfl := eq_mapping_of_asMapping hmanifest
  have hread : readManifest content = manifest := by rw [readManifest, hvalue]
  exact ⟨rfl, hdigest, rfl, hcomputed, (Value.eq_str _ _).mp htransaction,
    hread.symm ▸ eq_mapping_of_asMapping hgeneration, hread.symm ▸ hsnapshot⟩

/-- A candidate whose parts pass the checks is read. -/
theorem readCandidate_of {content : List UInt8} {manifest generation : Mapping} {generationId : String}
    (hload : Decoder.loads content = some (.mapping manifest))
    (hreviewed : normalizedSha256 (.str expected) = expected)
    (hsha : (expected == "" || FileDigest.sha256 content == expected) = true)
    (hgeneration : manifest.read "authority_generation" = .mapping generation)
    (hdeclared : declaredId generation = generationId) (hdigest : isDigest generationId = true)
    (hidentity : authorityGenerationId generation = .ok generationId)
    (htransaction : (generation.read "transaction_id").eq (.str transactionId) = true)
    (hsnapshot : orEmpty (manifest.read "snapshot_id") = snapshotOf generationId) :
    readCandidate (some content) transactionId expected = .ok ⟨content, generation, generationId⟩ := by
  have hexpected : (expected == "" || expected != "") = true := by
    cases h : expected == "" <;> simp [bne, h]
  simp only [readCandidate, bind_eq_ok, orRaise_eq_ok, ensure_eq_ok, pure_eq_ok, exists_const]
  refine ⟨content, rfl, _, hload, manifest, rfl, ?_, ?_, generation, congrArg Value.asMapping? hgeneration,
    ?_, generationId, hidentity, ?_, ?_⟩
  · rw [hreviewed]
    exact hexpected
  · rw [hreviewed]
    exact hsha
  · rw [hdeclared]
    exact hdigest
  · rw [hdeclared, htransaction, hsnapshot, beq_self_eq_true, beq_self_eq_true]
    rfl
  · rw [hdeclared]

omit [FileDigest] in
theorem Candidate.Valid.numbered (h : k.Valid transactionId) : numberedGeneration k.generation = true := by
  have hidentity := h.identity
  unfold authorityGenerationId at hidentity
  cases hnumbered : numberedGeneration k.generation with
  | true => rfl
  | false =>
      rw [hnumbered] at hidentity
      have hdigest := h.digest
      rw [← Except.ok.inj hidentity] at hdigest
      exact absurd hdigest (by decide)

/-- A candidate is committed with a pointer that is accepted. -/
theorem Candidate.Valid.accepted (h : k.Valid transactionId) (laws : ProcessLaws)
    {generation : String → Option (List UInt8)} {previous : Option String} {sequence : ℤ}
    (hstored : generation k.generationId = some k.content)
    (hsequence : (k.generation.read "sequence").eq (.int sequence) = true)
    (hprevious : (k.generation.read "previous_id").eq (optionalText previous) = true) :
    readGenerationPointer (some (k.pointer transactionId previous sequence)) generation =
      .ok (some (k.pointer transactionId previous sequence)) := by
  have hnumbered := h.numbered
  simp only [numberedGeneration, Bool.and_eq_true, h.transaction] at hnumbered
  obtain ⟨⟨⟨⟨-, hpositive⟩, hparent⟩, htransaction⟩, -⟩ := hnumbered
  have hlower : lower k.generationId = k.generationId := lower_digest h.digest
  have hsha : lower k.sha256 = k.sha256 := lower_digest (laws.digest k.content)
  have hone : 1 ≤ sequence := by
    cases hvalue : k.generation.read "sequence" with
    | int n =>
        rw [hvalue] at hpositive hsequence
        have hsame : (sequence : ℚ) = n := by simpa [Value.eq, Value.number?] using hsequence
        rw [Int.cast_inj.mp hsame]
        exact of_decide_eq_true hpositive
    | _ => rw [hvalue] at hpositive; cases hpositive
  have hwell : (k.pointer transactionId previous sequence).wellFormed = true := by
    simp only [Pointer.wellFormed, Candidate.pointer, hlower, hsha, h.digest, Bool.and_eq_true,
      beq_self_eq_true, true_and, and_true]
    refine ⟨⟨⟨laws.digest k.content, decide_eq_true hone⟩, ?_⟩, ?_⟩
    · cases previous with
      | none => rfl
      | some parent =>
          have hdigest : isDigest parent = true := by
            simpa [eq_optionalText hprevious, optionalText, Value.text] using hparent
          show isDigest (lower parent) = true
          rw [lower_digest hdigest]
          exact hdigest
    · have htext : orEmpty (.str transactionId) = transactionId := by
        by_cases hempty : transactionId = ""
        · rw [hempty]
          rfl
        · have htruthy : (Value.str transactionId).truthy = true := bne_iff_ne.mpr hempty
          rw [orEmpty, if_pos htruthy]
          rfl
      rw [htext] at htransaction
      exact htransaction
  have hsnapshot := eq_str_of_orEmpty laws h.snapshot (head_snapshotOf k.generationId)
  have hidentified : (k.pointer transactionId previous sequence).identifies (readManifest k.content) =
      .ok true := by
    simp [Pointer.identifies, h.generation, h.declared, h.identity, Candidate.pointer, hlower,
      hsequence, hprevious, h.transaction, hsnapshot, bind, Except.bind, pure, Except.pure]
  have hgeneration : generation (lower (k.pointer transactionId previous sequence).generationId) =
      some k.content := by
    rw [Candidate.pointer, hlower, hstored]
  have hdigest : (FileDigest.sha256 k.content ==
      lower (k.pointer transactionId previous sequence).manifestSha256) = true :=
    beq_iff_eq.mpr hsha.symm
  simp [readGenerationPointer, hwell, hgeneration, hdigest, hidentified, ensure, orRaise, bind,
    Except.bind, pure, Except.pure]

end Candidates

end CodingOS.ManifestRecovery
