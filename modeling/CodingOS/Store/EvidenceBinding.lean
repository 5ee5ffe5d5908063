import CodingOS.Store.SnapshotPersistence

/-!
# What the digest of an evidence item binds

`_verify_evidence_digest` takes the digest of a whole payload, its digest field removed, or of the
selected fields of an admission receipt.  Items of one digest agree in what their digests are taken of,
within a regime and across the two.  The other fields of an admission receipt are not bound.
-/

namespace CodingOS.Store

open CodingOS.Python CodingOS.Campaign Systems

/-- The fields an admission receipt is digested by, `acceptance_sources` apart. -/
def admissionFields : List String :=
  ["repository", "installed_runtime", "allowed_paths", "validation_commands", "human_authorization_verifier"]

theorem get?_admissionPayload (payload : Mapping) {key : String} (h : key ∈ admissionFields) :
    (admissionPayload payload).get? key = some (payload.read key) := by
  simp only [admissionFields, List.mem_cons, List.not_mem_nil, or_false] at h
  rcases h with rfl | rfl | rfl | rfl | rfl <;> rfl

theorem get?_admissionPayload_sources (payload : Mapping) :
    (admissionPayload payload).get? "acceptance_sources" = payload.get? "acceptance_sources" := by
  rw [admissionPayload]
  cases payload.get? "acceptance_sources" <;> rfl

theorem get?_admissionPayload_protocol (payload : Mapping) :
    (admissionPayload payload).get? "protocol_version" = none := by
  rw [admissionPayload]
  cases payload.get? "acceptance_sources" <;> rfl

section Binding

variable [Runtime]

/-- A payload of the protocol of native terminal receipts. -/
def isTerminal (payload : Mapping) : Bool :=
  (payload.getD "protocol_version" (.str "")).text == terminalProtocol

/-- The field of a payload that claims its digest. -/
def digestField (payload : Mapping) : String :=
  if isTerminal payload then "receipt_digest"
  else if (payload.get? "evidence_sha256").isSome then "evidence_sha256"
  else "admission_sha256"

/-- A payload without its digest field. -/
def withoutDigest (payload : Mapping) : Mapping := payload.erase (digestField payload)

/-- The payload of an admission receipt. -/
def AdmissionBound (payload : Mapping) : Prop := digestField payload = "admission_sha256"

instance (payload : Mapping) : Decidable (AdmissionBound payload) := inferInstanceAs (Decidable (_ = _))

/-- What the digest of a payload is taken of. -/
def digestedPayload (payload : Mapping) : Mapping :=
  if AdmissionBound payload then admissionPayload payload else withoutDigest payload

theorem digestedPayload_of_ne {payload : Mapping} (h : digestField payload ≠ "admission_sha256") :
    digestedPayload payload = withoutDigest payload := if_neg h

/-- A verified digest is taken of the digested payload. -/
theorem digest_of_verified {item : Evidence} {terminal : Bool} (h : verifyEvidenceDigest item terminal = .ok ()) :
    item.digest = canonicalJsonDigest (.mapping (digestedPayload item.payload)) := by
  simp only [verifyEvidenceDigest, bind_eq_ok, check_eq_ok, Bool.and_eq_true, beq_iff_eq, exists_const] at h
  obtain ⟨-, ⟨claimed, expected⟩, hdigests, -, hexpected⟩ := h
  rw [← hexpected]
  unfold evidenceDigests at hdigests
  split at hdigests
  · next hterminal =>
      have hfield : digestField item.payload = "receipt_digest" := if_pos hterminal
      obtain ⟨-, rfl⟩ := Prod.mk.inj (Except.ok.inj hdigests)
      rw [digestedPayload_of_ne (by rw [hfield]; decide), withoutDigest, hfield]
  · next hterminal =>
      have hplain : ¬ isTerminal item.payload = true := hterminal
      split at hdigests
      · next hvalue =>
          have hfield : digestField item.payload = "evidence_sha256" := by
            rw [digestField, if_neg hplain, hvalue, Option.isSome_some, if_pos rfl]
          obtain ⟨-, rfl⟩ := Prod.mk.inj (Except.ok.inj hdigests)
          rw [digestedPayload_of_ne (by rw [hfield]; decide), withoutDigest, hfield]
      · next hvalue _ =>
          have hfield : digestField item.payload = "admission_sha256" := by
            rw [digestField, if_neg hplain, hvalue, Option.isSome_none, if_neg Bool.false_ne_true]
          obtain ⟨-, rfl⟩ := Prod.mk.inj (Except.ok.inj hdigests)
          rw [digestedPayload, if_pos (show AdmissionBound item.payload from hfield)]
      · exact absurd hdigests fail_ne_ok

/-- An item that a reachable store accepts. -/
def AcceptedEvidence (item : Evidence) : Prop := ∃ history db db', StoreRun history db ∧
  (db.recordEvidence item = .ok db' ∨ db.recordTerminalEvidence item = .ok db')

theorem AcceptedEvidence.digest_eq {item : Evidence} (h : AcceptedEvidence item) :
    item.digest = canonicalJsonDigest (.mapping (digestedPayload item.payload)) := by
  obtain ⟨history, db, db', -, h | h⟩ := h
  · simp only [Db.recordEvidence, bind_eq_ok] at h
    obtain ⟨_, hverified, -⟩ := h
    exact digest_of_verified hverified
  · exact digest_of_verified (Db.recordTerminalEvidence_eq_ok h).1.2

/-- **What a digest binds.**  Accepted items of one digest agree, as canonical JSON, in what their digests
are taken of.  That is the payload without its digest field, unless an item is bound to an admission: then
it is the fields an admission is digested by, and the item shares no digest with a terminal receipt. -/
theorem evidence_digest_binds [FloatReader] (laws : FloatLaws)
    (hsha : Set.InjOn Runtime.sha256 (Set.range canonicalJson)) {item item' : Evidence} (h : AcceptedEvidence item)
    (h' : AcceptedEvidence item') (hdigest : item.digest = item'.digest) :
    (digestedPayload item.payload).freeze = (digestedPayload item'.payload).freeze ∧
    (¬ AdmissionBound item.payload → ¬ AdmissionBound item'.payload →
      (withoutDigest item.payload).freeze = (withoutDigest item'.payload).freeze) ∧
    (AdmissionBound item.payload → AdmissionBound item'.payload →
      (∀ key ∈ admissionFields, freeze (item.payload.read key) = freeze (item'.payload.read key)) ∧
        (item.payload.get? "acceptance_sources").map freeze
          = (item'.payload.get? "acceptance_sources").map freeze) ∧
    (AdmissionBound item.payload → ¬ AdmissionBound item'.payload →
      (admissionPayload item.payload).freeze = (withoutDigest item'.payload).freeze ∧
        isTerminal item'.payload = false) := by
  have hfreeze : (digestedPayload item.payload).freeze = (digestedPayload item'.payload).freeze := by
    rw [h.digest_eq, h'.digest_eq] at hdigest
    have hjson := hsha (Set.mem_range_self _) (Set.mem_range_self _) hdigest
    exact Value.mapping.inj (freeze_eq_of_canonicalJson laws hjson)
  refine ⟨hfreeze, fun hwhole hwhole' => ?_, fun hbound hbound' => ?_, fun hbound hwhole' => ?_⟩
  · rwa [digestedPayload, if_neg hwhole, digestedPayload, if_neg hwhole'] at hfreeze
  · rw [digestedPayload, if_pos hbound, digestedPayload, if_pos hbound'] at hfreeze
    have hread : ∀ key, ((admissionPayload item.payload).get? key).map freeze
        = ((admissionPayload item'.payload).get? key).map freeze := fun key => by
      rw [← Mapping.get?_freeze, hfreeze, Mapping.get?_freeze]
    refine ⟨fun key hkey => ?_, ?_⟩
    · have hsame := hread key
      rw [get?_admissionPayload _ hkey, get?_admissionPayload _ hkey] at hsame
      exact Option.some.inj hsame
    · have hsame := hread "acceptance_sources"
      rwa [get?_admissionPayload_sources, get?_admissionPayload_sources] at hsame
  · rw [digestedPayload, if_pos hbound, digestedPayload, if_neg hwhole'] at hfreeze
    refine ⟨hfreeze, ?_⟩
    -- a terminal receipt is digested with its protocol, an admission without
    by_contra hterminal
    rw [Bool.not_eq_false] at hterminal
    have hfield : digestField item'.payload = "receipt_digest" := if_pos hterminal
    have hprotocol : (item'.payload.get? "protocol_version").map freeze = none := by
      rw [← @Mapping.get?_erase_of_ne item'.payload "receipt_digest" _ (by decide), ← hfield,
        ← Mapping.get?_freeze]
      show Mapping.get? (withoutDigest item'.payload).freeze "protocol_version" = none
      rw [← hfreeze, Mapping.get?_freeze, get?_admissionPayload_protocol, Option.map_none]
    rw [isTerminal, Mapping.getD, Option.map_eq_none_iff.mp hprotocol] at hterminal
    rw [Option.getD_none, Value.text_str] at hterminal
    exact absurd hterminal (by decide)

end Binding

namespace Sample

open CodingOS.Campaign.RecordSample

/-- An admission receipt that names a protocol. -/
def admissionReceipt (protocol : String) : Mapping := [
  ("protocol_version", .str protocol),
  ("repository", .str "r"),
  ("admission_sha256", .str (canonicalJsonDigest (.mapping (admissionPayload [("repository", .str "r")]))))]

theorem specId_nonblank : isBlank RecordSample.spec.campaignId = false := by decide

def admissionEvidence (evidenceId protocol : String) (nonblank : isBlank evidenceId = false) : Evidence where
  evidenceId := evidenceId
  campaignId := RecordSample.spec.campaignId
  nodeId := none
  kind := .installation
  digest := canonicalJsonDigest (.mapping (admissionPayload [("repository", .str "r")]))
  payload := admissionReceipt protocol
  evidence_id_nonblank := nonblank
  campaign_id_nonblank := specId_nonblank
  digest_nonblank := by decide +kernel

def firstReceipt : Evidence := admissionEvidence "first" "v1" (by decide)

def secondReceipt : Evidence := admissionEvidence "second" "v2" (by decide)

theorem receipts_recorded : ((foldTransactions {} [.createCampaign RecordSample.spec none none]).toOption.bind
    fun run => ((run.2.recordEvidence firstReceipt).toOption.bind fun db =>
      (db.recordEvidence secondReceipt).toOption)).isSome = true := by
  rw [foldTransactions, List.foldlM_cons, Transaction.run, Db.createCampaign, CampaignSnapshot.initial,
    recordSpec_verified]
  decide +kernel

/-- The store accepts the one receipt after the other. -/
theorem accepted_receipts : AcceptedEvidence firstReceipt ∧ AcceptedEvidence secondReceipt := by
  obtain ⟨db, hrecorded⟩ := Option.isSome_iff_exists.mp receipts_recorded
  obtain ⟨run, hrun, hrecorded⟩ := Option.bind_eq_some_iff.mp hrecorded
  obtain ⟨db₁, hfirst, hsecond⟩ := Option.bind_eq_some_iff.mp hrecorded
  have hreached : StoreRun run.1 run.2 := foldTransactions_run (toOption_eq_some hrun)
  have hstep : commits run.2 (.recordEvidence firstReceipt) db₁ := toOption_eq_some hfirst
  exact ⟨⟨_, _, _, hreached, .inl (toOption_eq_some hfirst)⟩,
    ⟨_, _, _, hreached.snoc hstep, .inl (toOption_eq_some hsecond)⟩⟩

end Sample

open Sample CodingOS.Campaign.RecordSample in
/-- The digest of an admission receipt does not bind its protocol, however injective the hash is. -/
theorem protocol_not_bound : Function.Injective (Runtime.sha256 : String → String) ∧
    AcceptedEvidence firstReceipt ∧ AcceptedEvidence secondReceipt ∧ firstReceipt.digest = secondReceipt.digest ∧
      (withoutDigest firstReceipt.payload).freeze ≠ (withoutDigest secondReceipt.payload).freeze := by
  refine ⟨Function.injective_id, accepted_receipts.1, accepted_receipts.2, rfl, fun h => ?_⟩
  have hprotocol := congrArg (fun m => Mapping.get? m "protocol_version") h
  simp only [Mapping.get?_freeze] at hprotocol
  exact absurd hprotocol (by decide +kernel)

open Sample CodingOS.Campaign.RecordSample in
theorem evidence_digest_binds_sample :
    freeze (firstReceipt.payload.read "repository") = freeze (secondReceipt.payload.read "repository") :=
  (((evidence_digest_binds RecordSample.laws Function.injective_id.injOn accepted_receipts.1 accepted_receipts.2
    rfl).2.2.1 (by decide +kernel) (by decide +kernel)).1 "repository" (by decide))

end CodingOS.Store
