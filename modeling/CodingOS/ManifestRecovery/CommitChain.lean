import CodingOS.ManifestRecovery.Commit
import CodingOS.Python.SampleProcess

/-!
# The chain of committed generations

Promotions run one after another on one routing directory, each to its end or to a crash.  At every moment
the pointer is accepted, and the committed pointers are numbered 1, 2, 3, ... and name their predecessors.
A call that was interrupted and is made again, with no other generation committed in between, commits
exactly when its generation file is absent or holds the bytes of its candidate.  A crash inside the writing
of that file leaves a part of them, and from then on the call is refused.
-/

namespace CodingOS.ManifestRecovery

open CodingOS.Python Systems Systems.Result

/-! ### Committed pointers -/

section Committed

variable {κ : Type}

/-- The pointer an operation commits. -/
def RoutingOp.commits : RoutingOp → Option Pointer
  | .replacePointer p => some p
  | _ => none

/-- The pointers a log committed, in order. -/
def committed (log : List (Entry Files (κ × RoutingOp))) : List Pointer :=
  log.filterMap fun e => e.label.2.commits

theorem commits_eq_none {op : RoutingOp} (h : ∀ p, op ≠ .replacePointer p) : op.commits = none := by
  cases op with
  | replacePointer p => exact absurd rfl (h p)
  | _ => rfl

variable {log : List (Entry Files (κ × RoutingOp))} {f f' : Files} {c : κ} {op : RoutingOp} {p : Pointer}

theorem committed_snoc_none (h : op.commits = none) :
    committed (log ++ [⟨f, (c, op), f'⟩]) = committed log := by
  simp [committed, h]

theorem committed_snoc_some (h : op.commits = some p) :
    committed (log ++ [⟨f, (c, op), f'⟩]) = committed log ++ [p] := by
  simp [committed, h]

/-- Each pointer has the number of its place and names the one before it. -/
def Chain (ps : List Pointer) : Prop :=
  ∀ before p after, ps = before ++ p :: after →
    p.sequence = (before.length : ℤ) + 1 ∧ p.previousGenerationId = before.getLast?.map (·.generationId)

theorem Chain.nil : Chain [] := by
  intro before p after h
  simp at h

theorem Chain.nextSequence {ps : List Pointer} (h : Chain ps) :
    nextSequence ps.getLast? = (ps.length : ℤ) + 1 := by
  induction ps using List.reverseRecOn with
  | nil => rfl
  | append_singleton ps p =>
      have hlast := (h ps p [] rfl).1
      simp [ManifestRecovery.nextSequence, hlast]

theorem Chain.snoc {ps : List Pointer} {p : Pointer} (h : Chain ps)
    (hsequence : p.sequence = ManifestRecovery.nextSequence ps.getLast?)
    (hprevious : p.previousGenerationId = ps.getLast?.map (·.generationId)) : Chain (ps ++ [p]) := by
  intro before q after hsplit
  rcases after.eq_nil_or_concat with rfl | ⟨init, last, rfl⟩
  · obtain ⟨rfl, hlast⟩ := List.append_inj' hsplit rfl
    obtain rfl := List.singleton_inj.mp hlast
    exact ⟨hsequence.trans h.nextSequence, hprevious⟩
  · rw [List.concat_eq_append, ← List.cons_append, ← List.append_assoc] at hsplit
    exact h before q init (List.append_inj' hsplit rfl).1

end Committed

section Runs

variable [Runtime] [FileDigest] [Decoder]

/-! ### Safety -/

section Safety

variable {κ : Type} {w : Logged Files (κ × RoutingOp)} {c : κ} {op : RoutingOp} {t : Files}

/-- What holds of the directory and its log between any two operations. -/
structure Sound (w : Logged Files (κ × RoutingOp)) : Prop where
  accepted : w.state.Accepted
  log : ∀ e ∈ w.log, e.before.Accepted ∧ e.after.Accepted
  chain : Chain (committed w.log)
  pointer : w.state.pointer = (committed w.log).getLast?

theorem Sound.start {f : Files} (h : f.pointer = none) :
    Sound (⟨f, []⟩ : Logged Files (κ × RoutingOp)) where
  accepted := by
    show readGenerationPointer f.pointer _ = .ok f.pointer
    rw [h]
    rfl
  log := by
    intro e he
    cases he
  chain := .nil
  pointer := h

theorem Sound.forall_snoc (h : Sound w) (haccepted : t.Accepted) :
    ∀ e ∈ w.log ++ [⟨w.state, (c, op), t⟩], e.before.Accepted ∧ e.after.Accepted := by
  rw [List.forall_mem_append, List.forall_mem_singleton]
  exact ⟨h.log, h.accepted, haccepted⟩

/-- An operation that leaves the pointer and keeps it accepted. -/
theorem Sound.quiet (h : Sound w) (haccepted : t.Accepted) (hpointer : t.pointer = w.state.pointer)
    (hop : op.commits = none) : Sound ⟨t, w.log ++ [⟨w.state, (c, op), t⟩]⟩ := by
  refine ⟨haccepted, h.forall_snoc haccepted, ?_, ?_⟩
  · rw [committed_snoc_none hop]
    exact h.chain
  · rw [committed_snoc_none hop]
    exact hpointer.trans h.pointer

/-- A move keeps the directory sound. -/
theorem Sound.move (laws : ProcessLaws) (h : Sound w) {candidate : Option (List UInt8)}
    {o : PromoteOptions} (hmove : Moves candidate o w.state op t) :
    Sound ⟨t, w.log ++ [⟨w.state, (c, op), t⟩]⟩ := by
  have haccepted := hmove.accepted laws h.accepted
  cases hmove with
  | quiet hpointer _ _ _ _ hop => exact h.quiet haccepted hpointer (commits_eq_none hop)
  | create _ => exact h.quiet haccepted rfl rfl
  | commit _ _ hnext _ =>
      refine ⟨haccepted, h.forall_snoc haccepted, ?_, ?_⟩
      · rw [committed_snoc_some rfl]
        refine h.chain.snoc ?_ ?_
        · rw [← h.pointer]
          rfl
        · rw [← h.pointer]
          exact hnext.previous.symm
      · rw [committed_snoc_some rfl, List.getLast?_concat]

end Safety

/-! ### Calls -/

structure PromoteCall where
  candidate : Option (List UInt8)
  options : PromoteOptions

def PromoteCall.program (c : PromoteCall) : Task Promotion :=
  promoteManifestGeneration c.candidate c.options

/-- The candidate a call goes on with. -/
def PromoteCall.read (c : PromoteCall) : Except AuthorityError Candidate :=
  readCandidate c.candidate c.options.transactionId c.options.expectedCandidateSha256

/-- One call after another. -/
abbrev Promoting := routingMachine.Runs (Λ := PromoteCall) PromoteCall.program

abbrev World := Logged Files (PromoteCall × RoutingOp)

variable {w w' : World} {c : PromoteCall} {laws : ProcessLaws}

theorem Sound.call (laws : ProcessLaws) (h : Sound w)
    {l : Session PromoteCall RoutingOp Files AuthorityError Promotion} (hcall : Promoting w l w') :
    Sound w' :=
  hcall.keeps Sound (wp_promote h.accepted laws) h fun hv hmove => hv.move laws hmove

theorem Sound.run (laws : ProcessLaws) (h : Sound w)
    {history : List (Entry World (Session PromoteCall RoutingOp Files AuthorityError Promotion))}
    (hrun : Run Promoting w history w') : Sound w' :=
  hrun.invariant Sound h fun hv hcall => hv.call laws hcall

/-! ### Calls that are made again -/

/-- A call returns, and the pointer it returns is its own and the current one. -/
def PromoteCall.Commits (c : PromoteCall) (o : Outcome AuthorityError Promotion) (t : Files) : Prop :=
  ∃ k v, c.read = .ok k ∧ o = .value v ∧ t.pointer = some v.pointer ∧ k.Owns c.options v.pointer

omit [Decoder] in
theorem Candidate.isReplay_pointer {k : Candidate} {o : PromoteOptions} {sequence : ℤ} :
    k.isReplay o (k.pointer o.transactionId o.expectedPreviousGenerationId sequence) = true := by
  simp [Candidate.isReplay, Candidate.pointer]

/-- Between two states of the directory the call `c` was interrupted, and no other call committed. -/
structure Interrupted (w : World) (c : PromoteCall) (w' : World) : Prop where
  crashed : ∃ l v history, l.call = c ∧ l.outcome = .crashed ∧ Promoting w l v ∧ Run Promoting v history w'
  alone : ∃ since, w'.log = w.log ++ since ∧
    ∀ e ∈ since, e.label.2.commits ≠ none → e.label.1 = c

/-- What the operations since a state can have done to the pointer, when only `c` commits: nothing, or
the candidate of `c` was the next generation and is the current one. -/
def Since (w : World) (c : PromoteCall) (v : World) : Prop :=
  ∃ since, v.log = w.log ++ since ∧
    ((∀ e ∈ since, e.label.2.commits ≠ none → e.label.1 = c) →
      v.state.pointer = w.state.pointer ∨
        ∃ k p, c.read = .ok k ∧ k.Next c.options w.state.pointer ∧ v.state.pointer = some p ∧
          k.isReplay c.options p = true)

theorem Since.move {v : World} (h : Since w c v) {c' : PromoteCall} {op : RoutingOp} {t : Files}
    (hmove : Moves c'.candidate c'.options v.state op t) :
    Since w c ⟨t, v.log ++ [⟨v.state, (c', op), t⟩]⟩ := by
  obtain ⟨since, hlog, hsince⟩ := h
  refine ⟨since ++ [⟨v.state, (c', op), t⟩], ?_, fun honly => ?_⟩
  · rw [← List.append_assoc, ← hlog]
  · rw [List.forall_mem_append, List.forall_mem_singleton] at honly
    have hbefore := hsince honly.1
    cases hmove with
    | quiet hpointer =>
        rw [← hpointer] at hbefore
        exact hbefore
    | create _ => exact hbefore
    | commit _ hread hnext _ =>
        obtain rfl : c' = c := honly.2 nofun
        refine .inr ?_
        rcases hbefore with hsame | ⟨k', p, hread', hnext', -, -⟩
        · exact ⟨_, _, hread, hsame ▸ hnext, rfl, Candidate.isReplay_pointer⟩
        · obtain rfl := Except.ok.inj (hread'.symm.trans hread)
          exact ⟨_, _, hread, hnext', rfl, Candidate.isReplay_pointer⟩

theorem Since.run (laws : ProcessLaws) {v : World} (h : Since w c v) (hv : Sound v)
    {history : List (Entry World (Session PromoteCall RoutingOp Files AuthorityError Promotion))}
    (hrun : Run Promoting v history w') : Since w c w' :=
  (hrun.invariant (fun u => Since w c u ∧ Sound u) ⟨h, hv⟩ fun hu hcall =>
    ⟨hcall.keeps (Since w c) (wp_promote hu.2.accepted laws) hu.1 fun hx hmove => hx.move hmove,
      hu.2.call laws hcall⟩).1

/-- The pointer has not moved since the call began, or it is the call's own. -/
theorem Interrupted.pointer (laws : ProcessLaws) (h : Interrupted w c w') (hw : Sound w) :
    Sound w' ∧ (w'.state.pointer = w.state.pointer ∨
      ∃ k p, c.read = .ok k ∧ k.Next c.options w.state.pointer ∧ w'.state.pointer = some p ∧
        k.isReplay c.options p = true) := by
  obtain ⟨l, v, history, -, -, hfirst, hrun⟩ := h.crashed
  have hall := hrun.cons hfirst
  obtain ⟨since, hlog, halone⟩ := h.alone
  obtain ⟨since', hlog', hsince⟩ := Since.run laws
    ⟨[], (List.append_nil _).symm, fun _ => .inl rfl⟩ hw hall
  obtain rfl : since' = since := List.append_cancel_left (hlog'.symm.trans hlog)
  exact ⟨hw.run laws hall, hsince halone⟩

/-- A call made again after it was interrupted finds the candidate admitted if it was when it began. -/
theorem Interrupted.admits (laws : ProcessLaws) (h : Interrupted w c w') (hw : Sound w) {k : Candidate}
    (hread : c.read = .ok k) :
    k.Admits c.options w'.state.pointer ↔ k.Admits c.options w.state.pointer := by
  rcases (h.pointer laws hw).2 with hsame | ⟨k', p, hread', hnext, hp, hreplay⟩
  · rw [hsame]
  · obtain rfl := Except.ok.inj (hread'.symm.trans hread)
    exact iff_of_true (.inr ⟨p, hp, hreplay⟩) (.inl hnext)

/-- **Making a call again.**  It commits when its candidate is admitted and its generation file is absent
or holds the candidate, and is refused otherwise. -/
theorem Sound.retry (laws : ProcessLaws) (hw : Sound w) {history : List (Entry Files RoutingOp)}
    {o : Outcome AuthorityError Promotion} {t : Files}
    (hrun : Exec routingMachine c.program w.state history o t) (huncut : o ≠ .crashed) :
    c.Commits o t ↔ ∃ k, c.read = .ok k ∧ k.Admits c.options w.state.pointer ∧ k.Fresh w.state := by
  obtain ⟨-, hmeets⟩ := hrun.meets (wp_promote hw.accepted laws)
  cases o with
  | value v =>
      obtain ⟨k, hread, hadmits, hfresh, hpointer, howns⟩ := hmeets
      exact iff_of_true ⟨k, v, hread, rfl, hpointer, howns⟩ ⟨k, hread, hadmits, hfresh⟩
  | raised e =>
      refine iff_of_false ?_ ?_
      · rintro ⟨k, v, -, hvalue, -⟩
        cases hvalue
      · rintro ⟨k, hread, hadmits, hfresh⟩
        exact hmeets.2 k hread hadmits hfresh
  | crashed => exact absurd rfl huncut

/-! ### The law -/

/-- **Promotions are crash-safe, and replayable while the generation file is whole.**  Whatever the calls
and wherever they are cut, the pointer is accepted at every moment and the committed pointers form one
chain.  A call made again after it was interrupted, with no other generation committed in between, commits
exactly when its candidate was admitted at first and its generation file is absent or holds exactly the
bytes of the candidate. -/
theorem generation_commit (laws : ProcessLaws) {f : Files} (hstart : f.pointer = none)
    {history : List (Entry World (Session PromoteCall RoutingOp Files AuthorityError Promotion))}
    (hrun : Run Promoting ⟨f, []⟩ history w) :
    (∀ e ∈ w.log, e.before.Accepted ∧ e.after.Accepted) ∧ w.state.Accepted ∧
      Chain (committed w.log) ∧ w.state.pointer = (committed w.log).getLast? ∧
      ∀ c w', Interrupted w c w' →
        ∀ ops o t, Exec routingMachine c.program w'.state ops o t → o ≠ .crashed →
          (c.Commits o t ↔
            ∃ k, c.read = .ok k ∧ k.Admits c.options w.state.pointer ∧ k.Fresh w'.state) := by
  have hw : Sound w := (Sound.start hstart).run laws hrun
  refine ⟨hw.log, hw.accepted, hw.chain, hw.pointer, fun c w' hinterrupted ops o t hexec huncut => ?_⟩
  rw [(hinterrupted.pointer laws hw).1.retry laws hexec huncut]
  refine exists_congr fun k => and_congr_right fun hread => and_congr_left fun _ => ?_
  exact hinterrupted.admits laws hw hread

end Runs

/-! ### A run -/

namespace Sample

open CodingOS.Python.SampleProcess

def zeros : Value := .str "0000000000000000000000000000000000000000000000000000000000000000"

def generationId : String := "705350fd4ad36f302f162e3517df290c2b0d094fb4d547162b8e2e417e57aa05"

/-- The generation of the first candidate. -/
def generation : Mapping := [
  ("id", .str generationId), ("sequence", .int 1), ("previous_id", .null),
  ("transaction_id", .str "t1"), ("promoted_at", .str "2026-01-01T00:00:00Z"),
  ("promotion_reason", .str "operator_rebaseline"), ("static_authority_sha256", zeros),
  ("dynamic_authority_sha256", zeros), ("config_projection_sha256", zeros),
  ("plugin_inventory_sha256", zeros), ("worker_runtime_bom_sha256", zeros),
  ("authority_snapshot_sha256", zeros)]

def manifest : Mapping := [
  ("authority_generation", .mapping generation),
  ("snapshot_id", .str (snapshotOf generationId))]

/-- The bytes of the candidate. -/
def content : List UInt8 := utf8 (dumps manifest)

/-- The digest of the texts of the run is the identity of its one generation. -/
scoped instance (priority := high) process : Runtime :=
  { runtime with sha256 := fun _ => generationId }

scoped instance digest : FileDigest where
  sha256 bytes :=
    if bytes = [] then "e3b0c44298fc1c149afbf4c8996fb92427ae41e4649b934ca495991b7852b855"
    else "9722691dd9a659034fdbd33f0a7de16cb8de27c3b274012d70c6de4d0cfaf544"

scoped instance decoder : Decoder where
  loads bytes := if bytes = [] then none else some (.mapping manifest)

theorem laws : ProcessLaws where
  digest bytes := by
    show isDigest (if bytes = [] then _ else _) = true
    split <;> decide +kernel
  float _ := by
    show "0.0".toList.head? ≠ some 'a'
    decide

/-- A host that answers every question of a promotion. -/
def world : (op : RoutingOp) → Files → RoutingAnswer op × Files
  | .now, f => ("2026-01-01T00:00:00Z", f)
  | .readPointer, f => (f.current, f)
  | .readGeneration id, f => (f.generation id, f)
  | .createGeneration id content, f =>
      (f.generation id, if (f.generation id).isNone then f.setGeneration id content else f)
  | .replacePointer pointer, f => ((), { f with pointer := some pointer })
  | .repairCompatibility content, f => (none, { f with compatibility := some content })
  | .readCandidate id, f => (f.candidate id, f)
  | .createCandidate id content, f =>
      (f.candidate id, if (f.candidate id).isNone then f.setCandidate id content else f)
  | .readBegin id, f => (f.opening id, f)
  | .createBegin id stable recordedAt, f => ((f.opening id).isNone,
      if (f.opening id).isNone then f.setBegin id (.record stable recordedAt) else f)
  | .readTerminal id, f => (f.terminal id, f)
  | .createTerminal id stable recordedAt, f => ((f.terminal id).isNone,
      if (f.terminal id).isNone then f.setTerminal id (.record stable recordedAt) else f)
  | .preflight, f => (none, f)
  | .review, f => (.ok content, f)
  | .finalSnapshot, f => (.unstable "AUTHORITY_SNAPSHOT_UNSTABLE", f)
  | .generationFresh _, f => (true, f)
  | .recoveryPreflight, f => (.error (.denied "RECOVERY_MUTEX_BUSY"), f)
  | .build, f => (.ready content, f)
  | .installed, f => (.fresh, f)

theorem world_step (op : RoutingOp) (f : Files) :
    routingMachine.step op f (world op f).1 (world op f).2 := by
  cases op with
  | repairCompatibility content => exact .inl ⟨rfl, rfl⟩
  | _ => first | exact rfl | exact ⟨rfl, rfl⟩

/-- A crash that leaves an empty generation file. -/
def tear : RoutingOp → Files → Option Files
  | .createGeneration id _, f =>
      if (f.generation id).isNone then some (f.setGeneration id []) else none
  | _, _ => none

theorem tear_torn (op : RoutingOp) (f t : Files) (h : tear op f = some t) :
    routingMachine.torn op f t := by
  cases op with
  | createGeneration id content =>
      rw [tear] at h
      split at h
      · next hnone =>
          exact ⟨Option.isNone_iff_eq_none.mp hnone, [], List.nil_prefix, (Option.some.inj h).symm⟩
      · cases h
  | _ => cases h

/-- The first promotion. -/
def call : PromoteCall := ⟨some content, { transactionId := "t1", expectedPreviousGenerationId := none }⟩

/-- The call, cut inside the operation after `budget` of them. -/
def session (budget : ℕ) (w : World) : Session PromoteCall RoutingOp Files AuthorityError Promotion :=
  let run := call.program.computeTorn world tear budget w.state
  ⟨call, run.1, run.2.1⟩

def next (budget : ℕ) (w : World) : World :=
  let run := call.program.computeTorn world tear budget w.state
  ⟨run.2.2, w.log ++ run.1.map (·.under call)⟩

/-- Whether a session was cut. -/
def isCut : Outcome AuthorityError Promotion → Bool
  | .crashed => true
  | _ => false

theorem eq_crashed {o : Outcome AuthorityError Promotion} (h : isCut o = true) : o = .crashed := by
  cases o with
  | crashed => rfl
  | _ => cases h

theorem next_calls (budget : ℕ) (w : World) : Promoting w (session budget w) (next budget w) :=
  ⟨Program.computeTorn_exec world_step tear_torn budget _ _, rfl⟩

/-- What happens in a call is logged under it. -/
theorem next_log {budget : ℕ} {w : World} {e : Entry Files (PromoteCall × RoutingOp)}
    (h : e ∈ (next budget w).log) : e ∈ w.log ∨ e.label.1 = call := by
  rcases List.mem_append.mp h with hearlier | hlater
  · exact .inl hearlier
  · obtain ⟨e', -, rfl⟩ := List.mem_map.mp hlater
    exact .inr rfl

/-- An empty directory. -/
def origin : World := ⟨{}, []⟩

/-- The first promotion was cut inside the writing of its generation file. -/
def torn : World := next 1 origin

end Sample

section Runs

open Sample
open CodingOS.Python.SampleProcess

/-- The law, of the first promotion. -/
theorem generation_commit_sample :
    (∀ e ∈ (next 100 origin).log, e.before.Accepted ∧ e.after.Accepted) ∧
      (next 100 origin).state.Accepted ∧ Chain (committed (next 100 origin).log) ∧
      (next 100 origin).state.pointer = (committed (next 100 origin).log).getLast? ∧
      ∀ c w', Interrupted (next 100 origin) c w' →
        ∀ ops o t, Exec routingMachine c.program w'.state ops o t → o ≠ .crashed →
          (c.Commits o t ↔ ∃ k, c.read = .ok k ∧
            k.Admits c.options (next 100 origin).state.pointer ∧ k.Fresh w'.state) :=
  generation_commit laws rfl (Run.start.snoc (next_calls 100 origin))

/-- The texts of the candidate. -/
theorem candidate_texts : numberedGeneration generation = true ∧ attestedGeneration generation = true ∧
    Runtime.sha256 (dumps (generationPayload generation)) = generationId ∧
    declaredId generation = generationId ∧ isDigest generationId = true ∧
    (generation.read "transaction_id").eq (.str "t1") = true ∧
    orEmpty (manifest.read "snapshot_id") = snapshotOf generationId ∧
    manifest.read "authority_generation" = .mapping generation ∧ normalizedSha256 (.str "") = "" ∧
    (generation.read "sequence").eq (.int 1) = true ∧ (generation.read "previous_id").eq .null = true := by
  refine ⟨?_, ?_, ?_, ?_, ?_, ?_, ?_, ?_, ?_, ?_, ?_⟩ <;> decide +kernel

theorem content_ne_nil : content ≠ [] := by
  intro hnil
  have hsize := utf8_length (dumps manifest)
  rw [show utf8 (dumps manifest) = [] from hnil, dumps, String.utf8ByteSize_append,
    String.utf8ByteSize_append] at hsize
  have hbrace : ("\x7b" : String).utf8ByteSize = 1 := rfl
  rw [List.length_nil] at hsize
  omega

theorem call_read : call.read = .ok ⟨content, generation, generationId⟩ := by
  obtain ⟨hnumbered, hattested, hid, hdeclared, hdigest, htransaction, hsnapshot, hgeneration, hempty, -⟩ :=
    candidate_texts
  have hload : Decoder.loads content = some (.mapping manifest) := if_neg content_ne_nil
  have hidentity : authorityGenerationId generation = .ok generationId := by
    rw [authorityGenerationId, hnumbered, hattested, hid]
    rfl
  exact readCandidate_of hload hempty rfl hgeneration hdeclared hdigest hidentity htransaction hsnapshot

theorem session_outcome (budget : ℕ) (w : World) :
    (session budget w).outcome = (call.program.computeTorn world tear budget w.state).2.1 := rfl

theorem next_state (budget : ℕ) (w : World) :
    (next budget w).state = (call.program.computeTorn world tear budget w.state).2.2 := rfl

/-- The cut run: the pointer is read, and an empty generation file is left. -/
theorem call_cut : call.program.computeTorn world tear 1 {} =
    ([⟨{}, .readPointer, {}⟩, ⟨{}, .createGeneration generationId content,
      ({} : Files).setGeneration generationId []⟩], .crashed,
      ({} : Files).setGeneration generationId []) := by
  rw [PromoteCall.program, promote_of_read call_read]
  rfl

/-- The first promotion is cut inside the writing of its generation file, and the same call is refused
from then on, whatever is promoted in between. -/
theorem torn_generation :
    Interrupted origin call torn ∧
      (∃ k, call.read = .ok k ∧ k.Admits call.options origin.state.pointer) ∧
      ∀ history w, Run Promoting torn history w →
        ∀ ops o t, Exec routingMachine call.program w.state ops o t → o ≠ .crashed →
          ¬ call.Commits o t := by
  have hsequence := candidate_texts.2.2.2.2.2.2.2.2.2
  have hnext : Candidate.Next ⟨content, generation, generationId⟩ call.options none :=
    ⟨rfl, hsequence.1, hsequence.2⟩
  have hcut : (session 1 origin).outcome = .crashed := by
    rw [session_outcome, show origin.state = {} from rfl, call_cut]
  have htorn : torn.state.generation generationId = some [] := by
    rw [torn, next_state, show origin.state = {} from rfl, call_cut]
    exact Function.update_self generationId (some []) fun _ => none
  refine ⟨⟨⟨session 1 origin, torn, [], rfl, hcut, next_calls 1 origin, .start⟩, torn.log,
    (List.nil_append _).symm, ?_⟩,
    ⟨_, call_read, .inl hnext⟩, fun history w hrun ops o t hexec huncut hcommits => ?_⟩
  · intro e he _
    exact (next_log he).resolve_left List.not_mem_nil
  · have hsound : Sound torn := (Sound.start rfl).call laws (next_calls 1 origin)
    obtain ⟨k', hread', -, hfresh⟩ := ((hsound.run laws hrun).retry laws hexec huncut).mp hcommits
    obtain rfl := Except.ok.inj (call_read.symm.trans hread')
    have hkept : w.state.generation generationId = some [] :=
      (hrun.invariant (fun u => Sound u ∧ u.state.generation generationId = some []) ⟨hsound, htorn⟩
        fun hu hcall => ⟨hu.1.call laws hcall,
          hcall.keeps (fun v => v.state.generation generationId = some [])
            (wp_promote hu.1.accepted laws) hu.2 fun hv hmove => hmove.keeps_generation hv⟩).2
    rcases hfresh with hnone | hsame
    · rw [hkept] at hnone
      cases hnone
    · rw [hkept] at hsame
      exact content_ne_nil (Option.some.inj hsame).symm

end Runs

end CodingOS.ManifestRecovery
