import CodingOS.Routing.Moves
import CodingOS.Systems.Session

/-!
# Calls on one target

A call whose options pass their checks and agree with what was materialized runs under one binding; any
other raises before its first operation.  `Call.keeps` is the rule for the log of the calls on a target:
it hands every operation to the proof as a move.
-/

namespace CodingOS.Routing

open CodingOS.Python Systems

section Calls

variable [FileDigest]

/-- One call of `apply_materialized_policy`, with what `materialize_policy` returns or raises in it. -/
structure Call where
  options : PolicyApplyOptions
  materialized : Except PolicyError Materialized

/-- The options pass their checks. -/
def PolicyApplyOptions.valid (options : PolicyApplyOptions) : Bool :=
  isIdentifier options.transactionId
    && (options.expectedTargetSha256 == missing || isSha256 options.expectedTargetSha256)
    && isSha256 options.expectedMaterializedSha256
    && isSha256 options.expectedMaterializationDigest

/-- The policy a call goes on with: the options are valid and expect this materialization. -/
def Call.accepted (c : Call) : Option Materialized :=
  match c.materialized with
  | .ok m =>
      if c.options.valid && m.facts.materializedSha256 == c.options.expectedMaterializedSha256
          && m.facts.materializationDigest == c.options.expectedMaterializationDigest then
        some m
      else none
  | .error _ => none

/-- What the transaction of a call is bound to. -/
def Call.binding (c : Call) : Option Binding :=
  c.accepted.map fun m => c.options.binding m.facts

variable {c : Call} {m : Materialized} {b : Binding}

theorem Call.binding_of_accepted (h : c.accepted = some m) :
    c.binding = some (c.options.binding m.facts) := by
  rw [Call.binding, h]
  rfl

theorem Call.binding_transactionId (h : c.binding = some b) :
    b.transactionId = c.options.transactionId := by
  obtain ⟨m, -, rfl⟩ := Option.map_eq_some_iff.mp h
  rfl

omit [FileDigest] in
theorem ensure_bind {α : Type} (condition : Bool) (kind : PolicyErrorKind) (message : String)
    (p : Unit → Task α) :
    (ensure condition kind message >>= p) = if condition then p () else raise kind message := by
  cases condition <;> rfl

variable [Runtime]

def Call.program (c : Call) : Task Receipt := applyMaterializedPolicy c.options c.materialized

/-- A call goes on under its binding, or raises at once. -/
theorem Call.program_eq (c : Call) :
    (∃ m, c.accepted = some m ∧
      c.program = applyLocked c.options (c.options.binding m.facts) m.policyBytes) ∨
    (c.accepted = none ∧ ∃ e, c.program = .raise e) := by
  obtain ⟨options, materialized⟩ := c
  have hcheck : (options.valid = true ∧ ∀ p : Unit → Task Receipt, (options.check >>= p) = p ()) ∨
      (options.valid = false ∧ ∀ p : Unit → Task Receipt, ∃ e, (options.check >>= p) = .raise e) := by
    unfold PolicyApplyOptions.valid PolicyApplyOptions.check
    cases isIdentifier options.transactionId with
    | false => exact .inr ⟨rfl, fun _ => ⟨_, rfl⟩⟩
    | true =>
        cases options.expectedTargetSha256 == missing || isSha256 options.expectedTargetSha256 with
        | false => exact .inr ⟨rfl, fun _ => ⟨_, rfl⟩⟩
        | true =>
            cases isSha256 options.expectedMaterializedSha256 with
            | false => exact .inr ⟨rfl, fun _ => ⟨_, rfl⟩⟩
            | true =>
                cases isSha256 options.expectedMaterializationDigest with
                | false => exact .inr ⟨rfl, fun _ => ⟨_, rfl⟩⟩
                | true => exact .inl ⟨rfl, fun _ => rfl⟩
  rcases hcheck with ⟨hvalid, hrest⟩ | ⟨hvalid, hrest⟩
  · cases materialized with
    | error e => exact .inr ⟨rfl, e, hrest _⟩
    | ok m =>
        have hprogram : (⟨options, .ok m⟩ : Call).program =
            (ensure (m.facts.materializedSha256 == options.expectedMaterializedSha256) .materialization
              "materialized policy does not match the explicitly expected SHA-256" >>= fun _ =>
            ensure (m.facts.materializationDigest == options.expectedMaterializationDigest)
              .materialization
              "materialization inputs do not match the explicitly expected digest" >>= fun _ =>
            applyLocked options (options.binding m.facts) m.policyBytes) := hrest _
        rw [hprogram, ensure_bind, ensure_bind, Call.accepted]
        dsimp only
        rw [hvalid]
        cases m.facts.materializedSha256 == options.expectedMaterializedSha256 with
        | false => exact .inr ⟨rfl, _, rfl⟩
        | true =>
            cases m.facts.materializationDigest == options.expectedMaterializationDigest with
            | false => exact .inr ⟨rfl, _, rfl⟩
            | true => exact .inl ⟨m, rfl, rfl⟩
  · refine .inr ⟨?_, hrest _⟩
    cases materialized with
    | error e => rfl
    | ok m =>
        rw [Call.accepted]
        dsimp only
        rw [hvalid]
        rfl

/-- **The rule of one call.**  What every move of the call keeps holds after it, however it ended. -/
theorem Call.keeps (I : Logged Files (Call × PolicyOp) → Prop)
    {w w' : Logged Files (Call × PolicyOp)} {l : Session Call PolicyOp Files PolicyError Receipt}
    (h : policyMachine.Runs Call.program w l w') (start : I w)
    (keep : ∀ {m : Materialized} {v : Logged Files (Call × PolicyOp)} {op : PolicyOp} {t : Files},
      l.call.accepted = some m → I v →
      Moves (l.call.options.binding m.facts) m.policyBytes w.state v.state op t →
      I ⟨t, v.log ++ [⟨v.state, (l.call, op), t⟩]⟩) : I w' := by
  rcases l.call.program_eq with ⟨m, hm, hprogram⟩ | ⟨-, e, hprogram⟩
  · exact h.keeps I (hprogram ▸ wp_applyLocked) start fun hv hmove => keep hm hv hmove
  · refine h.keeps (G := fun _ _ _ => False) (Q := fun _ _ => True) (E := fun _ _ => True) I ?_ start
      fun _ h => h.elim
    rw [hprogram]
    trivial

end Calls

/-! ### Computed calls -/

namespace Sample

/-- The machine with a clock that stands still and an environment that stays valid. -/
def world : (op : PolicyOp) → Files → PolicyAnswer op × Files
  | .now, f => ("2026-01-01T00:00:00Z", f)
  | .revalidate, f => (none, f)
  | .validatorUnchanged, f | .sameDevice _, f => (true, f)
  | .readTarget, f => (f.target, f)
  | .restoreTarget _ payload, f => ((), { f with target := some payload })
  | .unlinkTarget _, f => ((), { f with target := none })
  | .promote id, f => ((f.workspace id).stage.isSome,
      if (f.workspace id).stage.isSome then
        { f.update id fun w => { w with stage := none } with target := (f.workspace id).stage }
      else f)
  | .occupied id, f => ((f.workspace id).occupied, f)
  | .readReceipt id, f => ((f.workspace id).receipt, f)
  | .createReceipt id receipt, f => ((f.workspace id).receipt.isNone,
      if (f.workspace id).receipt.isNone then f.update id fun w => { w with receipt := some receipt }
      else f)
  | .readJournal id, f => ((f.workspace id).journal, f)
  | .saveJournal id journal, f => ((), f.update id fun w => { w with journal := some journal })
  | .readBackup id, f => ((f.workspace id).backup, f)
  | .writeBackup id payload, f => ((), f.update id fun w => { w with backup := some payload })
  | .readStage id, f => ((f.workspace id).stage, f)
  | .writeStage id payload, f => ((), f.update id fun w => { w with stage := some payload })

theorem world_step (op : PolicyOp) (f : Files) :
    policyMachine.step op f (world op f).1 (world op f).2 := by
  cases op with
  | now | revalidate | validatorUnchanged | sameDevice | restoreTarget | unlinkTarget | saveJournal
    | writeBackup | writeStage => rfl
  | readTarget | occupied | readReceipt | readJournal | readBackup | readStage | promote
    | createReceipt => exact ⟨rfl, rfl⟩

scoped instance runtime : Runtime where
  casefoldUnicode s := s
  lowerUnicode s := s
  isPrintable c := 32 ≤ c.toNat && c.toNat < 127
  decimalDigit c := if c.isDigit then some (c.toNat - 48) else none
  floatRepr _ := "0.0"
  sha256 _ := "8dc417117cb169c69976f3b56f908d591975bc169686c9a4bcbf6892035f4552"
  sha512 bytes := bytes
  resolvedPath s := s
  absolutePath s := s

/-- A digest that tells one policy from all others. -/
scoped instance fileDigest : FileDigest where
  sha256 payload := String.ofList (List.replicate 64 (if payload = [77] then 'a' else 'b'))

def facts : Facts where
  baseSha256 := "base"
  capabilityManifestSha256 := "capabilities"
  materializedSha256 := String.ofList (List.replicate 64 'a')
  overlayId := "overlay"
  overlaySchemaSha256 := "overlay schema"
  overlaySha256 := "overlay digest"
  policySchemaSha256 := "policy schema"
  policyValidatorSha256 := "validator"
  materializationDigest := String.ofList (List.replicate 64 'c')

/-- The call that installs the policy where no policy is. -/
def call : Call where
  options := {
    targetPolicy := "/srv/routing-policy.yaml"
    transactionId := "t1"
    expectedTargetSha256 := missing
    expectedMaterializedSha256 := String.ofList (List.replicate 64 'a')
    expectedMaterializationDigest := String.ofList (List.replicate 64 'c') }
  materialized := .ok ⟨facts, [77], rfl⟩

/-- The call from a state, cut before the operation after `budget` of them. -/
def next (budget : ℕ) (w : Logged Files (Call × PolicyOp)) : Logged Files (Call × PolicyOp) :=
  let run := call.program.compute world budget w.state
  ⟨run.2.2, w.log ++ run.1.map (·.under call)⟩

def session (budget : ℕ) (w : Logged Files (Call × PolicyOp)) :
    Session Call PolicyOp Files PolicyError Receipt :=
  let run := call.program.compute world budget w.state
  ⟨call, run.1, run.2.1⟩

theorem next_runs (budget : ℕ) (w : Logged Files (Call × PolicyOp)) :
    policyMachine.Runs Call.program w (session budget w) (next budget w) :=
  ⟨Program.compute_exec world_step budget _ _, rfl⟩

/-- A target and no transactions. -/
def origin (target : Option (List UInt8)) : Logged Files (Call × PolicyOp) :=
  ⟨⟨target, fun _ => {}⟩, []⟩

/-- The call is cut after `n` operations and made again. -/
def retried (target : Option (List UInt8)) (n : ℕ) : Logged Files (Call × PolicyOp) :=
  next 100 (next n (origin target))

/-- The calls of `retried`. -/
def retriedCalls (target : Option (List UInt8)) (n : ℕ) : List (Entry (Logged Files (Call × PolicyOp))
    (Session Call PolicyOp Files PolicyError Receipt)) :=
  [⟨origin target, session n (origin target), next n (origin target)⟩,
    ⟨next n (origin target), session 100 (next n (origin target)), retried target n⟩]

theorem retried_run (target : Option (List UInt8)) (n : ℕ) :
    Run (policyMachine.Runs Call.program) (origin target) (retriedCalls target n) (retried target n) :=
  (Run.start.snoc (next_runs n (origin target))).snoc (next_runs 100 (next n (origin target)))

end Sample

end CodingOS.Routing
