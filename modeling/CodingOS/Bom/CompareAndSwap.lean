import CodingOS.Bom.Moves
import CodingOS.Routing.Calls
import CodingOS.Systems.Swaps

/-!
# The compare-and-swap law of the bill of materials

A change of the target is a swap, from the expected bytes to the candidate's under a prepared journal, or
the rollback of a swap by the transaction that made it, and a completed receipt is written over the
candidate's bytes and ends its transaction.

Recovery ignores the phase of the journal and tells an interrupted transaction's own swap by the digest of
the target alone.  `bom_compare_and_swap`: the law holds in every run in which each retry of an
interrupted transaction that would roll back finds its own swap standing last.
-/

namespace CodingOS.Bom

open CodingOS.Python Systems
open CodingOS.Routing (missing targetDigest isIdentifier)

section Calls

variable [FileDigest]

/-- One call of `apply_bom`, with what the validation of its candidate returns or raises. -/
structure Call where
  options : ApplyOptions
  verified : Except BomError Verified
  promoterSha256 : String

/-- The candidate a call goes on with: the options are valid and expect it. -/
def Call.accepted (c : Call) : Option Verified :=
  match c.verified with
  | .ok v =>
      if isIdentifier c.options.transactionId && isDigest c.options.expectedTargetSha256
          && isDigest c.options.expectedCandidateSha256
          && v.bomSha256 == c.options.expectedCandidateSha256 then
        some v
      else none
  | .error _ => none

/-- What the transaction of a call is bound to. -/
def Call.binding (c : Call) : Option Binding :=
  c.accepted.map fun v => c.options.binding v c.promoterSha256

variable {c : Call} {v : Verified}

theorem Call.binding_of_accepted (h : c.accepted = some v) :
    c.binding = some (c.options.binding v c.promoterSha256) := by
  rw [Call.binding, h]
  rfl

omit [FileDigest] in
theorem ensure_bind {α : Type} (condition : Bool) (kind : BomErrorKind) (message : String)
    (p : Unit → Task α) :
    (ensure condition kind message >>= p) = if condition then p () else raise kind message := by
  cases condition <;> rfl

variable [Runtime]

def Call.program (c : Call) : Task Receipt := applyBom c.options c.verified c.promoterSha256

/-- A call goes on under its binding, or raises at once. -/
theorem Call.program_eq (c : Call) :
    (∃ v, c.accepted = some v ∧
      c.program = applyLocked c.options (c.options.binding v c.promoterSha256) v.bomBytes) ∨
    ∃ e, c.program = .raise e := by
  rw [Call.program, applyBom, Call.accepted]
  simp only [ensure_bind]
  cases isIdentifier c.options.transactionId with
  | false => exact .inr ⟨_, rfl⟩
  | true =>
      cases isDigest c.options.expectedTargetSha256 with
      | false => exact .inr ⟨_, rfl⟩
      | true =>
          cases isDigest c.options.expectedCandidateSha256 with
          | false => exact .inr ⟨_, rfl⟩
          | true =>
              cases c.verified with
              | error e => exact .inr ⟨e, rfl⟩
              | ok v =>
                  dsimp only
                  cases hsame : v.bomSha256 == c.options.expectedCandidateSha256 with
                  | false =>
                      refine .inr ⟨⟨.precondition, "reviewed worker-runtime BOM candidate changed"⟩, ?_⟩
                      show (if v.bomSha256 == c.options.expectedCandidateSha256 then _ else _) = _
                      rw [hsame]
                      rfl
                  | true =>
                      refine .inl ⟨v, rfl, ?_⟩
                      show (if v.bomSha256 == c.options.expectedCandidateSha256 then _ else _) = _
                      rw [hsame]
                      rfl

/-- **The rule of one call.**  What every move of the call keeps holds after it, however it ended. -/
theorem Call.keeps (I : Logged Files (Call × BomOp) → Prop) {w w' : Logged Files (Call × BomOp)}
    {l : Session Call BomOp Files BomError Receipt} (h : bomMachine.Runs Call.program w l w')
    (start : I w)
    (keep : ∀ {v : Verified} {u : Logged Files (Call × BomOp)} {op : BomOp} {t : Files},
      l.call.accepted = some v → I u →
      Moves (l.call.options.binding v l.call.promoterSha256) v.bomBytes w.state u.state op t →
      I ⟨t, u.log ++ [⟨u.state, (l.call, op), t⟩]⟩) : I w' := by
  rcases l.call.program_eq with ⟨v, hv, hprogram⟩ | ⟨e, hprogram⟩
  · exact h.keeps I (hprogram ▸ wp_applyLocked) start fun hu hmove => keep hv hu hmove
  · refine h.keeps (G := fun _ _ _ => False) (Q := fun _ _ => True) (E := fun _ _ => True) I ?_ start
      fun _ h => h.elim
    rw [hprogram]
    trivial

end Calls

section CompareAndSwap

variable [FileDigest]

/-- What an operation of a call does to the target: the promotion swaps it. -/
def write (e : Entry Files (Call × BomOp)) : Option (Write Binding) :=
  match e.label.2 with
  | .promote _ => e.label.1.binding.map .swap
  | .restoreTarget _ | .unlinkTarget => some .undo
  | _ => none

/-- The target goes from the expected bytes to the candidate's, under a prepared journal. -/
structure Swap (b : Binding) (bytes : List UInt8) (e : Entry Files (Call × BomOp)) : Prop where
  operation : e.label.2 = .promote b.transactionId
  expected : targetDigest e.before.target = b.expectedTargetSha256
  candidate : e.after.target = some bytes
  prepared : ∃ j, (e.before.workspace b.transactionId).journal = some j ∧ j.binding = b ∧
    j.phase = .prepared

/-- The target goes back from the candidate to the expected bytes, by the transaction whose swap stands
last. -/
structure OwnRollback (b : Binding) (earlier : List (Entry Files (Call × BomOp)))
    (e : Entry Files (Call × BomOp)) : Prop where
  candidate : targetDigest e.before.target = b.candidateSha256
  expected : targetDigest e.after.target = b.expectedTargetSha256
  own : (standing write earlier).head? = some b

/-- What an operation may do to the target and to the receipts. -/
structure BomLaw (earlier : List (Entry Files (Call × BomOp))) (e : Entry Files (Call × BomOp)) :
    Prop where
  change : e.label.2.writesTarget = true ∨ e.after.target ≠ e.before.target →
    ∃ v b, e.label.1.accepted = some v ∧ e.label.1.binding = some b ∧
      (Swap b v.bomBytes e ∨ OwnRollback b earlier e)
  promoted : e.label.2.writesTarget = true → ∃ b, e.label.1.binding = some b ∧
    (e.label.2 = .promote b.transactionId ∨ ∃ p ∈ earlier, ∃ id, p.label.2 = .promote id ∧
      p.label.1.binding = some b)
  unfinished : e.label.2.writesTarget = true → ∀ b, e.label.1.binding = some b →
    (e.before.workspace b.transactionId).receipt = none
  final : ∀ id r, (e.before.workspace id).receipt = some r → (e.after.workspace id).receipt = some r
  completed : ∀ id r, (e.before.workspace id).receipt = none → (e.after.workspace id).receipt = some r →
    r.outcome = .completed → ∃ v, e.label.1.accepted = some v ∧ id = e.label.1.options.transactionId ∧
      e.before.target = some v.bomBytes ∧ e.after.target = some v.bomBytes

/-- A call that finds its transaction interrupted and the target at its own candidate's digest, which is
not the expected one, and that can put the expected bytes back, finds its own swap standing last. -/
def FindsOwnSwap (w : Logged Files (Call × BomOp)) (c : Call) : Prop :=
  ∀ b j, c.binding = some b → Interrupted b w.state j →
    targetDigest w.state.target = b.candidateSha256 → b.candidateSha256 ≠ b.expectedTargetSha256 →
    Restorable b w.state → (standing write w.log).head? = some b

/-! ### One call -/

variable {c : Call} {v : Verified} {b : Binding} {f₀ f t : Files} {stack : List Binding}
  {u : Logged Files (Call × BomOp)} {op : BomOp}

/-- What is known of the swaps while a call under `b` runs that found the files `f₀` and the swaps
`stack`: a target that is not the expected one was put there by a swap of this call, or is as it was. -/
structure SwapsKnown (b : Binding) (f₀ : Files) (stack : List Binding)
    (u : Logged Files (Call × BomOp)) : Prop where
  opened : Opens b f₀ → targetDigest u.state.target ≠ b.expectedTargetSha256 →
    (standing write u.log).head? = some b
  resumed : (f₀.workspace b.transactionId).journal ≠ none →
    targetDigest u.state.target ≠ b.expectedTargetSha256 → standing write u.log = stack

theorem write_of_not_writes (h : op.writesTarget = false) : write ⟨f, (c, op), t⟩ = none := by
  cases op with
  | restoreTarget | unlinkTarget | promote => cases h
  | _ => rfl

/-- A promoted transaction of the log, from its swap. -/
theorem promoted_of_standing {log : List (Entry Files (Call × BomOp))} (h : b ∈ standing write log) :
    ∃ p ∈ log, ∃ id, p.label.2 = .promote id ∧ p.label.1.binding = some b := by
  obtain ⟨p, hp, hswap⟩ := swapped_of_mem_standing h
  obtain ⟨before, ⟨c, op⟩, after⟩ := p
  cases op with
  | promote id =>
      refine ⟨_, hp, id, rfl, ?_⟩
      obtain ⟨b', hb', hsame⟩ := Option.map_eq_some_iff.mp hswap
      cases hsame
      exact hb'
  | restoreTarget | unlinkTarget => cases hswap
  | _ => cases hswap

/-- An operation that leaves the target and the receipts alone. -/
theorem BomLaw.of_same {log : List (Entry Files (Call × BomOp))} {e : Entry Files (Call × BomOp)}
    (hop : e.label.2.writesTarget = false) (htarget : e.after.target = e.before.target)
    (h : ∀ id, (e.after.workspace id).receipt = (e.before.workspace id).receipt) : BomLaw log e where
  change hwrites := by
    rcases hwrites with hwrites | hne
    · rw [hop] at hwrites
      cases hwrites
    · exact absurd htarget hne
  promoted hwrites := by
    rw [hop] at hwrites
    cases hwrites
  unfinished hwrites := by
    rw [hop] at hwrites
    cases hwrites
  final id r hr := (h id).trans hr
  completed id r hnone hsome := by
    rw [h id, hnone] at hsome
    cases hsome

/-- **The step lemma.**  A move keeps what is known of the swaps, and is lawful if the swap on top is the
call's own whenever it rolls back an interrupted transaction. -/
theorem SwapsKnown.move (hv : c.accepted = some v) (hb : c.options.binding v c.promoterSha256 = b)
    (hown : ∀ j, Interrupted b f₀ j → targetDigest f₀.target = b.candidateSha256 →
      b.candidateSha256 ≠ b.expectedTargetSha256 → Restorable b f₀ → stack.head? = some b)
    (h : SwapsKnown b f₀ stack u) (hmove : Moves b v.bomBytes f₀ u.state op t) :
    SwapsKnown b f₀ stack ⟨t, u.log ++ [⟨u.state, (c, op), t⟩]⟩ ∧
      BomLaw u.log ⟨u.state, (c, op), t⟩ := by
  have hbinding : c.binding = some b := hb ▸ Call.binding_of_accepted hv
  -- a move that leaves the target alone
  have hquiet : op.writesTarget = false → t.target = u.state.target →
      SwapsKnown b f₀ stack ⟨t, u.log ++ [⟨u.state, (c, op), t⟩]⟩ := by
    intro hop htarget
    have hstanding : standing write (u.log ++ [⟨u.state, (c, op), t⟩]) = standing write u.log :=
      standing_snoc_none (write_of_not_writes hop)
    refine ⟨fun hopens hne => ?_, fun hold hne => ?_⟩
    · rw [hstanding]
      exact h.opened hopens (htarget ▸ hne)
    · rw [hstanding]
      exact h.resumed hold (htarget ▸ hne)
  have hother : ∀ change : Workspace → Workspace, (change (u.state.workspace b.transactionId)).receipt
      = (u.state.workspace b.transactionId).receipt → ∀ id,
      ((u.state.update b.transactionId change).workspace id).receipt =
        (u.state.workspace id).receipt := by
    intro change hchange id
    by_cases hid : id = b.transactionId
    · rw [hid, Files.update_workspace, hchange]
    · simp [Files.update, hid]
  cases hmove with
  | quiet hop htarget hrecords =>
      exact ⟨hquiet hop htarget, .of_same hop htarget fun _ => Files.records_receipt hrecords⟩
  | @journal j =>
      exact ⟨hquiet rfl rfl, .of_same rfl rfl (hother (fun w => { w with journal := some j }) rfl)⟩
  | @backup payload =>
      exact ⟨hquiet rfl rfl, .of_same rfl rfl (hother (fun w => { w with backup := some payload }) rfl)⟩
  | @receipt r hopen hreceipt htruthful =>
      refine ⟨hquiet rfl rfl, ⟨fun hwrites => ?_, fun hwrites => ?_, fun hwrites => ?_, fun id r' hr => ?_,
        fun id r' hnone hsome hcompleted => ?_⟩⟩
      · rcases hwrites with hwrites | hne
        · cases hwrites
        · exact absurd rfl hne
      · cases hwrites
      · cases hwrites
      · by_cases hid : id = b.transactionId
        · rw [hid, hopen] at hr
          cases hr
        · simpa [Files.update, hid] using hr
      · by_cases hid : id = b.transactionId
        · rw [hid, Files.update_workspace] at hsome
          obtain rfl := Option.some.inj hsome
          exact ⟨v, hv, by rw [hid, ← hb]; rfl, htruthful hcompleted, htruthful hcompleted⟩
        · rw [show ((u.state.update b.transactionId fun w => { w with receipt := some r }).workspace id) =
            u.state.workspace id from by simp [Files.update, hid], hnone] at hsome
          cases hsome
  | promote hopens htarget hopen hstored hj hphase hbytes hrecords =>
      have hstanding : standing write (u.log ++ [⟨u.state, (c, .promote b.transactionId), t⟩]) =
          b :: standing write u.log := standing_snoc_swap (by simp [write, hbinding])
      refine ⟨⟨fun _ _ => ?_, fun hold => absurd hopens.journal hold⟩, ⟨fun _ => ⟨v, b, hv, hbinding,
        .inl ⟨rfl, ?_, hbytes, _, hstored, hj, hphase⟩⟩, fun _ => ⟨b, hbinding, .inl rfl⟩,
        fun _ b' hb' => ?_, fun id r hr => ?_, fun id r hnone hsome => ?_⟩⟩
      · rw [hstanding]
        rfl
      · exact htarget ▸ hopens.expected
      · obtain rfl := Option.some.inj (hbinding.symm.trans hb')
        exact hopen
      · exact (Files.records_receipt hrecords).trans hr
      · rw [Files.records_receipt hrecords, hnone] at hsome
        cases hsome
  | restore hrestores hcandidate hne hopen hsource =>
      have hback := hrestores.digest
      have hstack : (standing write u.log).head? = some b := by
        rcases hsource with hopens | ⟨j, hinterrupted, hstart⟩
        · exact h.opened hopens hne
        · rw [h.resumed (by rw [hinterrupted.journal]; exact Option.some_ne_none j) hne]
          exact hown j hinterrupted (hstart ▸ hcandidate) (hcandidate ▸ hne) (hstart ▸ hrestores.restorable)
      refine ⟨⟨fun _ hnot => absurd hback hnot, fun _ hnot => absurd hback hnot⟩, ⟨fun _ => ⟨v, b, hv,
        hbinding, .inr ⟨hcandidate, hback, hstack⟩⟩, fun _ => ⟨b, hbinding, .inr ?_⟩,
        fun _ b' hb' => ?_, fun id r hr => ?_, fun id r hnone hsome => ?_⟩⟩
      · exact promoted_of_standing (List.mem_of_mem_head? hstack)
      · obtain rfl := Option.some.inj (hbinding.symm.trans hb')
        exact hopen
      · exact (Files.records_receipt hrestores.records).trans hr
      · rw [Files.records_receipt hrestores.records, hnone] at hsome
        cases hsome

/-- The operations of one call are lawful, if a retry finds its own swap. -/
theorem BomLaw.call [Runtime] {w w' : Logged Files (Call × BomOp)}
    {l : Session Call BomOp Files BomError Receipt} (h : bomMachine.Runs Call.program w l w')
    (hretry : FindsOwnSwap w l.call) (hlawful : Lawful BomLaw w.log) : Lawful BomLaw w'.log := by
  have hboth := Call.keeps (fun u => Lawful BomLaw u.log ∧
    ∀ b, l.call.binding = some b → SwapsKnown b w.state (standing write w.log) u) h ⟨hlawful, ?_⟩ ?_
  · exact hboth.1
  · exact fun b _ => ⟨fun hopens hne => absurd hopens.expected hne, fun _ _ => rfl⟩
  · rintro v u op t hv ⟨hlog, hknown⟩ hmove
    have hbinding := Call.binding_of_accepted hv
    have hstep := SwapsKnown.move hv rfl (fun j => hretry _ j hbinding) (hknown _ hbinding) hmove
    refine ⟨hlog.snoc hstep.2, fun b hb => ?_⟩
    obtain rfl := Option.some.inj (hbinding.symm.trans hb)
    exact hstep.1

/-! ### Every run -/

/-- **The compare-and-swap law.**  In every run of calls on a target in which each retry of an
interrupted transaction that would roll back finds its own swap standing last, every operation that
changes the target is a swap under a prepared journal or the rollback of the transaction's own, a
transaction that never promoted never writes the target, and a completed receipt is written over the
candidate's bytes and is the end of its transaction. -/
theorem bom_compare_and_swap [Runtime] (target : Option (List UInt8))
    {history : List (Entry (Logged Files (Call × BomOp)) (Session Call BomOp Files BomError Receipt))}
    {w : Logged Files (Call × BomOp)}
    (h : Run (bomMachine.Runs Call.program) ⟨⟨target, fun _ => {}⟩, []⟩ history w)
    (hretry : ∀ e ∈ history, FindsOwnSwap e.before e.label.call) : Lawful BomLaw w.log :=
  (h.restrict (P := fun w l => FindsOwnSwap w l.call) hretry).invariant
    (fun w => Lawful BomLaw w.log) .nil fun hlawful hstep => BomLaw.call hstep.1 hstep.2 hlawful

end CompareAndSwap

/-! ### A retried transaction, and two transactions with one candidate -/

namespace Sample

open scoped CodingOS.Routing.Sample

/-- The machine with a clock that stands still and an environment that stays valid. -/
def world : (op : BomOp) → Files → BomAnswer op × Files
  | .now, f => ("2026-01-01T00:00:00Z", f)
  | .revalidate, f | .validateTarget, f => (none, f)
  | .readTarget, f => (f.target, f)
  | .restoreTarget payload, f => ((), { f with target := some payload })
  | .unlinkTarget, f => ((), { f with target := none })
  | .promote id, f => ((f.workspace id).stage.isSome,
      if (f.workspace id).stage.isSome then
        { f.update id fun w => { w with stage := none } with target := (f.workspace id).stage }
      else f)
  | .occupied id, f => ((f.workspace id).occupied, f)
  | .makeRoot id, f => (!(f.workspace id).root, f.update id fun w => { w with root := true })
  | .readReceipt id, f => ((f.workspace id).receipt, f)
  | .createReceipt id receipt, f => ((f.workspace id).receipt.isNone,
      if (f.workspace id).receipt.isNone then f.update id fun w => { w with receipt := some receipt }
      else f)
  | .readJournal id, f => ((f.workspace id).journal, f)
  | .saveJournal id journal, f => ((), f.update id fun w => { w with journal := some journal })
  | .readBackup id, f => ((f.workspace id).backup, f)
  | .createBackup id payload, f => ((f.workspace id).backup.isNone,
      if (f.workspace id).backup.isNone then f.update id fun w => { w with backup := some payload }
      else f)
  | .readStage id, f => ((f.workspace id).stage, f)
  | .createStage id payload, f => ((f.workspace id).stage.isNone,
      if (f.workspace id).stage.isNone then f.update id fun w => { w with stage := some payload }
      else f)

theorem world_step (op : BomOp) (f : Files) : bomMachine.step op f (world op f).1 (world op f).2 := by
  cases op with
  | now | revalidate | validateTarget | restoreTarget | unlinkTarget | saveJournal => rfl
  | readTarget | occupied | makeRoot | readReceipt | readJournal | readBackup | readStage | promote
    | createReceipt | createBackup | createStage => exact ⟨rfl, rfl⟩

/-- The call that installs the candidate where nothing is. -/
def call (id : String) : Call where
  options := {
    targetPath := "/srv/worker-runtime-bom.json"
    transactionId := id
    expectedTargetSha256 := missing
    expectedCandidateSha256 := String.ofList (List.replicate 64 'a') }
  verified := .ok ⟨[77], String.ofList (List.replicate 64 'a'), "config", "schema", rfl⟩
  promoterSha256 := "promoter"

/-- A call from a state, cut before the operation after `budget` of them. -/
def next (id : String) (budget : ℕ) (w : Logged Files (Call × BomOp)) : Logged Files (Call × BomOp) :=
  let run := (call id).program.compute world budget w.state
  ⟨run.2.2, w.log ++ run.1.map (·.under (call id))⟩

def session (id : String) (budget : ℕ) (w : Logged Files (Call × BomOp)) :
    Session Call BomOp Files BomError Receipt :=
  let run := (call id).program.compute world budget w.state
  ⟨call id, run.1, run.2.1⟩

theorem next_runs (id : String) (budget : ℕ) (w : Logged Files (Call × BomOp)) :
    bomMachine.Runs Call.program w (session id budget w) (next id budget w) :=
  ⟨Program.compute_exec world_step budget _ _, rfl⟩

/-- No target and no transactions. -/
def origin : Logged Files (Call × BomOp) := ⟨⟨none, fun _ => {}⟩, []⟩

/-- A call is cut with the target promoted, and made again. -/
def retried : Logged Files (Call × BomOp) := next "t1" 100 (next "t1" 14 origin)

/-- A call is cut before its rename, another transaction installs the same candidate, and the first call
is made again. -/
def shared : Logged Files (Call × BomOp) := next "t1" 100 (next "t2" 100 (next "t1" 9 origin))

end Sample

section Runs

open Sample
open scoped CodingOS.Routing.Sample

/-- The law, of a call that crashes with the target promoted and is made again. -/
theorem bom_compare_and_swap_sample : Lawful BomLaw retried.log := by
  refine bom_compare_and_swap none ((Run.start.snoc (next_runs "t1" 14 origin)).snoc
    (next_runs "t1" 100 (next "t1" 14 origin))) fun e he b j hb hinterrupted _ _ _ => ?_
  have hfirst : (origin.state.workspace b.transactionId).journal ≠ some j := nofun
  have hsecond : (standing write (next "t1" 14 origin).log).head? = (call "t1").binding := by
    decide +kernel
  rcases List.mem_pair.mp he with rfl | rfl
  · exact absurd hinterrupted.journal hfirst
  · exact hsecond.trans hb

/-- A transaction that crashed before its rename deletes, when it is retried, what another transaction
installed and holds a completed receipt for. -/
theorem stolen_rollback :
    ∃ history w, Run (bomMachine.Runs Call.program) origin history w ∧
      (∀ e ∈ w.log, e.label.1.options.transactionId = "t1" → ∀ id, e.label.2 ≠ .promote id) ∧
      (w.state.workspace "t2").receipt.map (·.outcome) = some .completed ∧ w.state.target = none ∧
      ¬ Lawful BomLaw w.log := by
  have hnever : (shared.log.all fun e => e.label.1.options.transactionId != "t1" ||
      match e.label.2 with
      | .promote _ => false
      | _ => true) = true := by decide +kernel
  have hwrites : (shared.log.any fun e => e.label.1.options.transactionId == "t1" &&
      e.label.2.writesTarget) = true := by decide +kernel
  have hnever' : ∀ e ∈ shared.log, e.label.1.options.transactionId = "t1" →
      ∀ id, e.label.2 ≠ .promote id := by
    intro e he hid id hop
    have hthis := List.all_eq_true.mp hnever e he
    rw [hop, hid] at hthis
    cases hthis
  refine ⟨_, shared, ((Run.start.snoc (next_runs "t1" 9 origin)).snoc
    (next_runs "t2" 100 (next "t1" 9 origin))).snoc
    (next_runs "t1" 100 (next "t2" 100 (next "t1" 9 origin))), hnever', by decide +kernel,
    by decide +kernel, fun hlawful => ?_⟩
  obtain ⟨e, he, hwrite⟩ := List.any_eq_true.mp hwrites
  rw [Bool.and_eq_true, beq_iff_eq] at hwrite
  obtain ⟨earlier, later, hsplit⟩ := List.append_of_mem he
  obtain ⟨b, hb, hpromote | ⟨p, hp, id, hpromote, hown⟩⟩ :=
    (hlawful earlier e later hsplit).promoted hwrite.2
  · exact hnever' e he hwrite.1 _ hpromote
  · have hid : p.label.1.options.transactionId = "t1" := by
      obtain ⟨v, -, rfl⟩ := Option.map_eq_some_iff.mp hb
      obtain ⟨v', -, hsame⟩ := Option.map_eq_some_iff.mp hown
      exact (congrArg Binding.transactionId hsame).trans hwrite.1
    exact hnever' p (by rw [hsplit]; exact List.mem_append_left _ hp) hid id hpromote

end Runs

end CodingOS.Bom
