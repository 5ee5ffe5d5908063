import CodingOS.Deploy.Moves
import CodingOS.Routing.Calls
import CodingOS.Systems.Swaps

/-!
# Deployments that leave each other alone

A rollback or a recovery writes a live target only when the last promotion of it that still stands is the
transaction's own.

Recovery tells its own promotions by the flags of its journal and the digests of the targets, and a
journal keeps its flags when the process dies after its last save and before its receipt.
`deploy_ownership`: the law holds in every run in which each retry of an interrupted transaction finds its
own promotion standing last on every target it would roll back.
-/

namespace CodingOS.Deploy

open CodingOS.Python Systems
open CodingOS.Routing (isIdentifier isSha256)

section Calls

/-- One call of `deploy_router_authority`, with what `build_bundle_manifest` returns or raises. -/
structure Call where
  options : DeploymentOptions
  manifest : Except DeployError Manifest

/-- The bundle a call goes on with: the options are valid and expect it. -/
def Call.accepted (c : Call) : Option Manifest :=
  match c.manifest with
  | .ok m =>
      if isIdentifier c.options.transactionId && isSha256 c.options.expectedBundleSha256
          && m.bundleSha256 == c.options.expectedBundleSha256 then
        some m
      else none
  | .error _ => none

/-- The transaction of a call. -/
abbrev Call.id (c : Call) : String := c.options.transactionId

theorem ensure_bind {α : Type} (condition : Bool) (kind : DeployErrorKind) (message : String)
    (p : Unit → Task α) :
    (ensure condition kind message >>= p) = if condition then p () else raise kind message := by
  cases condition <;> rfl

variable [Runtime] [FileDigest]

def Call.program (c : Call) : Task Receipt := deployRouterAuthority c.options c.manifest

/-- A call goes on with its bundle, or raises at once. -/
theorem Call.program_eq (c : Call) :
    (∃ m, c.accepted = some m ∧ c.program = deployLocked c.options m) ∨ ∃ e, c.program = .raise e := by
  rw [Call.program, deployRouterAuthority, Call.accepted]
  simp only [ensure_bind]
  cases isIdentifier c.options.transactionId with
  | false => exact .inr ⟨_, rfl⟩
  | true =>
      cases isSha256 c.options.expectedBundleSha256 with
      | false => exact .inr ⟨_, rfl⟩
      | true =>
          cases c.manifest with
          | error e => exact .inr ⟨e, rfl⟩
          | ok m =>
              dsimp only
              cases hsame : m.bundleSha256 == c.options.expectedBundleSha256 with
              | false =>
                  refine .inr ⟨⟨.bundle, "source bundle does not match the explicitly expected SHA-256"⟩, ?_⟩
                  show (if m.bundleSha256 == c.options.expectedBundleSha256 then _ else _) = _
                  rw [hsame]
                  rfl
              | true =>
                  refine .inl ⟨m, rfl, ?_⟩
                  show (if m.bundleSha256 == c.options.expectedBundleSha256 then _ else _) = _
                  rw [hsame]
                  rfl

/-- **The rule of one call.**  What every move of the call keeps holds after it, however it ended. -/
theorem Call.keeps (I : Logged Files (Call × DeployOp) → Prop) {w w' : Logged Files (Call × DeployOp)}
    {l : Session Call DeployOp Files DeployError Receipt} (h : deployMachine.Runs Call.program w l w')
    (start : I w)
    (keep : ∀ {m : Manifest} {u : Logged Files (Call × DeployOp)} {op : DeployOp} {t : Files},
      l.call.accepted = some m → I u → Moves l.call.options m w.state u.state op t →
      I ⟨t, u.log ++ [⟨u.state, (l.call, op), t⟩]⟩) : I w' := by
  rcases l.call.program_eq with ⟨m, hm, hprogram⟩ | ⟨e, hprogram⟩
  · exact h.keeps I (hprogram ▸ wp_deployLocked) start fun hu hmove => keep hm hu hmove
  · refine h.keeps (G := fun _ _ _ => False) (Q := fun _ _ => True) (E := fun _ _ => True) I ?_ start
      fun _ h => h.elim
    rw [hprogram]
    trivial

end Calls

section Ownership

variable [FileDigest]

/-- The live target an operation of a rollback writes. -/
def DeployOp.restoresLive : DeployOp → Option String
  | .restoreLive target _ | .unlinkLive target => some target
  | _ => none

/-- What an operation of a call does to a live target: the promotion renames its stage over it, and a
rollback that changes it undoes a promotion. -/
def write (target : String) (e : Entry Files (Call × DeployOp)) : Option (Write String) :=
  match e.label.2 with
  | .promote id name =>
      if name = target ∧ (e.before.workspace id).stage target ≠ none ∧
          (e.after.workspace id).stage target = none then
        some (.swap id)
      else none
  | op => if op.restoresLive = some target ∧ e.after.live target ≠ e.before.live target then
      some .undo
    else none

/-- What an operation may do to the live targets. -/
structure DeployLaw (earlier : List (Entry Files (Call × DeployOp))) (e : Entry Files (Call × DeployOp)) :
    Prop where
  change : ∀ target, e.after.live target ≠ e.before.live target → e.label.2.writesLive = some target
  promotes : ∀ id target, e.label.2 = .promote id target → id = e.label.1.id
  own : ∀ target, e.label.2.restoresLive = some target →
    (standing (write target) earlier).head? = some e.label.1.id
  deployed : ∀ target id, e.label.2.restoresLive = some target → id ≠ e.label.1.id →
    (e.before.workspace id).receipt.map (·.outcome) = some .deployed →
    (standing (write target) earlier).head? ≠ some id

variable [Runtime]

/-- A call that finds its transaction interrupted has its own promotion standing last on every target it
would roll back. -/
def FindsOwnSwaps (w : Logged Files (Call × DeployOp)) (c : Call) : Prop :=
  ∀ m j, c.accepted = some m → Interrupted c.options m w.state j → ∀ r ∈ j.targets,
    (r.promotionStarted || r.promoted) = true → pathState (w.state.live r.target) = r.new →
    r.new ≠ r.prior → Restorable c.id w.state r →
    (standing (write r.target) w.log).head? = some c.id

/-! ### One call -/

variable {c : Call} {m : Manifest} {f₀ f t : Files} {stack : String → List String} {target : String}
  {u : Logged Files (Call × DeployOp)} {op : DeployOp}

/-- What is known of one target while a call of the transaction `id` runs that found `found` there under
the promotions `old`: if the call opened its transaction, content that is not what it found is under a
promotion of its own, and in a retry content that is as it was found is under the promotions it had. -/
structure Known (fresh : Prop) (id : String) (found now : Option (List UInt8))
    (old stack : List String) : Prop where
  opened : fresh → ∃ n, stack = List.replicate n id ++ old ∧ (now ≠ found → n ≠ 0)
  resumed : ¬ fresh → now = found → stack = old

namespace Known

variable {fresh : Prop} {id : String} {found now now' : Option (List UInt8)} {old stack : List String}

omit [FileDigest] [Runtime]

/-- The call promotes. -/
theorem swap (h : Known fresh id found now old stack) (hopened : fresh) :
    Known fresh id found now' old (id :: stack) := by
  obtain ⟨n, hstack, -⟩ := h.opened hopened
  refine ⟨fun _ => ⟨n + 1, ?_, fun _ => n.succ_ne_zero⟩, fun hnot => absurd hopened hnot⟩
  rw [hstack, List.replicate_succ, List.cons_append]

/-- A call that opened its transaction takes its promotion back. -/
theorem undo (h : Known fresh id found now old stack) (hopened : fresh) (hne : now ≠ found) :
    Known fresh id found found old stack.tail := by
  obtain ⟨n, hstack, hn⟩ := h.opened hopened
  obtain ⟨k, rfl⟩ := Nat.exists_eq_succ_of_ne_zero (hn hne)
  refine ⟨fun _ => ⟨k, ?_, fun hself => absurd rfl hself⟩, fun hnot => absurd hopened hnot⟩
  rw [hstack, Nat.succ_eq_add_one, List.replicate_succ, List.cons_append, List.tail_cons]

/-- A call that opened its transaction has its own promotion on top of what it did not find. -/
theorem head (h : Known fresh id found now old stack) (hopened : fresh) (hne : now ≠ found) :
    stack.head? = some id := by
  obtain ⟨n, hstack, hn⟩ := h.opened hopened
  obtain ⟨k, rfl⟩ := Nat.exists_eq_succ_of_ne_zero (hn hne)
  rw [hstack, Nat.succ_eq_add_one, List.replicate_succ, List.cons_append, List.head?_cons]

end Known

/-- What is known of every target. -/
def SwapsKnown (id : String) (f₀ : Files) (old : String → List String)
    (u : Logged Files (Call × DeployOp)) : Prop :=
  ∀ target, Known ((f₀.workspace id).journal = none) id (f₀.live target) (u.state.live target)
    (old target) (standing (write target) u.log)

omit [FileDigest] [Runtime] in
theorem write_of_not_writes (h : op.writesLive ≠ some target) : write target ⟨f, (c, op), t⟩ = none := by
  cases op with
  | restoreLive name | unlinkLive name =>
      have hne : ¬ name = target := fun hname => h (by rw [← hname]; rfl)
      simp [write, DeployOp.restoresLive, hne]
  | promote id name =>
      have hne : ¬ name = target := fun hname => h (by rw [← hname]; rfl)
      simp [write, hne]
  | _ => simp [write, DeployOp.restoresLive]

omit [FileDigest] [Runtime] in
/-- A target that an operation leaves alone. -/
theorem SwapsKnown.keep (h : SwapsKnown c.id f₀ stack u) (hlive : t.live target = u.state.live target)
    (hwrite : write target ⟨u.state, (c, op), t⟩ = none) :
    Known ((f₀.workspace c.id).journal = none) c.id (f₀.live target) (t.live target) (stack target)
      (standing (write target) (u.log ++ [⟨u.state, (c, op), t⟩])) := by
  rw [standing_snoc_none hwrite, hlive]
  exact h target

omit [FileDigest] [Runtime] in
/-- An operation that restores no target. -/
theorem DeployLaw.of_forward {log : List (Entry Files (Call × DeployOp))}
    {e : Entry Files (Call × DeployOp)}
    (hchange : ∀ target, e.after.live target ≠ e.before.live target → e.label.2.writesLive = some target)
    (hpromotes : ∀ id target, e.label.2 = .promote id target → id = e.label.1.id)
    (h : e.label.2.restoresLive = none) : DeployLaw log e where
  change := hchange
  promotes := hpromotes
  own target htarget := by
    rw [h] at htarget
    cases htarget
  deployed target id htarget := by
    rw [h] at htarget
    cases htarget

omit [FileDigest] [Runtime] in
/-- A promotion, done or not. -/
theorem SwapsKnown.promote (h : SwapsKnown c.id f₀ stack u)
    (hopens : (f₀.workspace c.id).journal = none)
    (heffect : t = u.state ∨ t = (DeployOp.promote c.id target).apply u.state) :
    SwapsKnown c.id f₀ stack ⟨t, u.log ++ [⟨u.state, (c, .promote c.id target), t⟩]⟩ ∧
      ∀ k, t.live k ≠ u.state.live k → k = target := by
  have hidle : SwapsKnown c.id f₀ stack
      ⟨u.state, u.log ++ [⟨u.state, (c, .promote c.id target), u.state⟩]⟩ := by
    intro k
    refine h.keep rfl ?_
    rw [write]
    dsimp only
    rw [if_neg fun hk => hk.2.1 hk.2.2]
  rcases heffect with rfl | rfl
  · exact ⟨hidle, fun k hk => absurd rfl hk⟩
  · cases hstage : ((u.state.workspace c.id).stage target).isSome with
    | false =>
        have hsame : (DeployOp.promote c.id target).apply u.state = u.state := by
          rw [DeployOp.apply, hstage, if_neg Bool.false_ne_true]
        rw [hsame]
        exact ⟨hidle, fun k hk => absurd rfl hk⟩
    | true =>
        have hdone : (DeployOp.promote c.id target).apply u.state =
            (u.state.setLive target ((u.state.workspace c.id).stage target)).update c.id fun w =>
              { w with stage := Function.update w.stage target none } := by
          rw [DeployOp.apply, hstage, if_pos rfl]
        have hlive : ∀ k, k ≠ target →
            ((DeployOp.promote c.id target).apply u.state).live k = u.state.live k := by
          intro k hk
          rw [hdone]
          exact Function.update_of_ne hk _ _
        refine ⟨fun k => ?_, fun k hk => by_contra fun hne => hk (hlive k hne)⟩
        by_cases hk : k = target
        · subst hk
          have hwrite : write k ⟨u.state, (c, .promote c.id k),
              (DeployOp.promote c.id k).apply u.state⟩ = some (.swap c.id) := by
            rw [write]
            dsimp only
            rw [if_pos]
            refine ⟨rfl, Option.ne_none_iff_isSome.mpr hstage, ?_⟩
            rw [hdone]
            simp
          dsimp only
          rw [standing_snoc_swap hwrite]
          exact (h k).swap hopens
        · refine h.keep (hlive k hk) (write_of_not_writes ?_)
          simpa [DeployOp.writesLive] using Ne.symm hk

/-- **The step lemma.**  A move keeps what is known of the promotions, and is lawful if a retry finds its
own promotion on top of what it rolls back. -/
theorem SwapsKnown.move
    (hown : ∀ j, Interrupted c.options m f₀ j → ∀ r ∈ j.targets,
      (r.promotionStarted || r.promoted) = true → pathState (f₀.live r.target) = r.new →
      r.new ≠ r.prior → Restorable c.id f₀ r → (stack r.target).head? = some c.id)
    (h : SwapsKnown c.id f₀ stack u) (hmove : Moves c.options m f₀ u.state op t) :
    SwapsKnown c.id f₀ stack ⟨t, u.log ++ [⟨u.state, (c, op), t⟩]⟩ ∧
      DeployLaw u.log ⟨u.state, (c, op), t⟩ := by
  cases hmove with
  | quiet hop hlive =>
      have hforward : op.restoresLive = none := by
        cases op with
        | restoreLive | unlinkLive => cases hop
        | _ => rfl
      refine ⟨fun k => h.keep (by rw [hlive]) (write_of_not_writes (by rw [hop]; nofun)),
        .of_forward (fun k hk => absurd (congrFun hlive k) hk) (fun id name hname => ?_) hforward⟩
      obtain rfl : op = .promote id name := hname
      cases hop
  | promote hopens heffect =>
      obtain ⟨hknown, hchange⟩ := h.promote hopens heffect
      refine ⟨hknown, .of_forward (fun k hk => ?_) (fun id name hname => ?_) rfl⟩
      · rw [hchange k hk]
        rfl
      · cases hname
        rfl
  | restore hrestores heffect hflags hnew hne hmay =>
      rename_i r
      have hwrites := hrestores.writesLive
      have hother : ∀ k ≠ r.target, t.live k = u.state.live k := by
        intro k hk
        rcases heffect with rfl | rfl
        · rfl
        · rw [hrestores.apply]
          exact Function.update_of_ne hk _ _
      have htarget : op.restoresLive = some r.target := by cases hrestores <;> rfl
      -- the last promotion of the target is the call's own
      have hhead : (standing (write r.target) u.log).head? = some c.id := by
        rcases hmay with ⟨hopens, hbacked⟩ | ⟨j, hinterrupted, hr, hstart, hbackups⟩
        · refine (h r.target).head hopens fun hsame => hne ?_
          rw [← hnew, hsame, hbacked.1]
        · rw [(h r.target).resumed (by rw [hinterrupted.journal]; nofun) hstart]
          refine hown j hinterrupted r hr hflags (hstart ▸ hnew) hne fun sha256 size hprior => ?_
          rw [← hbackups]
          exact hrestores.restorable sha256 size hprior
      refine ⟨fun k => ?_, ⟨fun k hk => ?_, fun id name hname => ?_, fun k hk => ?_, fun k id hk hid _ => ?_⟩⟩
      · by_cases hk : k = r.target
        · subst hk
          by_cases hlive : t.live r.target = u.state.live r.target
          · refine h.keep hlive ?_
            cases hrestores <;> simp [write, DeployOp.restoresLive, hlive]
          · have hwrite : write r.target ⟨u.state, (c, op), t⟩ = some .undo := by
              cases hrestores <;> simp [write, DeployOp.restoresLive, hlive]
            dsimp only
            rw [standing_snoc_undo hwrite]
            rcases hmay with ⟨hopens, hbacked⟩ | ⟨j, hinterrupted, -, hstart, -⟩
            · have hback : t.live r.target = f₀.live r.target := by
                rcases heffect with rfl | rfl
                · exact absurd rfl hlive
                · exact hrestores.backed hbacked
              rw [hback]
              exact (h r.target).undo hopens fun hsame => hlive (hback.trans hsame.symm)
            · refine ⟨fun hopens => ?_, fun _ hsame => absurd (hsame.trans hstart.symm) hlive⟩
              cases hinterrupted.journal.symm.trans hopens
        · exact h.keep (hother k hk) (write_of_not_writes (by rw [hwrites]; simpa using Ne.symm hk))
      · rw [hwrites]
        by_cases hsame : k = r.target
        · rw [hsame]
        · exact absurd (hother k hsame) hk
      · obtain rfl : op = .promote id name := hname
        cases htarget
      · obtain rfl := Option.some.inj (htarget.symm.trans hk)
        exact hhead
      · obtain rfl := Option.some.inj (htarget.symm.trans hk)
        rw [hhead]
        exact fun hsame => hid (Option.some.inj hsame).symm

/-- The operations of one call are lawful, if a retry finds its own promotions. -/
theorem DeployLaw.call {w w' : Logged Files (Call × DeployOp)}
    {l : Session Call DeployOp Files DeployError Receipt} (h : deployMachine.Runs Call.program w l w')
    (hretry : FindsOwnSwaps w l.call) (hlawful : Lawful DeployLaw w.log) : Lawful DeployLaw w'.log := by
  have hboth := Call.keeps (fun u => Lawful DeployLaw u.log ∧
    SwapsKnown l.call.id w.state (fun target => standing (write target) w.log) u) h ⟨hlawful, ?_⟩ ?_
  · exact hboth.1
  · exact fun target => ⟨fun _ => ⟨0, rfl, fun hne => absurd rfl hne⟩, fun _ _ => rfl⟩
  · rintro m u op t hm ⟨hlog, hknown⟩ hmove
    obtain ⟨hknown', hlaw⟩ := hknown.move (fun j => hretry m j hm) hmove
    exact ⟨hlog.snoc hlaw, hknown'⟩

/-! ### Every run -/

/-- **Deployments do not undo each other.**  In every run of calls in which each retry of an interrupted
transaction finds its own promotion standing last on every target it would roll back, a rollback writes a
target only when the last promotion of it that stands is the transaction's own; what a deployed
transaction promoted is not taken back by another. -/
theorem deploy_ownership (live source : String → Option (List UInt8))
    {history : List (Entry (Logged Files (Call × DeployOp))
      (Session Call DeployOp Files DeployError Receipt))}
    {w : Logged Files (Call × DeployOp)}
    (h : Run (deployMachine.Runs Call.program) ⟨⟨live, source, fun _ => {}⟩, []⟩ history w)
    (hretry : ∀ e ∈ history, FindsOwnSwaps e.before e.label.call) : Lawful DeployLaw w.log :=
  (h.restrict (P := fun w l => FindsOwnSwaps w l.call) hretry).invariant
    (fun w => Lawful DeployLaw w.log) .nil fun hlawful hstep => DeployLaw.call hstep.1 hstep.2 hlawful

end Ownership

/-! ### A retried transaction, and two transactions with one bundle -/

namespace Sample

open scoped CodingOS.Routing.Sample

/-- The replies of operations that are not disturbed, with a clock that stands still. -/
def reply : (op : DeployOp) → Files → DeployReply op
  | .now, _ => "2026-01-01T00:00:00Z"
  | .sameDevice _ _, _ => true
  | .missingDirectories _, _ => []
  | .makeDirectories _, _ | .removeDirectories _, _ | .restoreLive _ _, _ | .unlinkLive _, _
  | .saveJournal _ _, _ | .writeBackup _ _ _, _ | .writeStage _ _ _, _ => ()
  | .readSource source, f => f.source source
  | .readLive target, f => f.live target
  | .promote id target, f => ((f.workspace id).stage target).isSome
  | .occupied id, f => (f.workspace id).occupied
  | .readReceipt id, f => (f.workspace id).receipt
  | .createReceipt id _, f => (f.workspace id).receipt.isNone
  | .readManifest id, f => (f.workspace id).manifest
  | .createManifest id _, f => (f.workspace id).manifest.isNone
  | .readJournal id, f => (f.workspace id).journal
  | .readBackup id target, f => (f.workspace id).backup target
  | .readStage id target, f => (f.workspace id).stage target

def world (op : DeployOp) (f : Files) : DeployAnswer op × Files := (.ok (reply op f), op.apply f)

theorem world_step (op : DeployOp) (f : Files) :
    deployMachine.step op f (world op f).1 (world op f).2 := by
  refine .inl ⟨reply op f, rfl, ?_, rfl⟩
  cases op with
  | missingDirectories => exact ⟨List.nodup_nil, nofun⟩
  | now | sameDevice | makeDirectories | removeDirectories | restoreLive | unlinkLive | saveJournal
    | writeBackup | writeStage => trivial
  | _ => rfl

/-- A bundle of one file. -/
def manifest : Manifest where
  entries := [⟨FileDigest.sha256 [77], 1, "router.py", "router.py"⟩]
  bundleSha256 := String.ofList (List.replicate 64 'c')
  targets_nodup := by decide

def call (id : String) : Call where
  options := {
    codexHome := "/home/codex"
    transactionId := id
    expectedBundleSha256 := String.ofList (List.replicate 64 'c') }
  manifest := .ok manifest

/-- A call from a state, cut before the operation after `budget` of them. -/
def next (id : String) (budget : ℕ) (w : Logged Files (Call × DeployOp)) : Logged Files (Call × DeployOp) :=
  let run := (call id).program.compute world budget w.state
  ⟨run.2.2, w.log ++ run.1.map (·.under (call id))⟩

def session (id : String) (budget : ℕ) (w : Logged Files (Call × DeployOp)) :
    Session Call DeployOp Files DeployError Receipt :=
  let run := (call id).program.compute world budget w.state
  ⟨call id, run.1, run.2.1⟩

theorem next_runs (id : String) (budget : ℕ) (w : Logged Files (Call × DeployOp)) :
    deployMachine.Runs Call.program w (session id budget w) (next id budget w) :=
  ⟨Program.compute_exec world_step budget _ _, rfl⟩

/-- No targets, and a source tree of one file. -/
def origin : Logged Files (Call × DeployOp) :=
  ⟨⟨fun _ => none, fun source => if source = "router.py" then some [77] else none, fun _ => {}⟩, []⟩

/-- A call is cut before its receipt, and made again. -/
def retried : Logged Files (Call × DeployOp) := next "t1" 100 (next "t1" 36 origin)

/-- A call is cut before its receipt, another transaction deploys the same bundle, and the first call is
made again. -/
def shared : Logged Files (Call × DeployOp) := next "t1" 100 (next "t2" 100 (next "t1" 36 origin))

end Sample

section Runs

open Sample
open scoped CodingOS.Routing.Sample

/-- The law, of a call that dies between its last save and its receipt and is made again. -/
theorem deploy_ownership_sample : Lawful DeployLaw retried.log := by
  refine deploy_ownership _ _ ((Run.start.snoc (next_runs "t1" 36 origin)).snoc
    (next_runs "t1" 100 (next "t1" 36 origin))) fun e he m j _ hinterrupted r hr _ _ _ _ => ?_
  rcases List.mem_pair.mp he with rfl | rfl
  · cases hinterrupted.journal
  · have hrecords : ∀ j, ((next "t1" 36 origin).state.workspace "t1").journal = some j →
        j.targets.map (·.target) = ["router.py"] := by
      intro j hj
      have hsome : (((next "t1" 36 origin).state.workspace "t1").journal.map fun j =>
          j.targets.map (·.target)) = some ["router.py"] := by decide +kernel
      rw [hj] at hsome
      exact Option.some.inj hsome
    have htarget : r.target = "router.py" := by
      have hmem := List.mem_map_of_mem (f := Record.target) hr
      rw [hrecords j hinterrupted.journal, List.mem_singleton] at hmem
      exact hmem
    rw [htarget]
    show (standing (write "router.py") (next "t1" 36 origin).log).head? = some "t1"
    decide +kernel

/-- A transaction that died before its receipt deletes, when it is retried, what another transaction
deployed from the same bundle and holds a receipt for. -/
theorem stolen_deployment :
    ∃ history w, Run (deployMachine.Runs Call.program) origin history w ∧
      (w.state.workspace "t2").receipt.map (·.outcome) = some .deployed ∧
      w.state.live "router.py" = none ∧ ¬ Lawful DeployLaw w.log := by
  have hshared : (shared.state.workspace "t2").receipt.map (·.outcome) = some .deployed ∧
      shared.state.live "router.py" = none ∧
      shared.log[80]?.map (fun e => (e.label.1.id, e.label.2.restoresLive)) =
        some ("t1", some "router.py") ∧
      (standing (write "router.py") (shared.log.take 80)).head? = some "t2" := by decide +kernel
  obtain ⟨hdeployed, hlive, hundo, hstanding⟩ := hshared
  refine ⟨_, shared, ((Run.start.snoc (next_runs "t1" 36 origin)).snoc
    (next_runs "t2" 100 (next "t1" 36 origin))).snoc
    (next_runs "t1" 100 (next "t2" 100 (next "t1" 36 origin))), hdeployed, hlive, fun hlawful => ?_⟩
  obtain ⟨e, he, hlabel⟩ := Option.map_eq_some_iff.mp hundo
  obtain ⟨hid, hrestores⟩ := Prod.mk.inj hlabel
  obtain ⟨hlt, hget⟩ := List.getElem?_eq_some_iff.mp he
  have hsplit : shared.log = shared.log.take 80 ++ e :: shared.log.drop 81 := by
    rw [← hget, List.cons_getElem_drop_succ, List.take_append_drop]
  have hown := (hlawful _ _ _ hsplit).own "router.py" hrestores
  rw [hstanding, hid] at hown
  exact absurd hown (by decide)

end Runs

end CodingOS.Deploy
