import CodingOS.Routing.Calls

/-!
# The compare-and-swap law of the target

A change of the target is a swap, from the expected policy to the materialized one in phase PROMOTING,
or the rollback of a swap by the transaction that made it.  The swaps not yet rolled back form a stack,
and a rollback takes its own off the top.

Recovery tells an interrupted transaction's own swap by the digest of the target alone, so a transaction
that never promoted, or has rolled back, removes another's policy with the same bytes.
`policy_compare_and_swap`: the law holds in every run in which each retry of an interrupted transaction that finds its own
materialized bytes finds its own swap on top.
-/

namespace CodingOS.Routing

open CodingOS.Python Systems

section CompareAndSwap

variable [FileDigest]

/-- The swaps that stand after a log, the last first. -/
def swaps (log : List (Entry Files (Call × PolicyOp))) : List Binding :=
  log.foldl (fun stack e => match e.label.2 with
    | .promote _ => e.label.1.binding.toList ++ stack
    | .restoreTarget _ _ | .unlinkTarget _ => stack.tail
    | _ => stack) []

/-- The target goes from the expected policy to the materialized one, in phase PROMOTING. -/
structure Swap (b : Binding) (e : Entry Files (Call × PolicyOp)) : Prop where
  operation : e.label.2 = .promote b.transactionId
  expected : targetDigest e.before.target = b.expectedTargetSha256
  materialized : targetDigest e.after.target = b.materializedSha256
  promoting : ∃ j, (e.before.workspace b.transactionId).journal = some j ∧ j.binding = b ∧
    j.phase = .promoting

/-- The target goes back from the materialized policy to the expected one, by the transaction whose swap
stands last. -/
structure OwnRollback (b : Binding) (earlier : List (Entry Files (Call × PolicyOp)))
    (e : Entry Files (Call × PolicyOp)) : Prop where
  materialized : targetDigest e.before.target = b.materializedSha256
  expected : targetDigest e.after.target = b.expectedTargetSha256
  own : (swaps earlier).head? = some b

/-- What writes, deletes or changes the target is a swap or the rollback of the transaction's own. -/
def CompareAndSwap (earlier : List (Entry Files (Call × PolicyOp)))
    (e : Entry Files (Call × PolicyOp)) : Prop :=
  e.label.2.writesTarget = true ∨ e.after.target ≠ e.before.target →
    ∃ b, e.label.1.binding = some b ∧ (Swap b e ∨ OwnRollback b earlier e)

/-- A call that finds its transaction interrupted and the target at its own materialized digest, which is
not the expected one, and that can put the expected policy back, finds its own swap standing last. -/
def FindsOwnSwap (w : Logged Files (Call × PolicyOp)) (c : Call) : Prop :=
  ∀ b j, c.binding = some b → Interrupted b w.state j →
    targetDigest w.state.target = b.materializedSha256 →
    b.materializedSha256 ≠ b.expectedTargetSha256 → Restorable b w.state →
    (swaps w.log).head? = some b

/-! ### The swaps of a log -/

variable {log earlier : List (Entry Files (Call × PolicyOp))} {e : Entry Files (Call × PolicyOp)}
  {b : Binding}

/-- An operation that leaves the target alone leaves the swaps. -/
theorem swaps_snoc_of_not_writes (h : e.label.2.writesTarget = false) :
    swaps (log ++ [e]) = swaps log := by
  obtain ⟨before, ⟨c, op⟩, after⟩ := e
  cases op with
  | promote | restoreTarget | unlinkTarget => cases h
  | _ => simp [swaps]

theorem swaps_snoc_promote {c : Call} {id : String} {f f' : Files} (h : c.binding = some b) :
    swaps (log ++ [⟨f, (c, .promote id), f'⟩]) = b :: swaps log := by
  simp [swaps, h]

/-- A transaction whose swap stands has promoted. -/
theorem promoted_of_mem_swaps (h : b ∈ swaps log) :
    ∃ e ∈ log, ∃ id, e.label.2 = .promote id ∧ e.label.1.binding = some b := by
  induction log using List.reverseRecOn with
  | nil => simp [swaps] at h
  | append_singleton log e ih =>
      have hearlier : b ∈ swaps log →
          ∃ e' ∈ log ++ [e], ∃ id, e'.label.2 = .promote id ∧ e'.label.1.binding = some b := by
        intro hmem
        obtain ⟨e', he', hpromoted⟩ := ih hmem
        exact ⟨e', List.mem_append_left _ he', hpromoted⟩
      obtain ⟨before, ⟨c, op⟩, after⟩ := e
      cases op with
      | promote id =>
          have hmem : b ∈ c.binding.toList ++ swaps log := by simpa [swaps] using h
          rcases List.mem_append.mp hmem with hown | hmem
          · exact ⟨_, List.mem_append_right _ (List.mem_singleton_self _), id, rfl,
              Option.mem_toList.mp hown⟩
          · exact hearlier hmem
      | restoreTarget id payload =>
          exact hearlier (List.mem_of_mem_tail (by simpa [swaps] using h))
      | unlinkTarget id => exact hearlier (List.mem_of_mem_tail (by simpa [swaps] using h))
      | _ => exact hearlier (by simpa [swaps] using h)

/-- A write of the target that is lawful is the promotion of its transaction, or follows one. -/
theorem CompareAndSwap.promoted (h : CompareAndSwap earlier e) (hwrites : e.label.2.writesTarget = true) :
    ∃ b, e.label.1.binding = some b ∧ (e.label.2 = .promote b.transactionId ∨
      ∃ p ∈ earlier, ∃ id, p.label.2 = .promote id ∧ p.label.1.binding = some b) := by
  obtain ⟨b, hb, hswap | hrollback⟩ := h (.inl hwrites)
  · exact ⟨b, hb, .inl hswap.operation⟩
  · exact ⟨b, hb, .inr (promoted_of_mem_swaps (List.mem_of_mem_head? hrollback.own))⟩

/-! ### One call -/

/-- What is known of the swaps while a call under `b` runs that found the files `f₀` and the swaps
`stack`: a target that is not the expected one was put there by a swap of this call, or is as it was. -/
structure SwapsKnown (b : Binding) (f₀ : Files) (stack : List Binding)
    (v : Logged Files (Call × PolicyOp)) : Prop where
  opened : (f₀.workspace b.transactionId).journal = none →
    targetDigest f₀.target = b.expectedTargetSha256 →
    targetDigest v.state.target ≠ b.expectedTargetSha256 → (swaps v.log).head? = some b
  resumed : (f₀.workspace b.transactionId).journal ≠ none →
    targetDigest v.state.target ≠ b.expectedTargetSha256 → swaps v.log = stack

variable [Runtime]

/-- **The step lemma.**  A move keeps what is known of the swaps, and is lawful if the swap on top is the
call's own whenever it rolls back an interrupted transaction. -/
theorem SwapsKnown.move {c : Call} {m : Materialized} {f₀ : Files} {stack : List Binding}
    {v : Logged Files (Call × PolicyOp)} {op : PolicyOp} {t : Files} (hm : c.accepted = some m)
    (hb : c.options.binding m.facts = b)
    (hown : ∀ j, Interrupted b f₀ j → targetDigest f₀.target = b.materializedSha256 →
      b.materializedSha256 ≠ b.expectedTargetSha256 → Restorable b f₀ → stack.head? = some b)
    (h : SwapsKnown b f₀ stack v) (hmove : Moves b m.policyBytes f₀ v.state op t) :
    SwapsKnown b f₀ stack ⟨t, v.log ++ [⟨v.state, (c, op), t⟩]⟩ ∧
      CompareAndSwap v.log ⟨v.state, (c, op), t⟩ := by
  have hbinding : c.binding = some b := hb ▸ Call.binding_of_accepted hm
  -- a move that leaves the target alone
  have hquiet : op.writesTarget = false → t.target = v.state.target →
      SwapsKnown b f₀ stack ⟨t, v.log ++ [⟨v.state, (c, op), t⟩]⟩ ∧
        CompareAndSwap v.log ⟨v.state, (c, op), t⟩ := by
    intro hop htarget
    refine ⟨⟨?_, ?_⟩, fun hwrites => ?_⟩
    · rw [swaps_snoc_of_not_writes hop, htarget]
      exact h.opened
    · rw [swaps_snoc_of_not_writes hop, htarget]
      exact h.resumed
    · rcases hwrites with hwrites | hne
      · rw [hop] at hwrites
        cases hwrites
      · exact absurd htarget hne
  cases hmove with
  | quiet hop htarget _ => exact hquiet hop htarget
  | journal => exact hquiet rfl rfl
  | backup => exact hquiet rfl rfl
  | receipt => exact hquiet rfl rfl
  | promote hfresh hexpected htarget hstored hj hphase hpolicy _ =>
      refine ⟨⟨fun _ _ _ => ?_, fun hold => absurd hfresh hold⟩, fun _ => ⟨b, hbinding, .inl ?_⟩⟩
      · rw [swaps_snoc_promote hbinding]
        rfl
      · refine ⟨rfl, ?_, ?_, ⟨_, hstored, hj, hphase⟩⟩
        · rw [htarget, hexpected]
        · rw [hpolicy, ← hb]
          exact m.digest_eq.symm
  | restore hrestores hmaterialized hne hsource =>
      have hback := hrestores.digest
      refine ⟨⟨fun _ _ hnot => absurd hback hnot, fun _ hnot => absurd hback hnot⟩,
        fun _ => ⟨b, hbinding, .inr ⟨hmaterialized, hback, ?_⟩⟩⟩
      rcases hsource with ⟨hfresh, hexpected⟩ | ⟨j, hinterrupted, hstart⟩
      · exact h.opened hfresh hexpected hne
      · have hstack : swaps v.log = stack :=
          h.resumed (by rw [hinterrupted.journal]; exact Option.some_ne_none j) hne
        rw [hstack]
        exact hown j hinterrupted (hstart ▸ hmaterialized) (hmaterialized ▸ hne)
          (hstart ▸ hrestores.restorable)

/-- The operations of one call are lawful, if a retry finds its own swap. -/
theorem CompareAndSwap.call {w w' : Logged Files (Call × PolicyOp)}
    {l : Session Call PolicyOp Files PolicyError Receipt}
    (h : policyMachine.Runs Call.program w l w') (hretry : FindsOwnSwap w l.call)
    (hlawful : Lawful CompareAndSwap w.log) : Lawful CompareAndSwap w'.log := by
  have hboth := Call.keeps (fun v => Lawful CompareAndSwap v.log ∧
    ∀ b, l.call.binding = some b → SwapsKnown b w.state (swaps w.log) v) h ⟨hlawful, ?_⟩ ?_
  · exact hboth.1
  · exact fun b _ => ⟨fun _ hexpected hne => absurd hexpected hne, fun _ _ => rfl⟩
  · rintro m v op t hm ⟨hlog, hknown⟩ hmove
    have hbinding := Call.binding_of_accepted hm
    have hstep := SwapsKnown.move hm rfl (fun j => hretry _ j hbinding) (hknown _ hbinding) hmove
    refine ⟨hlog.snoc hstep.2, fun b hb => ?_⟩
    obtain rfl := Option.some.inj (hbinding.symm.trans hb)
    exact hstep.1

/-! ### Every run -/

/-- **The compare-and-swap law.**  In every run of calls on a target in which each retry of an
interrupted transaction that would roll back finds its own swap standing last, every operation that
writes or changes the target is a swap in phase PROMOTING or the rollback of the transaction's own. -/
theorem policy_compare_and_swap (target : Option (List UInt8))
    {history : List (Entry (Logged Files (Call × PolicyOp))
      (Session Call PolicyOp Files PolicyError Receipt))}
    {w : Logged Files (Call × PolicyOp)}
    (h : Run (policyMachine.Runs Call.program) ⟨⟨target, fun _ => {}⟩, []⟩ history w)
    (hretry : ∀ e ∈ history, FindsOwnSwap e.before e.label.call) : Lawful CompareAndSwap w.log :=
  (h.restrict (P := fun w l => FindsOwnSwap w l.call) hretry).invariant
    (fun w => Lawful CompareAndSwap w.log) .nil fun hlawful hstep =>
      CompareAndSwap.call hstep.1 hstep.2 hlawful

end CompareAndSwap

section Runs

open Sample

/-- The law, of a call that crashes with the policy verified and is made again: it rolls back its own
swap. -/
theorem policy_compare_and_swap_sample : Lawful CompareAndSwap (retried none 26).log := by
  refine policy_compare_and_swap none (retried_run none 26) fun e he b j hb hinterrupted _ _ _ => ?_
  have hfirst : ((origin none).state.workspace b.transactionId).journal ≠ some j := nofun
  have hsecond : (swaps (next 26 (origin none)).log).head? = call.binding := by decide +kernel
  rcases List.mem_pair.mp he with rfl | rfl
  · exact absurd hinterrupted.journal hfirst
  · exact hsecond.trans hb

/-- A transaction that recorded its failed precondition and crashed before its receipt deletes, when it is
retried, a target it never wrote. -/
theorem unpromoted_rollback :
    ∃ history w, Run (policyMachine.Runs Call.program) (origin (some [77])) history w ∧
      (∀ e ∈ w.log, ∀ id, e.label.2 ≠ .promote id) ∧ w.state.target = none ∧
      ¬ Lawful CompareAndSwap w.log := by
  have hnever : ((retried (some [77]) 10).log.all fun e => match e.label.2 with
      | .promote _ => false
      | _ => true) = true := by decide +kernel
  have hwrites : ((retried (some [77]) 10).log.any fun e => e.label.2.writesTarget) = true := by
    decide +kernel
  have hnever' : ∀ e ∈ (retried (some [77]) 10).log, ∀ id, e.label.2 ≠ .promote id := by
    intro e he id hop
    have hthis := List.all_eq_true.mp hnever e he
    rw [hop] at hthis
    cases hthis
  refine ⟨_, _, retried_run (some [77]) 10, hnever', by decide +kernel, fun hlawful => ?_⟩
  obtain ⟨e, he, hwrite⟩ := List.any_eq_true.mp hwrites
  obtain ⟨earlier, later, hsplit⟩ := List.append_of_mem he
  have hearlier : ∀ p ∈ earlier, p ∈ (retried (some [77]) 10).log := by
    intro p hp
    rw [hsplit]
    exact List.mem_append_left _ hp
  obtain ⟨b, -, hpromote | ⟨p, hp, id, hpromote, -⟩⟩ := (hlawful earlier e later hsplit).promoted hwrite
  · exact hnever' e he _ hpromote
  · exact hnever' p (hearlier p hp) id hpromote

end Runs

end CodingOS.Routing
