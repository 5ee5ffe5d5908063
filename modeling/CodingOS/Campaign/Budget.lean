import CodingOS.Campaign.Run
import CodingOS.Systems.Keyed
import CodingOS.Systems.Ledger

/-!
# Budget conservation

The budget of a snapshot is a ledger: its balances, receipts and rank are those of
`CampaignSnapshot.ledger`, `_consume_budget` is the ledger's `Spend`, and an accepted event either
leaves the ledger alone or spends one unit under its own identifier.
-/

namespace CodingOS.Campaign

open CodingOS.Python Systems

theorem BudgetBalance.spend_eq_ok {b b' : BudgetBalance} {token : BudgetToken}
    (h : b.spend token = .ok b') :
    b'.token = b.token ∧ b'.limit = b.limit ∧
      b'.consumed = b.consumed + (if b.token = token then 1 else 0) ∧
      (b.token = token → b.consumed < b.limit) := by
  unfold BudgetBalance.spend at h
  split at h
  · next ht =>
      split at h
      · exact absurd h fail_ne_ok
      · next hleft =>
          obtain rfl := Except.ok.inj h
          refine ⟨rfl, rfl, by rw [if_pos ht], fun _ => ?_⟩
          unfold BudgetBalance.remaining at hleft
          omega
  · next ht =>
      obtain rfl := Except.ok.inj h
      exact ⟨rfl, rfl, by rw [if_neg ht, Nat.add_zero], fun hc => absurd hc ht⟩

/-- Spending keeps the place of every token. -/
theorem find?_spend {bs bs' : List BudgetBalance} {token : BudgetToken}
    (h : List.Forall₂ (fun b b' => b.spend token = .ok b') bs bs') (t : BudgetToken) :
    (bs.find? (·.token == t) = none ∧ bs'.find? (·.token == t) = none) ∨
      ∃ b b', bs.find? (·.token == t) = some b ∧ bs'.find? (·.token == t) = some b' ∧
        b.spend token = .ok b' := by
  induction h with
  | nil => exact .inl ⟨rfl, rfl⟩
  | @cons b b' bs bs' hb _ ih =>
      obtain ⟨htoken, -⟩ := BudgetBalance.spend_eq_ok hb
      by_cases ht : b.token = t
      · exact .inr ⟨b, b', by simp [ht], by simp [htoken, ht], hb⟩
      · simpa [List.find?_cons, ht, htoken] using ih

section Model

variable [Runtime]

namespace CampaignSnapshot

/-- The amount of a token consumed so far. -/
def consumed (s : CampaignSnapshot) (token : BudgetToken) : ℕ :=
  ((s.budgets.find? (·.token == token)).map (·.consumed)).getD 0

/-- The limit of a token; an undeclared token has none to spend. -/
def limit (s : CampaignSnapshot) (token : BudgetToken) : ℕ :=
  ((s.budgets.find? (·.token == token)).map (·.limit)).getD 0

/-- The ledger of a snapshot. -/
def ledger (s : CampaignSnapshot) : Ledger String BudgetToken where
  limit := s.limit
  consumed := s.consumed
  receipts := s.budgetReceipts.map fun r => ⟨r.requestId, r.token, r.revision⟩
  rank := s.autonomousRankRemaining

end CampaignSnapshot

/-- **`_consume_budget` is one `Spend` of the ledger.** -/
theorem Spends.ledger {s s' : CampaignSnapshot} {token : BudgetToken} {requestId : String}
    (h : Spends s token requestId s') :
    Ledger.Spend s.revision requestId token s.ledger s'.ledger where
  unused r hr := by
    obtain ⟨receipt, hreceipt, rfl⟩ := List.mem_map.mp hr
    exact h.unused receipt hreceipt
  available := by
    obtain ⟨b, hb, htoken⟩ := h.declared
    obtain ⟨hnone, -⟩ | ⟨b, b', hfind, -, hspend⟩ := find?_spend h.balances token
    · exact absurd htoken (by simpa using List.find?_eq_none.mp hnone b hb)
    · have ht : b.token = token := by simpa using List.find?_some hfind
      simpa [CampaignSnapshot.ledger, CampaignSnapshot.consumed, CampaignSnapshot.limit, hfind]
        using (BudgetBalance.spend_eq_ok hspend).2.2.2 ht
  rank := by
    have hpos := h.rank_pos
    rw [h.result]
    show s.autonomousRankRemaining = s.autonomousRankRemaining - 1 + 1
    omega
  limit := by
    funext t
    obtain ⟨hnone, hnone'⟩ | ⟨b, b', hfind, hfind', hspend⟩ := find?_spend h.balances t
    · simp [CampaignSnapshot.ledger, CampaignSnapshot.limit, hnone, hnone']
    · simp [CampaignSnapshot.ledger, CampaignSnapshot.limit, hfind, hfind',
        (BudgetBalance.spend_eq_ok hspend).2.1]
  consumed t := by
    obtain ⟨hnone, hnone'⟩ | ⟨b, b', hfind, hfind', hspend⟩ := find?_spend h.balances t
    · have hne : t ≠ token := by
        rintro rfl
        obtain ⟨b, hb, htoken⟩ := h.declared
        exact absurd htoken (by simpa using List.find?_eq_none.mp hnone b hb)
      simp [CampaignSnapshot.ledger, CampaignSnapshot.consumed, hnone, hnone', hne]
    · have ht : b.token = t := by simpa using List.find?_some hfind
      simp [CampaignSnapshot.ledger, CampaignSnapshot.consumed, hfind, hfind',
        (BudgetBalance.spend_eq_ok hspend).2.2.1, ht]
  receipts := by
    rw [h.result]
    simp [CampaignSnapshot.ledger]

/-! ### One event -/

section Event

variable {s s' : CampaignSnapshot} {e : Event} {effects : List ExternalEffectIntent}

/-- What an accepted event does to the budget: nothing, or one unit under its identifier. -/
def SpendsAtMostOne (s : CampaignSnapshot) (e : Event) (s' : CampaignSnapshot) : Prop :=
  s'.ledger = s.ledger ∨ ∃ token, Ledger.Spend s.revision e.eventId token s.ledger s'.ledger

theorem MaySpend.ledger {s₁ : CampaignSnapshot} (h : MaySpend s e s₁)
    (hsame : s'.ledger = s₁.ledger) : SpendsAtMostOne s e s' := by
  obtain rfl | ⟨token, hspend⟩ := h
  · exact .inl hsame
  · exact .inr ⟨token, hsame ▸ hspend.ledger⟩

/-- **Step lemma.**  No step spends more than one unit, and none changes the specification. -/
theorem Step.ledger (h : Step s e s' effects) :
    SpendsAtMostOne s e s' ∧ s'.spec = s.spec := by
  cases h with
  | control | advanceAuthority | cancel | admitted | move | fail | confirm =>
      exact ⟨.inl rfl, rfl⟩
  | consumeBudget _ _ hspend => exact ⟨.inr ⟨_, hspend.ledger⟩, hspend.spec_eq⟩
  | dispatch _ _ hdispatch =>
      obtain ⟨_, -, hspend, -⟩ := dispatchEffect_eq_ok hdispatch
      have hmay := consumeAutomated_maySpend hspend
      exact ⟨hmay.ledger rfl, hmay.spec_eq⟩
  | publish _ _ hspend =>
      have hmay := consumeAutomated_maySpend hspend
      exact ⟨hmay.ledger rfl, hmay.spec_eq⟩

theorem Accepted.ledger (h : Accepted s e effects s') : SpendsAtMostOne s e s' := by
  obtain ⟨s₁, hstep, rfl⟩ := h.step
  exact hstep.ledger.1

theorem Accepted.spec_eq (h : Accepted s e effects s') : s'.spec = s.spec := by
  obtain ⟨s₁, hstep, rfl⟩ := h.step
  exact hstep.ledger.2

theorem Accepted.revision_eq (h : Accepted s e effects s') : s'.revision = s.revision + 1 := by
  obtain ⟨s₁, -, rfl⟩ := h.step
  rfl

end Event

/-! ### Every run -/

/-- The limit the specification declares for a token. -/
def CampaignSpecFields.declaredLimit (spec : CampaignSpecFields) (token : BudgetToken) : ℕ :=
  ((spec.attemptBudgets.find? (·.token == token)).map (·.limit)).getD 0

section Runs

variable {spec : CampaignSpec} {history : List (Entry CampaignSnapshot Applied)}
  {s : CampaignSnapshot}

theorem initial_ledger {s₀ : CampaignSnapshot} (h : CampaignSnapshot.initial spec = .ok s₀) :
    s₀.ledger = ⟨spec.declaredLimit, fun _ => 0, [], spec.autonomousRank⟩ := by
  obtain ⟨-, -, -, -, -, hbudgets, hreceipts, hrank, -⟩ := initial_eq_ok h
  have hfind := find?_key_perm (List.perm_insertionSort
    (fun a b : AttemptBudget => a.token.value ≤ b.token.value) spec.attemptBudgets).symm
    spec.budget_tokens_nodup
  have hlimit : s₀.limit = spec.declaredLimit := by
    funext t
    simp [CampaignSnapshot.limit, CampaignSpecFields.declaredLimit, hbudgets, List.find?_map,
      Function.comp_def, hfind]
  have hconsumed : s₀.consumed = fun _ => 0 := by
    funext t
    simp only [CampaignSnapshot.consumed, hbudgets, List.find?_map, Function.comp_def,
      Option.map_map]
    cases List.find? _ _ <;> rfl
  rw [CampaignSnapshot.ledger, hlimit, hconsumed, hreceipts, hrank, List.map_nil]

/-- The law of budgets, on a snapshot of a campaign with specification `spec`. -/
structure BudgetConserved (spec : CampaignSpec) (s : CampaignSnapshot) : Prop where
  rank : s.autonomousRankRemaining + s.budgetReceipts.length = spec.autonomousRank
  consumed : ∀ token, s.consumed token = s.budgetReceipts.countP fun r => r.token = token
  within : ∀ token, s.consumed token ≤ spec.declaredLimit token
  distinct : (s.budgetReceipts.map (·.requestId)).Nodup
  increasing : (s.budgetReceipts.map (·.revision)).Pairwise (· < ·)
  bounded : ∀ r ∈ s.budgetReceipts, r.revision ≤ s.revision

/-- The ledger of a run is conserved, and its limits stay those of the specification. -/
theorem ledger_run (h : CampaignRun spec history s) :
    Ledger.Conserved spec.autonomousRank s.revision s.ledger ∧
      s.ledger.limit = spec.declaredLimit := by
  obtain ⟨s₀, hinit, hrun⟩ := h
  refine hrun.invariant (fun s => Ledger.Conserved spec.autonomousRank s.revision s.ledger ∧
    s.ledger.limit = spec.declaredLimit) ?_ ?_
  · rw [initial_ledger hinit]
    exact ⟨⟨rfl, fun _ => rfl, fun _ => Nat.zero_le _, List.nodup_nil, .nil, nofun⟩, rfl⟩
  · intro s s' applied ⟨hcons, hlimit⟩ hstep
    have haccepted := reduce_accepted hstep
    rw [haccepted.revision_eq]
    obtain hsame | ⟨token, hspend⟩ := haccepted.ledger
    · rw [hsame]
      exact ⟨hcons.wait (Nat.le_succ _), hlimit⟩
    · exact ⟨hcons.spend hspend, hspend.limit.trans hlimit⟩

/-- What spending at most one unit means for the fields of the snapshot. -/
def SpendsZeroOrOne (e : Event) (s s' : CampaignSnapshot) : Prop :=
  (s'.autonomousRankRemaining = s.autonomousRankRemaining ∧ s'.budgetReceipts = s.budgetReceipts ∧
      s'.consumed = s.consumed) ∨
    ∃ token, s.autonomousRankRemaining = s'.autonomousRankRemaining + 1 ∧
      s'.budgetReceipts = s.budgetReceipts ++ [⟨e.eventId, token, s'.revision⟩] ∧
      ∀ t, s'.consumed t = s.consumed t + if t = token then 1 else 0

/-- A conserved ledger, read on the snapshot. -/
theorem budgetConserved_of_ledger
    (h : Ledger.Conserved spec.autonomousRank s.revision s.ledger)
    (hlimit : s.ledger.limit = spec.declaredLimit) : BudgetConserved spec s where
  rank := by simpa [CampaignSnapshot.ledger] using h.rank
  consumed token := by
    have hconsumed := h.consumed token
    simpa [CampaignSnapshot.ledger, List.countP_map, Function.comp_def] using hconsumed
  within token := hlimit ▸ h.within token
  distinct := by simpa [CampaignSnapshot.ledger, Function.comp_def] using h.distinct
  increasing := by simpa [CampaignSnapshot.ledger, Function.comp_def] using h.increasing
  bounded r hr := h.bounded _ (List.mem_map_of_mem hr)

theorem spendsZeroOrOne_of_ledger {s' : CampaignSnapshot} {e : Event}
    (hrevision : s'.revision = s.revision + 1) (h : SpendsAtMostOne s e s') :
    SpendsZeroOrOne e s s' := by
  have hinj : Function.Injective fun r : BudgetReceipt =>
      (⟨r.requestId, r.token, r.revision⟩ : Receipt String BudgetToken) := by
    rintro ⟨_, _, _⟩ ⟨_, _, _⟩ heq
    simpa using heq
  obtain hsame | ⟨token, hspend⟩ := h
  · refine .inl ⟨congrArg Ledger.rank hsame, ?_, congrArg Ledger.consumed hsame⟩
    exact hinj.list_map (congrArg Ledger.receipts hsame)
  · refine .inr ⟨token, hspend.rank, ?_, hspend.consumed⟩
    apply hinj.list_map
    rw [hrevision, List.map_append]
    exact hspend.receipts

/-- **Budget conservation.**  In every snapshot a run reaches the rank left and the receipts add up
to the rank of the specification, every token is consumed as often as receipts carry it and within
its declared limit, the receipts have distinct requests and increasing revisions, and every event of
the run spent nothing or exactly one unit. -/
theorem budget_conserved (h : CampaignRun spec history s) :
    BudgetConserved spec s ∧
      ∀ t ∈ history, SpendsZeroOrOne t.label.event t.before t.after := by
  have hledger := ledger_run h
  refine ⟨budgetConserved_of_ledger hledger.1 hledger.2, ?_⟩
  obtain ⟨s₀, -, hrun⟩ := h
  intro t ht
  have haccepted := reduce_accepted (hrun.step_of_mem ht).2
  exact spendsZeroOrOne_of_ledger haccepted.revision_eq haccepted.ledger

end Runs

end Model

open Sample in
/-- The sample run spends three of its four units. -/
theorem budget_conserved_sample :
    run.2.budgetReceipts.length = 3 ∧ run.2.autonomousRankRemaining + 3 = spec.autonomousRank := by
  have hlength : run.2.budgetReceipts.length = 3 := by decide +kernel
  refine ⟨hlength, ?_⟩
  rw [← hlength]
  exact (budget_conserved campaignRun).1.rank

end CodingOS.Campaign
