import CodingOS.Campaign.Projection
import CodingOS.Campaign.SnapshotRecord
import CodingOS.Python.ValueEq

/-!
# The merge law of findings

`unique_findings` folds the objects of a report into one finding for each identifier.  What it keeps of
an identifier is what all its entries agree on, with the least of their titles, so the order of the
entries and their repetition do not matter: `Merged` says this of the findings so far, and
`Compatible` of the objects when no round raises.
-/

namespace CodingOS.Campaign

open CodingOS.Python Systems

/-! ### Agreement -/

/-- Two findings carry the same evidence. -/
def Finding.Agrees (f g : Finding) : Prop :=
  f.blocking = g.blocking ∧ (Value.mapping f.details).eq (.mapping g.details) = true

/-- `==` of two findings. -/
def Finding.Same (f g : Finding) : Prop :=
  f.findingId = g.findingId ∧ f.title = g.title ∧ f.origin = g.origin ∧ f.Agrees g

def Finding.keyed (f : Finding) : Bool := (Value.mapping f.details).keyed

theorem Finding.Agrees.symm {f g : Finding} (hf : f.keyed = true) (hg : g.keyed = true) (h : f.Agrees g) :
    g.Agrees f :=
  ⟨h.1.symm, Value.eq_symm _ _ hf hg h.2⟩

theorem Finding.Agrees.trans {f g k : Finding} (h : f.Agrees g) (h' : g.Agrees k) : f.Agrees k :=
  ⟨h.1.trans h'.1, Value.eq_trans _ _ _ h.2 h'.2⟩

theorem Finding.Agrees.refl {f : Finding} (hf : f.keyed = true) : f.Agrees f :=
  ⟨rfl, Value.eq_refl _ hf⟩

/-- A finding with the lesser of two titles. -/
def Finding.retitled (prior finding : Finding) : Finding :=
  { prior with title := if finding.title < prior.title then finding.title else prior.title }

theorem Finding.retitled_title_le (prior finding : Finding) :
    (prior.retitled finding).title ≤ prior.title ∧ (prior.retitled finding).title ≤ finding.title := by
  unfold retitled
  split
  · next hlt => exact ⟨le_of_lt hlt, le_refl _⟩
  · next hle => exact ⟨le_refl _, not_lt.mp hle⟩

/-- Lists with the same identifiers, whose findings of one identifier are related. -/
theorem forall₂_of_ids {r : Finding → Finding → Prop} {fs gs : List Finding}
    (hids : fs.map (·.findingId) = gs.map (·.findingId)) (hnodup : (fs.map (·.findingId)).Nodup)
    (h : ∀ f ∈ fs, ∀ g ∈ gs, f.findingId = g.findingId → r f g) : List.Forall₂ r fs gs := by
  induction fs generalizing gs with
  | nil => simp [List.map_eq_nil_iff.mp hids.symm]
  | cons f fs ih =>
      obtain ⟨g, gs, rfl, hid, hrest⟩ := List.map_eq_cons_iff.mp hids.symm
      rw [List.map_cons, List.nodup_cons] at hnodup
      refine .cons (h f List.mem_cons_self g List.mem_cons_self hid.symm) (ih hrest.symm hnodup.2 ?_)
      exact fun a ha b hb => h a (List.mem_cons_of_mem f ha) b (List.mem_cons_of_mem g hb)

/-! ### What a round does -/

section Joins

variable {findings findings' : List Finding}

/-- What a round that raises nothing does with the finding it reads. -/
inductive Joins (findings : List Finding) (f : Finding) : List Finding → Prop
  | fresh : f.findingId ∉ findings.map (·.findingId) → Joins findings f (findings ++ [f])
  | known {prior : Finding} : prior ∈ findings → prior.findingId = f.findingId → prior.Agrees f →
      Joins findings f (findings.map fun g =>
        if g.findingId = prior.findingId then prior.retitled f else g)

theorem Joins.nodup {f : Finding} (hnodup : (findings.map (·.findingId)).Nodup)
    (h : Joins findings f findings') : (findings'.map (·.findingId)).Nodup := by
  cases h with
  | fresh hfresh =>
      rw [List.map_append]
      exact hnodup.append (List.nodup_singleton _) (by simpa using hfresh)
  | @known prior _ hid _ =>
      have hids : (findings.map fun g => if g.findingId = prior.findingId then prior.retitled f else g).map
          (·.findingId) = findings.map (·.findingId) := by
        rw [List.map_map]
        refine List.map_congr_left fun g _ => ?_
        show Finding.findingId (if _ then _ else _) = g.findingId
        split
        · next heq => exact heq.symm
        · rfl
      rw [hids]
      exact hnodup

/-- A finding stays, with the same evidence and no greater title. -/
theorem Joins.kept {f g : Finding} (hnodup : (findings.map (·.findingId)).Nodup)
    (h : Joins findings f findings') (hg : g ∈ findings) :
    ∃ g' ∈ findings', g' = { g with title := g'.title } ∧ g'.title ≤ g.title := by
  cases h with
  | fresh _ => exact ⟨g, List.mem_append_left _ hg, rfl, le_refl _⟩
  | @known prior hprior _ _ =>
      by_cases hid : g.findingId = prior.findingId
      · obtain rfl := List.inj_on_of_nodup_map hnodup hg hprior hid
        refine ⟨g.retitled f, List.mem_map.mpr ⟨g, hg, if_pos rfl⟩, rfl, (g.retitled_title_le f).1⟩
      · exact ⟨g, List.mem_map.mpr ⟨g, hg, if_neg hid⟩, rfl, le_refl _⟩

/-- The finding that was read is covered. -/
theorem Joins.covered {f : Finding} (hf : f.keyed = true) (h : Joins findings f findings') :
    ∃ g ∈ findings', g.findingId = f.findingId ∧ g.Agrees f ∧ g.title ≤ f.title := by
  cases h with
  | fresh _ => exact ⟨f, by simp, rfl, .refl hf, le_refl _⟩
  | @known prior hprior hid hagrees =>
      exact ⟨prior.retitled f, List.mem_map.mpr ⟨prior, hprior, if_pos rfl⟩, hid, hagrees,
        (prior.retitled_title_le f).2⟩

/-- A finding after the round is the one that was read, or one from before with its title or that of
the one that was read. -/
theorem Joins.origins {f g' : Finding} (h : Joins findings f findings') (hg' : g' ∈ findings') :
    g' = f ∨ ∃ g ∈ findings, g' = { g with title := g'.title } ∧
      (g'.title = g.title ∨ g'.title = f.title ∧ g.findingId = f.findingId) := by
  cases h with
  | fresh _ =>
      rcases List.mem_append.mp hg' with hg' | hg'
      · exact .inr ⟨g', hg', rfl, .inl rfl⟩
      · exact .inl (List.mem_singleton.mp hg')
  | @known prior hprior hid _ =>
      obtain ⟨g, hg, rfl⟩ := List.mem_map.mp hg'
      split
      · refine .inr ⟨prior, hprior, rfl, ?_⟩
        unfold Finding.retitled
        split
        · exact .inr ⟨rfl, hid⟩
        · exact .inl rfl
      · exact .inr ⟨g, hg, rfl, .inl rfl⟩

end Joins

section Merge

variable [Runtime] {origin : FindingOrigin}

/-! ### Reading the objects -/

/-- What one of the objects reads as. -/
def Reads (origin : FindingOrigin) (values : List Value) (f : Finding) : Prop :=
  ∃ v ∈ values, Finding.fromDict v origin = .ok f

/-- The objects that raise nothing: each is a finding of the phase, and those of one identifier
agree. -/
structure Compatible (origin : FindingOrigin) (values : List Value) : Prop where
  reads : ∀ v ∈ values, ∃ f, Finding.fromDict v origin = .ok f ∧ f.origin = origin
  agree : ∀ f g, Reads origin values f → Reads origin values g → f.findingId = g.findingId → f.Agrees g

theorem Finding.keyed_of_fromDict {value : Value} {f : Finding} (hkeyed : value.keyed = true)
    (h : Finding.fromDict value origin = .ok f) : f.keyed = true := by
  simp only [Finding.fromDict, bind_eq_ok, orRaise_eq_ok] at h
  obtain ⟨entries, hentries, _, -, _, -, _, -, h⟩ := h
  obtain rfl : value = .mapping entries := by
    cases value <;> simp [Value.asMapping?] at hentries
    rw [hentries]
  split at h
  · simp only [bind_eq_ok, orRaise_eq_ok, pure_eq_ok] at h
    obtain ⟨_, -, details, hdetails, _, -, _, -, rfl⟩ := h
    show (Value.mapping details).keyed = true
    cases hget : entries.get? "details" with
    | none =>
        rw [Mapping.getD, hget] at hdetails
        obtain rfl := Option.some.inj hdetails
        rfl
    | some v =>
        have hv : v = .mapping details := by
          rw [Mapping.getD, hget] at hdetails
          cases v <;> simp [Value.asMapping?] at hdetails
          rw [hdetails]
        exact hv ▸ Value.keyed_of_get? hkeyed hget
  · simp [bind_eq_ok] at h

variable {values done : List Value} {findings findings' : List Finding}

/-! ### The findings so far -/

/-- The findings after some objects: one for each identifier they read as, with what all of them carry
and the least title. -/
structure Merged (origin : FindingOrigin) (values : List Value) (findings : List Finding) : Prop where
  nodup : (findings.map (·.findingId)).Nodup
  origin_eq : ∀ g ∈ findings, g.origin = origin
  covered : ∀ v ∈ values, ∃ f, Finding.fromDict v origin = .ok f ∧ f.origin = origin ∧
    ∃ g ∈ findings, g.findingId = f.findingId ∧ g.Agrees f ∧ g.title ≤ f.title
  sourced : ∀ g ∈ findings, ∃ f, Reads origin values f ∧ f.findingId = g.findingId ∧
    f.blocking = g.blocking ∧ f.details = g.details
  titled : ∀ g ∈ findings, ∃ f, Reads origin values f ∧ f.findingId = g.findingId ∧ f.title = g.title

theorem Merged.nil : Merged origin [] [] where
  nodup := List.nodup_nil
  origin_eq _ hg := by cases hg
  covered _ hv := by cases hv
  sourced _ hg := by cases hg
  titled _ hg := by cases hg

theorem Reads.append {f : Finding} (h : Reads origin done f) (values : List Value) :
    Reads origin (done ++ values) f := by
  obtain ⟨v, hv, hf⟩ := h
  exact ⟨v, List.mem_append_left values hv, hf⟩

/-- **One round**, on findings of distinct identifiers. -/
theorem mergeFinding_eq_ok (hnodup : (findings.map (·.findingId)).Nodup) {v : Value} :
    mergeFinding origin findings v = .ok findings' ↔
      ∃ f, Finding.fromDict v origin = .ok f ∧ f.origin = origin ∧ Joins findings f findings' := by
  simp only [mergeFinding, bind_eq_ok, check_eq_ok, exists_const, beq_iff_eq]
  refine exists_congr fun f => and_congr_right fun _ => and_congr_right fun _ => ?_
  cases hfound : findings.find? (·.findingId == f.findingId) with
  | none =>
      have hfresh : f.findingId ∉ findings.map (·.findingId) := by
        intro hmem
        obtain ⟨g, hg, hid⟩ := List.mem_map.mp hmem
        simpa [hid] using List.find?_eq_none.mp hfound g hg
      rw [pure_eq_ok]
      constructor
      · rintro rfl
        exact .fresh hfresh
      · rintro (hnew | ⟨hprior, hid, -⟩)
        · rfl
        · exact absurd (hid ▸ List.mem_map_of_mem hprior) hfresh
  | some prior =>
      obtain ⟨hprior, hid⟩ := (find?_key_eq_some hnodup).mp hfound
      simp only [bind_eq_ok, check_eq_ok, exists_const, Bool.and_eq_true, beq_iff_eq, pure_eq_ok]
      constructor
      · rintro ⟨hagrees, rfl⟩
        exact .known hprior hid hagrees
      · rintro (hnew | ⟨hprior', hid', hagrees⟩)
        · exact absurd (hid ▸ List.mem_map_of_mem hprior) hnew
        · obtain rfl := List.inj_on_of_nodup_map hnodup hprior' hprior (hid'.trans hid.symm)
          exact ⟨hagrees, rfl⟩

/-- **A round keeps the invariant.** -/
theorem Merged.round {v : Value} (h : Merged origin done findings) (hkeyed : v.keyed = true)
    (hround : mergeFinding origin findings v = .ok findings') :
    Merged origin (done ++ [v]) findings' := by
  obtain ⟨f, hf, horigin, hjoins⟩ := (mergeFinding_eq_ok h.nodup).mp hround
  have hread : Reads origin (done ++ [v]) f := ⟨v, by simp, hf⟩
  refine ⟨hjoins.nodup h.nodup, fun g' hg' => ?_, fun w hw => ?_, fun g' hg' => ?_, fun g' hg' => ?_⟩
  · rcases hjoins.origins hg' with rfl | ⟨g, hg, heq, -⟩
    · exact horigin
    · rw [heq]
      exact h.origin_eq g hg
  · rcases List.mem_append.mp hw with hw | hw
    · obtain ⟨f', hf', horigin', g, hg, hid, hagrees, htitle⟩ := h.covered w hw
      obtain ⟨g', hg', heq, hle⟩ := hjoins.kept h.nodup hg
      refine ⟨f', hf', horigin', g', hg', ?_, ?_, hle.trans htitle⟩
      · rw [heq]
        exact hid
      · rw [heq]
        exact hagrees
    · obtain rfl := List.mem_singleton.mp hw
      exact ⟨f, hf, horigin, hjoins.covered (Finding.keyed_of_fromDict hkeyed hf)⟩
  · rcases hjoins.origins hg' with rfl | ⟨g, hg, heq, -⟩
    · exact ⟨g', hread, rfl, rfl, rfl⟩
    · obtain ⟨f', hf', hid, hblocking, hdetails⟩ := h.sourced g hg
      rw [heq]
      exact ⟨f', hf'.append [v], hid, hblocking, hdetails⟩
  · rcases hjoins.origins hg' with rfl | ⟨g, hg, heq, htitle | ⟨htitle, hid⟩⟩
    · exact ⟨g', hread, rfl, rfl⟩
    · obtain ⟨f', hf', hid, hsame⟩ := h.titled g hg
      refine ⟨f', hf'.append [v], ?_, hsame.trans htitle.symm⟩
      rw [heq]
      exact hid
    · refine ⟨f, hread, ?_, htitle.symm⟩
      rw [heq]
      exact hid.symm

/-- A round on objects that are compatible raises nothing. -/
theorem Merged.round_ok {v : Value} (h : Merged origin done findings)
    (hcompatible : Compatible origin values) (hdone : ∀ w ∈ done, w ∈ values) (hv : v ∈ values) :
    ∃ findings', mergeFinding origin findings v = .ok findings' := by
  obtain ⟨f, hf, horigin⟩ := hcompatible.reads v hv
  by_cases hmem : f.findingId ∈ findings.map (·.findingId)
  · obtain ⟨g, hg, hid⟩ := List.mem_map.mp hmem
    obtain ⟨f', ⟨w, hw, hf'⟩, hid', hblocking, hdetails⟩ := h.sourced g hg
    have hagrees : f'.Agrees f := hcompatible.agree f' f ⟨w, hdone w hw, hf'⟩ ⟨v, hv, hf⟩ (hid'.trans hid)
    have hagrees' : g.Agrees f := ⟨hblocking ▸ hagrees.1, hdetails ▸ hagrees.2⟩
    exact ⟨_, (mergeFinding_eq_ok h.nodup).mpr ⟨f, hf, horigin, .known hg hid hagrees'⟩⟩
  · exact ⟨_, (mergeFinding_eq_ok h.nodup).mpr ⟨f, hf, horigin, .fresh hmem⟩⟩

/-! ### The whole fold -/

theorem Merged.foldlM (h : Merged origin done findings) (hkeyed : ∀ v ∈ values, v.keyed = true)
    (hfold : values.foldlM (mergeFinding origin) findings = .ok findings') :
    Merged origin (done ++ values) findings' := by
  induction values generalizing done findings with
  | nil =>
      obtain rfl := Except.ok.inj hfold
      simpa using h
  | cons v values ih =>
      rw [List.foldlM_cons, bind_eq_ok] at hfold
      obtain ⟨findings₁, hround, hrest⟩ := hfold
      obtain ⟨hv, hvalues⟩ := List.forall_mem_cons.mp hkeyed
      simpa using ih (h.round hv hround) hvalues hrest

theorem Merged.foldlM_ok {all : List Value} (h : Merged origin done findings)
    (hkeyed : ∀ v ∈ values, v.keyed = true) (hcompatible : Compatible origin all)
    (hdone : ∀ w ∈ done, w ∈ all) (hvalues : ∀ v ∈ values, v ∈ all) :
    ∃ findings', values.foldlM (mergeFinding origin) findings = .ok findings' := by
  induction values generalizing done findings with
  | nil => exact ⟨findings, rfl⟩
  | cons v values ih =>
      obtain ⟨hv, hrest⟩ := List.forall_mem_cons.mp hvalues
      obtain ⟨hkeyedv, hkeyedrest⟩ := List.forall_mem_cons.mp hkeyed
      obtain ⟨findings₁, hround⟩ := h.round_ok hcompatible hdone hv
      obtain ⟨findings', hfold⟩ := ih (h.round hkeyedv hround) hkeyedrest
        (by simpa [or_imp, forall_and] using ⟨hdone, hv⟩) hrest
      refine ⟨findings', ?_⟩
      rw [List.foldlM_cons, hround]
      exact hfold

/-- Findings that cover the objects show that these are compatible. -/
theorem Merged.compatible (h : Merged origin values findings) (hkeyed : ∀ v ∈ values, v.keyed = true) :
    Compatible origin values := by
  constructor
  · intro v hv
    obtain ⟨f, hf, horigin, -⟩ := h.covered v hv
    exact ⟨f, hf, horigin⟩
  · rintro f g ⟨v, hv, hf⟩ ⟨w, hw, hg⟩ hid
    obtain ⟨f', hf', -, k, hk, hkf, hagrees, -⟩ := h.covered v hv
    obtain ⟨g', hg', -, k', hk', hkg, hagrees', -⟩ := h.covered w hw
    obtain rfl := Except.ok.inj (hf.symm.trans hf')
    obtain rfl := Except.ok.inj (hg.symm.trans hg')
    obtain rfl := List.inj_on_of_nodup_map h.nodup hk hk' (hkf.trans (hid.trans hkg.symm))
    obtain ⟨f₀, ⟨u, hu, hf₀⟩, -, -, hdetails⟩ := h.sourced k hk
    have hkeyedk : k.keyed = true := by
      have := Finding.keyed_of_fromDict (hkeyed u hu) hf₀
      rwa [Finding.keyed, hdetails] at this
    exact (hagrees.symm hkeyedk (Finding.keyed_of_fromDict (hkeyed v hv) hf)).trans hagrees'

/-- `unique_findings` raises nothing exactly on objects that are compatible. -/
theorem uniqueFindings_ok_iff (hkeyed : ∀ v ∈ values, v.keyed = true) :
    (∃ findings, uniqueFindings values origin = .ok findings) ↔ Compatible origin values := by
  simp only [uniqueFindings, bind_eq_ok, pure_eq_ok]
  constructor
  · rintro ⟨_, merged, hfold, -⟩
    exact ((Merged.nil).foldlM hkeyed hfold).compatible hkeyed
  · intro hcompatible
    obtain ⟨merged, hfold⟩ :=
      (Merged.nil : Merged origin [] []).foldlM_ok hkeyed hcompatible (by simp) fun _ hv => hv
    exact ⟨_, merged, hfold, rfl⟩

theorem Merged.perm (h : Merged origin values findings) (hperm : findings'.Perm findings) :
    Merged origin values findings' where
  nodup := (hperm.map _).nodup_iff.mpr h.nodup
  origin_eq g hg := h.origin_eq g (hperm.mem_iff.mp hg)
  covered v hv := by
    obtain ⟨f, hf, horigin, g, hg, hcovers⟩ := h.covered v hv
    exact ⟨f, hf, horigin, g, hperm.mem_iff.mpr hg, hcovers⟩
  sourced g hg := h.sourced g (hperm.mem_iff.mp hg)
  titled g hg := h.titled g (hperm.mem_iff.mp hg)

/-- The identifiers of a result rise strictly. -/
theorem uniqueFindings_merged (hkeyed : ∀ v ∈ values, v.keyed = true)
    (h : uniqueFindings values origin = .ok findings) :
    Merged origin values findings ∧ (findings.map (·.findingId)).Pairwise (· < ·) := by
  simp only [uniqueFindings, bind_eq_ok, pure_eq_ok] at h
  obtain ⟨merged, hfold, rfl⟩ := h
  have hmerged := ((Merged.nil).foldlM hkeyed hfold).perm
    (List.perm_insertionSort (fun a b : Finding => a.findingId ≤ b.findingId) merged)
  refine ⟨hmerged, ?_⟩
  have hsorted : (((merged.insertionSort fun a b => a.findingId ≤ b.findingId)).map (·.findingId)).Pairwise
      (· ≤ ·) :=
    List.pairwise_map.mpr (List.pairwise_insertionSort (fun a b : Finding => a.findingId ≤ b.findingId) merged)
  exact (hsorted.and hmerged.nodup).imp fun hlt => lt_of_le_of_ne hlt.1 hlt.2

/-- An identifier is there when some object reads as it. -/
theorem Merged.mem_ids_iff (h : Merged origin values findings) {k : String} :
    k ∈ findings.map (·.findingId) ↔ ∃ f, Reads origin values f ∧ f.findingId = k := by
  constructor
  · intro hk
    obtain ⟨g, hg, rfl⟩ := List.mem_map.mp hk
    obtain ⟨f, hf, hid, -⟩ := h.sourced g hg
    exact ⟨f, hf, hid⟩
  · rintro ⟨f, ⟨v, hv, hf⟩, rfl⟩
    obtain ⟨f', hf', -, g, hg, hid, -⟩ := h.covered v hv
    obtain rfl := Except.ok.inj (hf.symm.trans hf')
    exact hid ▸ List.mem_map_of_mem hg

/-- What is kept of an identifier is determined by the objects. -/
theorem Merged.same {others : List Value} {g g' : Finding} (h : Merged origin values findings)
    (h' : Merged origin others findings') (hmembers : ∀ v, v ∈ others ↔ v ∈ values)
    (hg : g ∈ findings) (hg' : g' ∈ findings') (hid : g.findingId = g'.findingId) : g.Same g' := by
  have hreads : ∀ f, Reads origin others f ↔ Reads origin values f := fun f =>
    exists_congr fun v => and_congr_left fun _ => hmembers v
  -- each title is that of some object, and no greater than any
  have htitle : ∀ {l l' : List Value} {k k' : Finding} {fs fs' : List Finding}, Merged origin l fs →
      Merged origin l' fs' → (∀ f, Reads origin l f → Reads origin l' f) → k ∈ fs → k' ∈ fs' →
      k.findingId = k'.findingId → k'.title ≤ k.title := by
    intro l l' k k' fs fs' hl hl' hsub hk hk' hsame
    obtain ⟨f, hf, hfid, hftitle⟩ := hl.titled k hk
    obtain ⟨v, hv, hread⟩ := hsub f hf
    obtain ⟨f', hf', -, m, hm, hmid, -, hle⟩ := hl'.covered v hv
    obtain rfl := Except.ok.inj (hread.symm.trans hf')
    obtain rfl := List.inj_on_of_nodup_map hl'.nodup hm hk' (hmid.trans (hfid.trans hsame))
    exact hle.trans hftitle.le
  refine ⟨hid, le_antisymm ?_ ?_, (h.origin_eq g hg).trans (h'.origin_eq g' hg').symm, ?_⟩
  · exact htitle h' h (fun f hf => (hreads f).mp hf) hg' hg hid.symm
  · exact htitle h h' (fun f hf => (hreads f).mpr hf) hg hg' hid
  · obtain ⟨f, ⟨v, hv, hf⟩, hfid, hblocking, hdetails⟩ := h'.sourced g' hg'
    obtain ⟨f', hf', -, m, hm, hmid, hagrees, -⟩ := h.covered v ((hmembers v).mp hv)
    obtain rfl := Except.ok.inj (hf.symm.trans hf')
    obtain rfl := List.inj_on_of_nodup_map h.nodup hm hg (hmid.trans (hfid.trans hid.symm))
    exact ⟨hagrees.1.trans hblocking, hdetails ▸ hagrees.2⟩

/-! ### Feeding the result back -/

theorem Finding.fromDict_toDict {f : Finding} (hf : f.Legible) (origin : FindingOrigin) :
    Finding.fromDict f.toDict origin = .ok f := by
  have hget : ∀ key, Mapping.get? [("finding_id", Value.str f.findingId), ("title", .str f.title),
      ("blocking", .bool f.blocking), ("origin", .str f.origin.value), ("details", .mapping f.details)] key =
      List.lookup key _ := fun _ => rfl
  rw [Finding.toDict, Finding.fromDict]
  simp only [Value.asMapping?, orRaise, bind, Except.bind, Mapping.getD, hget, List.lookup_cons,
    Value.text_str, FindingOrigin.ofValue?_value, nonempty_str hf.id, nonempty_str hf.title,
    Option.getD_some, String.reduceBEq, BEq.rfl]
  rfl

/-- Findings of new identifiers are appended one by one. -/
theorem foldlM_toDict (hlegible : ∀ f ∈ findings', f.Legible) (horigin : ∀ f ∈ findings', f.origin = origin)
    (hnodup : ((findings ++ findings').map (·.findingId)).Nodup) :
    (findings'.map Finding.toDict).foldlM (mergeFinding origin) findings = .ok (findings ++ findings') := by
  induction findings' generalizing findings with
  | nil => simp [pure, Except.pure]
  | cons f rest ih =>
      obtain ⟨hf, hrest⟩ := List.forall_mem_cons.mp hlegible
      obtain ⟨hforigin, hrestorigin⟩ := List.forall_mem_cons.mp horigin
      have hnodup' : (findings.map (·.findingId) ++ f.findingId :: rest.map (·.findingId)).Nodup := by
        simpa using hnodup
      have hfresh : f.findingId ∉ findings.map (·.findingId) := fun hmem =>
        (List.disjoint_of_nodup_append hnodup') hmem List.mem_cons_self
      have hround := (mergeFinding_eq_ok (List.Nodup.of_append_left hnodup')).mpr
        ⟨f, Finding.fromDict_toDict hf origin, hforigin, .fresh hfresh⟩
      rw [List.map_cons, List.foldlM_cons, hround]
      show (rest.map Finding.toDict).foldlM (mergeFinding origin) (findings ++ [f]) = _
      rw [ih hrest hrestorigin (by simpa using hnodup), List.append_assoc, List.singleton_append]

/-! ### The merge law -/

/-- Both calls raise, or both return and their tuples are `==`. -/
def SameResult : Result (List Finding) → Result (List Finding) → Prop
  | .ok fs, .ok gs => List.Forall₂ Finding.Same fs gs
  | .error _, .error _ => True
  | _, _ => False

theorem Compatible.of_members {others : List Value} (h : Compatible origin values)
    (hmembers : ∀ v, v ∈ others → v ∈ values) : Compatible origin others where
  reads v hv := h.reads v (hmembers v hv)
  agree f g := by
    rintro ⟨v, hv, hf⟩ ⟨w, hw, hg⟩
    exact h.agree f g ⟨v, hmembers v hv, hf⟩ ⟨w, hmembers w hw, hg⟩

/-- The same objects, in any order and however often, give the same result. -/
theorem uniqueFindings_same {others : List Value} (hkeyed : ∀ v ∈ values, v.keyed = true)
    (hmembers : ∀ v, v ∈ others ↔ v ∈ values) :
    SameResult (uniqueFindings values origin) (uniqueFindings others origin) := by
  have hkeyed' : ∀ v ∈ others, v.keyed = true := fun v hv => hkeyed v ((hmembers v).mp hv)
  have hvalues := @uniqueFindings_ok_iff _ origin _ hkeyed
  have hothers := @uniqueFindings_ok_iff _ origin _ hkeyed'
  cases hleft : uniqueFindings values origin with
  | error e =>
      cases hright : uniqueFindings others origin with
      | error e' => trivial
      | ok gs =>
          have hcompatible := (hothers.mp ⟨gs, hright⟩).of_members fun v hv => (hmembers v).mpr hv
          obtain ⟨fs, hfs⟩ := hvalues.mpr hcompatible
          rw [hfs] at hleft
          cases hleft
  | ok fs =>
      obtain ⟨gs, hright⟩ :=
        hothers.mpr ((hvalues.mp ⟨fs, hleft⟩).of_members fun v hv => (hmembers v).mp hv)
      rw [hright]
      obtain ⟨hmerged, hsorted⟩ := uniqueFindings_merged hkeyed hleft
      obtain ⟨hmerged', hsorted'⟩ := uniqueFindings_merged hkeyed' hright
      have hids : fs.map (·.findingId) = gs.map (·.findingId) := by
        refine List.Perm.eq_of_pairwise (fun a b _ _ (hlt : a < b) (hlt' : b < a) => absurd hlt' hlt.asymm)
          hsorted hsorted' ?_
        refine (List.perm_ext_iff_of_nodup hmerged.nodup hmerged'.nodup).mpr fun k => ?_
        rw [hmerged.mem_ids_iff, hmerged'.mem_ids_iff]
        refine exists_congr fun f => and_congr_left fun _ => exists_congr fun v => and_congr_left fun _ => ?_
        exact (hmembers v).symm
      exact forall₂_of_ids hids hmerged.nodup fun f hf g hg hid =>
        hmerged.same hmerged' hmembers hf hg hid

/-- The result, as the objects its `to_dict` gives, is its own result. -/
theorem uniqueFindings_toDict (hkeyed : ∀ v ∈ values, v.keyed = true)
    (h : uniqueFindings values origin = .ok findings) :
    uniqueFindings (findings.map Finding.toDict) origin = .ok findings := by
  obtain ⟨hmerged, hsorted⟩ := uniqueFindings_merged hkeyed h
  have hfold := @foldlM_toDict _ _ [] _ (uniqueFindings_legible h) hmerged.origin_eq hmerged.nodup
  have hpairwise : findings.Pairwise fun a b => a.findingId ≤ b.findingId :=
    (List.pairwise_map.mp hsorted).imp le_of_lt
  rw [uniqueFindings, hfold]
  show Except.ok (findings.insertionSort _) = _
  rw [hpairwise.insertionSort_eq]

/-- The objects that make the call raise. -/
theorem not_compatible_iff : ¬ Compatible origin values ↔
    (∃ v ∈ values, ∃ e, Finding.fromDict v origin = .error e) ∨
    (∃ f, Reads origin values f ∧ f.origin ≠ origin) ∨
    (∃ f g, Reads origin values f ∧ Reads origin values g ∧ f.findingId = g.findingId ∧ ¬ f.Agrees g) := by
  constructor
  · intro h
    by_contra hnone
    simp only [not_or, not_exists, not_and, not_not] at hnone
    obtain ⟨hwell, horigin, hagree⟩ := hnone
    refine h ⟨fun v hv => ?_, hagree⟩
    cases hread : Finding.fromDict v origin with
    | error e => exact absurd hread (hwell v hv e)
    | ok f => exact ⟨f, rfl, horigin f ⟨v, hv, hread⟩⟩
  · rintro (⟨v, hv, e, hread⟩ | ⟨f, ⟨v, hv, hread⟩, horigin⟩ | ⟨f, g, hf, hg, hid, hagree⟩) h
    · obtain ⟨f, hf, -⟩ := h.reads v hv
      rw [hread] at hf
      cases hf
    · obtain ⟨f', hf', horigin'⟩ := h.reads v hv
      obtain rfl := Except.ok.inj (hread.symm.trans hf')
      exact horigin horigin'
    · exact hagree (h.agree f g hf hg hid)

/-- **The merge law of `unique_findings`.**  Its objects are Python values: no mapping in them has a
key twice. -/
theorem unique_findings_merge (values : List Value) (origin : FindingOrigin)
    (hkeyed : ∀ v ∈ values, v.keyed = true) :
    (∀ others : List Value, (∀ v, v ∈ others ↔ v ∈ values) →
      SameResult (uniqueFindings values origin) (uniqueFindings others origin)) ∧
    (∀ findings, uniqueFindings values origin = .ok findings →
      (findings.map (·.findingId)).Pairwise (· < ·) ∧
      (∀ k, k ∈ findings.map (·.findingId) ↔ ∃ f, Reads origin values f ∧ f.findingId = k) ∧
      uniqueFindings (findings.map Finding.toDict) origin = .ok findings) ∧
    ((∃ e, uniqueFindings values origin = .error e) ↔
      (∃ v ∈ values, ∃ e, Finding.fromDict v origin = .error e) ∨
      (∃ f, Reads origin values f ∧ f.origin ≠ origin) ∨
      (∃ f g, Reads origin values f ∧ Reads origin values g ∧ f.findingId = g.findingId ∧
        (f.blocking ≠ g.blocking ∨ (Value.mapping f.details).eq (.mapping g.details) = false))) := by
  refine ⟨fun others hmembers => uniqueFindings_same hkeyed hmembers, fun findings h => ?_, ?_⟩
  · obtain ⟨hmerged, hsorted⟩ := uniqueFindings_merged hkeyed h
    exact ⟨hsorted, fun k => hmerged.mem_ids_iff, uniqueFindings_toDict hkeyed h⟩
  · have hraises : (∃ e, uniqueFindings values origin = .error e) ↔ ¬ Compatible origin values := by
      rw [← uniqueFindings_ok_iff hkeyed]
      cases uniqueFindings values origin <;> simp
    have hdiffer : ∀ f g : Finding, ¬ f.Agrees g ↔
        (f.blocking ≠ g.blocking ∨ (Value.mapping f.details).eq (.mapping g.details) = false) := by
      intro f g
      rw [Finding.Agrees, not_and_or, Bool.not_eq_true]
    rw [hraises, not_compatible_iff]
    simp only [hdiffer]

end Merge

namespace Sample

/-- Two reports of one finding, whose wording differs. -/
def wrongOutput : Value := .mapping [
  ("finding_id", .str "F-1"), ("title", .str "Wrong output"), ("blocking", .bool true),
  ("details", .mapping [("invariant", .str "exact result")])]

def outputDiffers : Value := .mapping [
  ("finding_id", .str "F-1"), ("title", .str "Output differs"), ("blocking", .bool true),
  ("details", .mapping [("invariant", .str "exact result")])]

end Sample

open Sample in
theorem unique_findings_merge_sample :
    SameResult (uniqueFindings [wrongOutput, outputDiffers] .review)
      (uniqueFindings [outputDiffers, wrongOutput, outputDiffers] .review) := by
  refine (unique_findings_merge [wrongOutput, outputDiffers] .review (by decide)).1 _ fun v => ?_
  simp [or_comm]

end CodingOS.Campaign
