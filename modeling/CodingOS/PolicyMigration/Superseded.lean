import CodingOS.PolicyMigration.Policies
import CodingOS.Python.SampleProcess

/-!
# The superseded lines

Where a file has no block, its one legacy line makes room for the block, and a legacy text that cannot be taken
out stops the migration.  Where the file has a block, active or retired, the migration ends with it: a complete
legacy line beside the block is kept.
-/

namespace CodingOS.PolicyMigration

open CodingOS.Python CodingOS.Installer
open Systems.Occurrence Systems.Result

/-- The two policy files; `default.rules` may be migrated for a Codex home. -/
inductive PolicyFile
  | agents
  | rules (codexHome : Option String)

section Files

variable [Runtime] [Host] [PolicyHost] [FileDigest]

def PolicyFile.layout : PolicyFile → Layout
  | .agents => agentsLayout
  | .rules _ => rulesLayout

/-- The file as it is when the block is put in: the retired command rules are gone. -/
def PolicyFile.input (file : PolicyFile) (existing : Bytes) : Except Failure Bytes :=
  match file with
  | .agents => .ok existing
  | .rules codexHome => migratedInput existing codexHome

def PolicyFile.migrate (file : PolicyFile) (existing policySource : Bytes) : Except Failure Bytes :=
  match file with
  | .agents => migrateAgentsBytes existing policySource
  | .rules codexHome => migrateRulesBytes existing policySource codexHome

def PolicyFile.remove (file : PolicyFile) (existing : Bytes) : Except Failure Bytes :=
  match file with
  | .agents => removeAgentsPolicyBytes existing
  | .rules _ => removeRulesPolicyBytes existing

variable {file : PolicyFile} {existing source src r pre body post : Bytes}

omit [Runtime] [Host] [PolicyHost] in
theorem PolicyFile.proper (file : PolicyFile) : file.layout.Proper := by
  cases file with
  | agents => exact agents_proper
  | rules codexHome => exact rules_proper

omit [Runtime] [Host] [PolicyHost] in
theorem PolicyFile.first (file : PolicyFile) : file.layout.First := by
  cases file with
  | agents => exact agents_first
  | rules codexHome => exact rules_first

theorem PolicyFile.migrate_eq_ok : file.migrate existing source = .ok r ↔
    ∃ input, file.input existing = .ok input ∧ replaceLineOrMarker input source file.layout = .ok r := by
  cases file with
  | agents =>
      constructor
      · exact fun h => ⟨existing, rfl, h⟩
      · rintro ⟨_, h, hr⟩
        obtain rfl := Except.ok.inj h
        exact hr
  | rules codexHome => exact bind_eq_ok

/-! ### Lines beside a block -/

/-- A complete legacy line of the file stands outside the block of these markers. -/
def Beside (line : Bytes) (markers : Brackets UInt8) (existing : Bytes) : Prop :=
  ∃ pre body post, markers.Cut existing pre body post ∧ LineOutside line existing pre (markers.block body) post

/-- The file has one managed block, and no complete legacy line outside it. -/
def Superseding (layout : Layout) (existing : Bytes) : Prop :=
  layout.markers.Once existing ∧ ¬ Beside layout.legacyLine layout.markers existing

omit [Runtime] [Host] [PolicyHost] [FileDigest] in
theorem Layout.Proper.beside_iff {layout : Layout} (hlayout : layout.Proper) {markers : Brackets UInt8}
    (hmarkers : markers ∈ layout.markers :: layout.retiredMarkers) (hcut : markers.Cut existing pre body post) {line : Bytes} :
    Beside line markers existing ↔ InFront line pre ∨ Behind line post := by
  obtain ⟨hfirst, hlast⟩ := hlayout.block_line hmarkers body
  have hne : markers.block body ≠ [] := by
    intro hnil
    rw [hnil] at hfirst
    exact hfirst lineStart_nil
  constructor
  · rintro ⟨pre', body', post', hcut', houtside⟩
    obtain ⟨rfl, rfl, rfl⟩ := hcut.unique hcut'
    rw [hcut.eq] at houtside
    exact (lineOutside_iff hne hfirst hlast).mp houtside
  · intro h
    refine ⟨pre, body, post, hcut, ?_⟩
    have houtside := (lineOutside_iff hne hfirst hlast).mpr h
    rwa [← hcut.eq] at houtside

/-- **No superseded authority survives, or one did stand beside a block.**  Behind a migration there is no complete
legacy line outside the managed block exactly when the file it migrated had no complete legacy line outside an
active or retired block. -/
theorem superseded_line_gone_iff (file : PolicyFile) (existing source r : Bytes)
    (h : file.migrate existing source = .ok r) :
    Superseding file.layout r ↔ ∀ input, file.input existing = .ok input →
      ∀ markers ∈ file.layout.markers :: file.layout.retiredMarkers, ¬ Beside file.layout.legacyLine markers input := by
  obtain ⟨input, hinput, h⟩ := PolicyFile.migrate_eq_ok.mp h
  have hlayout := file.proper
  obtain ⟨src, pre, post, htrim, rfl, haround, -, hcase⟩ := hlayout.migrated file.first h
  obtain ⟨-, body, rfl, hbody⟩ := trimPolicySource_block htrim
  have hcut := haround.cut hbody
  have hunique : (∀ other, file.input existing = .ok other →
      ∀ markers ∈ file.layout.markers :: file.layout.retiredMarkers, ¬ Beside file.layout.legacyLine markers other) ↔
      ∀ markers ∈ file.layout.markers :: file.layout.retiredMarkers, ¬ Beside file.layout.legacyLine markers input :=
    ⟨fun hall => hall input hinput, fun hall other hother => Except.ok.inj (hinput.symm.trans hother) ▸ hall⟩
  rw [hunique, Superseding, and_iff_right hcut.once, hlayout.beside_iff List.mem_cons_self hcut]
  rcases hcase with ⟨⟨hpre, hpost⟩, hclear⟩ | ⟨markers, hmem, ⟨old, hold⟩, hother⟩
  · -- without a block: the counts say that no line is left, and no block was there
    constructor
    · rintro - markers hmem ⟨pre', body', post', hcut', -⟩
      have hopening := hclear _ (file.layout.mem_words hmem).1
      rw [hcut'.once.1] at hopening
      cases hopening
    · rintro - (hline | hline)
      · exact hlayout.legacy.inFront_count hline hpre
      · exact hlayout.legacy.behind_count hline hpost
  · -- over a block: what was beside it is what is beside it
    rw [← hlayout.beside_iff hmem hold]
    constructor
    · intro hnot other hmem' hbeside
      rcases hother other hmem' with rfl | hfree
      · exact hnot hbeside
      · obtain ⟨pre', body', post', hcut', -⟩ := hbeside
        have hopening := hcut'.once.1
        rw [hfree.1] at hopening
        cases hopening
    · exact fun hnot => hnot markers hmem

end Files

/-! ### A rule that stays -/

namespace SampleInstaller

scoped instance installer : Host where
  nfc := id
  temporaryRoot := []

scoped instance digest : FileDigest where
  sha256 _ := ""

end SampleInstaller

namespace Samples

scoped instance host : PolicyHost where
  decodeError _ := ""
  caseStatePath home := home
  loads _ := .ok none

/-- A managed block with one empty line. -/
def rulesBlock : Bytes := rulesMarkers.block [newline]

/-- A line end, and the rule that allows every merge. -/
def mergeRule : Bytes := newline :: rulesLegacyLine

/-- The block, and the rule behind it. -/
def rulesFile : Bytes := rulesBlock ++ mergeRule

end Samples

open Samples
open scoped CodingOS.Python.SampleProcess SampleInstaller

theorem sample_newline : ∀ c ∈ [newline], isNewline c = true := by simp [isNewline]

theorem sample_around : Around rulesLayout [] mergeRule := by
  refine ⟨rfl, by decide +kernel, fun word _ => count_nil, fun word hword => ?_⟩
  have hone := rules_proper.line word hword
  have hsplit := hone.count_append (l := [newline]) (r := rulesLegacyLine) (Or.inl (newlines_line sample_newline).1)
  rw [hone.count_newlines sample_newline] at hsplit
  exact hsplit.trans (by rw [Nat.zero_add]; exact rules_proper.legacy_clear word hword)

theorem sample_free : rulesMarkers.Free [newline] := by
  obtain ⟨hopening, hclosing⟩ := rulesLayout.mem_words List.mem_cons_self
  exact ⟨(rules_proper.line _ hopening).count_newlines sample_newline,
    (rules_proper.line _ hclosing).count_newlines sample_newline⟩

theorem sample_trim : trimPolicySource rulesBlock "default.rules" rulesMarkers = .ok rulesBlock :=
  trimPolicySource_self sample_free (by decide +kernel)
    (rules_proper.line _ (rulesLayout.mem_words List.mem_cons_self).2)

theorem sample_current : rulesLayout.Current rulesBlock := by
  intro markers hmem
  obtain rfl := List.mem_singleton.mp hmem
  decide +kernel

theorem sample_migrate {pre post : Bytes} (haround : Around rulesLayout pre post) :
    (PolicyFile.rules none).migrate (pre ++ (rulesBlock ++ post)) rulesBlock = .ok (pre ++ (rulesBlock ++ post)) :=
  PolicyFile.migrate_eq_ok.mpr ⟨_, rfl, rules_proper.migrate_again haround sample_trim sample_current⟩

theorem sample_cut {pre post : Bytes} (haround : Around rulesLayout pre post) :
    rulesMarkers.Cut (pre ++ (rulesBlock ++ post)) pre [newline] post :=
  haround.cut sample_free

/-- A block alone has no legacy line beside it, and so its migration has none. -/
theorem superseded_line_gone_sample : Superseding rulesLayout rulesBlock := by
  have haround : Around rulesLayout [] [] :=
    ⟨rfl, rfl, fun word _ => count_nil, fun word _ => count_nil⟩
  have hmigrate : (PolicyFile.rules none).migrate rulesBlock rulesBlock = .ok rulesBlock := by
    simpa only [List.nil_append, List.append_nil] using sample_migrate haround
  have hcut : rulesMarkers.Cut rulesBlock [] [newline] [] := by
    simpa only [List.nil_append, List.append_nil] using sample_cut haround
  refine (superseded_line_gone_iff (.rules none) rulesBlock rulesBlock rulesBlock hmigrate).mpr ?_
  intro input hinput markers hmem hbeside
  obtain rfl := Except.ok.inj hinput
  rcases List.mem_pair.mp hmem with rfl | rfl
  · rcases (rules_proper.beside_iff List.mem_cons_self hcut).mp hbeside with ⟨l, r, hline, -⟩ | ⟨l, r, hline, -⟩
    · have hnil := List.append_eq_nil_iff.mp hline.1.symm
      exact rulesLegacyLine_line.ne_nil (List.append_eq_nil_iff.mp hnil.2).1
    · have hnil := List.append_eq_nil_iff.mp hline.1.symm
      exact rulesLegacyLine_line.ne_nil (List.append_eq_nil_iff.mp hnil.2).1
  · obtain ⟨pre, body, post, hcut', -⟩ := hbeside
    have hopening := hcut'.once.1
    rw [(sample_current retiredRulesMarkers List.mem_cons_self).1] at hopening
    cases hopening

/-- The rule behind the block stays: the migration succeeds, and the file still allows every merge. -/
theorem merge_rule_stays : (PolicyFile.rules none).migrate rulesFile rulesBlock = .ok rulesFile ∧
    ¬ Superseding rulesLayout rulesFile := by
  have hfile : rulesFile = [] ++ (rulesBlock ++ mergeRule) := by
    rw [rulesFile, List.nil_append]
  have hline : Complete rulesLegacyLine mergeRule [newline] [] :=
    ⟨by rw [List.append_nil, mergeRule, List.singleton_append], (newlines_line sample_newline).1, lineStart_nil⟩
  rw [hfile]
  refine ⟨sample_migrate sample_around, fun h => h.2 ?_⟩
  exact (rules_proper.beside_iff List.mem_cons_self (sample_cut sample_around)).mpr
    (Or.inr ⟨[newline], [], hline, List.cons_ne_nil _ _⟩)

end CodingOS.PolicyMigration
