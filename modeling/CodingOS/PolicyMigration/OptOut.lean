import CodingOS.PolicyMigration.CommandRules
import CodingOS.PolicyMigration.Superseded

/-!
# Opting out

The removal of the managed block leaves what is around it.  Whether the block can be put there again depends on
what that is: each other branch of the migration takes bytes out of the file, so only the end of `default.rules`
and the campaign's own layout of `AGENTS.md` give the same file back.
-/

namespace CodingOS.PolicyMigration

open CodingOS.Python CodingOS.Installer
open Systems.Occurrence Systems.Result

variable {existing source src r kept pre body post : Bytes}

/-- A line end, or nothing. -/
def LineBreak (s : Bytes) : Prop := s = [] ∨ s = [newline] ∨ s = [carriage, newline]

/-- The bytes outside a block are those of a file, up to the line end next to the block. -/
def SameOutside (kept pre post : Bytes) : Prop :=
  ∃ front back before after, LineBreak before ∧ LineBreak after ∧ kept = front ++ back ∧
    pre = front ++ before ∧ post = after ++ back

theorem SameOutside.length_le (h : SameOutside kept pre post) : kept.length ≤ pre.length + post.length := by
  obtain ⟨front, back, before, after, -, -, rfl, rfl, rfl⟩ := h
  simp only [List.length_append]
  omega

/-! ### Lengths -/

theorem slice_length {i j : ℕ} (h : j ≤ existing.length) : (slice existing i j).length = j - i := by
  rw [slice, List.length_drop, List.length_take, Nat.min_eq_left h]

theorem length_splice {cursor : ℕ} {spans : List Span} (h : Aligned existing cursor spans) :
    (splice existing cursor spans).length + (spans.map fun span => span.2.1 - span.1).sum + cursor
      = existing.length + (spans.map fun span => span.2.2.length).sum := by
  induction spans generalizing cursor with
  | nil =>
      have hle : cursor ≤ existing.length := h
      simp only [splice, List.length_drop, List.map_nil, List.sum_nil]
      omega
  | cons span rest ih =>
      obtain ⟨begin, finish, newBytes⟩ := span
      obtain ⟨hle, hsection, -, hrest⟩ := h
      have hlt := hsection.lt
      have hbound := hsection.le
      have htail := ih hrest
      simp only [splice, List.length_append, List.map_cons, List.sum_cons]
      rw [slice_length (by omega)]
      omega

theorem unixLines_length (s : Bytes) : (unixLines s).length ≤ s.length := by
  induction s with
  | nil => exact Nat.le_refl _
  | cons c s ih =>
      rw [unixLines]
      split_ifs
      · exact ih.trans (Nat.le_succ _)
      · exact Nat.succ_le_succ ih

theorem agentsTexts_length : agentsCampaignAuthorityLine.length + agentsCampaignRoutingPointer.length + 2 <
    agentsLegacyBlockNormalizedSize := by decide +kernel

/-- A file that is its legacy line is replaced as a whole. -/
theorem replaceLegacyLine_self (layout : Layout) (src : Bytes) (h : OneLine layout.legacyLine) :
    replaceLegacyLine layout.legacyLine src layout = .ok src := by
  have hcount : count layout.legacyLine layout.legacyLine = 1 := by
    have hself := count_append_self h.ne_nil []
    rwa [List.append_nil, count_nil] at hself
  have hfind : find layout.legacyLine layout.legacyLine = 0 := by
    obtain ⟨c, s, hs⟩ := List.exists_cons_of_ne_nil h.ne_nil
    rw [hs]
    exact find_cons_of_begins (List.prefix_refl _)
  simp only [replaceLegacyLine, hcount, hfind]
  rw [if_neg (by decide), if_neg (by decide), if_pos]
  · simp
  · simp [lineBegins, lineEnds]

section Files

variable [Runtime] [Host] [PolicyHost] [FileDigest] {file : PolicyFile}

omit [Runtime] [Host] [PolicyHost] in
/-- A known layout loses its lifecycle section. -/
theorem KnownSpans.length_lt {lifecycle authority routing : ℕ × ℕ} (h : KnownSpans existing lifecycle authority routing)
    {lineEnd : Bytes} (hline : lineEnd = [newline] ∨ lineEnd = [carriage, newline])
    (hoverlap : overlap (List.insertionSort Span.before
      (knownReplacements lifecycle authority routing (src ++ lineEnd))) = false) :
    (splice existing 0 (List.insertionSort Span.before
      (knownReplacements lifecycle authority routing (src ++ lineEnd)))).length < existing.length + src.length := by
  have hlength := length_splice (h.aligned hline hoverlap)
  have hperm := List.perm_insertionSort Span.before (knownReplacements lifecycle authority routing (src ++ lineEnd))
  rw [(hperm.map _).sum_eq, (hperm.map _).sum_eq] at hlength
  simp only [knownReplacements, List.map_cons, List.map_nil, List.sum_cons, List.sum_nil, List.length_append] at hlength
  have hbound := h.lifecycle_section.le
  have hold := (unixLines_length (slice existing lifecycle.1 lifecycle.2)).trans (slice_length hbound).le
  rw [h.lifecycle_size] at hold
  have htexts := agentsTexts_length
  have hend : lineEnd.length ≤ 2 := by
    rcases hline with rfl | rfl <;> simp
  simp only [knownReplacements] at hlength ⊢
  omega

/-! ### What can be put back -/

def PolicyFile.Reinstalls (file : PolicyFile) (kept source : Bytes) : Prop :=
  ∃ r pre body post, file.migrate kept source = .ok r ∧ file.layout.markers.Cut r pre body post ∧
    SameOutside kept pre post

/-- What an opt-out leaves is put back: it has no marker and no legacy line, `default.rules` has no retired command
rule for the Codex home, and `AGENTS.md` is in the campaign's markerless layout. -/
structure PolicyFile.Reinstallable (file : PolicyFile) (kept : Bytes) : Prop where
  input : file.input kept = .ok kept
  clear : file.layout.Clear kept
  legacy : count file.layout.legacyLine kept = 0
  campaign : file = .agents → CampaignLayout kept

omit [FileDigest] in
theorem PolicyFile.input_cases {input : Bytes} (h : file.input kept = .ok input) :
    input = kept ∨ ∃ home, file = .rules (some home) ∧ removeRetiredCaseStateCommandRules kept home = .ok input := by
  match file, h with
  | .agents, h => exact Or.inl (Except.ok.inj h).symm
  | .rules none, h => exact Or.inl (Except.ok.inj h).symm
  | .rules (some home), h => exact Or.inr ⟨home, rfl, h⟩

omit [FileDigest] in
theorem PolicyFile.input_count {input word : Bytes} (hword : OneLine word) (h : file.input kept = .ok input) :
    count word input ≤ count word kept := by
  rcases PolicyFile.input_cases h with rfl | ⟨home, -, h⟩
  · exact Nat.le_refl _
  · exact removeRetired_count hword h

omit [FileDigest] in
theorem PolicyFile.input_length {input : Bytes} (h : file.input kept = .ok input) :
    input = kept ∨ input.length + 3 ≤ kept.length := by
  rcases PolicyFile.input_cases h with rfl | ⟨home, -, h⟩
  · exact Or.inl rfl
  · by_cases heq : input = kept
    · exact Or.inl heq
    · exact Or.inr (removeRetired_length h heq)

omit [Runtime] [Host] [PolicyHost] [FileDigest] in
/-- Where the parts around a block meet, no pair of markers arises. -/
theorem Around.not_once {layout : Layout} (hlayout : layout.Proper) (haround : Around layout pre post)
    {markers : Brackets UInt8} (hmarkers : markers ∈ layout.markers :: layout.retiredMarkers)
    {input : Bytes} (hcount : ∀ word ∈ layout.words, count word input ≤ count word (pre ++ post)) : ¬ markers.Once input := by
  rintro ⟨hopening, hclosing, -⟩
  obtain ⟨hmem, hmem'⟩ := layout.mem_words hmarkers
  have hle := hcount _ hmem
  have hle' := hcount _ hmem'
  rcases (hlayout.marker _ hmem).one_across (hlayout.marker _ hmem') markers.apart.1 markers.apart.2
    (haround.clear_pre _ hmem) (haround.clear_post _ hmem) (haround.clear_pre _ hmem') (haround.clear_post _ hmem')
    with hzero | hzero
  · omega
  · omega

theorem reinstalls_of_reinstallable (haround : Around file.layout pre post)
    (htrim : trimPolicySource source file.layout.label file.layout.markers = .ok src)
    (h : file.Reinstallable (pre ++ post)) : file.Reinstalls (pre ++ post) source := by
  have hlayout := file.proper
  have hstrict : Utf8.strict (pre ++ post) = true := Utf8.strict_append haround.strict_pre haround.strict_post
  obtain ⟨hactive, hretired⟩ := Layout.clear_iff.mp h.clear
  have hfree := replaceLineOrMarker_free hstrict htrim hactive hretired
  obtain ⟨-, body, hsrc, hbody⟩ := trimPolicySource_block htrim
  have hlegacy := h.legacy
  match file, h, haround, htrim, hfree, hlayout, hsrc, hbody, hlegacy with
  | .agents, h, haround, htrim, hfree, hlayout, hsrc, hbody, hlegacy =>
      have hcampaign := h.campaign rfl
      obtain ⟨front, back, hkept, htake, hdrop, haround', -, -⟩ := first_markerless hcampaign hstrict h.clear hlegacy
      have hmigrate : replaceLegacyLine (pre ++ post) src agentsLayout =
          .ok (front ++ (src ++ (reinstalledLineEnd (pre ++ post) ++ back))) := by
        have hmarkerless : migrateMarkerlessCampaignAgentsLayout (pre ++ post) src =
            .ok (some (front ++ (src ++ (reinstalledLineEnd (pre ++ post) ++ back)))) :=
          markerless_some.mpr ⟨hcampaign, by rw [htake, hdrop]⟩
        have hknown : migrateKnownAgentsLayout (pre ++ post) src =
            .ok (front ++ (src ++ (reinstalledLineEnd (pre ++ post) ++ back))) :=
          bind_eq_ok.mpr ⟨_, hmarkerless, rfl⟩
        exact (replaceLegacyLine_first hlegacy rfl).trans hknown
      subst hsrc
      refine ⟨_, _, _, _, PolicyFile.migrate_eq_ok.mpr ⟨_, h.input, hfree.trans hmigrate⟩, haround'.cut hbody, ?_⟩
      refine ⟨front, back, [], reinstalledLineEnd (pre ++ post), Or.inl rfl, Or.inr ?_, hkept, by simp, rfl⟩
      exact reinstalledLineEnd_cases _
  | .rules codexHome, h, haround, htrim, hfree, hlayout, hsrc, hbody, hlegacy =>
      obtain ⟨separator, hseparator, hmigrate⟩ := replaceLegacyLine_append src hlegacy rfl rfl
      have haround' := rules_proper.around_append hseparator hstrict h.clear
      have hcut := haround'.cut hbody
      have hblock : rulesLayout.markers.block body = src := hsrc.symm
      rw [hblock, List.append_nil, List.append_assoc] at hcut
      refine ⟨_, _, _, _, PolicyFile.migrate_eq_ok.mpr ⟨_, h.input, hfree.trans hmigrate⟩, hcut, ?_⟩
      refine ⟨pre ++ post, [], separator, [], hseparator.imp id Or.inl, Or.inl rfl, by simp, rfl, rfl⟩

/-- The block comes back around the same bytes only where nothing else is taken out. -/
theorem reinstallable_of_reinstalls (haround : Around file.layout pre post) (h : file.Reinstalls (pre ++ post) source) :
    file.Reinstallable (pre ++ post) := by
  obtain ⟨r, front, body, back, hmigrate, hcut, hsame⟩ := h
  obtain ⟨input, hinput, hmigrate⟩ := PolicyFile.migrate_eq_ok.mp hmigrate
  have hlayout := file.proper
  have hcount : ∀ word ∈ file.layout.words, count word input ≤ count word (pre ++ post) :=
    fun word hword => PolicyFile.input_count (hlayout.line word hword) hinput
  have hnever : ∀ markers ∈ file.layout.markers :: file.layout.retiredMarkers, ¬ markers.Once input :=
    fun markers hmem => haround.not_once hlayout hmem hcount
  -- the length of what is around the block that was written
  obtain ⟨src, front', back', htrim, hr, haround', -, -⟩ := hlayout.migrated file.first hmigrate
  obtain ⟨-, body', rfl, hbody'⟩ := trimPolicySource_block htrim
  have hcut' := haround'.cut hbody'
  rw [← hr] at hcut'
  obtain ⟨rfl, rfl, rfl⟩ := hcut.unique hcut'
  have hlength : r.length = front.length + ((file.layout.markers.block body).length + back.length) := by
    rw [hr]
    simp only [List.length_append]
  have hsame := hsame.length_le
  obtain ⟨hstrict, src, htrim', hcase⟩ := replaceLineOrMarker_cases hmigrate
  obtain rfl := Except.ok.inj (htrim.symm.trans htrim')
  rcases hcase with ⟨honce, -, -⟩ | ⟨-, markers, hmem, honce, -⟩ | ⟨hactive, hretired, h⟩
  · exact absurd honce (hnever _ List.mem_cons_self)
  · exact absurd honce (hnever _ (List.mem_cons_of_mem _ hmem))
  · have hclear : file.layout.Clear input := Layout.clear_iff.mpr ⟨hactive, hretired⟩
    have hshort := PolicyFile.input_length hinput
    rcases replaceLegacyLine_cases h with ⟨hnone, first, hfirst, hr'⟩ |
      ⟨hnone, happend, separator, hseparator, hr'⟩ | ⟨hone, -, -, hr'⟩
    · cases file with
      | rules codexHome => cases hfirst
      | agents =>
          obtain rfl := Except.ok.inj hinput
          obtain rfl : migrateKnownAgentsLayout = first := Option.some.inj hfirst
          rcases migrateKnownAgentsLayout_cases hr' with ⟨hcampaign, -⟩ | ⟨-, lifecycle, authority, routing, lineEnd,
            hspans, hline, hoverlap, hr'⟩
          · exact ⟨rfl, hclear, hnone, fun _ => hcampaign⟩
          · have hlt := hspans.length_lt hline hoverlap
            rw [← hr', hlength] at hlt
            omega
    · have hends : separator.length ≤ 1 := by
        rcases hseparator with rfl | ⟨rfl, -⟩ <;> simp
      have hwritten := congrArg List.length hr'
      simp only [List.length_append] at hwritten
      rw [List.length_append] at hsame
      have hkept : input = pre ++ post := by
        rcases hshort with hkept | hshort
        · exact hkept
        · rw [List.length_append] at hshort
          omega
      subst hkept
      refine ⟨hinput, hclear, hnone, ?_⟩
      rintro rfl
      cases happend
    · obtain ⟨before, after, hcuts, hfind, -, -⟩ := once_spec hlayout.legacy.ne_nil hone
      obtain ⟨htake, hdrop⟩ := take_find_drop hcuts hfind
      rw [htake, hdrop] at hr'
      have hwritten := congrArg List.length hr'
      have hinput_length := congrArg List.length hcuts
      simp only [List.length_append] at hwritten hinput_length
      have hpos := List.length_pos_of_ne_nil hlayout.legacy.ne_nil
      have hle : input.length ≤ (pre ++ post).length := by
        rcases hshort with rfl | hshort
        · exact Nat.le_refl _
        · omega
      omega

/-- **Opting out and back.**  The block a migration wrote can always be removed.  What is left gives the same bytes
around one block again exactly when it has no marker, no legacy line and no retired command rule, and is, for
`AGENTS.md`, in the campaign's markerless layout. -/
theorem opt_out_reversible_iff (file : PolicyFile) (existing source r : Bytes)
    (h : file.migrate existing source = .ok r) :
    ∃ kept, file.remove r = .ok kept ∧ (file.Reinstalls kept source ↔ file.Reinstallable kept) := by
  obtain ⟨input, -, h⟩ := PolicyFile.migrate_eq_ok.mp h
  obtain ⟨src, pre, post, htrim, rfl, haround, -, -⟩ := file.proper.migrated file.first h
  have hremove : file.remove (pre ++ (src ++ post)) = .ok (pre ++ post) := by
    cases file with
    | agents => exact haround.remove htrim
    | rules codexHome => exact haround.remove htrim
  exact ⟨pre ++ post, hremove, reinstallable_of_reinstalls haround, reinstalls_of_reinstallable haround htrim⟩

end Files

/-! ### A file that is not migrated again -/

open Samples
open scoped CodingOS.Python.SampleProcess SampleInstaller

theorem sample_empty : Around rulesLayout [] [] :=
  ⟨rfl, rfl, fun _ _ => count_nil, fun _ _ => count_nil⟩

/-- An empty `default.rules` gets its block, and gets it again behind an opt-out. -/
theorem opt_out_reversible_sample : ∃ kept, (PolicyFile.rules none).remove rulesBlock = .ok kept ∧
    ((PolicyFile.rules none).Reinstalls kept rulesBlock ↔ (PolicyFile.rules none).Reinstallable kept) := by
  have hmigrate : (PolicyFile.rules none).migrate rulesBlock rulesBlock = .ok rulesBlock := by
    simpa only [List.nil_append, List.append_nil] using sample_migrate sample_empty
  exact opt_out_reversible_iff (.rules none) rulesBlock rulesBlock rulesBlock hmigrate

/-- A managed block for `AGENTS.md` with one empty line. -/
def agentsBlock : Bytes := agentsMarkers.block [newline]

theorem sample_agents_trim : trimPolicySource agentsBlock "AGENTS.md" agentsMarkers = .ok agentsBlock := by
  obtain ⟨hopening, hclosing⟩ := agentsLayout.mem_words List.mem_cons_self
  exact trimPolicySource_self ⟨(agents_proper.line _ hopening).count_newlines sample_newline,
    (agents_proper.line _ hclosing).count_newlines sample_newline⟩ (by decide +kernel) (agents_proper.line _ hclosing)

/-- Nothing is not a known layout. -/
theorem empty_not_migrated (r : Bytes) : PolicyFile.agents.migrate [] agentsBlock ≠ .ok r := by
  intro h
  obtain ⟨-, src, -, hcase⟩ := replaceLineOrMarker_cases h
  rcases hcase with ⟨honce, -, -⟩ | ⟨-, markers, -, honce, -⟩ | ⟨-, -, h⟩
  · cases honce.1
  · cases honce.1
  · rw [replaceLegacyLine_first count_nil rfl] at h
    rcases migrateKnownAgentsLayout_cases h with ⟨hcampaign, -⟩ | ⟨-, lifecycle, authority, routing, lineEnd, hspans, -⟩
    · obtain ⟨pre, post, hempty, -, -⟩ := hcampaign.split
      have hstart := (List.append_eq_nil_iff.mp (List.append_eq_nil_iff.mp hempty.symm).2).1
      have hline : OneLine agentsLegacyRoutingStart := agentsTexts_line (by simp [agentsTexts])
      exact hline.ne_nil hstart
    · have hlt := hspans.lifecycle_section.lt
      have hle := hspans.lifecycle_section.le
      rw [List.length_nil] at hle
      omega

/-- A file that is its legacy line is migrated, and the block is removed again: what is left is nothing, and that is
not migrated. -/
theorem legacy_file_not_reinstalled : PolicyFile.agents.migrate agentsLegacyLine agentsBlock = .ok agentsBlock ∧
    PolicyFile.agents.remove agentsBlock = .ok [] ∧ ¬ PolicyFile.agents.Reinstalls [] agentsBlock := by
  have haround : Around agentsLayout [] [] :=
    ⟨rfl, rfl, fun _ _ => count_nil, fun _ _ => count_nil⟩
  obtain ⟨hactive, hretired⟩ := Layout.clear_iff.mp agents_proper.legacy_clear
  have hstrict : Utf8.strict agentsLegacyLine = true := by
    have h := Utf8.strict_ascii_append (r := []) agentsLegacyLine_line.ascii
    rw [List.append_nil] at h
    exact h.mpr rfl
  have hmigrate : replaceLineOrMarker agentsLegacyLine agentsBlock agentsLayout = .ok agentsBlock := by
    rw [replaceLineOrMarker_free hstrict sample_agents_trim hactive hretired]
    exact replaceLegacyLine_self agentsLayout agentsBlock agentsLegacyLine_line
  refine ⟨hmigrate, ?_, ?_⟩
  · have hremove : removeExactMarker ([] ++ (agentsBlock ++ [])) agentsMarkers "AGENTS.md" = .ok ([] ++ []) :=
      haround.remove sample_agents_trim
    rw [List.nil_append, List.append_nil] at hremove
    exact hremove
  · rintro ⟨r, pre, body, post, hmigrate, -⟩
    exact empty_not_migrated r hmigrate

end CodingOS.PolicyMigration
