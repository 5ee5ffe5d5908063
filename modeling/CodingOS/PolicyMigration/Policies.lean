import CodingOS.PolicyMigration.KnownLayouts
import CodingOS.PolicyMigration.RetiredRules

/-!
# The two policies

`AGENTS.md` and `default.rules` have proper layouts: their markers keep apart, and the texts that a migration
writes beside the block hold neither a marker nor the legacy line.
-/

namespace CodingOS.PolicyMigration

open CodingOS.Python CodingOS.Installer
open Systems.Occurrence Systems.Result

variable {existing src r : Bytes}

/-- The markers of `default.rules`. -/
def rulesWords : List Bytes := [rulesStart, rulesEnd, retiredRulesStart, retiredRulesEnd]

/-- The markers of `AGENTS.md`. -/
def agentsWords : List Bytes := [agentsStart, agentsEnd, retiredAgentsStart, retiredAgentsEnd]

/-- The texts the known layouts are recognized by. -/
def agentsTexts : List Bytes := [agentsLegacyRoutingStart, agentsLegacyRoutingSentinel, agentsLegacyBlockStart,
  agentsLegacyBlockSentinel, agentsLegacyAuthorityLine]

/-- The constants of the two policies. -/
theorem policy_letters :
    ((∀ word ∈ rulesWords, Marker 35 word) ∧
      (∀ word ∈ rulesWords, ∀ other ∈ rulesWords, word = other ∨ Apart word other) ∧
      (∀ word ∈ rulesLegacyLine :: rulesWords, printable word = true) ∧ (35 : UInt8) ∉ rulesLegacyLine) ∧
    ((∀ word ∈ agentsWords, Marker 60 word) ∧
      (∀ word ∈ agentsWords, ∀ other ∈ agentsWords, word = other ∨ Apart word other) ∧
      (∀ word ∈ agentsLegacyLine :: agentsWords ++ agentsTexts, printable word = true) ∧
      (60 : UInt8) ∉ agentsLegacyLine) ∧
    (60 : UInt8) ∉ agentsCampaignAuthorityLine ∧ (60 : UInt8) ∉ agentsCampaignRoutingPointer ∧
    (count agentsLegacyLine agentsCampaignAuthorityLine = 0 ∧
      count agentsLegacyLine agentsCampaignRoutingPointer = 0) ∧
    (Utf8.strict agentsCampaignAuthorityLine = true ∧ Utf8.strict agentsCampaignRoutingPointer = true) ∧
    agentsCampaignRoutingPointer.getLast? = some newline := by
  decide +kernel

/-- The constants of `default.rules`: markers that are told apart, and lines of printable letters. -/
theorem rules_letters : (∀ word ∈ rulesWords, Marker 35 word) ∧
    (∀ word ∈ rulesWords, ∀ other ∈ rulesWords, word = other ∨ Apart word other) ∧
    (∀ word ∈ rulesLegacyLine :: rulesWords, printable word = true) ∧ (35 : UInt8) ∉ rulesLegacyLine :=
  policy_letters.1

theorem rulesWords_marker : ∀ word ∈ rulesWords, Marker 35 word := rules_letters.1

theorem rulesLegacyLine_line : OneLine rulesLegacyLine :=
  oneLine_of_printable (rules_letters.2.2.1 _ List.mem_cons_self)

theorem rules_words : rulesLayout.words = rulesWords := by
  simp only [Layout.words, rulesLayout, rulesWords, List.flatMap_cons, List.flatMap_nil, List.cons_append, List.nil_append]
  simp only [rulesMarkers, retiredRulesMarkers]

theorem rules_proper : rulesLayout.Proper where
  marker := by
    rw [rules_words]
    exact rulesWords_marker
  apart := by
    rw [rules_words]
    exact rules_letters.2.1
  line := by
    rw [rules_words]
    exact fun word hword => oneLine_of_printable (rules_letters.2.2.1 word (List.mem_cons_of_mem _ hword))
  legacy := rulesLegacyLine_line
  legacy_clear := by
    rw [Layout.Clear, rules_words]
    exact fun word hword => count_of_head_not_mem (rulesWords_marker word hword).1 rules_letters.2.2.2

theorem rules_first [FileDigest] : rulesLayout.First := by
  intro firstMigration hmem
  cases hmem

/-- The constants of `AGENTS.md`: markers that are told apart, and lines of printable letters. -/
theorem agents_letters : (∀ word ∈ agentsWords, Marker 60 word) ∧
    (∀ word ∈ agentsWords, ∀ other ∈ agentsWords, word = other ∨ Apart word other) ∧
    (∀ word ∈ agentsLegacyLine :: agentsWords ++ agentsTexts, printable word = true) ∧
    (60 : UInt8) ∉ agentsLegacyLine :=
  policy_letters.2.1

theorem agentsWords_marker : ∀ word ∈ agentsWords, Marker 60 word := agents_letters.1

theorem agentsWords_printable {word : Bytes} (h : word ∈ agentsWords) : printable word = true :=
  agents_letters.2.2.1 word (List.mem_append_left _ (List.mem_cons_of_mem _ h))

theorem agentsLegacyLine_line : OneLine agentsLegacyLine :=
  oneLine_of_printable (agents_letters.2.2.1 _ List.mem_cons_self)

/-- What the first migration writes beside the block is text without markers, and ends its line. -/
theorem campaign_letters : (60 : UInt8) ∉ agentsCampaignAuthorityLine ∧
    (60 : UInt8) ∉ agentsCampaignRoutingPointer ∧
    (count agentsLegacyLine agentsCampaignAuthorityLine = 0 ∧
      count agentsLegacyLine agentsCampaignRoutingPointer = 0) ∧
    (Utf8.strict agentsCampaignAuthorityLine = true ∧ Utf8.strict agentsCampaignRoutingPointer = true) ∧
    agentsCampaignRoutingPointer.getLast? = some newline :=
  policy_letters.2.2

/-- What the first migration writes beside the block has no marker and no legacy line. -/
theorem agentsTexts_clear : ∀ word ∈ agentsLegacyLine :: agentsWords,
    count word agentsCampaignAuthorityLine = 0 ∧ count word agentsCampaignRoutingPointer = 0 := by
  obtain ⟨hauthority, hpointer, hlegacy, -⟩ := campaign_letters
  rw [List.forall_mem_cons]
  refine ⟨hlegacy, fun word hword => ?_⟩
  have hhead := (agentsWords_marker word hword).1
  exact ⟨count_of_head_not_mem hhead hauthority, count_of_head_not_mem hhead hpointer⟩

theorem agentsTexts_line {text : Bytes} (h : text ∈ agentsTexts) : OneLine text :=
  oneLine_of_printable (agents_letters.2.2.1 text (List.mem_append_right _ h))

section Agents

variable [FileDigest]

theorem agents_words : agentsLayout.words = agentsWords := by
  simp only [Layout.words, agentsLayout, agentsWords, List.flatMap_cons, List.flatMap_nil, List.cons_append, List.nil_append]
  simp only [agentsMarkers, retiredAgentsMarkers]

theorem agents_proper : agentsLayout.Proper where
  marker := by
    rw [agents_words]
    exact agentsWords_marker
  apart := by
    rw [agents_words]
    exact agents_letters.2.1
  line := by
    rw [agents_words]
    exact fun word hword => oneLine_of_printable (agentsWords_printable hword)
  legacy := agentsLegacyLine_line
  legacy_clear := by
    rw [Layout.Clear, agents_words]
    exact fun word hword => count_of_head_not_mem (agentsWords_marker word hword).1 agents_letters.2.2.2

end Agents

/-! ### The markerless layout -/

/-- The exact layout that an opt-out leaves of a migrated `AGENTS.md`: the campaign's authority line, and its
routing pointer in front of the next section. -/
structure CampaignLayout (existing : Bytes) : Prop where
  markerless : markerlessCampaign existing = true
  authority : ∃ span, exactLineSpan existing agentsCampaignAuthorityLine "AGENTS.md" = .ok span ∧
    ¬ (find agentsLegacyRoutingStart existing ≤ span.1 ∧ span.1 < find agentsLegacyRoutingSentinel existing)
  order : find agentsLegacyRoutingStart existing < find agentsLegacyRoutingSentinel existing
  begins : 0 < find agentsLegacyRoutingStart existing →
    slice existing (find agentsLegacyRoutingStart existing - 1) (find agentsLegacyRoutingStart existing) = [newline]
  routing : unixLines (slice existing (find agentsLegacyRoutingStart existing)
    (find agentsLegacyRoutingSentinel existing)) = agentsCampaignRoutingPointer

/-- The line end behind a block that comes back. -/
def reinstalledLineEnd (existing : Bytes) : Bytes :=
  newlineOf (slice existing (find agentsLegacyRoutingStart existing) (find agentsLegacyRoutingSentinel existing))

theorem reinstalledLineEnd_cases (existing : Bytes) :
    reinstalledLineEnd existing = [newline] ∨ reinstalledLineEnd existing = [carriage, newline] := by
  unfold reinstalledLineEnd newlineOf
  split_ifs
  · exact Or.inr rfl
  · exact Or.inl rfl

theorem markerless_none : migrateMarkerlessCampaignAgentsLayout existing src = .ok none ↔
    markerlessCampaign existing = false := by
  constructor
  · intro h
    unfold migrateMarkerlessCampaignAgentsLayout at h
    by_contra hcampaign
    rw [if_neg hcampaign] at h
    obtain ⟨span, -, h⟩ := bind_eq_ok.mp h
    simp only [policyError] at h
    split_ifs at h
    cases h
  · intro h
    unfold migrateMarkerlessCampaignAgentsLayout
    rw [if_pos h]

theorem markerless_some : migrateMarkerlessCampaignAgentsLayout existing src = .ok (some r) ↔
    CampaignLayout existing ∧ r = existing.take (find agentsLegacyRoutingStart existing) ++
      (src ++ (reinstalledLineEnd existing ++ existing.drop (find agentsLegacyRoutingStart existing))) := by
  constructor
  · intro h
    unfold migrateMarkerlessCampaignAgentsLayout at h
    have hcampaign : markerlessCampaign existing = true := by
      by_contra hnot
      rw [if_pos (Bool.eq_false_of_not_eq_true hnot)] at h
      cases h
    rw [if_neg (by rw [hcampaign]; decide)] at h
    obtain ⟨span, hspan, h⟩ := bind_eq_ok.mp h
    simp only [policyError] at h
    split_ifs at h with horder hbegins hrouting hapart
    rw [not_and, not_not] at hbegins
    exact ⟨⟨hcampaign, ⟨span, hspan, hapart⟩, by omega, hbegins, not_not.mp hrouting⟩,
      Option.some.inj (pure_eq_ok.mp h)⟩
  · rintro ⟨⟨hcampaign, ⟨span, hspan, hapart⟩, horder, hbegins, hrouting⟩, rfl⟩
    unfold migrateMarkerlessCampaignAgentsLayout
    rw [if_neg (by rw [hcampaign]; decide)]
    refine bind_eq_ok.mpr ⟨span, hspan, ?_⟩
    simp only
    rw [if_neg (by omega), if_neg fun h => h.2 (hbegins h.1), if_neg fun h => h hrouting, if_neg hapart]
    rfl

theorem CampaignLayout.split (h : CampaignLayout existing) : ∃ pre post,
    existing = pre ++ (agentsLegacyRoutingStart ++ post) ∧ existing.take (find agentsLegacyRoutingStart existing) = pre ∧
      existing.drop (find agentsLegacyRoutingStart existing) = agentsLegacyRoutingStart ++ post := by
  have hcampaign := h.markerless
  simp only [markerlessCampaign, Bool.and_eq_true, beq_iff_eq] at hcampaign
  obtain ⟨pre, post, hexisting, hfind, -, -⟩ := once_spec (agentsTexts_line (by simp [agentsTexts])).ne_nil hcampaign.1.2
  refine ⟨pre, post, hexisting, ?_, ?_⟩
  · rw [hfind]
    conv_lhs => rw [hexisting]
    exact List.take_left
  · rw [hfind]
    conv_lhs => rw [hexisting]
    exact List.drop_left

/-! ### The first migration of `AGENTS.md` -/

theorem newlines_of_lineEnd {lineEnd : Bytes} (h : lineEnd = [newline] ∨ lineEnd = [carriage, newline]) :
    lineEnd ≠ [] ∧ ∀ c ∈ lineEnd, isNewline c = true := by
  rcases h with rfl | rfl
  · exact ⟨by simp, by simp [isNewline]⟩
  · exact ⟨by simp, by simp [isNewline]⟩

section First

variable [FileDigest]

/-- A markerless layout around the block that comes back. -/
theorem first_markerless (hcampaign : CampaignLayout existing) (hstrict : Utf8.strict existing = true)
    (hclear : agentsLayout.Clear existing) (hlegacy : count agentsLegacyLine existing = 0) :
    ∃ pre post, existing = pre ++ post ∧ existing.take (find agentsLegacyRoutingStart existing) = pre ∧
      existing.drop (find agentsLegacyRoutingStart existing) = post ∧
      Around agentsLayout pre (reinstalledLineEnd existing ++ post) ∧ count agentsLegacyLine pre = 0 ∧
      count agentsLegacyLine (reinstalledLineEnd existing ++ post) = 0 := by
  obtain ⟨pre, post, hexisting, htake, hdrop⟩ := hcampaign.split
  have hstart : OneLine agentsLegacyRoutingStart := agentsTexts_line (by simp [agentsTexts])
  obtain ⟨-, hlines⟩ := newlines_of_lineEnd (reinstalledLineEnd_cases existing)
  have hzero : ∀ {word : Bytes}, OneLine word → count word existing = 0 → count word pre = 0 ∧
      count word (reinstalledLineEnd existing ++ (agentsLegacyRoutingStart ++ post)) = 0 := by
    intro word hword hcount
    have hpost : agentsLegacyRoutingStart ++ post <:+ existing := ⟨pre, hexisting.symm⟩
    have hpre : pre <+: existing := ⟨agentsLegacyRoutingStart ++ post, hexisting.symm⟩
    rw [hword.count_append (Or.inl (newlines_line hlines).1), hword.count_newlines hlines]
    exact ⟨hword.count_of_part hpre.isInfix hcount, by rw [hword.count_of_part hpost.isInfix hcount]⟩
  have hutf8 : Utf8.strict (pre ++ (agentsLegacyRoutingStart ++ post)) = true := hexisting ▸ hstrict
  rw [Utf8.strict_around hstart.ascii hstart.ne_nil] at hutf8
  refine ⟨pre, agentsLegacyRoutingStart ++ post, hexisting, htake, hdrop, ⟨hutf8.1, ?_, ?_, ?_⟩,
    hzero agentsLegacyLine_line hlegacy⟩
  · rw [Utf8.strict_ascii_append fun c hc => isNewline_ascii (hlines c hc), Utf8.strict_ascii_append hstart.ascii]
    exact hutf8.2
  · exact fun word hword => (hzero (agents_proper.line word hword) (hclear word hword)).1
  · exact fun word hword => (hzero (agents_proper.line word hword) (hclear word hword)).2

/-- The three spans of a known layout, and what is put there around the block. -/
structure KnownSpans (existing : Bytes) (lifecycle authority routing : ℕ × ℕ) : Prop where
  lifecycle_section : Section existing lifecycle.1 lifecycle.2
  lifecycle_size : (unixLines (slice existing lifecycle.1 lifecycle.2)).length = agentsLegacyBlockNormalizedSize
  lifecycle_digest : FileDigest.sha256 (unixLines (slice existing lifecycle.1 lifecycle.2)) =
    agentsLegacyBlockNormalizedSha256
  routing_section : Section existing routing.1 routing.2
  routing_size : (unixLines (slice existing routing.1 routing.2)).length = agentsLegacyRoutingNormalizedSize
  routing_digest : FileDigest.sha256 (unixLines (slice existing routing.1 routing.2)) =
    agentsLegacyRoutingNormalizedSha256
  authority_section : Section existing authority.1 authority.2
  authority_line : slice existing authority.1 authority.2 = agentsLegacyAuthorityLine
  authority_ends : LineStart (existing.drop authority.2)

/-- The replacements of a known layout. -/
def knownReplacements (lifecycle authority routing : ℕ × ℕ) (newBytes : Bytes) : List Span :=
  [(lifecycle.1, lifecycle.2, newBytes), (authority.1, authority.2, agentsCampaignAuthorityLine),
    (routing.1, routing.2, agentsCampaignRoutingPointer)]

/-- A first migration is that of the markerless layout, or that of the three spans. -/
theorem migrateKnownAgentsLayout_cases (h : migrateKnownAgentsLayout existing src = .ok r) :
    (CampaignLayout existing ∧ r = existing.take (find agentsLegacyRoutingStart existing) ++
      (src ++ (reinstalledLineEnd existing ++ existing.drop (find agentsLegacyRoutingStart existing)))) ∨
    (markerlessCampaign existing = false ∧ ∃ lifecycle authority routing lineEnd,
      KnownSpans existing lifecycle authority routing ∧ (lineEnd = [newline] ∨ lineEnd = [carriage, newline]) ∧
      overlap (List.insertionSort Span.before (knownReplacements lifecycle authority routing (src ++ lineEnd))) = false ∧
      r = splice existing 0
        (List.insertionSort Span.before (knownReplacements lifecycle authority routing (src ++ lineEnd)))) := by
  obtain ⟨markerless, hmarkerless, h⟩ := bind_eq_ok.mp h
  cases markerless with
  | some found =>
      obtain rfl := pure_eq_ok.mp h
      exact Or.inl (markerless_some.mp hmarkerless)
  | none =>
      obtain ⟨lifecycle, hlifecycle, h⟩ := bind_eq_ok.mp h
      obtain ⟨routing, hrouting, h⟩ := bind_eq_ok.mp h
      obtain ⟨authority, hauthority, h⟩ := bind_eq_ok.mp h
      obtain ⟨hsection, hsize, hdigest⟩ := verifiedLegacySlice_ok (agentsTexts_line (by simp [agentsTexts]))
        (agentsTexts_line (by simp [agentsTexts])) hlifecycle
      obtain ⟨hsection', hsize', hdigest'⟩ := verifiedLegacySlice_ok (agentsTexts_line (by simp [agentsTexts]))
        (agentsTexts_line (by simp [agentsTexts])) hrouting
      obtain ⟨hline, hends, hslice⟩ := exactLineSpan_ok (agentsTexts_line (by simp [agentsTexts])) hauthority
      simp only [policyError] at h
      refine Or.inr ⟨markerless_none.mp hmarkerless, lifecycle, authority, routing,
        if endsWith (slice existing lifecycle.1 lifecycle.2) [carriage, newline] then [carriage, newline] else [newline],
        ⟨hsection, hsize, hdigest, hsection', hsize', hdigest', hline, hslice, hends⟩, ?_, ?_⟩
      · by_cases hcrlf : endsWith (slice existing lifecycle.1 lifecycle.2) [carriage, newline] = true
        · exact Or.inr (if_pos hcrlf)
        · exact Or.inl (if_neg hcrlf)
      · by_cases hoverlap : overlap (List.insertionSort Span.before (knownReplacements lifecycle authority routing
            (src ++ if endsWith (slice existing lifecycle.1 lifecycle.2) [carriage, newline] then [carriage, newline]
              else [newline]))) = true
        · rw [knownReplacements] at hoverlap
          rw [if_pos hoverlap] at h
          cases h
        · refine ⟨Bool.eq_false_of_not_eq_true hoverlap, ?_⟩
          rw [knownReplacements] at hoverlap ⊢
          rw [if_neg hoverlap] at h
          exact pure_eq_ok.mp h

/-- The spans of a known layout stand in their order, whatever is put in the place of the lifecycle section. -/
theorem KnownSpans.aligned {lifecycle authority routing : ℕ × ℕ} (h : KnownSpans existing lifecycle authority routing)
    {lineEnd : Bytes} (hline : lineEnd = [newline] ∨ lineEnd = [carriage, newline])
    (hoverlap : overlap (List.insertionSort Span.before
      (knownReplacements lifecycle authority routing (src ++ lineEnd))) = false) :
    Aligned existing 0 (List.insertionSort Span.before
      (knownReplacements lifecycle authority routing (src ++ lineEnd))) := by
  refine aligned_of_overlap hoverlap (fun span hmem => ?_) (fun _ _ => Nat.zero_le _) (Nat.zero_le _)
  rw [(List.perm_insertionSort _ _).mem_iff, knownReplacements] at hmem
  have hpointer : LineEnd agentsCampaignRoutingPointer := by
    have hlast : agentsCampaignRoutingPointer.getLast? = some newline := campaign_letters.2.2.2.2
    intro c hc
    rw [hlast] at hc
    cases hc
    rfl
  obtain ⟨hne, hlines⟩ := newlines_of_lineEnd hline
  rcases List.mem_cons.mp hmem with rfl | hmem
  · exact ⟨h.lifecycle_section, Or.inl ((lineEnd_append hne).mpr (newlines_line hlines).1)⟩
  · rcases List.mem_pair.mp hmem with rfl | rfl
    · exact ⟨h.authority_section, Or.inr h.authority_ends⟩
    · exact ⟨h.routing_section, Or.inl hpointer⟩

/-- What a first migration leaves around the block. -/
theorem first_known {lifecycle authority routing : ℕ × ℕ} (h : KnownSpans existing lifecycle authority routing)
    {lineEnd : Bytes} (hline : lineEnd = [newline] ∨ lineEnd = [carriage, newline])
    (hoverlap : overlap (List.insertionSort Span.before
      (knownReplacements lifecycle authority routing (src ++ lineEnd))) = false)
    (hstrict : Utf8.strict existing = true) (hclear : agentsLayout.Clear existing)
    (hlegacy : count agentsLegacyLine existing = 0) :
    ∃ pre post, splice existing 0 (List.insertionSort Span.before
        (knownReplacements lifecycle authority routing (src ++ lineEnd))) = pre ++ (src ++ (lineEnd ++ post)) ∧
      Around agentsLayout pre (lineEnd ++ post) ∧ count agentsLegacyLine pre = 0 ∧
      count agentsLegacyLine (lineEnd ++ post) = 0 := by
  have haligned := h.aligned hline hoverlap
  have hperm : (List.insertionSort Span.before (knownReplacements lifecycle authority routing (src ++ lineEnd))).Perm
      ((lifecycle.1, lifecycle.2, src ++ lineEnd) :: [(authority.1, authority.2, agentsCampaignAuthorityLine),
        (routing.1, routing.2, agentsCampaignRoutingPointer)]) := List.perm_insertionSort _ _
  obtain ⟨before, after, hsorted⟩ := List.append_of_mem (hperm.mem_iff.mpr List.mem_cons_self)
  rw [hsorted] at hperm haligned ⊢
  have hothers := (List.perm_middle.symm.trans hperm).cons_inv
  obtain ⟨hne, hlines⟩ := newlines_of_lineEnd hline
  -- the output with the line end alone: it has what is around the block, and no marker at all
  have halone := aligned_at haligned (newlines_line hlines).1
  obtain ⟨pre, post, hsplice⟩ := splice_at existing 0 lifecycle.1 lifecycle.2 before after
  have hnew : ∀ {P : Bytes → Prop}, P lineEnd → P agentsCampaignAuthorityLine → P agentsCampaignRoutingPointer →
      ∀ span ∈ before ++ (lifecycle.1, lifecycle.2, lineEnd) :: after, P span.2.2 := by
    intro P hend hauthority hpointer span hspan
    have hspan : span ∈ (lifecycle.1, lifecycle.2, lineEnd) :: (before ++ after) := List.perm_middle.mem_iff.mp hspan
    rcases List.mem_cons.mp hspan with rfl | hspan
    · exact hend
    · rcases List.mem_pair.mp (hothers.mem_iff.mp hspan) with rfl | rfl
      · exact hauthority
      · exact hpointer
  have hcount : ∀ word ∈ agentsLegacyLine :: agentsWords, OneLine word → count word existing = 0 →
      count word pre = 0 ∧ count word (lineEnd ++ post) = 0 := by
    intro word hword hone hzero
    obtain ⟨hauthority, hpointer⟩ := agentsTexts_clear word hword
    have hall := count_splice hone hzero halone
      (hnew (P := fun s => count word s = 0) (hone.count_newlines hlines) hauthority hpointer)
    rw [hsplice] at hall
    exact ⟨hone.count_of_part (List.prefix_append _ _).isInfix hall,
      hone.count_of_part (List.suffix_append _ _).isInfix hall⟩
  have hutf8 : Utf8.strict (pre ++ (lineEnd ++ post)) = true := by
    obtain ⟨-, -, -, htexts, -⟩ := campaign_letters
    have hall := strict_splice halone (by rw [List.drop_zero]; exact hstrict)
      (hnew (P := fun s => Utf8.strict s = true) (by rcases hline with rfl | rfl <;> decide) htexts.1 htexts.2)
    rwa [hsplice] at hall
  rw [Utf8.strict_around (fun c hc => isNewline_ascii (hlines c hc)) hne] at hutf8
  refine ⟨pre, post, by rw [hsplice]; simp, ⟨hutf8.1, ?_, fun word hword => ?_, fun word hword => ?_⟩,
    hcount _ List.mem_cons_self agentsLegacyLine_line hlegacy⟩
  · rw [Utf8.strict_ascii_append fun c hc => isNewline_ascii (hlines c hc)]
    exact hutf8.2
  · exact (hcount word (List.mem_cons_of_mem _ (agents_words ▸ hword)) (agents_proper.line word hword)
      (hclear word hword)).1
  · exact (hcount word (List.mem_cons_of_mem _ (agents_words ▸ hword)) (agents_proper.line word hword)
      (hclear word hword)).2

/-- The edits of a known layout. -/
theorem KnownSpans.edited {lifecycle authority routing : ℕ × ℕ} (h : KnownSpans existing lifecycle authority routing)
    {lineEnd : Bytes} (hline : lineEnd = [newline] ∨ lineEnd = [carriage, newline])
    (hoverlap : overlap (List.insertionSort Span.before
      (knownReplacements lifecycle authority routing (src ++ lineEnd))) = false) :
    Edited (Edit agentsLayout src) existing (splice existing 0 (List.insertionSort Span.before
      (knownReplacements lifecycle authority routing (src ++ lineEnd)))) := by
  have hedited := edited_splice (E := Edit agentsLayout src) (h.aligned hline hoverlap) fun span hspan => by
    rw [(List.perm_insertionSort _ _).mem_iff, knownReplacements] at hspan
    rcases List.mem_cons.mp hspan with rfl | hspan
    · exact Edit.known rfl (KnownEdit.lifecycle _ lineEnd hline h.lifecycle_size h.lifecycle_digest)
    · rcases List.mem_pair.mp hspan with rfl | rfl
      · simp only [h.authority_line]
        exact Edit.known rfl KnownEdit.authority
      · exact Edit.known rfl (KnownEdit.routing _ h.routing_size h.routing_digest)
  rwa [List.drop_zero] at hedited

/-- **The first migration of `AGENTS.md`.** -/
theorem agents_first : agentsLayout.First := by
  intro firstMigration hmem existing src r hr hstrict hclear hlegacy
  obtain rfl : migrateKnownAgentsLayout = firstMigration := Option.some.inj hmem
  rcases migrateKnownAgentsLayout_cases hr with ⟨hcampaign, hr⟩ | ⟨-, lifecycle, authority, routing, lineEnd, h, hline,
    hoverlap, hr⟩
  · obtain ⟨pre, post, hexisting, htake, hdrop, haround, hpre, hpost⟩ :=
      first_markerless hcampaign hstrict hclear hlegacy
    rw [htake, hdrop] at hr
    refine ⟨pre, reinstalledLineEnd existing ++ post, hr, haround, ?_, hpre, hpost⟩
    have hedit : Edit agentsLayout src [] (src ++ reinstalledLineEnd existing) :=
      Edit.known rfl (KnownEdit.reinstalled _ (reinstalledLineEnd_cases existing))
    have hedited := Edited.edit pre hedit (Edited.rest post)
    rw [List.nil_append, ← hexisting, List.append_assoc] at hedited
    rw [hr]
    exact hedited
  · obtain ⟨pre, post, hsplice, haround, hpre, hpost⟩ := first_known h hline hoverlap hstrict hclear hlegacy
    refine ⟨pre, lineEnd ++ post, by rw [hr, hsplice], haround, ?_, hpre, hpost⟩
    rw [hr]
    exact h.edited hline hoverlap

end First

end CodingOS.PolicyMigration
