import CodingOS.PolicyMigration.Lines

/-!
# What a migration writes

A migration that succeeds leaves some bytes in front, some behind, and the trimmed source between them.  The
markers of a layout have one first letter, neither of two begins with the other, and none has a newline, so
none arises where the parts meet.
-/

namespace CodingOS.PolicyMigration

open CodingOS.Python
open Systems.Occurrence Systems.Result

/-! ### The checks -/

theorem strictUtf8_eq_ok [PolicyHost] {value : Bytes} {label : String} {u : Unit} :
    strictUtf8 value label = .ok u ↔ Utf8.strict value = true := by
  unfold strictUtf8 policyError
  split_ifs with h <;> simp [h]

theorem rstripNewlines_append (value : Bytes) :
    ∃ rest, value = rstripNewlines value ++ rest ∧ ∀ c ∈ rest, isNewline c = true := by
  refine ⟨(value.reverse.takeWhile isNewline).reverse, ?_, ?_⟩
  · rw [rstripNewlines, ← List.reverse_append, List.takeWhile_append_dropWhile, List.reverse_reverse]
  · intro c hc
    exact List.mem_takeWhile_imp (List.mem_reverse.mp hc)

theorem strict_rstripNewlines {value : Bytes} (h : Utf8.strict value = true) :
    Utf8.strict (rstripNewlines value) = true := by
  obtain ⟨rest, hvalue, hrest⟩ := rstripNewlines_append value
  cases rest with
  | nil =>
      rw [List.append_nil] at hvalue
      rwa [← hvalue]
  | cons c rest =>
      rw [hvalue] at h
      exact ((Utf8.strict_cut (isNewline_ascii (hrest c List.mem_cons_self))).mp h).1

/-- The trimmed source is a block between its markers. -/
theorem trimPolicySource_block [PolicyHost] {value src : Bytes} {label : String} {markers : Brackets UInt8}
    (h : trimPolicySource value label markers = .ok src) :
    Utf8.strict src = true ∧ ∃ body, src = markers.block body ∧ markers.Free body := by
  obtain ⟨_, hstrict, h⟩ := bind_eq_ok.mp h
  rw [strictUtf8_eq_ok] at hstrict
  simp only [policyError] at h
  split_ifs at h with hends hcount
  rw [pure_eq_ok] at h
  subst h
  rw [not_or, not_not, not_not] at hcount
  exact ⟨strict_rstripNewlines hstrict, Brackets.block_of_once (List.isPrefixOf_iff_prefix.mp hends.1)
    (List.isSuffixOf_iff_suffix.mp hends.2) hcount.1 hcount.2⟩

/-- A block is its own trimmed source. -/
theorem trimPolicySource_self [PolicyHost] {body : Bytes} {label : String} {markers : Brackets UInt8}
    (hbody : markers.Free body) (hstrict : Utf8.strict (markers.block body) = true) (hclosing : OneLine markers.closing) :
    trimPolicySource (markers.block body) label markers = .ok (markers.block body) := by
  have hrstrip : rstripNewlines (markers.block body) = markers.block body := by
    obtain ⟨closing, c, hword⟩ := (List.eq_nil_or_concat' markers.closing).resolve_left hclosing.ne_nil
    have hc : isNewline c = false := hclosing.plain c (by rw [hword]; simp)
    rw [rstripNewlines, Brackets.block, hword, ← List.append_assoc, ← List.append_assoc, List.reverse_append,
      List.reverse_singleton, List.singleton_append, List.dropWhile_cons_of_neg (by rw [hc]; simp)]
    simp
  have hcut : markers.Cut (markers.block body) [] body [] := by
    refine ⟨by simp, ⟨count_nil, count_nil⟩, hbody, ⟨count_nil, count_nil⟩⟩
  have hends : markers.opening.isPrefixOf (markers.block body) = true ∧
      endsWith (markers.block body) markers.closing = true := by
    refine ⟨List.isPrefixOf_iff_prefix.mpr (List.prefix_append _ _), List.isSuffixOf_iff_suffix.mpr ?_⟩
    exact ⟨markers.opening ++ body, by rw [Brackets.block, List.append_assoc]⟩
  obtain ⟨hopening, hclosing, -⟩ := hcut.once
  unfold trimPolicySource
  refine bind_eq_ok.mpr ⟨(), strictUtf8_eq_ok.mpr hstrict, ?_⟩
  simp only [hrstrip]
  rw [if_neg (not_not.mpr hends), if_neg (by rw [hopening, hclosing]; simp)]
  rfl

theorem activeMatch_true {existing : Bytes} {label : String} {markers : Brackets UInt8} :
    activeMatch existing label markers = .ok true ↔ markers.Once existing := by
  unfold activeMatch policyError Brackets.Once
  split_ifs with hnone hcount horder
  · simp [hnone]
  · simp only [false_iff]
    rintro ⟨hopening, hclosing, -⟩
    exact hcount.elim (· hopening) (· hclosing)
  · simp only [false_iff]
    rintro ⟨-, -, hle⟩
    omega
  · rw [not_or, not_not, not_not] at hcount
    simp only [true_iff]
    exact ⟨hcount.1, hcount.2, by omega⟩

theorem activeMatch_false {existing : Bytes} {label : String} {markers : Brackets UInt8} :
    activeMatch existing label markers = .ok false ↔ markers.Free existing := by
  unfold activeMatch policyError Brackets.Free
  split_ifs with hnone hcount horder <;> simp [hnone]

theorem retiredMatches_nil {existing : Bytes} {label : String} {all : List (Brackets UInt8)} :
    retiredMatches existing label all = .ok [] ↔ ∀ markers ∈ all, markers.Free existing := by
  induction all with
  | nil => simp [retiredMatches]
  | cons markers all ih =>
      rw [List.forall_mem_cons, retiredMatches]
      simp only [policyError]
      split_ifs with hnone hcount
      · rw [ih]
        exact ⟨fun h => ⟨hnone, h⟩, fun h => h.2⟩
      · simp only [false_iff]
        exact fun h => hnone h.1
      · constructor
        · intro h
          obtain ⟨found, -, h⟩ := bind_eq_ok.mp h
          cases h
        · exact fun h => absurd h.1 hnone

/-- One retired pair is there; each other is not. -/
theorem retiredMatches_one {existing : Bytes} {label : String} {all : List (Brackets UInt8)} {markers : Brackets UInt8}
    (h : retiredMatches existing label all = .ok [markers]) :
    markers ∈ all ∧ count markers.opening existing = 1 ∧ count markers.closing existing = 1 ∧
      ∀ other ∈ all, other = markers ∨ other.Free existing := by
  induction all with
  | nil => cases h
  | cons first all ih =>
      rw [retiredMatches] at h
      simp only [policyError] at h
      split_ifs at h with hnone hcount
      · obtain ⟨hmem, hopening, hclosing, hother⟩ := ih h
        refine ⟨List.mem_cons_of_mem _ hmem, hopening, hclosing, ?_⟩
        rw [List.forall_mem_cons]
        exact ⟨Or.inr hnone, hother⟩
      · obtain ⟨found, hfound, h⟩ := bind_eq_ok.mp h
        obtain ⟨rfl, rfl⟩ := List.cons.inj (pure_eq_ok.mp h)
        rw [not_or, not_not, not_not] at hcount
        refine ⟨List.mem_cons_self, hcount.1, hcount.2, ?_⟩
        rw [List.forall_mem_cons]
        exact ⟨Or.inl rfl, fun other hmem => Or.inr (retiredMatches_nil.mp hfound other hmem)⟩

theorem replaceBlock_cut {existing pre body post replacement : Bytes} {markers : Brackets UInt8}
    (h : markers.Cut existing pre body post) : replaceBlock existing replacement markers = pre ++ (replacement ++ post) := by
  rw [replaceBlock, h.take_opening, h.drop_closing]

/-! ### The branches -/

variable {layout : Layout} {existing source src r : Bytes}

/-- **The branches of a migration.**  Over an active block, over a retired one, or where there is neither. -/
theorem replaceLineOrMarker_cases [PolicyHost] (h : replaceLineOrMarker existing source layout = .ok r) :
    Utf8.strict existing = true ∧ ∃ src, trimPolicySource source layout.label layout.markers = .ok src ∧
      ((layout.markers.Once existing ∧ (∀ markers ∈ layout.retiredMarkers, markers.Free existing) ∧
          r = replaceBlock existing src layout.markers) ∨
        (layout.markers.Free existing ∧ ∃ markers ∈ layout.retiredMarkers, markers.Once existing ∧
          (∀ other ∈ layout.retiredMarkers, other = markers ∨ other.Free existing) ∧
          r = replaceBlock existing src markers) ∨
        (layout.markers.Free existing ∧ (∀ markers ∈ layout.retiredMarkers, markers.Free existing) ∧
          replaceLegacyLine existing src layout = .ok r)) := by
  obtain ⟨_, hstrict, h⟩ := bind_eq_ok.mp h
  rw [strictUtf8_eq_ok] at hstrict
  obtain ⟨src, htrim, h⟩ := bind_eq_ok.mp h
  obtain ⟨active, hactive, h⟩ := bind_eq_ok.mp h
  obtain ⟨retired, hretired, h⟩ := bind_eq_ok.mp h
  refine ⟨hstrict, src, htrim, ?_⟩
  match active, retired, h with
  | true, [], h =>
      exact Or.inl ⟨activeMatch_true.mp hactive, retiredMatches_nil.mp hretired, pure_eq_ok.mp h⟩
  | false, [markers], h =>
      simp only [policyError] at h
      split_ifs at h with horder
      obtain ⟨hmem, hopening, hclosing, hother⟩ := retiredMatches_one hretired
      exact Or.inr (Or.inl ⟨activeMatch_false.mp hactive, markers, hmem, ⟨hopening, hclosing, by omega⟩, hother,
        pure_eq_ok.mp h⟩)
  | false, [], h => exact Or.inr (Or.inr ⟨activeMatch_false.mp hactive, retiredMatches_nil.mp hretired, h⟩)
  | true, [_], h => cases h
  | _, _ :: _ :: _, h => cases h

/-- A file with one active block and no retired marker is migrated over the block. -/
theorem replaceLineOrMarker_active [PolicyHost] (hstrict : Utf8.strict existing = true)
    (htrim : trimPolicySource source layout.label layout.markers = .ok src) (honce : layout.markers.Once existing)
    (hfree : ∀ markers ∈ layout.retiredMarkers, markers.Free existing) :
    replaceLineOrMarker existing source layout = .ok (replaceBlock existing src layout.markers) := by
  unfold replaceLineOrMarker
  refine bind_eq_ok.mpr ⟨(), strictUtf8_eq_ok.mpr hstrict, bind_eq_ok.mpr ⟨src, htrim, ?_⟩⟩
  exact bind_eq_ok.mpr ⟨true, activeMatch_true.mpr honce, bind_eq_ok.mpr ⟨[], retiredMatches_nil.mpr hfree, rfl⟩⟩

/-- A file without markers is migrated over its legacy line, or as one without any. -/
theorem replaceLineOrMarker_free [PolicyHost] (hstrict : Utf8.strict existing = true)
    (htrim : trimPolicySource source layout.label layout.markers = .ok src) (hactive : layout.markers.Free existing)
    (hfree : ∀ markers ∈ layout.retiredMarkers, markers.Free existing) :
    replaceLineOrMarker existing source layout = replaceLegacyLine existing src layout := by
  have hmatch : activeMatch existing layout.label layout.markers = .ok false := activeMatch_false.mpr hactive
  have hretired : retiredMatches existing layout.label layout.retiredMarkers = .ok [] := retiredMatches_nil.mpr hfree
  have hutf8 : strictUtf8 existing layout.label = .ok () := strictUtf8_eq_ok.mpr hstrict
  unfold replaceLineOrMarker
  rw [hutf8, htrim, hmatch, hretired]
  rfl

/-! ### Clear bytes -/

/-- The markers of a layout, active and retired. -/
def Layout.words (layout : Layout) : List Bytes :=
  (layout.markers :: layout.retiredMarkers).flatMap fun markers => [markers.opening, markers.closing]

/-- No marker of the layout is there. -/
def Layout.Clear (layout : Layout) (s : Bytes) : Prop := ∀ word ∈ layout.words, count word s = 0

theorem Layout.mem_words (layout : Layout) {markers : Brackets UInt8} (h : markers ∈ layout.markers :: layout.retiredMarkers) :
    markers.opening ∈ layout.words ∧ markers.closing ∈ layout.words :=
  ⟨List.mem_flatMap.mpr ⟨markers, h, by simp⟩, List.mem_flatMap.mpr ⟨markers, h, by simp⟩⟩

theorem Layout.clear_iff {s : Bytes} :
    layout.Clear s ↔ layout.markers.Free s ∧ ∀ markers ∈ layout.retiredMarkers, markers.Free s := by
  have hfree : layout.Clear s ↔ ∀ markers ∈ layout.markers :: layout.retiredMarkers, markers.Free s := by
    constructor
    · intro h markers hmem
      exact ⟨h _ (layout.mem_words hmem).1, h _ (layout.mem_words hmem).2⟩
    · intro h word hword
      obtain ⟨markers, hmem, hword⟩ := List.mem_flatMap.mp hword
      rcases List.mem_pair.mp hword with rfl | rfl
      · exact (h markers hmem).1
      · exact (h markers hmem).2
  rw [hfree, List.forall_mem_cons]

/-- What a migration leaves around the block. -/
structure Around (layout : Layout) (pre post : Bytes) : Prop where
  strict_pre : Utf8.strict pre = true
  strict_post : Utf8.strict post = true
  clear_pre : layout.Clear pre
  clear_post : layout.Clear post

/-- The block of a file that a migration wrote. -/
theorem Around.cut {pre post body : Bytes} (haround : Around layout pre post) (hbody : layout.markers.Free body) :
    layout.markers.Cut (pre ++ (layout.markers.block body ++ post)) pre body post :=
  ⟨rfl, (Layout.clear_iff.mp haround.clear_pre).1, hbody, (Layout.clear_iff.mp haround.clear_post).1⟩

/-- **Removal.**  What is around the block is left, as it is. -/
theorem Around.remove [PolicyHost] {pre post : Bytes} (haround : Around layout pre post)
    (htrim : trimPolicySource source layout.label layout.markers = .ok src) {label : String} :
    removeExactMarker (pre ++ (src ++ post)) layout.markers label = .ok (pre ++ post) := by
  obtain ⟨hstrict, body, rfl, hbody⟩ := trimPolicySource_block htrim
  have hcut := haround.cut hbody
  have hall : Utf8.strict (pre ++ (layout.markers.block body ++ post)) = true :=
    Utf8.strict_append haround.strict_pre (Utf8.strict_append hstrict haround.strict_post)
  obtain ⟨hopening, hclosing, horder⟩ := hcut.once
  unfold removeExactMarker
  refine bind_eq_ok.mpr ⟨(), strictUtf8_eq_ok.mpr hall, ?_⟩
  rw [if_neg (by rw [hopening, hclosing]; simp), if_neg (by omega), replaceBlock_cut hcut]
  rfl

/-- What the markers and the texts of a layout are like. -/
structure Layout.Proper (layout : Layout) : Prop where
  marker : ∀ word ∈ layout.words, Marker layout.markers.head word
  apart : ∀ word ∈ layout.words, ∀ other ∈ layout.words, word = other ∨ Apart word other
  line : ∀ word ∈ layout.words, OneLine word
  legacy : OneLine layout.legacyLine
  legacy_clear : layout.Clear layout.legacyLine

/-- A source without a retired marker. -/
def Layout.Current (layout : Layout) (src : Bytes) : Prop := ∀ markers ∈ layout.retiredMarkers, markers.Free src

section Proper

variable {pre post body : Bytes} (hlayout : layout.Proper)

include hlayout

theorem Layout.Proper.count_block {markers : Brackets UInt8} (hmarkers : markers ∈ layout.markers :: layout.retiredMarkers)
    {word : Bytes} (hword : word ∈ layout.words) : count word (pre ++ (markers.block body ++ post))
      = count word pre + (count word (markers.block body) + count word post) := by
  obtain ⟨hopening, hclosing⟩ := layout.mem_words hmarkers
  have hmarker := hlayout.marker word hword
  have haround : ∀ l r : Bytes, count word (l ++ (markers.block body ++ r)) = count word l +
      (count word markers.opening + (count word body + (count word markers.closing + count word r))) := by
    intro l r
    rw [Brackets.block, List.append_assoc, List.append_assoc,
      hmarker.count_around (hlayout.marker _ hopening) (hlayout.apart _ hword _ hopening),
      hmarker.count_around (hlayout.marker _ hclosing) (hlayout.apart _ hword _ hclosing)]
  have hself := haround [] []
  rw [List.nil_append, List.append_nil, count_nil] at hself
  rw [haround, hself]
  omega

/-- A line goes on where a block begins and ends. -/
theorem Layout.Proper.block_line {markers : Brackets UInt8} (hmarkers : markers ∈ layout.markers :: layout.retiredMarkers)
    (body : Bytes) : ¬ LineStart (markers.block body) ∧ ¬ LineEnd (markers.block body) := by
  obtain ⟨hopening, hclosing⟩ := layout.mem_words hmarkers
  refine ⟨fun h => (hlayout.line _ hopening).line_plain.1 (lineStart_left h), fun h => ?_⟩
  rw [Brackets.block, ← List.append_assoc] at h
  exact (hlayout.line _ hclosing).line_plain.2 (lineEnd_right h)

/-- What is around a block has no marker when the file has none but those of the block. -/
theorem Layout.Proper.around_cut {markers : Brackets UInt8} (hmarkers : markers ∈ layout.markers :: layout.retiredMarkers)
    (hcut : markers.Cut existing pre body post) (hstrict : Utf8.strict existing = true)
    (hother : ∀ other ∈ layout.markers :: layout.retiredMarkers, other = markers ∨ other.Free existing) :
    Around layout pre post := by
  have hclear : ∀ word ∈ layout.words, count word pre = 0 ∧ count word post = 0 := by
    intro word hword
    obtain ⟨other, hmem, hin⟩ := List.mem_flatMap.mp hword
    rcases hother other hmem with rfl | hfree
    · rcases List.mem_pair.mp hin with rfl | rfl
      · exact ⟨hcut.free_pre.1, hcut.free_post.1⟩
      · exact ⟨hcut.free_pre.2, hcut.free_post.2⟩
    · have hzero : count word existing = 0 := by
        rcases List.mem_pair.mp hin with rfl | rfl
        · exact hfree.1
        · exact hfree.2
      rw [hcut.eq, hlayout.count_block hmarkers hword] at hzero
      omega
  obtain ⟨hopening, hclosing⟩ := layout.mem_words hmarkers
  rw [hcut.eq, Brackets.block, List.append_assoc, List.append_assoc,
    Utf8.strict_around (hlayout.line _ hopening).ascii (hlayout.line _ hopening).ne_nil,
    Utf8.strict_around (hlayout.line _ hclosing).ascii (hlayout.line _ hclosing).ne_nil] at hstrict
  exact ⟨hstrict.1, hstrict.2.2, fun word hword => (hclear word hword).1, fun word hword => (hclear word hword).2⟩

theorem Layout.Proper.retired_free (haround : Around layout pre post)
    (hcurrent : layout.Current (layout.markers.block body)) :
    ∀ markers ∈ layout.retiredMarkers, markers.Free (pre ++ (layout.markers.block body ++ post)) := by
  intro markers hmem
  have hwords := layout.mem_words (List.mem_cons_of_mem layout.markers hmem)
  have hzero : ∀ word ∈ layout.words, count word (layout.markers.block body) = 0 →
      count word (pre ++ (layout.markers.block body ++ post)) = 0 := by
    intro word hword hblock
    rw [hlayout.count_block List.mem_cons_self hword, haround.clear_pre word hword, hblock,
      haround.clear_post word hword]
  exact ⟨hzero _ hwords.1 (hcurrent markers hmem).1, hzero _ hwords.2 (hcurrent markers hmem).2⟩

/-- **A second migration.**  A migration of what a migration wrote changes nothing. -/
theorem Layout.Proper.migrate_again [PolicyHost] (haround : Around layout pre post)
    (htrim : trimPolicySource source layout.label layout.markers = .ok src) (hcurrent : layout.Current src) :
    replaceLineOrMarker (pre ++ (src ++ post)) source layout = .ok (pre ++ (src ++ post)) := by
  obtain ⟨hstrict, body, rfl, hbody⟩ := trimPolicySource_block htrim
  have hcut := haround.cut hbody
  have hall : Utf8.strict (pre ++ (layout.markers.block body ++ post)) = true :=
    Utf8.strict_append haround.strict_pre (Utf8.strict_append hstrict haround.strict_post)
  rw [replaceLineOrMarker_active hall htrim hcut.once (hlayout.retired_free haround hcurrent), replaceBlock_cut hcut]

end Proper

/-! ### What is kept -/

/-- An edit of `AGENTS.md` in a known layout: the block comes back behind an opt-out, or it takes the place of the
lifecycle section, with the campaign's authority line and routing pointer. -/
inductive KnownEdit [FileDigest] (src : Bytes) : Bytes → Bytes → Prop
  | reinstalled (lineEnd : Bytes) (hline : lineEnd = [newline] ∨ lineEnd = [carriage, newline]) :
      KnownEdit src [] (src ++ lineEnd)
  | lifecycle (old lineEnd : Bytes) (hline : lineEnd = [newline] ∨ lineEnd = [carriage, newline])
      (hsize : (unixLines old).length = agentsLegacyBlockNormalizedSize)
      (hdigest : FileDigest.sha256 (unixLines old) = agentsLegacyBlockNormalizedSha256) :
      KnownEdit src old (src ++ lineEnd)
  | authority : KnownEdit src agentsLegacyAuthorityLine agentsCampaignAuthorityLine
  | routing (old : Bytes) (hsize : (unixLines old).length = agentsLegacyRoutingNormalizedSize)
      (hdigest : FileDigest.sha256 (unixLines old) = agentsLegacyRoutingNormalizedSha256) :
      KnownEdit src old agentsCampaignRoutingPointer

/-- An edit of a policy file: what is taken out and what is put there. -/
inductive Edit [FileDigest] (layout : Layout) (src : Bytes) : Bytes → Bytes → Prop
  | block {markers : Brackets UInt8} (hmarkers : markers ∈ layout.markers :: layout.retiredMarkers) (body : Bytes)
      (hbody : markers.Free body) : Edit layout src (markers.block body) src
  | legacyLine : Edit layout src layout.legacyLine src
  | append (separator : Bytes) (hseparator : separator = [] ∨ separator = [newline])
      (happend : layout.appendWhenLegacyMissing = true) : Edit layout src [] (separator ++ src)
  | known {old new : Bytes} (hfirst : layout.firstMigration.isSome) (hedit : KnownEdit src old new) :
      Edit layout src old new

/-- The bytes of a file outside its edits, in their order. -/
inductive Edited (E : Bytes → Bytes → Prop) : Bytes → Bytes → Prop
  | rest (s : Bytes) : Edited E s s
  | edit (kept : Bytes) {old new s t : Bytes} (h : E old new) (ht : Edited E s t) :
      Edited E (kept ++ (old ++ s)) (kept ++ (new ++ t))

/-- What the first migration of a layout has to do. -/
def Layout.First [FileDigest] (layout : Layout) : Prop :=
  ∀ firstMigration ∈ layout.firstMigration, ∀ {existing src r : Bytes}, firstMigration existing src = .ok r →
    Utf8.strict existing = true → layout.Clear existing → count layout.legacyLine existing = 0 →
    ∃ pre post, r = pre ++ (src ++ post) ∧ Around layout pre post ∧ Edited (Edit layout src) existing r ∧
      count layout.legacyLine pre = 0 ∧ count layout.legacyLine post = 0

theorem replaceLegacyLine_cases (h : replaceLegacyLine existing src layout = .ok r) :
    (count layout.legacyLine existing = 0 ∧
      ∃ firstMigration ∈ layout.firstMigration, firstMigration existing src = .ok r) ∨
    (count layout.legacyLine existing = 0 ∧ layout.appendWhenLegacyMissing = true ∧
      ∃ separator, (separator = [] ∨ separator = [newline] ∧ ¬ LineEnd existing) ∧
        r = existing ++ (separator ++ src)) ∨
    (count layout.legacyLine existing = 1 ∧ lineBegins existing (find layout.legacyLine existing) = true ∧
      lineEnds existing (find layout.legacyLine existing + layout.legacyLine.length) = true ∧
      r = existing.take (find layout.legacyLine existing) ++
        (src ++ existing.drop (find layout.legacyLine existing + layout.legacyLine.length))) := by
  simp only [replaceLegacyLine, policyError] at h
  by_cases hnone : count layout.legacyLine existing = 0
  · rw [if_pos hnone] at h
    cases hfirst : layout.firstMigration with
    | some firstMigration =>
        rw [hfirst] at h
        exact Or.inl ⟨hnone, firstMigration, rfl, h⟩
    | none =>
        rw [hfirst] at h
        simp only at h
        split_ifs at h with happend hline
        · exact Or.inr (Or.inl ⟨hnone, happend, [], Or.inl rfl, (Except.ok.inj h).symm⟩)
        · refine Or.inr (Or.inl ⟨hnone, happend, [newline], Or.inr ⟨rfl, fun hend => hline ?_⟩, (Except.ok.inj h).symm⟩)
          rcases List.eq_nil_or_concat' existing with rfl | ⟨s, c, rfl⟩
          · rfl
          · have hc := hend c (by simp)
            simp only [isNewline, Bool.or_eq_true, beq_iff_eq] at hc
            have hsuffix : endsWith (s ++ [c]) [c] = true := List.isSuffixOf_iff_suffix.mpr (List.suffix_append _ _)
            rcases hc with rfl | rfl
            · rw [hsuffix, Bool.or_true, Bool.true_or]
            · rw [hsuffix, Bool.or_true]
  · rw [if_neg hnone] at h
    split_ifs at h with hone hline
    rw [Bool.and_eq_true] at hline
    exact Or.inr (Or.inr ⟨not_not.mp hone, hline.1, hline.2, (Except.ok.inj h).symm⟩)

theorem replaceLegacyLine_first {firstMigration : Bytes → Bytes → Except Failure Bytes}
    (hnone : count layout.legacyLine existing = 0) (hfirst : layout.firstMigration = some firstMigration) :
    replaceLegacyLine existing src layout = firstMigration existing src := by
  simp only [replaceLegacyLine]
  rw [if_pos hnone, hfirst]

theorem replaceLegacyLine_append (src : Bytes) (hnone : count layout.legacyLine existing = 0) (hfirst : layout.firstMigration = none)
    (happend : layout.appendWhenLegacyMissing = true) : ∃ separator, (separator = [] ∨ separator = [newline]) ∧
      replaceLegacyLine existing src layout = .ok (existing ++ (separator ++ src)) := by
  simp only [replaceLegacyLine]
  rw [if_pos hnone, hfirst]
  simp only [happend, if_true]
  split_ifs
  · exact ⟨[], Or.inl rfl, rfl⟩
  · exact ⟨[newline], Or.inr rfl, rfl⟩

theorem separator_newlines {separator : Bytes} (h : separator = [] ∨ separator = [newline]) :
    ∀ c ∈ separator, isNewline c = true := by
  rcases h with rfl | rfl
  · simp
  · simp [isNewline]

section Migrated

variable {pre post : Bytes} (hlayout : layout.Proper)

include hlayout

/-- A layout without markers around what takes the place of its legacy line. -/
theorem Layout.Proper.around_line (hstrict : Utf8.strict (pre ++ (layout.legacyLine ++ post)) = true)
    (hclear : layout.Clear (pre ++ (layout.legacyLine ++ post))) : Around layout pre post := by
  rw [Utf8.strict_around hlayout.legacy.ascii hlayout.legacy.ne_nil] at hstrict
  refine ⟨hstrict.1, hstrict.2, fun word hword => ?_, fun word hword => ?_⟩
  · exact (hlayout.line word hword).count_of_part (List.prefix_append _ _).isInfix (hclear word hword)
  · have hsuffix : post <:+ pre ++ (layout.legacyLine ++ post) :=
      ⟨pre ++ layout.legacyLine, by rw [List.append_assoc]⟩
    exact (hlayout.line word hword).count_of_part hsuffix.isInfix (hclear word hword)

theorem Layout.Proper.around_append {separator : Bytes} (hseparator : separator = [] ∨ separator = [newline])
    (hstrict : Utf8.strict existing = true) (hclear : layout.Clear existing) :
    Around layout (existing ++ separator) [] := by
  have hlines := separator_newlines hseparator
  have hutf8 : Utf8.strict separator = true := by
    rcases hseparator with rfl | rfl <;> decide
  refine ⟨Utf8.strict_append hstrict hutf8, by decide, fun word hword => ?_, fun word _ => count_nil⟩
  rw [(hlayout.line word hword).count_append (Or.inr (newlines_line hlines).2), hclear word hword,
    (hlayout.line word hword).count_newlines hlines]

/-- **Migration.**  What a migration that succeeds writes: the trimmed source, between bytes without any marker,
which are those of the file but for its edits.  Beside the block there is no complete legacy line, unless the block
took the place of one. -/
theorem Layout.Proper.migrated [PolicyHost] [FileDigest] (hfirst : layout.First)
    (h : replaceLineOrMarker existing source layout = .ok r) :
    ∃ src pre post, trimPolicySource source layout.label layout.markers = .ok src ∧ r = pre ++ (src ++ post) ∧
      Around layout pre post ∧ Edited (Edit layout src) existing r ∧
      ((count layout.legacyLine pre = 0 ∧ count layout.legacyLine post = 0) ∧ layout.Clear existing ∨
        ∃ markers ∈ layout.markers :: layout.retiredMarkers, (∃ body, markers.Cut existing pre body post) ∧
          ∀ other ∈ layout.markers :: layout.retiredMarkers, other = markers ∨ other.Free existing) := by
  obtain ⟨hstrict, src, htrim, hcase⟩ := replaceLineOrMarker_cases h
  have hover : ∀ markers ∈ layout.markers :: layout.retiredMarkers, markers.Once existing →
      (∀ other ∈ layout.markers :: layout.retiredMarkers, other = markers ∨ other.Free existing) →
      r = replaceBlock existing src markers → ∃ pre post, r = pre ++ (src ++ post) ∧
      Around layout pre post ∧ Edited (Edit layout src) existing r ∧ ∃ body, markers.Cut existing pre body post := by
    intro markers hmem honce hother hr
    obtain ⟨pre, body, post, hcut⟩ := Brackets.cut_of_once honce
    refine ⟨pre, post, by rw [hr, replaceBlock_cut hcut], hlayout.around_cut hmem hcut hstrict hother, ?_, body, hcut⟩
    rw [hr, replaceBlock_cut hcut]
    conv => arg 2; rw [hcut.eq]
    exact Edited.edit pre (Edit.block hmem body hcut.free_body) (Edited.rest post)
  rcases hcase with ⟨honce, hretired, hr⟩ | ⟨hactive, markers, hmem, honce, hother, hr⟩ | ⟨hactive, hretired, h⟩
  · have hothers : ∀ other ∈ layout.markers :: layout.retiredMarkers, other = layout.markers ∨ other.Free existing :=
      List.forall_mem_cons.mpr ⟨Or.inl rfl, fun other hmem => Or.inr (hretired other hmem)⟩
    obtain ⟨pre, post, hr, haround, hedited, hcut⟩ := hover layout.markers List.mem_cons_self honce hothers hr
    exact ⟨src, pre, post, htrim, hr, haround, hedited, Or.inr ⟨layout.markers, List.mem_cons_self, hcut, hothers⟩⟩
  · have hothers : ∀ other ∈ layout.markers :: layout.retiredMarkers, other = markers ∨ other.Free existing :=
      List.forall_mem_cons.mpr ⟨Or.inr hactive, hother⟩
    obtain ⟨pre, post, hr, haround, hedited, hcut⟩ := hover markers (List.mem_cons_of_mem _ hmem) honce hothers hr
    exact ⟨src, pre, post, htrim, hr, haround, hedited,
      Or.inr ⟨markers, List.mem_cons_of_mem _ hmem, hcut, hothers⟩⟩
  · have hclear : layout.Clear existing := Layout.clear_iff.mpr ⟨hactive, hretired⟩
    rcases replaceLegacyLine_cases h with ⟨hnone, first, hmem, hr⟩ | ⟨hnone, happend, separator, hneeded, hr⟩ |
      ⟨hone, hbegins, hends, hr⟩
    · obtain ⟨pre, post, hr, haround, hedited, hcounts⟩ := hfirst first hmem hr hstrict hclear hnone
      exact ⟨src, pre, post, htrim, hr, haround, hedited, Or.inl ⟨hcounts, hclear⟩⟩
    · have hseparator : separator = [] ∨ separator = [newline] := hneeded.imp id And.left
      refine ⟨src, existing ++ separator, [], htrim, by rw [hr]; simp, hlayout.around_append hseparator hstrict hclear,
        ?_, Or.inl ⟨⟨?_, count_nil⟩, hclear⟩⟩
      · have hedit : Edited (Edit layout src) (existing ++ ([] ++ [])) (existing ++ ((separator ++ src) ++ [])) :=
          Edited.edit existing (Edit.append separator hseparator happend) (Edited.rest [])
        rw [List.append_nil, List.append_nil, List.append_nil] at hedit
        rw [hr]
        exact hedit
      · have hlines := separator_newlines hseparator
        rw [hlayout.legacy.count_append (Or.inr (newlines_line hlines).2), hnone, hlayout.legacy.count_newlines hlines]
    · obtain ⟨pre, post, hexisting, hfind, hpre, hpost⟩ := once_spec hlayout.legacy.ne_nil hone
      obtain ⟨htake, hdrop⟩ := take_find_drop hexisting hfind
      rw [htake, hdrop] at hr
      subst hexisting
      refine ⟨src, pre, post, htrim, hr, hlayout.around_line hstrict hclear, ?_, Or.inl ⟨⟨hpre, hpost⟩, hclear⟩⟩
      rw [hr]
      exact Edited.edit pre Edit.legacyLine (Edited.rest post)

end Migrated

end CodingOS.PolicyMigration
