import CodingOS.PolicyMigration.OptOut

/-!
# The frame of a migration

A migration changes the spans it replaces and drops whole lines that are retired rules.  Run on what it wrote,
it finds its block and writes it again.  With a Codex home the filter comes first: what is around the block was
left by it before, so it can only take lines of the block, and does no harm unless one of them has a marker.
-/

namespace CodingOS.PolicyMigration

open CodingOS.Python CodingOS.Installer
open Systems.Occurrence Systems.Result

variable {existing source src r pre body post s t m word : Bytes} {Q : Bytes → Prop}

/-! ### The last line -/

/-- A text is its lines with an end, and what is behind them. -/
theorem last_line (s : Bytes) : ∃ whole last, s = whole ++ last ∧ LineEnd whole ∧ ∀ c ∈ last, isNewline c = false := by
  induction s using List.reverseRecOn with
  | nil => exact ⟨[], [], rfl, lineEnd_nil, by simp⟩
  | append_singleton s c ih =>
      cases hc : isNewline c with
      | true =>
          refine ⟨s ++ [c], [], by simp, fun d hd => ?_, by simp⟩
          rw [List.getLast?_append, List.getLast?_singleton] at hd
          cases hd
          exact hc
      | false =>
          obtain ⟨whole, last, rfl, hwhole, hlast⟩ := ih
          refine ⟨whole, last ++ [c], by simp, hwhole, fun d hd => ?_⟩
          rcases List.mem_append.mp hd with hd | hd
          · exact hlast d hd
          · rw [List.mem_singleton.mp hd]
            exact hc

theorem last_line_ne_nil (hm : ¬ LineEnd s) : ∃ whole last, s = whole ++ last ∧ LineEnd whole ∧
    (∀ c ∈ last, isNewline c = false) ∧ last ≠ [] := by
  obtain ⟨whole, last, rfl, hwhole, hlast⟩ := last_line s
  refine ⟨whole, last, rfl, hwhole, hlast, ?_⟩
  rintro rfl
  rw [List.append_nil] at hm
  exact hm hwhole

theorem head_plain (hne : s ≠ []) (hs : ∀ c ∈ s, isNewline c = false) : ∀ c ∈ (s ++ t).head?, isNewline c = false := by
  obtain ⟨d, s, rfl⟩ := List.exists_cons_of_ne_nil hne
  intro c hc
  cases hc
  exact hs d List.mem_cons_self

theorem not_lineStart_head (h : ¬ LineStart m) : m ≠ [] ∧ ∀ c ∈ (m ++ t).head?, isNewline c = false := by
  cases m with
  | nil => exact absurd lineStart_nil h
  | cons d m =>
      refine ⟨List.cons_ne_nil d m, fun c hc => ?_⟩
      cases hc
      by_contra hnot
      refine h fun c hc => ?_
      cases hc
      exact Bool.eq_true_of_not_eq_false hnot

/-- The whole lines in front are lines of the text. -/
theorem lines_front (h : Lines Q (s ++ t)) (hs : LineEnd s) (ht : ∀ c ∈ t.head?, isNewline c = false) : Lines Q s := by
  intro line hline
  refine h line ?_
  rw [splitLines_append hs ht]
  exact List.mem_append_left _ hline

/-- The lines behind the first line end behind are lines of the text. -/
theorem lines_behind (h : Lines Q (m ++ post)) (hm : ¬ LineEnd m) :
    post = [] ∨ ∃ first rest, splitLines post = first :: rest ∧ ∀ line ∈ rest, Q (rstripNewlines line) := by
  obtain ⟨whole, last, rfl, hwhole, hlast, hne⟩ := last_line_ne_nil hm
  cases hpost : splitLines post with
  | nil => exact Or.inl (splitLines_eq_nil.mp hpost)
  | cons first rest =>
      refine Or.inr ⟨first, rest, rfl, fun line hline => h line ?_⟩
      rw [List.append_assoc, splitLines_append hwhole (head_plain hne hlast), splitLines_plain hlast hpost]
      exact List.mem_append_right _ (List.mem_cons_of_mem _ hline)

/-- A line end behind the last line. -/
theorem lines_newline (h : Lines Q s) : LineEnd s ∨ Lines Q (s ++ [newline]) := by
  by_cases hs : LineEnd s
  · exact Or.inl hs
  · right
    obtain ⟨whole, last, rfl, hwhole, hlast, hne⟩ := last_line_ne_nil hs
    have hplain := head_plain (t := []) hne hlast
    rw [List.append_nil] at hplain
    have hsplit : splitLines (last ++ [newline]) = [last ++ [newline]] := by
      have hnewline : splitLines [newline] = [[newline]] := by decide
      exact splitLines_plain hlast hnewline
    have hQ : Q last := by
      have hmem : last ∈ splitLines (whole ++ last) := by
        rw [splitLines_append hwhole hplain, splitLines_self hlast hne]
        exact List.mem_append_right _ (List.mem_singleton.mpr rfl)
      have hline := h last hmem
      have hself : rstripNewlines (last ++ []) = last := rstripNewlines_line hlast (by simp)
      rw [List.append_nil] at hself
      rwa [hself] at hline
    intro line hline
    rw [List.append_assoc, splitLines_append hwhole (head_plain hne hlast), hsplit] at hline
    rcases List.mem_append.mp hline with hline | hline
    · exact lines_front h hwhole hplain line hline
    · rw [List.mem_singleton.mp hline, rstripNewlines_line hlast (by simp [isNewline])]
      exact hQ

/-- What is said of the whole lines in front of a block, and of the lines behind the first line end behind it. -/
def LinesAround (Q : Bytes → Prop) (pre post : Bytes) : Prop :=
  (∀ whole last, pre = whole ++ last → LineEnd whole → (∀ c ∈ last, isNewline c = false) → Lines Q whole) ∧
    (post = [] ∨ ∃ first rest, splitLines post = first :: rest ∧ ∀ line ∈ rest, Q (rstripNewlines line))

/-! ### What the filter keeps of a migrated file -/

section Filter

variable [Runtime] [Host] [PolicyHost] {targetKey : String}

/-- The lines that stay, joined. -/
def keep (targetKey : String) (s : Bytes) : Bytes := ((splitLines s).filter (staysLine targetKey)).flatten

theorem keep_append (hs : LineEnd s) (ht : ∀ c ∈ t.head?, isNewline c = false) :
    keep targetKey (s ++ t) = keep targetKey s ++ keep targetKey t := by
  rw [keep, splitLines_append hs ht, List.filter_append, List.flatten_append]
  rfl

theorem keep_self (h : ∀ line ∈ splitLines s, staysLine targetKey line = true) : keep targetKey s = s := by
  rw [keep, List.filter_eq_self.mpr h, splitLines_flatten]

theorem keep_count (targetKey : String) (s : Bytes) (hword : OneLine word) : count word (keep targetKey s) ≤ count word s := by
  have hended := splitLines_ended s
  rw [keep, hword.count_flatten (ended_filter hended)]
  conv_rhs => rw [← splitLines_flatten s, hword.count_flatten hended]
  exact (List.filter_sublist.map _).sum_le_sum fun _ _ => Nat.zero_le _

/-- The one line with a text stays if the text does. -/
theorem marked_line_stays (hword : OneLine word) (hone : count word s = 1) (hkept : count word (keep targetKey s) ≠ 0)
    {line : Bytes} (hline : line ∈ splitLines s) (hin : word <:+: line) : staysLine targetKey line = true := by
  by_contra hnot
  have hended := splitLines_ended s
  obtain ⟨before, after, hlines⟩ := List.append_of_mem hline
  have hcount : count word line ≠ 0 := fun hzero => (count_eq_zero_iff hword.ne_nil).mp hzero hin
  have hsum : ((before ++ line :: after).map (count word)).sum = 1 := by
    rw [← hlines, ← hword.count_flatten hended, splitLines_flatten, hone]
  have hfilter : ((splitLines s).filter (staysLine targetKey)).Sublist (before ++ after) := by
    rw [hlines, List.filter_append, List.filter_cons_of_neg hnot]
    exact List.Sublist.append List.filter_sublist List.filter_sublist
  have hle := (hfilter.map (count word)).sum_le_sum fun _ _ => Nat.zero_le _
  rw [← hword.count_flatten (ended_filter hended)] at hle
  simp only [List.map_append, List.map_cons, List.sum_append, List.sum_cons] at hsum hle
  have hzero : count word (keep targetKey s) = 0 := by
    rw [keep]
    omega
  exact hkept hzero

/-- The last line of a block, with what is behind it. -/
theorem keep_behind (hm : ∀ c ∈ m, isNewline c = false) (hne : m ≠ [])
    (hpost : post = [] ∨ ∃ first rest, splitLines post = first :: rest ∧ ∀ line ∈ rest, staysLine targetKey line = true)
    (hstays : ∀ line ∈ splitLines (m ++ post), m <+: line → staysLine targetKey line = true) :
    keep targetKey (m ++ post) = m ++ post := by
  refine keep_self fun line hline => ?_
  rcases hpost with rfl | ⟨first, rest, hsplit, hrest⟩
  · rw [List.append_nil, splitLines_self hm hne] at hline
    obtain rfl := List.mem_singleton.mp hline
    refine hstays line ?_ (List.prefix_refl _)
    rw [List.append_nil, splitLines_self hm hne]
    exact List.mem_singleton.mpr rfl
  · rw [splitLines_plain hm hsplit] at hline hstays
    rcases List.mem_cons.mp hline with rfl | hline
    · exact hstays _ List.mem_cons_self (List.prefix_append _ _)
    · exact hrest line hline

/-- **The filter on a migrated file.**  Where what is around the block stays, and its two markers do, the filter only
takes lines between the markers. -/
theorem keep_around {markers : Brackets UInt8} (hopening : OneLine markers.opening) (hclosing : OneLine markers.closing)
    (hcut : markers.Cut s pre body post)
    (hlines : LinesAround (fun content => removesLine targetKey content = .ok false) pre post)
    (hkept : count markers.opening (keep targetKey s) ≠ 0) (hkept' : count markers.closing (keep targetKey s) ≠ 0) :
    ∃ middle, keep targetKey s = pre ++ (middle ++ post) ∧ markers.opening <+: middle ∧ markers.closing <:+ middle := by
  obtain ⟨honce, honce', -⟩ := hcut.once
  have hpre : ∀ whole last, pre = whole ++ last → LineEnd whole → (∀ c ∈ last, isNewline c = false) →
      ∀ line ∈ splitLines whole, staysLine targetKey line = true :=
    fun whole last heq hwhole hlast line hline => staysLine_iff.mpr (hlines.1 whole last heq hwhole hlast line hline)
  have hpost : post = [] ∨ ∃ first rest, splitLines post = first :: rest ∧
      ∀ line ∈ rest, staysLine targetKey line = true := by
    refine hlines.2.imp id fun ⟨first, rest, hsplit, hrest⟩ => ⟨first, rest, hsplit, fun line hline => ?_⟩
    exact staysLine_iff.mpr (hrest line hline)
  have hstays : ∀ line ∈ splitLines s, markers.opening <:+: line → staysLine targetKey line = true :=
    fun line hline hin => marked_line_stays hopening honce hkept hline hin
  have hstays' : ∀ line ∈ splitLines s, markers.closing <:+: line → staysLine targetKey line = true :=
    fun line hline hin => marked_line_stays hclosing honce' hkept' hline hin
  obtain ⟨whole, last, rfl, hwhole, hlast⟩ := last_line pre
  obtain ⟨front, back, hfront, hfrontLine, hback⟩ := last_line (markers.opening ++ body)
  have hblock : markers.block body = front ++ (back ++ markers.closing) := by
    rw [Brackets.block, ← List.append_assoc, hfront, List.append_assoc]
  have hend : ∀ c ∈ back ++ markers.closing, isNewline c = false := by
    intro c hc
    rcases List.mem_append.mp hc with hc | hc
    · exact hback c hc
    · exact hclosing.plain c hc
  have hend_ne : back ++ markers.closing ≠ [] := fun h => hclosing.ne_nil (List.append_eq_nil_iff.mp h).2
  have hwholeKeeps : keep targetKey whole = whole := keep_self (hpre whole last rfl hwhole hlast)
  by_cases hnone : front = []
  · -- the block is within one line, and that line stays
    subst hnone
    rw [List.nil_append] at hfront hblock
    have hs : s = whole ++ ((last ++ (back ++ markers.closing)) ++ post) := by
      rw [hcut.eq, hblock]
      simp only [List.append_assoc]
    have hm : ∀ c ∈ last ++ (back ++ markers.closing), isNewline c = false := by
      intro c hc
      rcases List.mem_append.mp hc with hc | hc
      · exact hlast c hc
      · exact hend c hc
    have hm_ne : last ++ (back ++ markers.closing) ≠ [] := fun h => hend_ne (List.append_eq_nil_iff.mp h).2
    have hsplit := splitLines_append hwhole (head_plain (t := post) hm_ne hm)
    have hkeeps : keep targetKey s = s := by
      rw [hs, keep_append hwhole (head_plain hm_ne hm), hwholeKeeps, keep_behind hm hm_ne hpost]
      intro line hline hleads
      refine hstays' line ?_ ?_
      · rw [hs, hsplit]
        exact List.mem_append_right _ hline
      · have hin : markers.closing <:+: last ++ (back ++ markers.closing) :=
          ⟨last ++ back, [], by simp⟩
        exact hin.trans hleads.isInfix
    refine ⟨markers.block body, hkeeps.trans hcut.eq, List.prefix_append _ _, ?_⟩
    exact ⟨markers.opening ++ body, by rw [Brackets.block, List.append_assoc]⟩
  · -- the first and the last line of the block stay, each with its marker
    have hleads : markers.opening <+: front := by
      by_contra hlong
      have hle : front.length ≤ markers.opening.length := by
        by_contra hlt
        exact hlong (List.prefix_of_prefix_length_le (hfront ▸ List.prefix_append markers.opening body)
          (List.prefix_append front back) (by omega))
      have hin : front <+: markers.opening :=
        List.prefix_of_prefix_length_le (List.prefix_append front back)
          (hfront ▸ List.prefix_append markers.opening body) hle
      obtain ⟨q, c, rfl⟩ := (List.eq_nil_or_concat' front).resolve_left hnone
      have hc := hopening.plain c (hin.subset (by simp))
      rw [hfrontLine c (by simp)] at hc
      cases hc
    obtain ⟨inner, hinner⟩ := hleads
    have hinner_ne : inner ≠ [] := by
      rintro rfl
      rw [List.append_nil] at hinner
      obtain ⟨q, c, hq⟩ := (List.eq_nil_or_concat' markers.opening).resolve_left hopening.ne_nil
      have hc := hopening.plain c (by rw [hq]; simp)
      rw [← hinner] at hfrontLine
      rw [hfrontLine c (by rw [hq]; simp)] at hc
      cases hc
    cases hsplit : splitLines inner with
    | nil => exact absurd (splitLines_eq_nil.mp hsplit) hinner_ne
    | cons first rest =>
        have hfirst : splitLines (last ++ front) = ((last ++ markers.opening) ++ first) :: rest := by
          rw [← hinner, ← List.append_assoc]
          refine splitLines_plain (fun c hc => ?_) hsplit
          rcases List.mem_append.mp hc with hc | hc
          · exact hlast c hc
          · exact hopening.plain c hc
        have hlastFront : LineEnd (last ++ front) := (lineEnd_append hnone).mpr hfrontLine
        have hplain := head_plain (t := post) hend_ne hend
        have hhead : ∀ c ∈ ((last ++ front) ++ ((back ++ markers.closing) ++ post)).head?, isNewline c = false := by
          have hm_ne : last ++ markers.opening ≠ [] := fun h => hopening.ne_nil (List.append_eq_nil_iff.mp h).2
          have hm : ∀ c ∈ last ++ markers.opening, isNewline c = false := by
            intro c hc
            rcases List.mem_append.mp hc with hc | hc
            · exact hlast c hc
            · exact hopening.plain c hc
          have hassoc : (last ++ front) ++ ((back ++ markers.closing) ++ post) =
              (last ++ markers.opening) ++ (inner ++ ((back ++ markers.closing) ++ post)) := by
            rw [← hinner]
            simp only [List.append_assoc]
          rw [hassoc]
          exact head_plain hm_ne hm
        have hs : s = whole ++ ((last ++ front) ++ ((back ++ markers.closing) ++ post)) := by
          rw [hcut.eq, hblock]
          simp only [List.append_assoc]
        have hsplits : splitLines s = splitLines whole ++ (splitLines (last ++ front) ++
            splitLines ((back ++ markers.closing) ++ post)) := by
          rw [hs, splitLines_append hwhole hhead, splitLines_append hlastFront hplain]
        have hfirstStays : staysLine targetKey ((last ++ markers.opening) ++ first) = true := by
          refine hstays _ ?_ ⟨last, first, rfl⟩
          rw [hsplits, hfirst]
          exact List.mem_append_right _ (List.mem_append_left _ List.mem_cons_self)
        have hkeepFirst : keep targetKey (last ++ front) = (last ++ markers.opening) ++ (first ++
            (rest.filter (staysLine targetKey)).flatten) := by
          rw [keep, hfirst, List.filter_cons_of_pos hfirstStays, List.flatten_cons, List.append_assoc]
        have hkeepLast : keep targetKey ((back ++ markers.closing) ++ post) = (back ++ markers.closing) ++ post := by
          refine keep_behind hend hend_ne hpost fun line hline hleads => hstays' line ?_ ?_
          · rw [hsplits]
            exact List.mem_append_right _ (List.mem_append_right _ hline)
          · exact (List.suffix_append back markers.closing).isInfix.trans hleads.isInfix
        refine ⟨markers.opening ++ (first ++ ((rest.filter (staysLine targetKey)).flatten ++
          (back ++ markers.closing))), ?_, List.prefix_append _ _, ?_⟩
        · rw [hs, keep_append hwhole hhead, keep_append hlastFront hplain, hwholeKeeps, hkeepFirst, hkeepLast]
          simp only [List.append_assoc]
        · refine ⟨markers.opening ++ (first ++ ((rest.filter (staysLine targetKey)).flatten ++ back)), ?_⟩
          simp only [List.append_assoc]

end Filter

/-! ### The second migration of `default.rules` -/

/-- What the filter left stays around the block that a migration puts there. -/
theorem rules_around [PolicyHost] {input : Bytes} (hstays : Lines Q input) (h : replaceLineOrMarker input source rulesLayout = .ok r) :
    ∃ src pre post, trimPolicySource source "default.rules" rulesMarkers = .ok src ∧ r = pre ++ (src ++ post) ∧
      Around rulesLayout pre post ∧
      LinesAround Q pre post := by
  obtain ⟨hstrict, src, htrim, hcase⟩ := replaceLineOrMarker_cases h
  -- over a block or a legacy line: what is in front ends where a line goes on, and so begins what is behind
  have hover : ∀ {pre middle post : Bytes}, input = pre ++ (middle ++ post) → ¬ LineStart middle → ¬ LineEnd middle →
      LinesAround Q pre post := by
    intro pre middle post hinput hfirst hlast
    obtain ⟨hne, hhead⟩ := not_lineStart_head (t := post) hfirst
    constructor
    · rintro whole last rfl hwhole hplain
      rw [List.append_assoc] at hinput
      refine lines_front (t := last ++ (middle ++ post)) (hinput ▸ hstays) hwhole ?_
      by_cases hnone : last = []
      · subst hnone
        exact hhead
      · exact head_plain hnone hplain
    · refine lines_behind (m := pre ++ middle) (by rw [List.append_assoc, ← hinput]; exact hstays) fun hend => ?_
      exact hlast ((lineEnd_append hne).mp hend)
  have hblock : ∀ markers ∈ rulesLayout.markers :: rulesLayout.retiredMarkers, markers.Once input →
      (∀ other ∈ rulesLayout.markers :: rulesLayout.retiredMarkers, other = markers ∨ other.Free input) →
      r = replaceBlock input src markers → ∃ src pre post,
        trimPolicySource source "default.rules" rulesMarkers = .ok src ∧ r = pre ++ (src ++ post) ∧
        Around rulesLayout pre post ∧
        LinesAround Q pre post := by
    intro markers hmem honce hothers hr
    obtain ⟨pre, body, post, hcut⟩ := Brackets.cut_of_once honce
    obtain ⟨hfirst, hlast⟩ := rules_proper.block_line hmem body
    exact ⟨src, pre, post, htrim, by rw [hr, replaceBlock_cut hcut], rules_proper.around_cut hmem hcut hstrict hothers,
      hover hcut.eq hfirst hlast⟩
  rcases hcase with ⟨honce, hretired, hr⟩ | ⟨hactive, markers, hmem, honce, hother, hr⟩ | ⟨hactive, hretired, h⟩
  · exact hblock _ List.mem_cons_self honce
      (List.forall_mem_cons.mpr ⟨Or.inl rfl, fun other hmem => Or.inr (hretired other hmem)⟩) hr
  · exact hblock markers (List.mem_cons_of_mem _ hmem) honce
      (List.forall_mem_cons.mpr ⟨Or.inr hactive, hother⟩) hr
  · have hclear : rulesLayout.Clear input := Layout.clear_iff.mpr ⟨hactive, hretired⟩
    rcases replaceLegacyLine_cases h with ⟨-, first, hfirst, -⟩ | ⟨-, -, separator, hneeded, hr⟩ | ⟨hone, -, -, hr⟩
    · cases hfirst
    · refine ⟨src, input ++ separator, [], htrim, by rw [hr]; simp,
        rules_proper.around_append (hneeded.imp id And.left) hstrict hclear, ?_, Or.inl rfl⟩
      intro whole last hpre hwhole hplain
      rcases hneeded with rfl | ⟨rfl, hend⟩
      · rw [List.append_nil] at hpre
        subst hpre
        by_cases hnone : last = []
        · subst hnone
          rwa [List.append_nil] at hstays
        · have hhead := head_plain (t := []) hnone hplain
          rw [List.append_nil] at hhead
          exact lines_front hstays hwhole hhead
      · have hnone : last = [] := by
          rcases List.eq_nil_or_concat' last with hnone | ⟨q, c, rfl⟩
          · exact hnone
          · have hc := hplain c (by simp)
            rw [← List.append_assoc] at hpre
            have heq := List.append_inj_right' hpre rfl
            rw [← List.head_eq_of_cons_eq heq] at hc
            cases hc
        subst hnone
        rw [List.append_nil] at hpre
        rw [← hpre]
        exact (lines_newline hstays).resolve_left hend
    · obtain ⟨pre, post, hinput, hfind, -, -⟩ := once_spec rulesLegacyLine_line.ne_nil hone
      obtain ⟨htake, hdrop⟩ := take_find_drop hinput hfind
      have hr : r = pre ++ (src ++ post) := by
        rw [hr]
        exact congrArg₂ (fun front back => front ++ (src ++ back)) htake hdrop
      refine ⟨src, pre, post, htrim, hr, ?_, ?_⟩
      · exact rules_proper.around_line (hinput ▸ hstrict) (hinput ▸ hclear)
      · exact hover hinput (rulesLegacyLine_line.line_plain).1 (rulesLegacyLine_line.line_plain).2

/-- A file with one block, cut where its markers are. -/
theorem once_of_around (src : Bytes) {markers : Brackets UInt8} {middle : Bytes} (hpre : count markers.opening pre = 0)
    (hone : count markers.opening (pre ++ (middle ++ post)) = 1) (hone' : count markers.closing (pre ++ (middle ++ post)) = 1)
    (hopening : markers.opening <+: middle) (hclosing : markers.closing <:+ middle) :
    markers.Once (pre ++ (middle ++ post)) ∧
      replaceBlock (pre ++ (middle ++ post)) src markers = pre ++ (src ++ post) := by
  obtain ⟨rest, hrest⟩ := hopening
  obtain ⟨front, hfront⟩ := hclosing
  have hfind : find markers.opening (pre ++ (middle ++ post)) = pre.length := by
    rw [← hrest, List.append_assoc]
    exact markers.marker_opening.find_eq hpre
  have hassoc : pre ++ (middle ++ post) = (pre ++ front) ++ (markers.closing ++ post) := by
    rw [← hfront]
    simp only [List.append_assoc]
  have hfind' : find markers.closing (pre ++ (middle ++ post)) = (pre ++ front).length := by
    rw [hassoc] at hone' ⊢
    rw [markers.marker_closing.count_self] at hone'
    exact markers.marker_closing.find_eq (by omega)
  refine ⟨⟨hone, hone', by rw [hfind, hfind']; simp⟩, ?_⟩
  have hmiddle : find markers.closing (pre ++ (middle ++ post)) + markers.closing.length = (pre ++ middle).length := by
    rw [hfind', ← hfront]
    simp only [List.length_append]
    omega
  have hdrop : (pre ++ (middle ++ post)).drop (pre ++ middle).length = post := by
    rw [← List.append_assoc, List.drop_left]
  rw [replaceBlock, hfind, hmiddle, List.take_left, hdrop]

section Files

variable [Runtime] [Host] [PolicyHost] [FileDigest] {file : PolicyFile} {home : String}

/-- With a Codex home: the filter leaves what is around the block. -/
theorem migrateRules_again {filtered : Bytes} (h : (PolicyFile.rules (some home)).migrate existing source = .ok r)
    (hcurrent : ∀ src, trimPolicySource source "default.rules" rulesMarkers = .ok src → rulesLayout.Current src)
    (hfiltered : removeRetiredCaseStateCommandRules r home = .ok filtered)
    (hopening : count rulesMarkers.opening filtered ≠ 0) (hclosing : count rulesMarkers.closing filtered ≠ 0) :
    (PolicyFile.rules (some home)).migrate r source = .ok r := by
  obtain ⟨input, hinput, h⟩ := PolicyFile.migrate_eq_ok.mp h
  obtain ⟨src, pre, post, htrim, rfl, haround, hlines⟩ := rules_around (removeRetired_stays hinput) h
  obtain ⟨-, body, rfl, hbody⟩ := trimPolicySource_block htrim
  have hcut : rulesMarkers.Cut (pre ++ (rulesMarkers.block body ++ post)) pre body post := haround.cut hbody
  obtain ⟨-, -, hkeep⟩ := removeRetired_eq_ok.mp hfiltered
  have hkeep : filtered = keep (retiredKey home) (pre ++ (rulesMarkers.block body ++ post)) := hkeep
  obtain ⟨hmem, hmem'⟩ := rulesLayout.mem_words List.mem_cons_self
  have hone : OneLine rulesMarkers.opening := rules_proper.line _ hmem
  have hone' : OneLine rulesMarkers.closing := rules_proper.line _ hmem'
  rw [hkeep] at hopening hclosing
  obtain ⟨middle, hmiddle, hleads, hsuffix⟩ := keep_around hone hone' hcut hlines hopening hclosing
  have hcounts : ∀ {word : Bytes}, OneLine word → count word (pre ++ (rulesMarkers.block body ++ post)) = 1 →
      count word (keep (retiredKey home) (pre ++ (rulesMarkers.block body ++ post))) ≠ 0 →
      count word (pre ++ (middle ++ post)) = 1 := by
    intro word hword hcount hne
    have hle := keep_count (retiredKey home) (pre ++ (rulesMarkers.block body ++ post)) hword
    rw [← hmiddle]
    omega
  obtain ⟨hopening_one, hclosing_one, -⟩ := hcut.once
  obtain ⟨honce, hreplace⟩ := once_of_around (rulesMarkers.block body) hcut.free_pre.1
    (hcounts hone hopening_one hopening) (hcounts hone' hclosing_one hclosing) hleads hsuffix
  have hretired : ∀ markers ∈ rulesLayout.retiredMarkers, markers.Free (pre ++ (middle ++ post)) := by
    intro markers hmarkers
    have hfree := rules_proper.retired_free haround (hcurrent _ htrim) markers hmarkers
    obtain ⟨hword, hword'⟩ := rulesLayout.mem_words (List.mem_cons_of_mem rulesLayout.markers hmarkers)
    rw [← hmiddle]
    exact ⟨Nat.le_zero.mp ((keep_count _ _ (rules_proper.line _ hword)).trans hfree.1.le),
      Nat.le_zero.mp ((keep_count _ _ (rules_proper.line _ hword')).trans hfree.2.le)⟩
  refine PolicyFile.migrate_eq_ok.mpr ⟨filtered, hfiltered, ?_⟩
  have hstrict := removeRetired_strict hfiltered
  rw [hkeep, hmiddle] at hstrict ⊢
  have hagain : replaceLineOrMarker (pre ++ (middle ++ post)) source rulesLayout =
      .ok (replaceBlock (pre ++ (middle ++ post)) (rulesMarkers.block body) rulesMarkers) :=
    replaceLineOrMarker_active hstrict htrim honce hretired
  exact hagain.trans (congrArg Except.ok hreplace)

/-- Whether a line stays in front of the migration. -/
def PolicyFile.stays (file : PolicyFile) (line : Bytes) : Bool :=
  match file with
  | .rules (some home) => staysLine (retiredKey home) line
  | _ => true

/-- The filter in front of the migration runs on a file, and leaves a marker of each kind. -/
def PolicyFile.KeepsBlock (file : PolicyFile) (existing : Bytes) : Prop :=
  ∃ filtered, file.input existing = .ok filtered ∧ count file.layout.markers.opening filtered ≠ 0 ∧
    count file.layout.markers.closing filtered ≠ 0

omit [FileDigest] in
theorem PolicyFile.input_lines {input : Bytes} (h : file.input existing = .ok input) :
    input = ((splitLines existing).filter file.stays).flatten := by
  have hall : existing = ((splitLines existing).filter fun _ => true).flatten := by
    rw [List.filter_eq_self.mpr fun _ _ => rfl, splitLines_flatten]
  match file, h with
  | .agents, h => exact (Except.ok.inj h).symm.trans hall
  | .rules none, h => exact (Except.ok.inj h).symm.trans hall
  | .rules (some home), h => exact (removeRetired_eq_ok.mp h).2.2

omit [Runtime] [Host] [FileDigest] in
theorem trimPolicySource_current {layout : Layout} (hlayout : layout.Proper) (hsource : layout.Current source)
    (htrim : trimPolicySource source layout.label layout.markers = .ok src) : layout.Current src := by
  obtain ⟨_, -, h⟩ := bind_eq_ok.mp htrim
  simp only [policyError] at h
  split_ifs at h
  obtain rfl := pure_eq_ok.mp h
  obtain ⟨rest, hvalue, -⟩ := rstripNewlines_append source
  have hoccurs : rstripNewlines source <:+: source := ⟨[], rest, by rw [List.nil_append, ← hvalue]⟩
  intro markers hmem
  obtain ⟨hopening, hclosing⟩ := layout.mem_words (List.mem_cons_of_mem layout.markers hmem)
  exact ⟨(hlayout.line _ hopening).count_of_part hoccurs (hsource markers hmem).1,
    (hlayout.line _ hclosing).count_of_part hoccurs (hsource markers hmem).2⟩

/-- **The frame of a migration.**  The file without its retired rule lines is changed by the edits of its layout and
nowhere else; the result has one block, which is the trimmed source, and no retired marker.  A second migration
changes nothing, unless the filter for a Codex home stops, or takes a line with one of the block's markers. -/
theorem migration_frame (file : PolicyFile) (existing source r : Bytes) (h : file.migrate existing source = .ok r)
    (hsource : file.layout.Current source) :
    ∃ src, trimPolicySource source file.layout.label file.layout.markers = .ok src ∧
      (∃ pre body post, file.layout.markers.Cut r pre body post ∧ file.layout.markers.block body = src) ∧
      (∀ markers ∈ file.layout.retiredMarkers, markers.Free r) ∧
      Edited (Edit file.layout src) ((splitLines existing).filter file.stays).flatten r ∧
      ((∀ home, file ≠ .rules (some home)) ∨ file.KeepsBlock r → file.migrate r source = .ok r) := by
  obtain ⟨input, hinput, hmigrate⟩ := PolicyFile.migrate_eq_ok.mp h
  have hlayout := file.proper
  obtain ⟨src, pre, post, htrim, hr, haround, hedited, -⟩ := hlayout.migrated file.first hmigrate
  have hcurrent := trimPolicySource_current hlayout hsource htrim
  have hagain := hlayout.migrate_again haround htrim hcurrent
  rw [← hr] at hagain
  obtain ⟨-, body, rfl, hbody⟩ := trimPolicySource_block htrim
  refine ⟨file.layout.markers.block body, htrim, ⟨pre, body, post, ?_, rfl⟩, ?_, ?_, ?_⟩
  · rw [hr]
    exact haround.cut hbody
  · rw [hr]
    exact hlayout.retired_free haround hcurrent
  · rwa [← PolicyFile.input_lines hinput]
  · intro hkeeps
    match file, hkeeps, h, hsource, hlayout, hagain with
    | .agents, _, _, _, _, hagain => exact PolicyFile.migrate_eq_ok.mpr ⟨r, rfl, hagain⟩
    | .rules none, _, _, _, _, hagain => exact PolicyFile.migrate_eq_ok.mpr ⟨r, rfl, hagain⟩
    | .rules (some home), hkeeps, h, hsource, hlayout, _ =>
        obtain ⟨filtered, hfiltered, hopening, hclosing⟩ := hkeeps.resolve_left fun hnone => hnone home rfl
        exact migrateRules_again h (fun src htrim => trimPolicySource_current hlayout hsource htrim) hfiltered
          hopening hclosing

end Files

/-! ### A block within a retired rule -/

namespace RetiredSample

/-- What the rule of the example allows. -/
def script : String := "/h/coding-os/scripts/agent/case_state.py"

/-- A host whose Codex home is `/h`, and that reads the command of the example. -/
scoped instance host : PolicyHost where
  decodeError _ := ""
  caseStatePath home := home ++ "/coding-os/scripts/agent/case_state.py"
  loads _ := .ok (some (.tuple [.str "python", .str script, .str ("# BEGIN CODEX CODING OS MANAGED: CAMPAIGN EXTERNAL EFFECTS"
    ++ "# END CODEX CODING OS MANAGED: CAMPAIGN EXTERNAL EFFECTS")]))

def ruleHead : Bytes :=
  Utf8.encode "prefix_rule(pattern=[\"python\", \"/h/coding-os/scripts/agent/case_state.py\", \""

def ruleTail : Bytes := Utf8.encode "\"], decision=\"allow\")"

/-- A source of one line. -/
def shortBlock : Bytes := rulesMarkers.block []

end RetiredSample

section Retired

open RetiredSample
open scoped CodingOS.Python.SampleProcess SampleInstaller

/-- The letters of the rule and of the two blocks, and the lines of the rule with each block in it. -/
theorem rule_letters : (Utf8.strict ruleHead = true ∧ Utf8.strict ruleTail = true ∧ (35 : UInt8) ∉ ruleHead ∧
      (35 : UInt8) ∉ ruleTail ∧ 0 < ruleHead.length) ∧
    (Utf8.strict shortBlock = true ∧ (∀ markers ∈ rulesLayout.retiredMarkers, markers.Free shortBlock)) ∧
    (splitLines (ruleHead ++ (Samples.rulesBlock ++ ruleTail)) =
        [(ruleHead ++ rulesStart) ++ [newline], rulesEnd ++ ruleTail] ∧
      Utf8.strict (ruleHead ++ (Samples.rulesBlock ++ ruleTail)) = true ∧
      ∀ line ∈ [(ruleHead ++ rulesStart) ++ [newline], rulesEnd ++ ruleTail],
        rulePattern (rstripNewlines line) = none) ∧
    splitLines (ruleHead ++ (shortBlock ++ ruleTail)) = [ruleHead ++ (shortBlock ++ ruleTail)] ∧
    Utf8.strict (ruleHead ++ (shortBlock ++ ruleTail)) = true ∧
    (rulePattern (rstripNewlines (ruleHead ++ (shortBlock ++ ruleTail)))).isSome = true := by
  decide +kernel

theorem retired_around : Around rulesLayout ruleHead ruleTail := by
  obtain ⟨⟨hhead, htail, hhead', htail', -⟩, -⟩ := rule_letters
  exact ⟨hhead, htail, fun word hword => count_of_head_not_mem (rules_proper.marker word hword).1 hhead',
    fun word hword => count_of_head_not_mem (rules_proper.marker word hword).1 htail'⟩

theorem shortBlock_free : rulesMarkers.Free [] := ⟨count_nil, count_nil⟩

theorem shortBlock_trim : trimPolicySource shortBlock "default.rules" rulesMarkers = .ok shortBlock :=
  trimPolicySource_self shortBlock_free rule_letters.2.1.1
    (rules_proper.line _ (rulesLayout.mem_words List.mem_cons_self).2)

theorem shortBlock_current : rulesLayout.Current shortBlock := rule_letters.2.1.2

/-- A rule with a managed block across two lines in it is no retired rule. -/
theorem retired_input : removeRetiredCaseStateCommandRules (ruleHead ++ (Samples.rulesBlock ++ ruleTail)) "/h" =
    .ok (ruleHead ++ (Samples.rulesBlock ++ ruleTail)) := by
  obtain ⟨hlines, hstrict, hpatterns⟩ := rule_letters.2.2.1
  have hstays : ∀ line ∈ splitLines (ruleHead ++ (Samples.rulesBlock ++ ruleTail)),
      removesLine (retiredKey "/h") (rstripNewlines line) = .ok false := by
    intro line hline
    rw [hlines] at hline
    rw [removesLine, hpatterns line hline]
  refine removeRetired_eq_ok.mpr ⟨hstrict, fun line hline => ⟨false, hstays line hline⟩, ?_⟩
  rw [filter_stays hstays, splitLines_flatten]

/-- A rule with a managed block of one line in it is a retired rule. -/
theorem retired_output : removeRetiredCaseStateCommandRules (ruleHead ++ (shortBlock ++ ruleTail)) "/h" = .ok [] := by
  obtain ⟨hlines, hstrict, hpattern⟩ := rule_letters.2.2.2
  obtain ⟨group, hgroup⟩ := Option.isSome_iff_exists.mp hpattern
  have hremoves : removesLine (retiredKey "/h") (rstripNewlines (ruleHead ++ (shortBlock ++ ruleTail))) = .ok true := by
    rw [removesLine, hgroup]
    simp [PolicyHost.loads, retiredCommand, retiredKey, PolicyHost.caseStatePath, script]
  refine removeRetired_eq_ok.mpr ⟨hstrict, fun line hline => ⟨true, ?_⟩, ?_⟩
  · rw [hlines] at hline
    rw [List.mem_singleton.mp hline]
    exact hremoves
  · rw [hlines, List.filter_cons_of_neg (by rw [staysLine, hremoves]; simp)]
    rfl

/-- A second migration that changes the file: the block of the first one stands within a retired rule, the filter takes
the rule with it, and the block is appended. -/
theorem retired_rule_takes_block :
    (PolicyFile.rules (some "/h")).migrate (ruleHead ++ (Samples.rulesBlock ++ ruleTail)) shortBlock =
      .ok (ruleHead ++ (shortBlock ++ ruleTail)) ∧ rulesLayout.Current shortBlock ∧
    (PolicyFile.rules (some "/h")).migrate (ruleHead ++ (shortBlock ++ ruleTail)) shortBlock = .ok shortBlock ∧
    shortBlock ≠ ruleHead ++ (shortBlock ++ ruleTail) := by
  have hcut : rulesMarkers.Cut (ruleHead ++ (Samples.rulesBlock ++ ruleTail)) ruleHead [newline] ruleTail :=
    retired_around.cut sample_free
  have hstrict : Utf8.strict (ruleHead ++ (Samples.rulesBlock ++ ruleTail)) = true := rule_letters.2.2.1.2.1
  have hfirst : replaceLineOrMarker (ruleHead ++ (Samples.rulesBlock ++ ruleTail)) shortBlock rulesLayout =
      .ok (replaceBlock (ruleHead ++ (Samples.rulesBlock ++ ruleTail)) shortBlock rulesMarkers) :=
    replaceLineOrMarker_active hstrict shortBlock_trim hcut.once (rules_proper.retired_free retired_around sample_current)
  rw [replaceBlock_cut hcut] at hfirst
  have hsecond : replaceLineOrMarker [] shortBlock rulesLayout = replaceLegacyLine [] shortBlock rulesLayout :=
    replaceLineOrMarker_free rfl shortBlock_trim ⟨count_nil, count_nil⟩ fun _ _ => ⟨count_nil, count_nil⟩
  have hlegacy : replaceLegacyLine [] shortBlock rulesLayout = .ok shortBlock := by
    simp only [replaceLegacyLine, count_nil, if_true, rulesLayout, List.isEmpty_nil, Bool.true_or, List.nil_append]
  refine ⟨PolicyFile.migrate_eq_ok.mpr ⟨_, retired_input, hfirst⟩, shortBlock_current,
    PolicyFile.migrate_eq_ok.mpr ⟨[], retired_output, hsecond.trans hlegacy⟩, fun heq => ?_⟩
  have hlength := congrArg List.length heq
  have hpos : 0 < ruleHead.length := rule_letters.1.2.2.2.2
  simp only [List.length_append] at hlength
  omega

end Retired

section Framed

open Samples
open scoped CodingOS.Python.SampleProcess SampleInstaller

/-- The frame of a migration over a block alone. -/
theorem migration_frame_sample : ∃ src, trimPolicySource rulesBlock "default.rules" rulesMarkers = .ok src ∧
    (∃ pre body post, rulesMarkers.Cut rulesBlock pre body post ∧ rulesMarkers.block body = src) ∧
    (∀ markers ∈ rulesLayout.retiredMarkers, markers.Free rulesBlock) ∧
    Edited (Edit rulesLayout src) ((splitLines rulesBlock).filter (PolicyFile.rules none).stays).flatten rulesBlock ∧
    ((∀ home, PolicyFile.rules none ≠ .rules (some home)) ∨ (PolicyFile.rules none).KeepsBlock rulesBlock →
      (PolicyFile.rules none).migrate rulesBlock rulesBlock = .ok rulesBlock) := by
  have hmigrate : (PolicyFile.rules none).migrate rulesBlock rulesBlock = .ok rulesBlock := by
    simpa only [List.nil_append, List.append_nil] using sample_migrate sample_empty
  exact migration_frame (.rules none) rulesBlock rulesBlock rulesBlock hmigrate sample_current

end Framed

end CodingOS.PolicyMigration
