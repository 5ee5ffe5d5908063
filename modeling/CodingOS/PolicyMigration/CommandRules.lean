import CodingOS.PolicyMigration.Lines
import CodingOS.PolicyMigration.RetiredRules

/-!
# The lines that stay

The filter for retired command rules drops whole lines.  What it leaves is made of lines that stay, so it leaves
it as it is when it runs again; the texts within one line are counted line by line.
-/

namespace CodingOS.PolicyMigration

open CodingOS.Python CodingOS.Installer
open Systems.Occurrence Systems.Result

variable {c : UInt8} {l r s t p word line : Bytes} {lines : List Bytes}

/-! ### Splitting -/

theorem attach_flatten (c : UInt8) (lines : List Bytes) : (attach c lines).flatten = c :: lines.flatten := by
  cases lines <;> rfl

@[simp] theorem splitLines_flatten (s : Bytes) : (splitLines s).flatten = s := by
  induction s with
  | nil => rfl
  | cons c s ih =>
      rw [splitLines]
      split_ifs
      · rw [List.flatten_cons, ih, List.singleton_append]
      · rw [attach_flatten, ih]

theorem splitLines_ne_nil (h : line ∈ splitLines s) : line ≠ [] := by
  induction s with
  | nil => cases h
  | cons c s ih =>
      rw [splitLines] at h
      split_ifs at h
      · rcases List.mem_cons.mp h with rfl | h
        · simp
        · exact ih h
      · cases hs : splitLines s with
        | nil =>
            rw [hs] at h
            rw [List.mem_singleton.mp h]
            simp
        | cons first rest =>
            rw [hs] at h ih
            rcases List.mem_cons.mp h with rfl | h
            · simp
            · exact ih (List.mem_cons_of_mem _ h)

theorem splitLines_eq_nil : splitLines s = [] ↔ s = [] := by
  constructor
  · intro h
    rw [← splitLines_flatten s, h, List.flatten_nil]
  · rintro rfl
    rfl

/-- A line begins as the text does. -/
theorem splitLines_head {first : Bytes} {rest : List Bytes} (h : splitLines s = first :: rest) : first.head? = s.head? := by
  have hne : first ≠ [] := splitLines_ne_nil (s := s) (by rw [h]; exact List.mem_cons_self)
  rw [← splitLines_flatten s, h, List.flatten_cons, List.head?_append_of_ne_nil _ hne]

/-- Between the end of a line and a byte that ends none, the text is split apart. -/
theorem splitLines_append (hl : LineEnd l) (ht : ∀ c ∈ t.head?, isNewline c = false) :
    splitLines (l ++ t) = splitLines l ++ splitLines t := by
  induction l with
  | nil => rfl
  | cons c l ih =>
      rw [List.cons_append, splitLines, splitLines]
      cases l with
      | nil =>
          have hc : isNewline c = true := hl c rfl
          have hends : endsLine c t = true := by
            have hnot : t.head? ≠ some newline := by
              intro h
              have := ht newline h
              simp [isNewline] at this
            simp [endsLine, hc, hnot]
          have hends' : endsLine c [] = true := by simp [endsLine, hc]
          rw [List.nil_append, if_pos hends, if_pos hends']
          rfl
      | cons d l =>
          have hl' : LineEnd (d :: l) := (lineEnd_append (l := [c]) (List.cons_ne_nil d l)).mp hl
          have hends : endsLine c (d :: l ++ t) = endsLine c (d :: l) := rfl
          rw [hends, ih hl']
          split_ifs
          · rfl
          · cases hs : splitLines (d :: l) with
            | nil => cases splitLines_eq_nil.mp hs
            | cons first rest => rfl

theorem endsLine_plain (hc : isNewline c = false) : endsLine c s = false := by
  simp [endsLine, hc]

/-- A text without a newline joins the first line behind it. -/
theorem splitLines_plain {first : Bytes} {rest : List Bytes} (hp : ∀ c ∈ p, isNewline c = false)
    (ht : splitLines t = first :: rest) : splitLines (p ++ t) = (p ++ first) :: rest := by
  induction p with
  | nil => exact ht
  | cons c p ih =>
      have hc := endsLine_plain (s := p ++ t) (hp c List.mem_cons_self)
      rw [List.cons_append, splitLines, hc, ih fun d hd => hp d (List.mem_cons_of_mem _ hd)]
      rfl

theorem splitLines_self (hp : ∀ c ∈ p, isNewline c = false) (hne : p ≠ []) : splitLines p = [p] := by
  obtain ⟨q, c, rfl⟩ := (List.eq_nil_or_concat' p).resolve_left hne
  have hlast : splitLines [c] = [[c]] := by
    rw [splitLines]
    split_ifs <;> rfl
  exact splitLines_plain (fun d hd => hp d (by simp [hd])) hlast

/-- A line: a text without a newline, and newlines. -/
def IsLine (line : Bytes) : Prop :=
  ∃ content ends, line = content ++ ends ∧ (∀ c ∈ content, isNewline c = false) ∧ ∀ c ∈ ends, isNewline c = true

theorem rstripNewlines_line {content ends : Bytes} (hcontent : ∀ c ∈ content, isNewline c = false)
    (hends : ∀ c ∈ ends, isNewline c = true) : rstripNewlines (content ++ ends) = content := by
  have hreverse : ends.reverse.dropWhile isNewline = [] :=
    List.dropWhile_eq_nil_iff.mpr fun c hc => hends c (List.mem_reverse.mp hc)
  rw [rstripNewlines, List.reverse_append, List.dropWhile_append, hreverse, List.isEmpty_nil, if_pos rfl]
  rcases List.eq_nil_or_concat' content with rfl | ⟨content, c, rfl⟩
  · rfl
  · have hc : isNewline c = false := hcontent c (by simp)
    rw [List.reverse_append, List.reverse_singleton, List.singleton_append,
      List.dropWhile_cons_of_neg (by rw [hc]; simp)]
    simp

/-- A line that begins with a newline is empty. -/
theorem IsLine.newlines (h : IsLine line) (hhead : ∀ c ∈ line.head?, isNewline c = true) :
    ∀ c ∈ line, isNewline c = true := by
  obtain ⟨content, ends, rfl, hcontent, hends⟩ := h
  cases content with
  | nil => exact hends
  | cons c content =>
      have hc := hhead c rfl
      rw [hcontent c List.mem_cons_self] at hc
      cases hc

theorem splitLines_isLine (h : line ∈ splitLines s) : IsLine line := by
  induction s generalizing line with
  | nil => cases h
  | cons c s ih =>
      rw [splitLines] at h
      split_ifs at h with hends
      · rcases List.mem_cons.mp h with rfl | h
        · have hc : isNewline c = true := by
            rw [endsLine, Bool.and_eq_true] at hends
            exact hends.1
          exact ⟨[], [c], rfl, by simp, by simp [hc]⟩
        · exact ih h
      · have hjoin : ∀ {first : Bytes}, IsLine first → (first = [] ∨ first.head? = s.head?) → IsLine (c :: first) := by
          intro first hfirst hhead
          cases hc : isNewline c with
          | false =>
              obtain ⟨content, ends, rfl, hcontent, hnewlines⟩ := hfirst
              exact ⟨c :: content, ends, rfl, List.forall_mem_cons.mpr ⟨hc, hcontent⟩, hnewlines⟩
          | true =>
              -- the `\r` of a `\r\n`
              have hs : s.head? = some newline := by
                rw [endsLine, hc, Bool.true_and, Bool.not_eq_true, Bool.not_eq_false', Bool.and_eq_true, beq_iff_eq,
                  beq_iff_eq] at hends
                exact hends.2
              have hnewlines : ∀ d ∈ first, isNewline d = true := by
                rcases hhead with rfl | hhead
                · simp
                · refine hfirst.newlines fun d hd => ?_
                  rw [hhead, hs] at hd
                  cases hd
                  rfl
              exact ⟨[], c :: first, rfl, by simp, List.forall_mem_cons.mpr ⟨hc, hnewlines⟩⟩
        cases hs : splitLines s with
        | nil =>
            rw [hs] at h
            obtain rfl := List.mem_singleton.mp h
            exact hjoin ⟨[], [], rfl, by simp, by simp⟩ (Or.inl rfl)
        | cons first rest =>
            rw [hs] at h
            rcases List.mem_cons.mp h with rfl | h
            · exact hjoin (ih (by rw [hs]; exact List.mem_cons_self)) (Or.inr (splitLines_head hs))
            · exact ih (by rw [hs]; exact List.mem_cons_of_mem _ h)

/-- Each line but the last one has its end. -/
def Ended (lines : List Bytes) : Prop := lines.Pairwise fun line _ => LineEnd line

theorem splitLines_ended (s : Bytes) : Ended (splitLines s) := by
  induction s with
  | nil => exact List.Pairwise.nil
  | cons c s ih =>
      rw [splitLines]
      split_ifs with hends
      · have hc : isNewline c = true := by
          rw [endsLine, Bool.and_eq_true] at hends
          exact hends.1
        refine List.pairwise_cons.mpr ⟨fun _ _ d hd => ?_, ih⟩
        cases hd
        exact hc
      · cases hs : splitLines s with
        | nil => exact List.pairwise_singleton _ _
        | cons first rest =>
            rw [hs] at ih
            obtain ⟨hfirst, hrest⟩ := List.pairwise_cons.mp ih
            have hne : first ≠ [] := splitLines_ne_nil (s := s) (by rw [hs]; exact List.mem_cons_self)
            exact List.pairwise_cons.mpr
              ⟨fun other hmem => (lineEnd_append (l := [c]) hne).mpr (hfirst other hmem), hrest⟩

theorem ended_filter {keep : Bytes → Bool} (h : Ended lines) : Ended (lines.filter keep) :=
  h.sublist List.filter_sublist

/-! ### Splitting what is left -/

/-- What is said of the lines of a text, each without its end. -/
def Lines (Q : Bytes → Prop) (s : Bytes) : Prop := ∀ line ∈ splitLines s, Q (rstripNewlines line)

theorem rstripNewlines_newlines (h : ∀ c ∈ l, isNewline c = true) : rstripNewlines l = [] := by
  have hline : rstripNewlines ([] ++ l) = [] := rstripNewlines_line (by simp) h
  rwa [List.nil_append] at hline

/-- Newlines in front make empty lines, or lengthen the end of an empty line. -/
theorem lines_newlines {Q : Bytes → Prop} (hnil : Q []) (hl : ∀ c ∈ l, isNewline c = true) (h : Lines Q s) :
    Lines Q (l ++ s) := by
  induction l with
  | nil => exact h
  | cons c l ih =>
      have hc : isNewline c = true := hl c List.mem_cons_self
      have hrest := ih fun d hd => hl d (List.mem_cons_of_mem _ hd)
      intro line hline
      rw [List.cons_append, splitLines] at hline
      split_ifs at hline with hends
      · rcases List.mem_cons.mp hline with rfl | hline
        · rw [rstripNewlines_newlines (by simp [hc])]
          exact hnil
        · exact hrest line hline
      · cases hs : splitLines (l ++ s) with
        | nil =>
            rw [hs] at hline
            obtain rfl := List.mem_singleton.mp hline
            rw [rstripNewlines_newlines (by simp [hc])]
            exact hnil
        | cons first rest =>
            rw [hs] at hline
            rcases List.mem_cons.mp hline with rfl | hline
            · have hfirst : IsLine first := splitLines_isLine (s := l ++ s) (by rw [hs]; exact List.mem_cons_self)
              have hhead : (l ++ s).head? = some newline := by
                rw [endsLine, hc, Bool.true_and, Bool.not_eq_true, Bool.not_eq_false', Bool.and_eq_true, beq_iff_eq,
                  beq_iff_eq] at hends
                exact hends.2
              have hnewlines : ∀ d ∈ first, isNewline d = true := by
                refine hfirst.newlines fun d hd => ?_
                rw [splitLines_head hs, hhead] at hd
                cases hd
                rfl
              rw [rstripNewlines_newlines (List.forall_mem_cons.mpr ⟨hc, hnewlines⟩)]
              exact hnil
            · exact hrest line (by rw [hs]; exact List.mem_cons_of_mem _ hline)

/-- **Lines put together.**  What is said of each of some lines is said of the lines of the text they make. -/
theorem lines_flatten {Q : Bytes → Prop} (hnil : Q []) (hlines : ∀ line ∈ lines, IsLine line ∧ line ≠ [])
    (hended : Ended lines) (h : ∀ line ∈ lines, Q (rstripNewlines line)) : Lines Q lines.flatten := by
  induction lines with
  | nil => exact fun line hline => absurd hline List.not_mem_nil
  | cons line lines ih =>
      obtain ⟨hfirst, hrest⟩ := List.pairwise_cons.mp hended
      have hlater := ih (fun l hl => hlines l (List.mem_cons_of_mem _ hl)) hrest
        fun l hl => h l (List.mem_cons_of_mem _ hl)
      obtain ⟨⟨content, ends, rfl, hcontent, hends⟩, hne⟩ := hlines line List.mem_cons_self
      have hQ : Q content := by
        have hline := h _ List.mem_cons_self
        rwa [rstripNewlines_line hcontent hends] at hline
      rw [List.flatten_cons, List.append_assoc]
      have htail := lines_newlines hnil hends hlater
      intro other hother
      cases hs : splitLines (ends ++ lines.flatten) with
      | nil =>
          have hempty := splitLines_eq_nil.mp hs
          rw [hempty, List.append_nil] at hother
          have hcontent_ne : content ≠ [] := by
            rintro rfl
            exact hne (by simp [(List.append_eq_nil_iff.mp hempty).1])
          rw [splitLines_self hcontent hcontent_ne] at hother
          rw [List.mem_singleton.mp hother]
          have hself : rstripNewlines (content ++ []) = content := rstripNewlines_line hcontent (by simp)
          rw [List.append_nil] at hself
          rwa [hself]
      | cons first rest =>
          rw [splitLines_plain hcontent hs] at hother
          rcases List.mem_cons.mp hother with rfl | hother
          · have hisLine : IsLine first :=
              splitLines_isLine (s := ends ++ lines.flatten) (by rw [hs]; exact List.mem_cons_self)
            have hnewlines : ∀ c ∈ first, isNewline c = true := by
              refine hisLine.newlines fun d hd => ?_
              rw [splitLines_head hs] at hd
              cases ends with
              | cons e ends =>
                  rw [← Option.some.inj hd]
                  exact hends e List.mem_cons_self
              | nil =>
                  -- a line without its end is the last one
                  exfalso
                  have hcontent_ne : content ≠ [] := by
                    rintro rfl
                    exact hne rfl
                  obtain ⟨q, e, rfl⟩ := (List.eq_nil_or_concat' content).resolve_left hcontent_ne
                  cases lines with
                  | nil => cases hd
                  | cons next lines =>
                      have hend := hfirst next List.mem_cons_self e (by simp)
                      rw [hcontent e (by simp)] at hend
                      cases hend
            rwa [rstripNewlines_line hcontent hnewlines]
          · exact htail other (by rw [hs]; exact List.mem_cons_of_mem _ hother)

/-! ### Counting and decoding by lines -/

theorem OneLine.count_flatten (hword : OneLine word) (h : Ended lines) :
    count word lines.flatten = (lines.map (count word)).sum := by
  induction lines with
  | nil => rfl
  | cons line lines ih =>
      obtain ⟨hfirst, hrest⟩ := List.pairwise_cons.mp h
      rw [List.flatten_cons, List.map_cons, List.sum_cons, ← ih hrest]
      cases lines with
      | nil => simp
      | cons next lines => exact hword.count_append (Or.inl (hfirst next List.mem_cons_self))

theorem strict_lineEnd (hl : LineEnd l) : Utf8.strict (l ++ r) ↔ Utf8.strict l ∧ Utf8.strict r := by
  rcases List.eq_nil_or_concat' l with rfl | ⟨l, c, rfl⟩
  · have hnil : Utf8.strict [] = true := rfl
    simp [hnil]
  · have hc : c.toNat < 0x80 := isNewline_ascii (hl c (by simp))
    have hlast : Utf8.strict (l ++ [c]) ↔ Utf8.strict l := by
      rw [Utf8.strict_cut hc, Utf8.strict_cons hc]
      have hnil : Utf8.strict [] = true := rfl
      simp [hnil]
    rw [List.append_assoc, List.singleton_append, Utf8.strict_cut hc, Utf8.strict_cons hc, hlast]

theorem strict_flatten (h : Ended lines) : Utf8.strict lines.flatten ↔ ∀ line ∈ lines, Utf8.strict line = true := by
  induction lines with
  | nil =>
      have hnil : Utf8.strict [] = true := rfl
      simp [hnil]
  | cons line lines ih =>
      obtain ⟨hfirst, hrest⟩ := List.pairwise_cons.mp h
      rw [List.flatten_cons, List.forall_mem_cons, ← ih hrest]
      cases lines with
      | nil =>
          have hnil : Utf8.strict [] = true := rfl
          simp [hnil]
      | cons next lines => exact strict_lineEnd (hfirst next List.mem_cons_self)

/-! ### The filter -/

theorem pattern_length : 3 ≤ rulePrefix.length + ruleSuffix.length := by decide

theorem rstripNewlines_length (value : Bytes) : (rstripNewlines value).length ≤ value.length := by
  rw [rstripNewlines, List.length_reverse]
  exact (List.dropWhile_suffix _).length_le.trans (by simp)

section Filter

variable [Runtime] [Host] [PolicyHost] {targetKey home : String} {existing out : Bytes}

/-- Whether a line stays. -/
def staysLine (targetKey : String) (rawLine : Bytes) : Bool :=
  match removesLine targetKey (rstripNewlines rawLine) with
  | .ok remove => !remove
  | .error _ => false

theorem retainedLines_eq_ok {retained : List Bytes} : retainedLines targetKey lines = .ok retained ↔
    (∀ line ∈ lines, ∃ remove, removesLine targetKey (rstripNewlines line) = .ok remove) ∧
      retained = lines.filter (staysLine targetKey) := by
  induction lines generalizing retained with
  | nil => simp [retainedLines, eq_comm]
  | cons line lines ih =>
      rw [retainedLines, List.forall_mem_cons, List.filter_cons]
      constructor
      · intro h
        obtain ⟨remove, hremove, h⟩ := bind_eq_ok.mp h
        obtain ⟨rest, hrest, h⟩ := bind_eq_ok.mp h
        obtain ⟨hall, rfl⟩ := ih.mp hrest
        refine ⟨⟨⟨remove, hremove⟩, hall⟩, ?_⟩
        rw [pure_eq_ok.mp h, staysLine, hremove]
        cases remove <;> rfl
      · rintro ⟨⟨⟨remove, hremove⟩, hall⟩, rfl⟩
        refine bind_eq_ok.mpr ⟨remove, hremove, bind_eq_ok.mpr ⟨_, ih.mpr ⟨hall, rfl⟩, ?_⟩⟩
        rw [pure_eq_ok, staysLine, hremove]
        cases remove <;> rfl

/-- The key of the retired command. -/
def retiredKey (home : String) : String := commandPathKey (PolicyHost.caseStatePath home)

/-- What the filter returns: the lines that stay. -/
theorem removeRetired_eq_ok : removeRetiredCaseStateCommandRules existing home = .ok out ↔
    Utf8.strict existing = true ∧
      (∀ line ∈ splitLines existing, ∃ remove, removesLine (retiredKey home) (rstripNewlines line) = .ok remove) ∧
      out = ((splitLines existing).filter (staysLine (retiredKey home))).flatten := by
  constructor
  · intro h
    obtain ⟨_, hstrict, h⟩ := bind_eq_ok.mp h
    obtain ⟨retained, hretained, h⟩ := bind_eq_ok.mp h
    obtain ⟨hall, rfl⟩ := retainedLines_eq_ok.mp hretained
    refine ⟨?_, hall, pure_eq_ok.mp h⟩
    unfold strictUtf8 policyError at hstrict
    split_ifs at hstrict with hs
    exact hs
  · rintro ⟨hstrict, hall, rfl⟩
    refine bind_eq_ok.mpr ⟨(), ?_, bind_eq_ok.mpr ⟨_, retainedLines_eq_ok.mpr ⟨hall, rfl⟩, rfl⟩⟩
    rw [strictUtf8, if_pos hstrict]

theorem staysLine_iff : staysLine targetKey line = true ↔ removesLine targetKey (rstripNewlines line) = .ok false := by
  unfold staysLine
  cases removesLine targetKey (rstripNewlines line) with
  | error e => simp
  | ok remove => simp

theorem removesLine_nil : removesLine targetKey [] = .ok false := by
  have hpattern : rulePattern [] = none := by decide
  rw [removesLine, hpattern]

/-- What the filter leaves is decoded. -/
theorem removeRetired_strict (h : removeRetiredCaseStateCommandRules existing home = .ok out) :
    Utf8.strict out = true := by
  obtain ⟨hstrict, -, rfl⟩ := removeRetired_eq_ok.mp h
  have hended := splitLines_ended existing
  refine (strict_flatten (ended_filter hended)).mpr fun line hline => ?_
  have hall := (strict_flatten hended).mp (by rwa [splitLines_flatten])
  exact hall line (List.mem_of_mem_filter hline)

/-- **The lines that are left stay.**  Also where two of them meet and make one. -/
theorem removeRetired_stays (h : removeRetiredCaseStateCommandRules existing home = .ok out) :
    Lines (fun content => removesLine (retiredKey home) content = .ok false) out := by
  obtain ⟨-, -, rfl⟩ := removeRetired_eq_ok.mp h
  refine lines_flatten removesLine_nil (fun line hline => ?_) (ended_filter (splitLines_ended existing))
    fun line hline => ?_
  · have hmem := List.mem_of_mem_filter hline
    exact ⟨splitLines_isLine hmem, splitLines_ne_nil hmem⟩
  · exact staysLine_iff.mp (List.mem_filter.mp hline).2

/-- Lines that all stay are left as they are. -/
theorem filter_stays (h : ∀ line ∈ lines, removesLine targetKey (rstripNewlines line) = .ok false) :
    lines.filter (staysLine targetKey) = lines :=
  List.filter_eq_self.mpr fun line hline => staysLine_iff.mpr (h line hline)

/-- A text within one line is not more often in what is left. -/
theorem removeRetired_count (hword : OneLine word) (h : removeRetiredCaseStateCommandRules existing home = .ok out) :
    count word out ≤ count word existing := by
  obtain ⟨-, -, rfl⟩ := removeRetired_eq_ok.mp h
  have hended := splitLines_ended existing
  rw [hword.count_flatten (ended_filter hended)]
  conv_rhs => rw [← splitLines_flatten existing, hword.count_flatten hended]
  exact (List.filter_sublist.map _).sum_le_sum fun _ _ => Nat.zero_le _

/-- A line that is dropped is as long as the pattern. -/
theorem removesLine_length (h : removesLine targetKey line = .ok true) :
    rulePrefix.length + ruleSuffix.length ≤ line.length := by
  unfold removesLine rulePattern at h
  by_cases hline : rulePrefix.isPrefixOf line = true ∧ endsWith line ruleSuffix = true ∧
      rulePrefix.length + ruleSuffix.length ≤ line.length
  · exact hline.2.2
  · rw [if_neg hline] at h
    cases h

/-- What the filter changes becomes shorter, by more than a line end. -/
theorem removeRetired_length (h : removeRetiredCaseStateCommandRules existing home = .ok out) (hne : out ≠ existing) :
    out.length + 3 ≤ existing.length := by
  obtain ⟨-, hall, rfl⟩ := removeRetired_eq_ok.mp h
  have hdropped : ∃ line ∈ splitLines existing, staysLine (retiredKey home) line = false := by
    by_contra hnone
    push Not at hnone
    refine hne ?_
    rw [List.filter_eq_self.mpr fun line hline => by simpa using hnone line hline, splitLines_flatten]
  obtain ⟨line, hline, hstays⟩ := hdropped
  have hremoves : removesLine (retiredKey home) (rstripNewlines line) = .ok true := by
    obtain ⟨remove, hremove⟩ := hall line hline
    rw [staysLine, hremove] at hstays
    cases remove with
    | false => cases hstays
    | true => exact hremove
  have hlong : 3 ≤ line.length :=
    (pattern_length.trans (removesLine_length hremoves)).trans (rstripNewlines_length line)
  obtain ⟨before, after, hlines⟩ := List.append_of_mem hline
  have hexisting : existing = (before ++ line :: after).flatten := by rw [← hlines, splitLines_flatten]
  have hfilter : ((splitLines existing).filter (staysLine (retiredKey home))).Sublist (before ++ after) := by
    rw [hlines, List.filter_append, List.filter_cons_of_neg (by rw [hstays]; simp)]
    exact List.Sublist.append List.filter_sublist List.filter_sublist
  have hle := hfilter.flatten.length_le
  have hlength : existing.length = (before ++ after).flatten.length + line.length := by
    rw [hexisting]
    simp only [List.flatten_append, List.flatten_cons, List.length_append]
    omega
  omega

end Filter

end CodingOS.PolicyMigration
