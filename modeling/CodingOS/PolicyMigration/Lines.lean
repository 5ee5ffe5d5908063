import CodingOS.PolicyMigration.Migration

/-!
# Lines of a policy file

A text without a newline does not run across the end of a line, so its occurrences are those of the parts on
both sides.  The positions the migration looks at are places between two parts of the file.
-/

namespace CodingOS.PolicyMigration

open CodingOS.Python
open Systems.Occurrence

variable {l r word existing pre post : Bytes}

/-- A line can begin behind it. -/
def LineEnd (l : Bytes) : Prop := ∀ c ∈ l.getLast?, isNewline c = true

/-- A line can end in front of it. -/
def LineStart (r : Bytes) : Prop := ∀ c ∈ r.head?, isNewline c = true

instance (l : Bytes) : Decidable (LineEnd l) := inferInstanceAs (Decidable (∀ c ∈ l.getLast?, _))

instance (r : Bytes) : Decidable (LineStart r) := inferInstanceAs (Decidable (∀ c ∈ r.head?, _))

/-- A text within one line, not empty and of ASCII letters. -/
structure OneLine (word : Bytes) : Prop where
  ne_nil : word ≠ []
  ascii : Utf8.Ascii word
  plain : ∀ c ∈ word, isNewline c = false

theorem isNewline_ascii {c : UInt8} (h : isNewline c = true) : c.toNat < 0x80 := by
  simp only [isNewline, Bool.or_eq_true, beq_iff_eq] at h
  rcases h with rfl | rfl <;> decide

/-- A text of printable ASCII letters. -/
def printable (word : Bytes) : Bool := !word.isEmpty && word.all fun c => decide (32 ≤ c) && decide (c < 128)

theorem oneLine_of_printable (h : printable word = true) : OneLine word := by
  simp only [printable, Bool.and_eq_true, Bool.not_eq_true', List.isEmpty_eq_false_iff, List.all_eq_true,
    decide_eq_true_eq] at h
  refine ⟨h.1, fun c hc => UInt8.lt_iff_toNat_lt.mp (h.2 c hc).2, fun c hc => ?_⟩
  have hle : 32 ≤ c.toNat := UInt8.le_iff_toNat_le.mp (h.2 c hc).1
  simp only [isNewline, Bool.or_eq_false_iff, beq_eq_false_iff_ne]
  constructor
  · rintro rfl
    exact absurd hle (by decide)
  · rintro rfl
    exact absurd hle (by decide)

theorem lineEnd_nil : LineEnd [] := by
  intro c hc
  cases hc

theorem lineStart_nil : LineStart [] := by
  intro c hc
  cases hc

/-- A byte string of newlines begins and ends lines. -/
theorem newlines_line (h : ∀ c ∈ l, isNewline c = true) : LineEnd l ∧ LineStart l :=
  ⟨fun c hc => h c (List.mem_of_getLast? hc), fun c hc => h c (List.mem_of_head? hc)⟩

theorem lineEnd_append (hr : r ≠ []) : LineEnd (l ++ r) ↔ LineEnd r := by
  rw [LineEnd, LineEnd, List.getLast?_append_of_ne_nil _ hr]

theorem lineStart_append (hl : l ≠ []) : LineStart (l ++ r) ↔ LineStart l := by
  rw [LineStart, LineStart, List.head?_append_of_ne_nil _ hl]

theorem lineEnd_right (h : LineEnd (l ++ r)) : LineEnd r := by
  rcases List.eq_nil_or_concat' r with rfl | ⟨r, c, rfl⟩
  · exact lineEnd_nil
  · exact (lineEnd_append (by simp)).mp h

theorem lineStart_left (h : LineStart (l ++ r)) : LineStart l := by
  cases l with
  | nil => exact lineStart_nil
  | cons c l => exact h

theorem OneLine.not_mem {c : UInt8} (h : OneLine word) (hc : isNewline c = true) : c ∉ word := by
  intro hmem
  rw [h.plain c hmem] at hc
  cases hc

/-- A line goes on where a text within one line begins and ends. -/
theorem OneLine.line_plain (h : OneLine word) : ¬ LineStart word ∧ ¬ LineEnd word := by
  constructor
  · obtain ⟨c, w, rfl⟩ := List.exists_cons_of_ne_nil h.ne_nil
    intro hstart
    have hc := hstart c rfl
    rw [h.plain c List.mem_cons_self] at hc
    cases hc
  · obtain ⟨w, c, rfl⟩ := (List.eq_nil_or_concat' word).resolve_left h.ne_nil
    intro hend
    have hc := hend c (by simp)
    rw [h.plain c (by simp)] at hc
    cases hc

/-- A newline in front or behind counts nothing. -/
theorem OneLine.count_newline {c : UInt8} (h : OneLine word) (hc : isNewline c = true) :
    count word (l ++ c :: r) = count word l + count word r := by
  have htail : c ∉ word.tail := fun hmem => h.not_mem hc (List.mem_of_mem_tail hmem)
  rw [count_append_cons h.ne_nil htail, count_cons_of_not_mem h.ne_nil (h.not_mem hc)]

/-- **Counting by lines.**  A text within one line is counted apart on both sides of a line end. -/
theorem OneLine.count_append (h : OneLine word) (hline : LineEnd l ∨ LineStart r) :
    count word (l ++ r) = count word l + count word r := by
  rcases hline with hl | hr
  · rcases List.eq_nil_or_concat' l with rfl | ⟨l, c, rfl⟩
    · simp
    · have hc : isNewline c = true := hl c (by simp)
      have hlast := h.count_newline (l := l) (r := []) hc
      rw [List.append_assoc, List.singleton_append, h.count_newline hc, hlast, count_nil, Nat.add_zero]
  · cases r with
    | nil => simp
    | cons c r =>
        have hc : isNewline c = true := hr c (by simp)
        have hfirst := h.count_newline (l := []) (r := r) hc
        rw [List.nil_append, count_nil, Nat.zero_add] at hfirst
        rw [h.count_newline hc, hfirst]

/-- A text at the beginning of a line counts once beside what is on its two sides. -/
theorem OneLine.count_line (h : OneLine word) (hl : LineEnd l) :
    count word (l ++ (word ++ r)) = count word l + (1 + count word r) := by
  rw [h.count_append (Or.inl hl), count_append_self h.ne_nil]
  omega

theorem OneLine.count_of_part (h : OneLine word) (hoccurs : l <:+: r) (hr : count word r = 0) : count word l = 0 := by
  rw [count_eq_zero_iff h.ne_nil] at hr ⊢
  exact fun hl => hr (hl.trans hoccurs)

/-- Nothing is found where the file is empty beside a newline. -/
theorem OneLine.count_newlines (h : OneLine word) (hlines : ∀ c ∈ r, isNewline c = true) : count word r = 0 := by
  rw [count_eq_zero_iff h.ne_nil]
  rintro ⟨s, t, rfl⟩
  obtain ⟨c, w, rfl⟩ := List.exists_cons_of_ne_nil h.ne_nil
  have hc : isNewline c = true := hlines c (by simp)
  rw [h.plain c (by simp)] at hc
  cases hc

/-! ### Positions -/

/-- The byte in front of a position is the last of what is in front. -/
theorem slice_before {c : UInt8} : slice ((pre ++ [c]) ++ post) ((pre ++ [c]).length - 1) (pre ++ [c]).length = [c] := by
  rw [slice, List.take_left, List.length_append, List.length_singleton, Nat.add_sub_cancel, List.drop_left]

theorem slice_behind {c : UInt8} : slice (pre ++ c :: post) pre.length (pre.length + 1) = [c] := by
  have htake : (pre ++ c :: post).take (pre.length + 1) = pre ++ [c] := by
    rw [List.append_cons, show pre.length + 1 = (pre ++ [c]).length from by simp, List.take_left]
  rw [slice, htake, List.drop_left]

theorem contains_newlines {c : UInt8} : [[newline], [carriage]].contains [c] = isNewline c := by
  rw [Bool.eq_iff_iff]
  simp [isNewline]

theorem lineBegins_iff : lineBegins (pre ++ post) pre.length = true ↔ LineEnd pre := by
  rcases List.eq_nil_or_concat' pre with rfl | ⟨pre, c, rfl⟩
  · simp [lineBegins, lineEnd_nil]
  · have hne : ((pre ++ [c]).length == 0) = false := by simp
    rw [lineBegins, slice_before, contains_newlines, hne, Bool.false_or]
    simp [LineEnd]

theorem lineEnds_iff : lineEnds (pre ++ post) pre.length = true ↔ LineStart post := by
  cases post with
  | nil => simp [lineEnds, lineStart_nil]
  | cons c post =>
      have hne : (pre.length == (pre ++ c :: post).length) = false := by simp
      rw [lineEnds, slice_behind, contains_newlines, hne, Bool.false_or]
      simp [LineStart]

theorem take_find_drop (h : existing = pre ++ (word ++ post)) (hfind : find word existing = pre.length) :
    existing.take (find word existing) = pre ∧ existing.drop (find word existing + word.length) = post := by
  have hbehind : pre.length + word.length = (pre ++ word).length := by simp
  rw [hfind, h, List.take_left, hbehind, ← List.append_assoc, List.drop_left]
  exact ⟨rfl, rfl⟩

/-! ### Complete lines -/

/-- A complete line of a file: the text, with a line end or nothing on both sides. -/
def Complete (word existing l r : Bytes) : Prop := existing = l ++ (word ++ r) ∧ LineEnd l ∧ LineStart r

/-- A complete line in front of a block. -/
def InFront (word pre : Bytes) : Prop := ∃ l r, Complete word pre l r ∧ r ≠ []

/-- A complete line behind a block. -/
def Behind (word post : Bytes) : Prop := ∃ l r, Complete word post l r ∧ l ≠ []

theorem OneLine.inFront_count (h : OneLine word) (hline : InFront word pre) : count word pre ≠ 0 := by
  obtain ⟨l, r, ⟨rfl, hl, -⟩, -⟩ := hline
  rw [h.count_line hl]
  omega

theorem OneLine.behind_count (h : OneLine word) (hline : Behind word post) : count word post ≠ 0 := by
  obtain ⟨l, r, ⟨rfl, hl, -⟩, -⟩ := hline
  rw [h.count_line hl]
  omega

/-- A complete line of the file that does not touch a part of it. -/
def LineOutside (word existing pre middle post : Bytes) : Prop :=
  ∃ l r, Complete word existing l r ∧ existing = pre ++ (middle ++ post) ∧
    ((l ++ word).length ≤ pre.length ∨ (pre ++ middle).length ≤ l.length)

/-- A line outside a block that neither begins nor ends with a newline is in front of it or behind it. -/
theorem lineOutside_iff {middle : Bytes} (hmiddle : middle ≠ []) (hfirst : ¬ LineStart middle) (hlast : ¬ LineEnd middle) :
    LineOutside word (pre ++ (middle ++ post)) pre middle post ↔ InFront word pre ∨ Behind word post := by
  constructor
  · rintro ⟨l, r, ⟨heq, hl, hr⟩, -, hplace | hplace⟩
    · left
      have hleads : l ++ word <+: pre := List.prefix_of_prefix_length_le
        ⟨r, by rw [List.append_assoc, ← heq]⟩ (List.prefix_append _ _) hplace
      obtain ⟨rest, rfl⟩ := hleads
      have hrest : rest ++ (middle ++ post) = r := by
        have h := heq
        simp only [List.append_assoc, List.append_cancel_left_eq] at h
        exact h
      have hne : rest ≠ [] := by
        rintro rfl
        rw [← hrest, List.nil_append] at hr
        exact hfirst (lineStart_left hr)
      refine ⟨l, rest, ⟨by simp, hl, ?_⟩, hne⟩
      rw [← hrest] at hr
      exact lineStart_left hr
    · right
      have hleads : pre ++ middle <+: l := List.prefix_of_prefix_length_le
        ⟨post, by rw [List.append_assoc, heq]⟩ (List.prefix_append _ _) hplace
      obtain ⟨rest, rfl⟩ := hleads
      have hpost : post = rest ++ (word ++ r) := by
        have h := heq
        simp only [List.append_assoc, List.append_cancel_left_eq] at h
        exact h
      have hne : rest ≠ [] := by
        rintro rfl
        rw [List.append_nil] at hl
        exact hlast ((lineEnd_append hmiddle).mp hl)
      exact ⟨rest, r, ⟨hpost, (lineEnd_append hne).mp hl, hr⟩, hne⟩
  · rintro (⟨l, r, ⟨rfl, hl, hr⟩, hne⟩ | ⟨l, r, ⟨rfl, hl, hr⟩, hne⟩)
    · refine ⟨l, r ++ (middle ++ post), ⟨by simp, hl, (lineStart_append hne).mpr hr⟩, rfl, Or.inl ?_⟩
      simp
    · refine ⟨pre ++ (middle ++ l), r, ⟨by simp, ?_, hr⟩, rfl, Or.inr ?_⟩
      · rw [← List.append_assoc]
        exact (lineEnd_append hne).mpr hl
      · simp

end CodingOS.PolicyMigration
