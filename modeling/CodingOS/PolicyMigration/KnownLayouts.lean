import CodingOS.PolicyMigration.Layouts

/-!
# The known layouts of `AGENTS.md`

Three spans of the file are replaced at once, in the order in which they stand.  Each begins at the beginning of
a line, and what is put in its place ends one or is followed by a line end, so that no text within one line
arises where the parts meet.
-/

namespace CodingOS.PolicyMigration

open CodingOS.Python
open Systems.Occurrence Systems.Result

variable {existing src r word : Bytes}

/-! ### Splicing -/

/-- A span that begins with a line: what it begins with and what follows it is ASCII. -/
structure Section (existing : Bytes) (begin finish : ℕ) : Prop where
  lt : begin < finish
  le : finish ≤ existing.length
  begins : LineEnd (existing.take begin)
  opens : ∀ c ∈ (existing.drop begin).head?, isNewline c = false ∧ c.toNat < 0x80
  ascii : ∀ c ∈ (existing.drop finish).head?, c.toNat < 0x80

/-- Spans in their order from a cursor on, none of which is joined to what follows it. -/
def Aligned (existing : Bytes) : ℕ → List Span → Prop
  | cursor, [] => cursor ≤ existing.length
  | cursor, (begin, finish, newBytes) :: rest =>
      cursor ≤ begin ∧ Section existing begin finish ∧ (LineEnd newBytes ∨ LineStart (existing.drop finish)) ∧
        Aligned existing finish rest

theorem take_slice {i j : ℕ} (h : i ≤ j) : existing.take j = existing.take i ++ slice existing i j := by
  have htake : (existing.take j).take i = existing.take i := by
    rw [List.take_take, Nat.min_eq_left h]
  rw [slice, ← htake, List.take_append_drop]

theorem drop_slice {i j : ℕ} (h : i ≤ j) : existing.drop i = slice existing i j ++ existing.drop j := by
  rw [slice, ← List.drop_take_append_drop existing i (j - i), Nat.add_sub_cancel' h, List.drop_take]

theorem slice_part {i j : ℕ} : slice existing i j <:+: existing :=
  (List.drop_suffix _ _).isInfix.trans (List.take_prefix _ _).isInfix

theorem slice_ne_nil {i j : ℕ} (h : i < j) (hle : j ≤ existing.length) : slice existing i j ≠ [] := by
  intro hnil
  have hlength := congrArg List.length hnil
  rw [slice, List.length_drop, List.length_take, List.length_nil] at hlength
  omega

theorem Section.drop_ne_nil {begin finish : ℕ} (h : Section existing begin finish) : existing.drop begin ≠ [] := by
  intro hnil
  have hlength := congrArg List.length hnil
  have hlt := h.lt
  have hle := h.le
  rw [List.length_drop, List.length_nil] at hlength
  omega

/-- Where a line ends in the file, it ends in the output. -/
theorem lineStart_splice {cursor : ℕ} {spans : List Span} (h : Aligned existing cursor spans)
    (hline : LineStart (existing.drop cursor)) : LineStart (splice existing cursor spans) := by
  match spans, h with
  | [], _ => exact hline
  | (begin, finish, newBytes) :: rest, ⟨hle, hsection, _, _⟩ =>
      rw [splice]
      rcases hle.lt_or_eq with hlt | rfl
      · have hbound : begin ≤ existing.length := (hsection.lt.trans_le hsection.le).le
        rw [lineStart_append (slice_ne_nil hlt hbound)]
        rw [drop_slice hle] at hline
        exact lineStart_left hline
      · obtain ⟨c, s, hs⟩ := List.exists_cons_of_ne_nil hsection.drop_ne_nil
        have hopens := (hsection.opens c (by rw [hs]; rfl)).1
        rw [hline c (by rw [hs]; rfl)] at hopens
        cases hopens

/-- A text within one line that is neither in the file nor in what is put there is not in the output. -/
theorem count_splice (hword : OneLine word) (hcount : count word existing = 0) {cursor : ℕ} {spans : List Span}
    (h : Aligned existing cursor spans) (hnew : ∀ span ∈ spans, count word span.2.2 = 0) :
    count word (splice existing cursor spans) = 0 := by
  induction spans generalizing cursor with
  | nil => exact hword.count_of_part (List.drop_suffix _ _).isInfix hcount
  | cons span rest ih =>
      obtain ⟨begin, finish, newBytes⟩ := span
      obtain ⟨hle, hsection, hjoin, hrest⟩ := h
      have hkept : LineEnd (slice existing cursor begin) := by
        have hbegins := hsection.begins
        rw [take_slice hle] at hbegins
        exact lineEnd_right hbegins
      have hbehind : LineEnd newBytes ∨ LineStart (splice existing finish rest) :=
        hjoin.imp id (lineStart_splice hrest)
      have hnewBytes : count word newBytes = 0 := hnew (begin, finish, newBytes) List.mem_cons_self
      rw [splice, hword.count_append (Or.inl hkept), hword.count_append hbehind,
        hword.count_of_part slice_part hcount, hnewBytes,
        ih hrest fun span hmem => hnew span (List.mem_cons_of_mem _ hmem)]

theorem strict_splice {cursor : ℕ} {spans : List Span} (h : Aligned existing cursor spans)
    (hstrict : Utf8.strict (existing.drop cursor) = true) (hnew : ∀ span ∈ spans, Utf8.strict span.2.2 = true) :
    Utf8.strict (splice existing cursor spans) = true := by
  induction spans generalizing cursor with
  | nil => exact hstrict
  | cons span rest ih =>
      obtain ⟨begin, finish, newBytes⟩ := span
      obtain ⟨hle, hsection, -, hrest⟩ := h
      rw [drop_slice hle, Utf8.strict_split fun c hc => (hsection.opens c hc).2, drop_slice hsection.lt.le,
        Utf8.strict_split hsection.ascii] at hstrict
      have hnewBytes : Utf8.strict newBytes = true := hnew (begin, finish, newBytes) List.mem_cons_self
      have htail := ih hrest hstrict.2.2 fun span hmem => hnew span (List.mem_cons_of_mem _ hmem)
      exact Utf8.strict_append hstrict.1 (Utf8.strict_append hnewBytes htail)

/-- What is between the spans is kept. -/
theorem edited_splice {E : Bytes → Bytes → Prop} {cursor : ℕ} {spans : List Span} (h : Aligned existing cursor spans)
    (hnew : ∀ span ∈ spans, E (slice existing span.1 span.2.1) span.2.2) :
    Edited E (existing.drop cursor) (splice existing cursor spans) := by
  induction spans generalizing cursor with
  | nil => exact Edited.rest _
  | cons span rest ih =>
      obtain ⟨begin, finish, newBytes⟩ := span
      obtain ⟨hle, hsection, -, hrest⟩ := h
      rw [drop_slice hle, drop_slice hsection.lt.le, splice]
      exact Edited.edit _ (hnew (begin, finish, newBytes) List.mem_cons_self)
        (ih hrest fun span hmem => hnew span (List.mem_cons_of_mem _ hmem))

/-- What is in front of one span and behind it in the output does not depend on what is put there. -/
theorem splice_at (existing : Bytes) (cursor begin finish : ℕ) (before after : List Span) :
    ∃ pre post, ∀ newBytes, splice existing cursor (before ++ (begin, finish, newBytes) :: after)
      = pre ++ (newBytes ++ post) := by
  induction before generalizing cursor with
  | nil => exact ⟨slice existing cursor begin, splice existing finish after, fun _ => rfl⟩
  | cons span before ih =>
      obtain ⟨pre, post, hsplice⟩ := ih span.2.1
      refine ⟨slice existing cursor span.1 ++ (span.2.2 ++ pre), post, fun newBytes => ?_⟩
      rw [List.cons_append, splice, hsplice]
      simp only [List.append_assoc]

theorem aligned_at {cursor begin finish : ℕ} {before after : List Span} {oldBytes newBytes : Bytes}
    (h : Aligned existing cursor (before ++ (begin, finish, oldBytes) :: after)) (hnew : LineEnd newBytes) :
    Aligned existing cursor (before ++ (begin, finish, newBytes) :: after) := by
  induction before generalizing cursor with
  | nil =>
      obtain ⟨hle, hsection, -, hrest⟩ := h
      exact ⟨hle, hsection, Or.inl hnew, hrest⟩
  | cons span before ih =>
      obtain ⟨hle, hsection, hjoin, hrest⟩ := h
      exact ⟨hle, hsection, hjoin, ih hrest⟩

/-- Spans that do not overlap stand in their order. -/
theorem aligned_of_overlap {cursor : ℕ} {spans : List Span} (hoverlap : overlap spans = false)
    (hspans : ∀ span ∈ spans, Section existing span.1 span.2.1 ∧
      (LineEnd span.2.2 ∨ LineStart (existing.drop span.2.1)))
    (hfirst : ∀ span ∈ spans.head?, cursor ≤ span.1) (hcursor : cursor ≤ existing.length) :
    Aligned existing cursor spans := by
  induction spans generalizing cursor with
  | nil => exact hcursor
  | cons span rest ih =>
      obtain ⟨hsection, hjoin⟩ := hspans span List.mem_cons_self
      refine ⟨hfirst span rfl, hsection, hjoin, ?_⟩
      refine ih ?_ (fun other hmem => hspans other (List.mem_cons_of_mem _ hmem)) ?_ hsection.le
      · cases rest with
        | nil => rfl
        | cons next rest =>
            rw [overlap, Bool.or_eq_false_iff] at hoverlap
            exact hoverlap.2
      · intro next hnext
        cases rest with
        | nil => cases hnext
        | cons other rest =>
            obtain rfl := Option.some.inj hnext
            rw [overlap, Bool.or_eq_false_iff] at hoverlap
            have hlt := hoverlap.1
            rw [decide_eq_false_iff_not] at hlt
            exact Nat.le_of_not_lt hlt

/-! ### Sections and lines -/

variable {pre post start sentinel line : Bytes}

theorem slice_take (k : ℕ) : slice (pre ++ post) pre.length (pre.length + k) = post.take k := by
  rw [slice, List.take_length_add_append, List.drop_left]

theorem lineEnd_of_before
    (h : (pre.length == 0 || slice (pre ++ post) (pre.length - 1) pre.length == [newline]) = true) : LineEnd pre := by
  have hiff : lineBegins (pre ++ post) pre.length = true ↔ LineEnd pre := lineBegins_iff
  refine hiff.mp ?_
  rw [Bool.or_eq_true] at h
  rw [lineBegins, Bool.or_eq_true]
  refine h.imp id fun hslice => ?_
  rw [beq_iff_eq.mp hslice]
  rfl

theorem lineStart_of_after (h : (pre.length == (pre ++ post).length || slice (pre ++ post) pre.length (pre.length + 1) == [newline] ||
    slice (pre ++ post) pre.length (pre.length + 2) == [carriage, newline]) = true) : LineStart post := by
  rw [slice_take, slice_take, Bool.or_eq_true, Bool.or_eq_true, beq_iff_eq, beq_iff_eq, beq_iff_eq] at h
  cases post with
  | nil => exact lineStart_nil
  | cons c post =>
      rcases h with (h | h) | h
      · simp at h
      · simp only [List.take_succ_cons, List.take_zero, List.cons.injEq, and_true] at h
        rw [h]
        intro d hd
        cases hd
        rfl
      · simp only [List.take_succ_cons, List.cons.injEq] at h
        rw [h.1]
        intro d hd
        cases hd
        rfl

theorem OneLine.opens (h : OneLine word) {rest : Bytes} :
    ∀ c ∈ (word ++ rest).head?, isNewline c = false ∧ c.toNat < 0x80 := by
  obtain ⟨d, w, rfl⟩ := List.exists_cons_of_ne_nil h.ne_nil
  intro c hc
  obtain rfl := Option.some.inj hc
  exact ⟨h.plain d List.mem_cons_self, h.ascii d List.mem_cons_self⟩

/-- A section of a known layout: from its first text to the first text behind it. -/
theorem verifiedLegacySlice_ok [FileDigest] {size : ℕ} {sha256 label : String} {span : ℕ × ℕ}
    (hstart : OneLine start) (hsentinel : OneLine sentinel)
    (h : verifiedLegacySlice existing start sentinel size sha256 label = .ok span) :
    Section existing span.1 span.2 ∧ (unixLines (slice existing span.1 span.2)).length = size ∧
      FileDigest.sha256 (unixLines (slice existing span.1 span.2)) = sha256 := by
  simp only [verifiedLegacySlice, policyError] at h
  split_ifs at h with hcount horder hends hdigest
  obtain rfl := Except.ok.inj h
  rw [not_or, not_not, not_not] at hcount hdigest
  obtain ⟨pre, post, hpre, hfind, -, -⟩ := once_spec hstart.ne_nil hcount.1
  obtain ⟨pre', post', hpre', hfind', -, -⟩ := once_spec hsentinel.ne_nil hcount.2
  have hbefore := hends.1
  have htake : existing.take (find start existing) = pre := by rw [hfind, hpre, List.take_left]
  have hdrop : existing.drop (find start existing) = start ++ post := by rw [hfind, hpre, List.drop_left]
  have hdrop' : existing.drop (find sentinel existing) = sentinel ++ post' := by rw [hfind', hpre', List.drop_left]
  have hlength : find sentinel existing ≤ existing.length := by
    rw [hfind', hpre']
    simp
  refine ⟨⟨by omega, hlength, ?_, ?_, ?_⟩, hdigest.1, hdigest.2⟩
  · rw [htake]
    rw [hfind, hpre] at hbefore
    exact lineEnd_of_before hbefore
  · rw [hdrop]
    exact hstart.opens
  · rw [hdrop']
    exact fun c hc => (hsentinel.opens c hc).2

/-- A line that is there once and complete. -/
theorem exactLineSpan_ok {label : String} {span : ℕ × ℕ} (hline : OneLine line)
    (h : exactLineSpan existing line label = .ok span) :
    Section existing span.1 span.2 ∧ LineStart (existing.drop span.2) ∧ slice existing span.1 span.2 = line := by
  simp only [exactLineSpan, policyError] at h
  split_ifs at h with hcount hok
  obtain rfl := Except.ok.inj h
  rw [not_not] at hcount
  rw [Bool.and_eq_true] at hok
  obtain ⟨hbefore, hafter⟩ := hok
  obtain ⟨pre, post, hpre, hfind, -, -⟩ := once_spec hline.ne_nil hcount
  have hassoc : existing = (pre ++ line) ++ post := by rw [hpre, List.append_assoc]
  have hfinish : find line existing + line.length = (pre ++ line).length := by rw [hfind, List.length_append]
  have htake : existing.take (find line existing) = pre := by rw [hfind, hpre, List.take_left]
  have hdrop : existing.drop (find line existing) = line ++ post := by rw [hfind, hpre, List.drop_left]
  have hdrop' : existing.drop (find line existing + line.length) = post := (take_find_drop hpre hfind).2
  have hstart : LineStart post := by
    rw [hfinish, hassoc] at hafter
    exact lineStart_of_after hafter
  have hpos := List.length_pos_of_ne_nil hline.ne_nil
  have hslice : slice existing (find line existing) (find line existing + line.length) = line := by
    rw [hfind, hpre, slice_take, List.take_left]
  refine ⟨⟨by omega, ?_, ?_, ?_, ?_⟩, by rw [hdrop']; exact hstart, hslice⟩
  · rw [hfinish, hassoc]
    simp
  · rw [htake]
    rw [hfind, hpre] at hbefore
    exact lineEnd_of_before hbefore
  · rw [hdrop]
    exact hline.opens
  · rw [hdrop']
    exact fun c hc => isNewline_ascii (hstart c hc)

end CodingOS.PolicyMigration
