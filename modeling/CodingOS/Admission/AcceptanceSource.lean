import CodingOS.Admission.Scope
import CodingOS.Python.SampleProcess
import CodingOS.Python.StrLines
import CodingOS.Python.Utf8

/-!
# Acceptance sources

`acceptance_source_content` of `admission.py`: a whole file, or the lines of one Markdown section.  The
lines are scanned with the fence that is open, and a heading counts when none is.
-/

namespace CodingOS.Admission

open CodingOS.Python CodingOS.Campaign

/-! ### One line -/

/-- The run of marks a code fence is opened or closed with. -/
structure Fence where
  mark : Char
  length : ℕ
deriving DecidableEq

def backtick : Char := Char.ofNat 0x60

/-- ``re.match(r"(`{3,}|~{3,})", line.lstrip())``. -/
def fenceMarker (line : List Char) : Option Fence :=
  let stripped := lstripChars line
  [backtick, '~'].findSome? fun mark =>
    let run := (stripped.takeWhile (· == mark)).length
    if 3 ≤ run then some ⟨mark, run⟩ else none

/-- `[ \t]`. -/
def isTab (c : Char) : Bool := c == ' ' || c == '\t'

/-- What `(.+?)` holds of `[ \t]+(.+?)\s*$`.  A text of white space is matched by its first character, or
by the last blank in front of it. -/
def headingText (rest : List Char) : Option (List Char) :=
  let blanks := rest.takeWhile isTab
  let text := rest.dropWhile isTab
  let body := rstripChars text
  if blanks = [] then none
  else if body ≠ [] then if '\n' ∈ body then none else some body
  else match text.head?.filter (· != '\n') with
    | some c => some [c]
    | none => if 2 ≤ blanks.length then some blanks.getLast?.toList else none

/-- `re.sub(r"[ \t]+#+$", "", text)`. -/
def withoutClosing (text : List Char) : List Char :=
  let body := text.rdropWhile (· == '#')
  let cut := body.rdropWhile isTab
  if body.length = text.length ∨ cut.length = body.length then text else cut

/-- The depth and the title of a heading. -/
def heading? (line : List Char) : Option (ℕ × List Char) :=
  let marked := line.dropWhile (· == ' ')
  let depth := (marked.takeWhile (· == '#')).length
  if (line.takeWhile (· == ' ')).length ≤ 3 ∧ 1 ≤ depth ∧ depth ≤ 6 then
    (headingText (marked.dropWhile (· == '#'))).map fun text =>
      (depth, rstripChars (lstripChars (withoutClosing text)))
  else none

/-! ### The scan -/

/-- One round of the loop: the fence that is open behind a line, and the heading on it. -/
def scanLine (fence : Option Fence) (line : List Char) : Option Fence × Option (ℕ × List Char) :=
  match fenceMarker line, fence with
  | some token, none => (some token, none)
  | some token, some opened =>
      (if token.mark = opened.mark ∧ opened.length ≤ token.length then none else some opened, none)
  | none, some opened => (some opened, none)
  | none, none => (none, heading? line)

/-- An entry of `headings`. -/
structure Heading where
  index : ℕ
  depth : ℕ
  title : List Char

/-- The headings of lines that are scanned from an index on. -/
def headingsFrom (fence : Option Fence) (index : ℕ) : List (List Char) → List Heading
  | [] => []
  | line :: lines =>
      ((scanLine fence line).2.map fun h => ⟨index, h.1, h.2⟩).toList ++
        headingsFrom (scanLine fence line).1 (index + 1) lines

/-- The comparison of a title with the anchor. -/
def Heading.named (h : Heading) (anchor : Value) : Bool := (Value.str (String.ofList h.title)).eq anchor

/-- `start` and `end`. -/
def sectionBounds (lines : List (List Char)) (anchor : Value) : Option (ℕ × ℕ) :=
  let headings := headingsFrom none 0 lines
  match headings.filter (·.named anchor) with
  | [m] => some (m.index,
      ((headings.find? fun h => m.index < h.index && h.depth ≤ m.depth).map (·.index)).getD lines.length)
  | _ => none

/-- `lines[start:end]`. -/
def sectionLines (lines : List (List Char)) (anchor : Value) : Option (List (List Char)) :=
  (sectionBounds lines anchor).map fun (first, last) => (lines.take last).drop first

/-! ### What the scan finds -/

/-- The fence that is open behind lines. -/
def fenceAfter (fence : Option Fence) (lines : List (List Char)) : Option Fence :=
  lines.foldl (fun fence line => (scanLine fence line).1) fence

@[simp] theorem fenceAfter_nil {fence : Option Fence} : fenceAfter fence [] = fence := rfl

theorem fenceAfter_append (fence : Option Fence) (a b : List (List Char)) :
    fenceAfter fence (a ++ b) = fenceAfter (fenceAfter fence a) b := List.foldl_append

/-- A heading stands where no fence is open, and leaves none. -/
theorem scanLine_heading {fence : Option Fence} {line : List Char} {h : ℕ × List Char}
    (hline : (scanLine fence line).2 = some h) :
    fence = none ∧ fenceMarker line = none ∧ (scanLine fence line).1 = none := by
  unfold scanLine at hline ⊢
  cases hmarker : fenceMarker line <;> cases fence <;> rw [hmarker] at hline
  · exact ⟨rfl, rfl, rfl⟩
  · cases hline
  · cases hline
  · cases hline

theorem scanLine_of_marker_eq_none {line : List Char} (h : fenceMarker line = none) :
    scanLine none line = (none, heading? line) := by
  unfold scanLine
  rw [h]

theorem headingsFrom_append (fence : Option Fence) (index : ℕ) (a b : List (List Char)) :
    headingsFrom fence index (a ++ b)
      = headingsFrom fence index a ++ headingsFrom (fenceAfter fence a) (index + a.length) b := by
  induction a generalizing fence index with
  | nil => rfl
  | cons line a ih =>
      rw [List.cons_append, headingsFrom, ih, headingsFrom, List.append_assoc, List.length_cons,
        Nat.add_right_comm, Nat.add_assoc]
      rfl

/-- **The headings are those of the lines.** -/
theorem mem_headingsFrom {fence : Option Fence} {index : ℕ} {lines : List (List Char)} {h : Heading} :
    h ∈ headingsFrom fence index lines ↔ ∃ pre line rest, lines = pre ++ line :: rest ∧
      h.index = index + pre.length ∧ (scanLine (fenceAfter fence pre) line).2 = some (h.depth, h.title) := by
  induction lines generalizing fence index with
  | nil => simp [headingsFrom]
  | cons line lines ih =>
      rw [headingsFrom, List.mem_append, ih]
      constructor
      · rintro (hfirst | ⟨pre, l, rest, rfl, hindex, hscan⟩)
        · obtain ⟨⟨depth, title⟩, hscan, rfl⟩ := Option.map_eq_some_iff.mp (Option.mem_toList.mp hfirst)
          exact ⟨[], line, lines, rfl, rfl, hscan⟩
        · exact ⟨line :: pre, l, rest, rfl, by rw [hindex, List.length_cons]; omega, hscan⟩
      · rintro ⟨pre, l, rest, hlines, hindex, hscan⟩
        cases pre with
        | nil =>
            obtain ⟨rfl, rfl⟩ := List.cons.inj hlines
            refine .inl (Option.mem_toList.mpr (Option.map_eq_some_iff.mpr ⟨_, hscan, ?_⟩))
            obtain ⟨i, d, t⟩ := h
            exact congrArg (fun i => Heading.mk i d t) hindex.symm
        | cons first pre =>
            obtain ⟨rfl, rfl⟩ := List.cons.inj hlines
            exact .inr ⟨pre, l, rest, rfl, by rw [hindex, List.length_cons]; omega, hscan⟩

/-- The lines of a section below its heading: up to a heading that is no deeper. -/
def sectionRest (depth : ℕ) (fence : Option Fence) : List (List Char) → List (List Char)
  | [] => []
  | line :: lines =>
      if (scanLine fence line).2.any (·.1 ≤ depth) then []
      else line :: sectionRest depth (scanLine fence line).1 lines

theorem sectionRest_prefix (depth : ℕ) (fence : Option Fence) (lines : List (List Char)) :
    ∃ later, lines = sectionRest depth fence lines ++ later := by
  induction lines generalizing fence with
  | nil => exact ⟨[], rfl⟩
  | cons line lines ih =>
      rw [sectionRest]
      split
      · exact ⟨line :: lines, rfl⟩
      · obtain ⟨later, hlater⟩ := ih (scanLine fence line).1
        exact ⟨later, by rw [List.cons_append, ← hlater]⟩

/-- Lines that are all of a section are passed. -/
theorem sectionRest_append {depth : ℕ} {fence : Option Fence} {a : List (List Char)}
    (h : sectionRest depth fence a = a) (b : List (List Char)) :
    sectionRest depth fence (a ++ b) = a ++ sectionRest depth (fenceAfter fence a) b := by
  induction a generalizing fence with
  | nil => rfl
  | cons line a ih =>
      rw [sectionRest] at h
      split at h
      · cases h
      · next hpast =>
          rw [List.cons_append, sectionRest, if_neg hpast, ih (List.cons.inj h).2]
          rfl

/-- The lines of a section are passed, whatever follows them. -/
theorem sectionRest_idem (depth : ℕ) (fence : Option Fence) (lines : List (List Char)) :
    sectionRest depth fence (sectionRest depth fence lines) = sectionRest depth fence lines := by
  induction lines generalizing fence with
  | nil => rfl
  | cons line lines ih =>
      by_cases hend : (scanLine fence line).2.any (·.1 ≤ depth) = true
      · rw [sectionRest, if_pos hend]
        rfl
      · rw [sectionRest, if_neg hend, sectionRest, if_neg hend, ih]

/-- The search for the end of a section. -/
theorem find?_headingsFrom (depth : ℕ) {start index : ℕ} (hindex : start < index) (fence : Option Fence)
    (lines : List (List Char)) :
    (((headingsFrom fence index lines).find? fun h => start < h.index && h.depth ≤ depth).map (·.index)).getD
      (index + lines.length) = index + (sectionRest depth fence lines).length := by
  induction lines generalizing fence index with
  | nil => rfl
  | cons line lines ih =>
      have hlater := ih (by omega : start < index + 1) (scanLine fence line).1
      rw [headingsFrom, sectionRest, List.find?_append]
      cases hscan : (scanLine fence line).2 with
      | none =>
          rw [List.length_cons, Option.any_none, if_neg Bool.false_ne_true, List.length_cons,
            Nat.add_comm lines.length, ← Nat.add_assoc, Nat.add_comm (sectionRest _ _ _).length, ← Nat.add_assoc,
            ← hlater]
          rfl
      | some h =>
          by_cases hdepth : h.1 ≤ depth
          · simp [hdepth, hindex]
          · rw [List.length_cons, Option.any_some, if_neg (by simpa using hdepth), List.length_cons,
              Nat.add_comm lines.length, ← Nat.add_assoc, Nat.add_comm (sectionRest _ _ _).length, ← Nat.add_assoc,
              ← hlater]
            simp [hdepth]

/-- The one heading of lines that an anchor names. -/
structure Anchored (lines : List (List Char)) (anchor : Value) (pre : List (List Char)) (line : List Char)
    (rest : List (List Char)) (h : ℕ × List Char) : Prop where
  lines_eq : lines = pre ++ line :: rest
  scan : (scanLine (fenceAfter none pre) line).2 = some h
  only : (headingsFrom none 0 lines).filter (·.named anchor) = [⟨pre.length, h.1, h.2⟩]

/-- The heading an anchor names is there once. -/
def UniqueHeading (lines : List (List Char)) (anchor : Value) : Prop :=
  ((headingsFrom none 0 lines).filter (·.named anchor)).length = 1

instance (lines : List (List Char)) (anchor : Value) : Decidable (UniqueHeading lines anchor) :=
  inferInstanceAs (Decidable (_ = 1))

section Anchors

variable {lines pre rest : List (List Char)} {line : List Char} {anchor : Value} {h : ℕ × List Char}

theorem Anchored.unique (a : Anchored lines anchor pre line rest h) : UniqueHeading lines anchor := by
  rw [UniqueHeading, a.only]
  rfl

theorem Anchored.named (a : Anchored lines anchor pre line rest h) :
    (Heading.mk pre.length h.1 h.2).named anchor = true := by
  have hmem : Heading.mk pre.length h.1 h.2 ∈ (headingsFrom none 0 lines).filter (·.named anchor) := by
    rw [a.only]
    exact List.mem_singleton_self _
  exact (List.mem_filter.mp hmem).2

theorem Anchored.index_eq (a : Anchored lines anchor pre line rest h) (other : Heading)
    (hmem : other ∈ headingsFrom none 0 lines) (hnamed : other.named anchor = true) : other.index = pre.length := by
  have hfilter : other ∈ (headingsFrom none 0 lines).filter (·.named anchor) :=
    List.mem_filter.mpr ⟨hmem, hnamed⟩
  rw [a.only, List.mem_singleton] at hfilter
  rw [hfilter]

/-- A heading that an anchor names is the one, when there is one. -/
theorem anchored_of_unique (hlines : lines = pre ++ line :: rest)
    (hscan : (scanLine (fenceAfter none pre) line).2 = some h)
    (hnamed : (Heading.mk pre.length h.1 h.2).named anchor = true) (hunique : UniqueHeading lines anchor) :
    Anchored lines anchor pre line rest h := by
  obtain ⟨m, hm⟩ := List.length_eq_one_iff.mp hunique
  have hmem : Heading.mk pre.length h.1 h.2 ∈ (headingsFrom none 0 lines).filter (·.named anchor) :=
    List.mem_filter.mpr ⟨mem_headingsFrom.mpr ⟨pre, line, rest, hlines, (Nat.zero_add _).symm, hscan⟩, hnamed⟩
  refine ⟨hlines, hscan, ?_⟩
  rw [hm, List.mem_singleton] at hmem
  rw [hm, hmem]

theorem exists_anchored (hunique : UniqueHeading lines anchor) :
    ∃ pre line rest h, Anchored lines anchor pre line rest h := by
  obtain ⟨m, hm⟩ := List.length_eq_one_iff.mp hunique
  have hmem : m ∈ (headingsFrom none 0 lines).filter (·.named anchor) := by
    rw [hm]
    exact List.mem_singleton_self _
  obtain ⟨hheading, -⟩ := List.mem_filter.mp hmem
  obtain ⟨pre, line, rest, hlines, hindex, hscan⟩ := mem_headingsFrom.mp hheading
  rw [Nat.zero_add] at hindex
  refine ⟨pre, line, rest, (m.depth, m.title), hlines, hscan, ?_⟩
  rw [hm, ← hindex]

/-- **Where a section starts and ends.** -/
theorem Anchored.sectionBounds_eq (a : Anchored lines anchor pre line rest h) :
    sectionBounds lines anchor = some (pre.length, pre.length + 1 + (sectionRest h.1 none rest).length) := by
  have hnext : (scanLine (fenceAfter none pre) line).1 = none := (scanLine_heading a.scan).2.2
  have hpre : ∀ other ∈ headingsFrom none 0 pre, ¬ pre.length < other.index := by
    intro other hother
    obtain ⟨before, l, later, hlines, hindex, -⟩ := mem_headingsFrom.mp hother
    have hlength := congrArg List.length hlines
    rw [List.length_append, List.length_cons] at hlength
    omega
  have hend := find?_headingsFrom h.1 (Nat.lt_succ_self pre.length) none rest
  simp only [sectionBounds, a.only]
  rw [a.lines_eq, headingsFrom_append, headingsFrom, hnext, a.scan, Nat.zero_add, List.find?_append,
    List.find?_eq_none.mpr fun other hother => by simp [hpre other hother], List.length_append, List.length_cons,
    Nat.add_comm rest.length, ← Nat.add_assoc, ← hend]
  simp

/-- **The lines of a section.** -/
theorem Anchored.sectionLines_eq (a : Anchored lines anchor pre line rest h) :
    sectionLines lines anchor = some (line :: sectionRest h.1 none rest) := by
  obtain ⟨later, hlater⟩ := sectionRest_prefix h.1 none rest
  rw [sectionLines, a.sectionBounds_eq, Option.map_some]
  refine congrArg some ?_
  have hlines : lines = (pre ++ line :: sectionRest h.1 none rest) ++ later := by
    rw [a.lines_eq, List.append_assoc, List.cons_append, ← hlater]
  have hlength : pre.length + 1 + (sectionRest h.1 none rest).length
      = (pre ++ line :: sectionRest h.1 none rest).length := by
    rw [List.length_append, List.length_cons]
    omega
  rw [hlength, hlines]
  show ((pre ++ line :: sectionRest h.1 none rest ++ later).take _).drop pre.length = _
  rw [List.take_left, List.drop_left]

/-- Without the one heading there is no section. -/
theorem sectionBounds_eq_none (hunique : ¬ UniqueHeading lines anchor) : sectionBounds lines anchor = none := by
  rw [sectionBounds]
  split
  · next hm => exact absurd (by rw [UniqueHeading, hm]; rfl) hunique
  · rfl

end Anchors

section Content

variable [Runtime]

/-- `acceptance_source_content`.  `read` gives the bytes of a file of the repository, and nothing for a path
that leaves it or cannot be read. -/
def acceptanceSourceContent (read : String → Option (List UInt8)) (source : Mapping) : Result (List UInt8) := do
  let parts ← normalizeAllowedPath (source.getD "path" (.str "")).text
  let relative := "/".intercalate parts
  let data ← orRaise (read relative) .admission ("acceptance source is unavailable: " ++ relative)
  let anchor := source.read "section"
  if anchor = .null then return data
  else
    let text ← orRaise (String.fromUTF8? ⟨data.toArray⟩) .admission
      ("acceptance section requires UTF-8: " ++ relative)
    let lines ← orRaise (sectionLines (splitlinesKeepends text.toList) anchor) .admission
      ("acceptance section is missing or ambiguous: " ++ relative ++ " / " ++ anchor.text)
    return Utf8.encode (String.ofList lines.flatten)

end Content

/-! ### Edits around a section, and in it -/

/-- An anchor selects lines of a document. -/
structure Selects (lines : List (List Char)) (anchor : Value) (pre sec post : List (List Char)) : Prop where
  lines_eq : lines = pre ++ sec ++ post
  bounds : sectionBounds lines anchor = some (pre.length, pre.length + sec.length)

/-- The depth of the heading a section begins with. -/
def sectionDepth (sec : List (List Char)) : ℕ := ((sec.head?.bind heading?).map (·.1)).getD 0

/-- What follows a section ends it: nothing, or a heading that is no deeper. -/
def EndsSection (depth : ℕ) (fence : Option Fence) (post : List (List Char)) : Prop :=
  ∀ line ∈ post.head?, (scanLine fence line).2.any (·.1 ≤ depth) = true

theorem sectionRest_eq_nil {depth : ℕ} {fence : Option Fence} {post : List (List Char)} :
    sectionRest depth fence post = [] ↔ EndsSection depth fence post := by
  cases post with
  | nil => simp [sectionRest, EndsSection]
  | cons line post =>
      rw [sectionRest, EndsSection]
      split
      · next h => simpa using h
      · next h => simpa using h

section Edits

variable {lines lines' pre sec post : List (List Char)} {anchor : Value}

/-- The heading of the lines that are selected. -/
theorem Selects.exists_anchored (s : Selects lines anchor pre sec post) :
    ∃ line tail h, sec = line :: tail ∧ Anchored lines anchor pre line (tail ++ post) h ∧
      sectionRest h.1 none tail = tail ∧ sectionDepth sec = h.1 := by
  have hunique : UniqueHeading lines anchor := by
    by_contra hunique
    exact absurd (s.bounds.symm.trans (sectionBounds_eq_none hunique)) (by simp)
  obtain ⟨before, line, rest, h, a⟩ := Admission.exists_anchored hunique
  obtain ⟨hstart, hlength⟩ := Prod.mk.inj (Option.some.inj (s.bounds.symm.trans a.sectionBounds_eq))
  have hsplit : pre ++ (sec ++ post) = before ++ line :: rest := by
    rw [← List.append_assoc, ← s.lines_eq, a.lines_eq]
  obtain ⟨rfl, hsec⟩ := List.append_inj hsplit hstart
  obtain ⟨later, hlater⟩ := sectionRest_prefix h.1 none rest
  have hboth : sec ++ post = (line :: sectionRest h.1 none rest) ++ later := by
    rw [hsec, List.cons_append, ← hlater]
  obtain ⟨rfl, rfl⟩ := List.append_inj hboth (by rw [List.length_cons]; omega)
  obtain ⟨hfence, hmarker, -⟩ := scanLine_heading a.scan
  have hheading : heading? line = some h := by
    have hscan := a.scan
    rw [hfence, scanLine_of_marker_eq_none hmarker] at hscan
    exact hscan
  refine ⟨line, _, h, rfl, ?_, sectionRest_idem _ _ _, ?_⟩
  · rw [← hlater]
    exact a
  · rw [sectionDepth, List.head?_cons, Option.bind_some, hheading, Option.map_some, Option.getD_some]

/-- **Edits around a section.**  Behind closed fences, the same lines are selected, up to the next heading. -/
theorem Selects.sectionLines_edit (s : Selects lines anchor pre sec post) {pre' post' : List (List Char)}
    (hlines : lines' = pre' ++ sec ++ post') (hclosed : fenceAfter none pre' = none)
    (hunique : UniqueHeading lines' anchor) : sectionLines lines' anchor =
      some (sec ++ sectionRest (sectionDepth sec) (fenceAfter none (pre' ++ sec)) post') := by
  obtain ⟨line, tail, h, rfl, a, htail, hdepth⟩ := s.exists_anchored
  obtain ⟨hfence, -, hnext⟩ := scanLine_heading a.scan
  have hscan : (scanLine (fenceAfter none pre') line).2 = some h := by
    rw [hclosed, ← hfence]
    exact a.scan
  have hnamed : (Heading.mk pre'.length h.1 h.2).named anchor = true := a.named
  have a' : Anchored lines' anchor pre' line (tail ++ post') h :=
    anchored_of_unique (by rw [hlines, List.append_assoc, List.cons_append]) hscan hnamed hunique
  have hafter : fenceAfter none (pre' ++ line :: tail) = fenceAfter none tail := by
    rw [fenceAfter_append, hclosed]
    show fenceAfter (scanLine none line).1 tail = _
    rw [hfence] at hnext
    rw [hnext]
  rw [a'.sectionLines_eq, sectionRest_append htail, hdepth, hafter, List.cons_append]

theorem Selects.sectionLines_eq (s : Selects lines anchor pre sec post) : sectionLines lines anchor = some sec := by
  rw [sectionLines, s.bounds, Option.map_some]
  refine congrArg some ?_
  show (lines.take (pre.length + sec.length)).drop pre.length = sec
  rw [s.lines_eq, ← List.length_append, List.take_left, List.drop_left]

/-- The lines of a section stand together. -/
theorem exists_of_sectionLines (h : sectionLines lines anchor = some sec) :
    ∃ before later, lines = before ++ sec ++ later := by
  obtain ⟨⟨first, last⟩, -, rfl⟩ := Option.map_eq_some_iff.mp h
  refine ⟨(lines.take last).take first, lines.drop last, ?_⟩
  rw [List.take_append_drop, List.take_append_drop]

/-- The heading of an edited document stands where it stood. -/
theorem Selects.length_eq (s : Selects lines anchor pre sec post) {i : ℕ} {line' : List Char}
    (hlines : lines' = pre ++ sec.set i line' ++ post) (hfirst : i ≠ 0 ∨ fenceMarker line' = none)
    {pre' rest : List (List Char)} {l : List Char} {h' : ℕ × List Char}
    (a' : Anchored lines' anchor pre' l rest h') : pre'.length = pre.length := by
  obtain ⟨line, tail, h, rfl, a, -, -⟩ := s.exists_anchored
  obtain ⟨hfence, -, hnext⟩ := scanLine_heading a.scan
  rw [hfence] at hnext
  cases i with
  | succ j =>
      have hold : lines' = pre ++ line :: (tail.set j line' ++ post) := by
        rw [hlines, List.set_cons_succ, List.append_assoc, List.cons_append]
      exact (a'.index_eq ⟨pre.length, h.1, h.2⟩
        (mem_headingsFrom.mpr ⟨pre, line, _, hold, (Nat.zero_add _).symm, a.scan⟩) a.named).symm
  | zero =>
      have hmarker : fenceMarker line' = none := hfirst.resolve_left fun h => h rfl
      have hnew : lines' = pre ++ line' :: (tail ++ post) := by
        rw [hlines, List.set_cons_zero, List.append_assoc, List.cons_append]
      have hsplit : pre ++ line' :: (tail ++ post) = pre' ++ l :: rest := hnew.symm.trans a'.lines_eq
      have hnamed' : ∀ index, (Heading.mk index h'.1 h'.2).named anchor = true := fun _ => a'.named
      rcases List.append_eq_append_iff.mp hsplit with ⟨between, hpre, hrest⟩ | ⟨between, hpre, hrest⟩
      · cases between with
        | nil => rw [hpre, List.append_nil]
        | cons first between =>
            -- a heading behind the edit was there before it
            obtain ⟨rfl, htail⟩ := List.cons.inj hrest
            have hafter : fenceAfter none pre' = fenceAfter none (pre ++ line :: between) := by
              rw [hpre, fenceAfter_append, hfence, fenceAfter_append, hfence]
              show fenceAfter (scanLine none line').1 between = fenceAfter (scanLine none line).1 between
              rw [scanLine_of_marker_eq_none hmarker, hnext]
            have hold : lines = (pre ++ line :: between) ++ l :: rest := by
              rw [a.lines_eq, List.append_assoc, List.cons_append]
              exact congrArg (fun t => pre ++ line :: t) htail
            have hindex : (pre ++ line :: between).length = pre.length :=
              a.index_eq ⟨(pre ++ line :: between).length, h'.1, h'.2⟩
                (mem_headingsFrom.mpr ⟨_, l, rest, hold, (Nat.zero_add _).symm, hafter ▸ a'.scan⟩) (hnamed' _)
            rw [List.length_append, List.length_cons] at hindex
            omega
      · cases between with
        | nil => rw [hpre, List.append_nil]
        | cons first between =>
            -- so was one in front of it
            obtain ⟨rfl, -⟩ := List.cons.inj hrest
            have hold : lines = pre' ++ l :: (between ++ line :: (tail ++ post)) := by
              rw [a.lines_eq, hpre, List.append_assoc, List.cons_append]
            exact a.index_eq ⟨pre'.length, h'.1, h'.2⟩
              (mem_headingsFrom.mpr ⟨pre', l, _, hold, (Nat.zero_add _).symm, a'.scan⟩) a'.named

/-- **Edits of one line of a section.**  Other lines are selected, if any, unless a fence takes the place of
the heading. -/
theorem Selects.sectionLines_set (s : Selects lines anchor pre sec post) {i : ℕ} {line' : List Char}
    (hi : i < sec.length) (hne : line' ≠ sec[i]) (hlines : lines' = pre ++ sec.set i line' ++ post)
    (hfirst : i ≠ 0 ∨ fenceMarker line' = none) : sectionLines lines' anchor ≠ some sec := by
  intro hsame
  have hunique : UniqueHeading lines' anchor := by
    by_contra hunique
    rw [sectionLines, sectionBounds_eq_none hunique] at hsame
    cases hsame
  obtain ⟨pre', l, rest, h', a'⟩ := Admission.exists_anchored hunique
  have hstart := s.length_eq hlines hfirst a'
  have hsec : sec = l :: sectionRest h'.1 none rest := by
    rw [a'.sectionLines_eq] at hsame
    exact (Option.some.inj hsame).symm
  obtain ⟨later, hlater⟩ := sectionRest_prefix h'.1 none rest
  have hsplit : pre ++ (sec.set i line' ++ post) = pre' ++ (sec ++ later) := by
    rw [← List.append_assoc, ← hlines, a'.lines_eq, hsec, List.cons_append, ← hlater]
  have hboth := (List.append_inj hsplit hstart.symm).2
  have hset : sec.set i line' = sec := (List.append_inj hboth List.length_set).1
  have hget : (sec.set i line')[i]? = sec[i]? := by rw [hset]
  rw [List.getElem?_set_self hi, List.getElem?_eq_getElem hi] at hget
  exact hne (Option.some.inj hget)

end Edits

/-! ### The content of a section -/

theorem fromUTF8?_encode (text : String) : String.fromUTF8? ⟨(Utf8.encode text).toArray⟩ = some text := by
  have hbytes : (⟨(Utf8.encode text).toArray⟩ : ByteArray) = text.toUTF8 := by
    rw [Utf8.encode, Array.toArray_toList]
  rw [hbytes]
  exact dif_pos text.isValidUTF8

theorem encode_injective : Function.Injective Utf8.encode := by
  intro a b h
  have hdecode := fromUTF8?_encode a
  rw [h, fromUTF8?_encode] at hdecode
  exact (Option.some.inj hdecode).symm

/-- Lines that a document has are told by their text. -/
theorem flatten_inj {a b : String} {pre sec post pre' sec' post' : List (List Char)}
    (ha : splitlinesKeepends a.toList = pre ++ sec ++ post) (hb : splitlinesKeepends b.toList = pre' ++ sec' ++ post')
    (h : Utf8.encode (String.ofList sec.flatten) = Utf8.encode (String.ofList sec'.flatten)) : sec = sec' := by
  have hflat : sec.flatten = sec'.flatten := String.ofList_injective (encode_injective h)
  rw [← splitlinesKeepends_infix ha, hflat, splitlinesKeepends_infix hb]

section Isolation

variable [Runtime]

/-- What is read of a document in the place of a source. -/
theorem acceptanceSourceContent_eq {source : Mapping} {parts : List String} {title : String}
    (hpath : normalizeAllowedPath (source.getD "path" (.str "")).text = .ok parts)
    (hsection : source.read "section" = .str title) {read : String → Option (List UInt8)} {doc : String}
    (hread : read ("/".intercalate parts) = some (Utf8.encode doc)) :
    acceptanceSourceContent read source =
      match sectionLines (splitlinesKeepends doc.toList) (.str title) with
      | some lines => .ok (Utf8.encode (String.ofList lines.flatten))
      | none => fail .admission ("acceptance section is missing or ambiguous: " ++ "/".intercalate parts
          ++ " / " ++ title) := by
  have hsome : (Value.str title = .null) = False := by simp
  simp only [acceptanceSourceContent, hpath, hsection, hread, orRaise, bind, Except.bind, hsome, if_false,
    fromUTF8?_encode, Value.text_str]
  cases sectionLines (splitlinesKeepends doc.toList) (.str title) <;> rfl

/-- **Acceptance section isolation.**  Around the lines that are selected a document may change: while the
fences in front are closed and the heading is there once, the content stays as it is if and only if what
follows the lines still ends their section.  When one of the lines changes the content changes or is refused,
unless a code fence takes the place of the heading. -/
theorem acceptance_section_isolation {source : Mapping} {parts : List String} {title : String}
    (hpath : normalizeAllowedPath (source.getD "path" (.str "")).text = .ok parts)
    (hsection : source.read "section" = .str title) {read : String → Option (List UInt8)} {doc : String}
    (hread : read ("/".intercalate parts) = some (Utf8.encode doc)) {pre sec post : List (List Char)}
    (hselects : Selects (splitlinesKeepends doc.toList) (.str title) pre sec post) :
    acceptanceSourceContent read source = .ok (Utf8.encode (String.ofList sec.flatten)) ∧
    (∀ (read' : String → Option (List UInt8)) (doc' : String) (pre' post' : List (List Char)),
      read' ("/".intercalate parts) = some (Utf8.encode doc') →
      splitlinesKeepends doc'.toList = pre' ++ sec ++ post' → fenceAfter none pre' = none →
      UniqueHeading (splitlinesKeepends doc'.toList) (.str title) →
        (acceptanceSourceContent read' source = acceptanceSourceContent read source ↔
          EndsSection (sectionDepth sec) (fenceAfter none (pre' ++ sec)) post')) ∧
    ∀ (read' : String → Option (List UInt8)) (doc' : String) (i : ℕ) (line' : List Char) (hi : i < sec.length),
      read' ("/".intercalate parts) = some (Utf8.encode doc') →
      splitlinesKeepends doc'.toList = pre ++ sec.set i line' ++ post → line' ≠ sec[i] →
      (i ≠ 0 ∨ fenceMarker line' = none) →
        acceptanceSourceContent read' source ≠ acceptanceSourceContent read source := by
  have hcontent : acceptanceSourceContent read source = .ok (Utf8.encode (String.ofList sec.flatten)) := by
    rw [acceptanceSourceContent_eq hpath hsection hread, hselects.sectionLines_eq]
  refine ⟨hcontent, ?_, ?_⟩
  · intro read' doc' pre' post' hread' hlines hclosed hunique
    have hedit := hselects.sectionLines_edit hlines hclosed hunique
    obtain ⟨later, hlater⟩ := sectionRest_prefix (sectionDepth sec) (fenceAfter none (pre' ++ sec)) post'
    rw [hcontent, acceptanceSourceContent_eq hpath hsection hread', hedit, ← sectionRest_eq_nil]
    constructor
    · intro hsame
      have hwhole : splitlinesKeepends doc'.toList =
          pre' ++ (sec ++ sectionRest (sectionDepth sec) (fenceAfter none (pre' ++ sec)) post') ++ later := by
        rw [hlines, List.append_assoc pre', List.append_assoc pre', List.append_assoc sec, ← hlater]
      exact List.append_right_eq_self.mp (flatten_inj hwhole hselects.lines_eq (Except.ok.inj hsame))
    · intro hnil
      rw [hnil, List.append_nil]
  · intro read' doc' i line' hi hread' hlines hne hfirst hsame
    rw [hcontent, acceptanceSourceContent_eq hpath hsection hread'] at hsame
    cases hsec : sectionLines (splitlinesKeepends doc'.toList) (.str title) with
    | none =>
        rw [hsec] at hsame
        cases hsame
    | some sec' =>
        rw [hsec] at hsame
        obtain ⟨before, later, hsplit⟩ := exists_of_sectionLines hsec
        have hall : sec' = sec := flatten_inj hsplit hselects.lines_eq (Except.ok.inj hsame)
        exact hselects.sectionLines_set hi hne hlines hfirst (hall ▸ hsec)

end Isolation

namespace Sample

open scoped CodingOS.Python.SampleProcess

def source : Mapping := [("path", .str "r.md"), ("section", .str "A")]

theorem source_path : normalizeAllowedPath (source.getD "path" (.str "")).text = .ok ["r.md"] := by decide +kernel

theorem source_section : source.read "section" = .str "A" := rfl

/-- A repository whose file holds a document. -/
def repository (doc : String) : String → Option (List UInt8) := fun _ => some (Utf8.encode doc)

def docLines (doc : String) : List (List Char) := splitlinesKeepends doc.toList

def selected : List (List Char) := ["# A\n".toList, "x\n".toList]

def requirements : String := "# A\nx\n# B\n"

/-- The heading that ended the section is now text of it. -/
def extended : String := "# A\nx\ny\n"

/-- A document that has the section a second time, in a code fence. -/
def fenced : String := "# A\nx\n# B\n```\n# A\nx\n# C\n```\n"

/-- The fence is opened in place of the heading, so the second section is the one. -/
def refenced : String := "```\nx\n# B\n```\n# A\nx\n# C\n```\n"

theorem sample_lines :
    (docLines requirements = [] ++ selected ++ ["# B\n".toList] ∧
      sectionBounds (docLines requirements) (.str "A") = some (0, 2)) ∧
    (docLines extended = [] ++ selected ++ ["y\n".toList] ∧ UniqueHeading (docLines extended) (.str "A") ∧
      sectionLines (docLines extended) (.str "A") = some (selected ++ ["y\n".toList])) ∧
    (docLines fenced = [] ++ selected ++ (docLines fenced).drop 2 ∧
      sectionBounds (docLines fenced) (.str "A") = some (0, 2)) ∧
    docLines refenced = [] ++ selected.set 0 "```\n".toList ++ (docLines fenced).drop 2 ∧
      sectionLines (docLines refenced) (.str "A") = some selected := by
  decide +kernel

theorem requirements_selects : Selects (docLines requirements) (.str "A") [] selected ["# B\n".toList] :=
  ⟨sample_lines.1.1, sample_lines.1.2⟩

theorem fenced_selects : Selects (docLines fenced) (.str "A") [] selected ((docLines fenced).drop 2) :=
  ⟨sample_lines.2.2.1.1, sample_lines.2.2.1.2⟩

end Sample

open Sample in
open scoped CodingOS.Python.SampleProcess in
/-- The heading behind a section is outside of it, and the content depends on it.  A fence in place of the
heading leaves the content as it is. -/
theorem section_edits_seen :
    (Selects (docLines requirements) (.str "A") [] selected ["# B\n".toList] ∧
      docLines extended = [] ++ selected ++ ["y\n".toList] ∧ UniqueHeading (docLines extended) (.str "A") ∧
      acceptanceSourceContent (repository extended) source
        ≠ acceptanceSourceContent (repository requirements) source) ∧
    Selects (docLines fenced) (.str "A") [] selected ((docLines fenced).drop 2) ∧
      docLines refenced = [] ++ selected.set 0 "```\n".toList ++ (docLines fenced).drop 2 ∧
      acceptanceSourceContent (repository refenced) source = acceptanceSourceContent (repository fenced) source := by
  have hcontent : ∀ doc sec, sectionLines (docLines doc) (.str "A") = some sec →
      acceptanceSourceContent (repository doc) source = .ok (Utf8.encode (String.ofList sec.flatten)) := by
    intro doc sec hsec
    have hread : repository doc ("/".intercalate ["r.md"]) = some (Utf8.encode doc) := rfl
    rw [docLines] at hsec
    rw [acceptanceSourceContent_eq source_path source_section hread, hsec]
  refine ⟨⟨requirements_selects, sample_lines.2.1.1, sample_lines.2.1.2.1, fun hsame => ?_⟩, fenced_selects,
    sample_lines.2.2.2.1, ?_⟩
  · rw [hcontent _ _ sample_lines.2.1.2.2, hcontent _ _ requirements_selects.sectionLines_eq] at hsame
    have hflat := String.ofList_injective (encode_injective (Except.ok.inj hsame))
    exact absurd hflat (by decide +kernel)
  · rw [hcontent _ _ sample_lines.2.2.2.2, hcontent _ _ fenced_selects.sectionLines_eq]

open Sample in
open scoped CodingOS.Python.SampleProcess in
theorem acceptance_section_isolation_sample :
    acceptanceSourceContent (repository requirements) source
        = .ok (Utf8.encode (String.ofList selected.flatten)) ∧
      acceptanceSourceContent (repository extended) source
        ≠ acceptanceSourceContent (repository requirements) source := by
  have hread : ∀ doc, repository doc ("/".intercalate ["r.md"]) = some (Utf8.encode doc) := fun _ => rfl
  obtain ⟨hcontent, hedit, -⟩ := acceptance_section_isolation source_path source_section (hread requirements)
    requirements_selects
  refine ⟨hcontent, fun hsame => ?_⟩
  have hends := (hedit _ _ _ _ (hread extended) sample_lines.2.1.1 fenceAfter_nil sample_lines.2.1.2.1).mp hsame
  exact absurd (hends _ rfl) (by decide +kernel)

end CodingOS.Admission
