import CodingOS.Python.Text

/-!
# `str.splitlines`

The lines of a text, cut at every boundary Python knows.  A line feed is one of them: the lines of records
joined by line feeds are the lines of each record, up to empty ones.
-/

namespace CodingOS.Python

/-- The characters `str.splitlines` cuts at, by code point. -/
def boundaryPoints : List ℕ := [0x0A, 0x0B, 0x0C, 0x0D, 0x1C, 0x1D, 0x1E, 0x85, 0x2028, 0x2029]

def isBoundary (c : Char) : Bool := boundaryPoints.contains c.toNat

/-- `str.splitlines()`, on characters. -/
def splitlinesChars : List Char → List (List Char)
  | [] => []
  | '\r' :: '\n' :: cs => [] :: splitlinesChars cs
  | c :: cs =>
      if isBoundary c then [] :: splitlinesChars cs
      else match splitlinesChars cs with
        | [] => [[c]]
        | l :: ls => (c :: l) :: ls

/-- `str.splitlines()`. -/
def splitlines (s : String) : List String := (splitlinesChars s.toList).map String.ofList

/-! ### One character -/

/-- A character in front of the lines of what follows. -/
def consLine (c : Char) : List (List Char) → List (List Char)
  | [] => [[c]]
  | l :: ls => (c :: l) :: ls

theorem consLine_append (c : Char) {ls : List (List Char)} (h : ls ≠ []) (later : List (List Char)) :
    consLine c (ls ++ later) = consLine c ls ++ later := by
  cases ls with
  | nil => exact absurd rfl h
  | cons l ls => rfl

theorem splitlinesChars_boundary {c : Char} (cs : List Char) (hc : isBoundary c = true)
    (hcr : c = '\r' → cs.head? ≠ some '\n') : splitlinesChars (c :: cs) = [] :: splitlinesChars cs := by
  rw [splitlinesChars, if_pos hc]
  rintro rest rfl rfl
  exact hcr rfl rfl

theorem splitlinesChars_other {c : Char} (cs : List Char) (hc : isBoundary c = false) :
    splitlinesChars (c :: cs) = consLine c (splitlinesChars cs) := by
  rw [splitlinesChars]
  · rw [hc]
    rfl
  · rintro rest rfl rfl
    cases hc

theorem splitlinesChars_ne_nil {cs : List Char} (h : cs ≠ []) : splitlinesChars cs ≠ [] := by
  cases cs with
  | nil => exact absurd rfl h
  | cons c cs =>
      by_cases hc : isBoundary c = true
      · by_cases hcr : c = '\r' → cs.head? ≠ some '\n'
        · rw [splitlinesChars_boundary cs hc hcr]
          exact List.cons_ne_nil _ _
        · push Not at hcr
          obtain ⟨rfl, hhead⟩ := hcr
          cases cs with
          | nil => cases hhead
          | cons d cs =>
              obtain rfl := Option.some.inj hhead
              exact List.cons_ne_nil _ _
      · rw [splitlinesChars_other cs (Bool.eq_false_iff.mpr hc)]
        cases splitlinesChars cs <;> exact List.cons_ne_nil _ _

/-! ### Records joined by line feeds -/

/-- A text of one record and what follows its line feed. -/
theorem splitlinesChars_append {r : List Char} (hr : '\n' ∉ r) (rest : List Char) :
    splitlinesChars (r ++ '\n' :: rest) = splitlinesChars (r ++ ['\n']) ++ splitlinesChars rest := by
  induction r with
  | nil => rfl
  | cons c r ih =>
      rw [List.mem_cons, not_or] at hr
      have htail := ih hr.2
      have hne : splitlinesChars (r ++ ['\n']) ≠ [] := splitlinesChars_ne_nil (by simp)
      by_cases hc : isBoundary c = true
      · cases r with
        | nil =>
            by_cases hcr : c = '\r'
            · rw [hcr]
              rfl
            · rw [List.cons_append, List.cons_append, splitlinesChars_boundary _ hc fun h => absurd h hcr,
                splitlinesChars_boundary _ hc fun h => absurd h hcr, htail, List.cons_append]
        | cons d r =>
            have hd : (d :: r).head? ≠ some '\n' := fun h => hr.2 (Option.some.inj h ▸ List.mem_cons_self)
            show splitlinesChars (c :: (d :: r ++ '\n' :: rest)) =
              splitlinesChars (c :: (d :: r ++ ['\n'])) ++ splitlinesChars rest
            rw [splitlinesChars_boundary (d :: r ++ '\n' :: rest) hc fun _ => hd, htail,
              splitlinesChars_boundary (d :: r ++ ['\n']) hc fun _ => hd]
            rfl
      · have hc' := Bool.eq_false_iff.mpr hc
        rw [List.cons_append, List.cons_append, splitlinesChars_other _ hc', splitlinesChars_other _ hc', htail,
          consLine_append c hne]

/-- The line feed behind a record ends its last line, or makes an empty one. -/
theorem splitlinesChars_newline {r : List Char} (hr : '\n' ∉ r) :
    splitlinesChars (r ++ ['\n']) = splitlinesChars r ∨
      splitlinesChars (r ++ ['\n']) = splitlinesChars r ++ [[]] := by
  induction r with
  | nil => exact .inr rfl
  | cons c r ih =>
      rw [List.mem_cons, not_or] at hr
      by_cases hc : isBoundary c = true
      · cases r with
        | nil =>
            by_cases hcr : c = '\r'
            · rw [hcr]
              exact .inl rfl
            · right
              rw [List.cons_append, splitlinesChars_boundary _ hc fun h => absurd h hcr,
                splitlinesChars_boundary _ hc fun h => absurd h hcr]
              rfl
        | cons d r =>
            have hd : (d :: r).head? ≠ some '\n' := fun h => hr.2 (Option.some.inj h ▸ List.mem_cons_self)
            rw [List.cons_append, splitlinesChars_boundary (d :: r ++ ['\n']) hc fun _ => hd,
              splitlinesChars_boundary (d :: r) hc fun _ => hd]
            exact (ih hr.2).imp (congrArg _) (congrArg _)
      · have hc' := Bool.eq_false_iff.mpr hc
        rw [List.cons_append, splitlinesChars_other _ hc', splitlinesChars_other _ hc']
        by_cases hnil : r = []
        · subst hnil
          exact .inl rfl
        · refine (ih hr.2).imp (congrArg _) fun h => ?_
          rw [h, consLine_append c (splitlinesChars_ne_nil hnil)]

/-- A line holds characters of its text. -/
theorem mem_of_mem_splitlinesChars {cs l : List Char} {c : Char} (hl : l ∈ splitlinesChars cs) (hc : c ∈ l) :
    c ∈ cs := by
  induction cs using splitlinesChars.induct generalizing l with
  | case1 => cases hl
  | case2 cs ih =>
      rcases List.mem_cons.mp hl with rfl | hl
      · cases hc
      · exact List.mem_cons_of_mem _ (List.mem_cons_of_mem _ (ih hl hc))
  | case3 d cs hcr hd ih =>
      have hfeed : d = '\r' → cs.head? ≠ some '\n' := by
        intro h hhead
        obtain ⟨tail, htail⟩ := List.head?_eq_some_iff.mp hhead
        exact hcr tail h htail
      rw [splitlinesChars_boundary cs hd hfeed] at hl
      rcases List.mem_cons.mp hl with rfl | hl
      · cases hc
      · exact List.mem_cons_of_mem _ (ih hl hc)
  | case4 d cs hcr hd hnil ih =>
      rw [splitlinesChars_other cs (Bool.eq_false_iff.mpr hd), hnil] at hl
      obtain rfl := List.mem_singleton.mp hl
      obtain rfl := List.mem_singleton.mp hc
      exact List.mem_cons_self
  | case5 d cs hcr hd first later hlines ih =>
      rw [splitlinesChars_other cs (Bool.eq_false_iff.mpr hd), hlines] at hl
      rcases List.mem_cons.mp hl with rfl | hl
      · rcases List.mem_cons.mp hc with rfl | hc
        · exact List.mem_cons_self
        · exact List.mem_cons_of_mem _ (ih (hlines ▸ List.mem_cons_self) hc)
      · exact List.mem_cons_of_mem _ (ih (hlines ▸ List.mem_cons_of_mem _ hl) hc)

/-- A text without boundaries is one line. -/
theorem splitlinesChars_of_no_boundary {cs : List Char} (h : ∀ c ∈ cs, isBoundary c = false) (hne : cs ≠ []) :
    splitlinesChars cs = [cs] := by
  induction cs with
  | nil => exact absurd rfl hne
  | cons c cs ih =>
      obtain ⟨hc, hcs⟩ := List.forall_mem_cons.mp h
      rw [splitlinesChars_other cs hc]
      by_cases hnil : cs = []
      · rw [hnil]
        rfl
      · rw [ih hcs hnil]
        rfl

/-! ### Lines that keep their ends -/

/-- `str.splitlines(keepends=True)`, on characters. -/
def splitlinesKeepends : List Char → List (List Char)
  | [] => []
  | '\r' :: '\n' :: cs => ['\r', '\n'] :: splitlinesKeepends cs
  | c :: cs => if isBoundary c then [c] :: splitlinesKeepends cs else consLine c (splitlinesKeepends cs)

theorem flatten_consLine (c : Char) (ls : List (List Char)) : (consLine c ls).flatten = c :: ls.flatten := by
  cases ls <;> rfl

/-- The lines make up the text. -/
theorem flatten_splitlinesKeepends (cs : List Char) : (splitlinesKeepends cs).flatten = cs := by
  induction cs using splitlinesKeepends.induct with
  | case1 => rfl
  | case2 cs ih => rw [splitlinesKeepends, List.flatten_cons, ih, List.cons_append, List.cons_append, List.nil_append]
  | case3 c cs hcr hc ih => rw [splitlinesKeepends, if_pos hc, List.flatten_cons, ih, List.singleton_append]; exact hcr
  | case4 c cs hcr hc ih => rw [splitlinesKeepends, if_neg hc, flatten_consLine, ih]; exact hcr

theorem splitlinesKeepends_boundary {c : Char} {cs : List Char} (hcr : ∀ rest, c = '\r' → cs = '\n' :: rest → False)
    (hc : isBoundary c = true) : splitlinesKeepends (c :: cs) = [c] :: splitlinesKeepends cs := by
  rw [splitlinesKeepends, if_pos hc]
  exact hcr

theorem splitlinesKeepends_other {c : Char} {cs : List Char} (hc : ¬ isBoundary c = true) :
    splitlinesKeepends (c :: cs) = consLine c (splitlinesKeepends cs) := by
  rw [splitlinesKeepends, if_neg hc]
  rintro rest rfl rfl
  exact hc rfl

theorem ne_nil_of_mem_splitlinesKeepends {cs l : List Char} (h : l ∈ splitlinesKeepends cs) : l ≠ [] := by
  induction cs using splitlinesKeepends.induct generalizing l with
  | case1 => cases h
  | case2 cs ih =>
      rcases List.mem_cons.mp h with rfl | h
      · exact List.cons_ne_nil _ _
      · exact ih h
  | case3 c cs hcr hc ih =>
      rw [splitlinesKeepends_boundary hcr hc] at h
      rcases List.mem_cons.mp h with rfl | h
      · exact List.cons_ne_nil _ _
      · exact ih h
  | case4 c cs hcr hc ih =>
      rw [splitlinesKeepends_other hc] at h
      cases hlines : splitlinesKeepends cs with
      | nil =>
          rw [hlines] at h
          obtain rfl := List.mem_singleton.mp h
          exact List.cons_ne_nil _ _
      | cons m ms =>
          rw [hlines] at h
          rcases List.mem_cons.mp h with rfl | h
          · exact List.cons_ne_nil _ _
          · exact ih (hlines ▸ List.mem_cons_of_mem _ h)

/-- The lines behind the first one are the lines of what follows it. -/
theorem splitlinesKeepends_tail {cs l : List Char} {ls : List (List Char)} (h : splitlinesKeepends cs = l :: ls) :
    splitlinesKeepends ls.flatten = ls := by
  induction cs using splitlinesKeepends.induct generalizing l ls with
  | case1 => cases h
  | case2 cs ih =>
      obtain ⟨-, rfl⟩ := List.cons.inj h
      rw [flatten_splitlinesKeepends]
  | case3 c cs hcr hc ih =>
      rw [splitlinesKeepends_boundary hcr hc] at h
      obtain ⟨-, rfl⟩ := List.cons.inj h
      rw [flatten_splitlinesKeepends]
  | case4 c cs hcr hc ih =>
      rw [splitlinesKeepends_other hc] at h
      cases hlines : splitlinesKeepends cs with
      | nil =>
          rw [hlines] at h
          obtain ⟨-, rfl⟩ := List.cons.inj h
          rfl
      | cons m ms =>
          rw [hlines] at h
          obtain ⟨-, rfl⟩ := List.cons.inj h
          exact ih hlines

/-- The first lines of a text are the lines of what they make up. -/
theorem splitlinesKeepends_front {cs : List Char} {front later : List (List Char)}
    (h : splitlinesKeepends cs = front ++ later) : splitlinesKeepends front.flatten = front := by
  induction cs using splitlinesKeepends.induct generalizing front later with
  | case1 =>
      obtain ⟨rfl, -⟩ := List.append_eq_nil_iff.mp h.symm
      rfl
  | case2 cs ih =>
      cases front with
      | nil => rfl
      | cons l front =>
          obtain ⟨rfl, hrest⟩ := List.cons.inj h
          rw [List.flatten_cons]
          exact congrArg _ (ih hrest)
  | case3 c cs hcr hc ih =>
      rw [splitlinesKeepends_boundary hcr hc] at h
      cases front with
      | nil => rfl
      | cons l front =>
          obtain ⟨rfl, hrest⟩ := List.cons.inj h
          have hfeed : ∀ rest, c = '\r' → front.flatten = '\n' :: rest → False := by
            intro rest hr hflat
            have htext : cs = front.flatten ++ later.flatten := by
              rw [← List.flatten_append, ← flatten_splitlinesKeepends cs]
              exact congrArg List.flatten hrest
            rw [hflat] at htext
            exact hcr _ hr htext
          rw [List.flatten_cons, List.singleton_append, splitlinesKeepends_boundary hfeed hc, ih hrest]
  | case4 c cs hcr hc ih =>
      rw [splitlinesKeepends_other hc] at h
      cases front with
      | nil => rfl
      | cons l front =>
          cases hlines : splitlinesKeepends cs with
          | nil =>
              rw [hlines] at h
              obtain ⟨rfl, hrest⟩ := List.cons.inj h
              obtain ⟨rfl, -⟩ := List.append_eq_nil_iff.mp hrest.symm
              exact splitlinesKeepends_other hc
          | cons m ms =>
              rw [hlines] at h
              obtain ⟨rfl, hrest⟩ := List.cons.inj h
              have hfront : splitlinesKeepends (m :: front).flatten = m :: front :=
                ih (by rw [hlines, hrest]; rfl)
              rw [List.flatten_cons, List.cons_append, splitlinesKeepends_other hc, ← List.flatten_cons, hfront]
              rfl

/-- Lines that stand together in a text are the lines of what they make up. -/
theorem splitlinesKeepends_infix {cs : List Char} {before middle later : List (List Char)}
    (h : splitlinesKeepends cs = before ++ middle ++ later) : splitlinesKeepends middle.flatten = middle := by
  induction before generalizing cs with
  | nil => exact splitlinesKeepends_front h
  | cons l before ih => exact ih (splitlinesKeepends_tail h)

end CodingOS.Python
