import Mathlib.Data.List.Infix
import Mathlib.Data.List.TakeDrop

/-!
# Occurrences of a word in a list

`count` scans from the left and goes on behind what it found; `find` is the first position.  A word whose
first letter does not come again in it (a marker) cannot overlap itself, so its occurrences are counted
apart on both sides of any place it cannot run across.
-/

namespace Systems.Occurrence

variable {α : Type*} [DecidableEq α]

/-- The occurrences of a word, after `skip` letters. -/
def countFrom (word : List α) : ℕ → List α → ℕ
  | _, [] => 0
  | skip + 1, _ :: s => countFrom word skip s
  | 0, a :: s =>
      if word.isPrefixOf (a :: s) then countFrom word (word.length - 1) s + 1 else countFrom word 0 s

/-- The occurrences of a word, none of which overlaps the one before. -/
def count (word s : List α) : ℕ := countFrom word 0 s

/-- The first position of a word; the length of the list where the word does not occur. -/
def find (word : List α) : List α → ℕ
  | [] => 0
  | a :: s => if word.isPrefixOf (a :: s) then 0 else find word s + 1

variable {word s : List α}

theorem countFrom_eq (skip : ℕ) (s : List α) : countFrom word skip s = count word (s.drop skip) := by
  induction skip generalizing s with
  | zero => rfl
  | succ skip ih =>
      cases s with
      | nil => rfl
      | cons a s => exact ih s

@[simp] theorem count_nil : count word [] = 0 := rfl

theorem count_of_begins (hword : word ≠ []) (h : word <+: s) : count word s = count word (s.drop word.length) + 1 := by
  obtain ⟨w, ws, rfl⟩ := List.exists_cons_of_ne_nil hword
  cases s with
  | nil => exact absurd (List.prefix_nil.mp h) hword
  | cons a s =>
      rw [count, countFrom, if_pos (List.isPrefixOf_iff_prefix.mpr h), countFrom_eq]
      rfl

theorem count_cons_of_not_begins {a : α} (h : ¬ word <+: a :: s) : count word (a :: s) = count word s := by
  rw [count, countFrom, if_neg fun hp => h (List.isPrefixOf_iff_prefix.mp hp)]
  rfl

theorem count_append_self (hword : word ≠ []) (post : List α) : count word (word ++ post) = count word post + 1 := by
  rw [count_of_begins hword (List.prefix_append _ _), List.drop_left]

/-- A word that is not counted does not occur. -/
theorem count_eq_zero_iff (hword : word ≠ []) : count word s = 0 ↔ ¬ word <:+: s := by
  induction s with
  | nil => simp [hword]
  | cons a s ih =>
      rw [List.infix_cons_iff, not_or]
      by_cases h : word <+: a :: s
      · simp [count_of_begins hword h, h]
      · rw [count_cons_of_not_begins h, ih]
        simp [h]

/-- A word does not run across a letter that is not in its tail. -/
theorem prefix_left {x : α} {l r : List α} (hx : x ∉ word.tail) (hl : l ≠ []) (h : word <+: l ++ x :: r) :
    word <+: l := by
  by_contra hlong
  have hle : l.length ≤ word.length := by
    by_contra hlt
    exact hlong (List.prefix_of_prefix_length_le h (List.prefix_append _ _) (by omega))
  obtain ⟨v, rfl⟩ := List.prefix_of_prefix_length_le (List.prefix_append _ _) h hle
  have hv : v <+: x :: r := List.prefix_append_right_inj l |>.mp h
  cases v with
  | nil => exact hlong (by simp)
  | cons y v =>
      obtain ⟨rfl, -⟩ := List.cons_prefix_cons.mp hv
      obtain ⟨a, l, rfl⟩ := List.exists_cons_of_ne_nil hl
      exact hx (by simp)

/-- **Counting apart.**  On both sides of a letter that is not in the tail of the word, its occurrences are
counted alone. -/
theorem count_append_cons {x : α} {l r : List α} (hword : word ≠ []) (hx : x ∉ word.tail) :
    count word (l ++ x :: r) = count word l + count word (x :: r) := by
  induction hn : l.length using Nat.strong_induction_on generalizing l with
  | _ n ih =>
  cases l with
  | nil => simp
  | cons a l =>
      have hpos : 0 < word.length := List.length_pos_of_ne_nil hword
      by_cases h : word <+: a :: (l ++ x :: r)
      · have hl : word <+: a :: l := prefix_left hx (List.cons_ne_nil a l) h
        have hdrop : ((a :: l) ++ x :: r).drop word.length = (a :: l).drop word.length ++ x :: r :=
          List.drop_append_of_le_length hl.length_le
        rw [List.cons_append, count_of_begins hword h, count_of_begins hword hl, ← List.cons_append, hdrop]
        rw [ih ((a :: l).drop word.length).length (by simp at hn ⊢; omega) rfl]
        omega
      · have hl : ¬ word <+: a :: l := fun hp => h (hp.trans (List.prefix_append _ _))
        rw [List.cons_append, count_cons_of_not_begins h, count_cons_of_not_begins hl]
        exact ih l.length (by simp at hn; omega) rfl

/-- A letter that is not in the word counts nothing. -/
theorem count_cons_of_not_mem {x : α} {r : List α} (hword : word ≠ []) (hx : x ∉ word) :
    count word (x :: r) = count word r := by
  refine count_cons_of_not_begins fun h => ?_
  obtain ⟨w, ws, rfl⟩ := List.exists_cons_of_ne_nil hword
  obtain ⟨rfl, -⟩ := List.cons_prefix_cons.mp h
  exact hx List.mem_cons_self

/-- Letters other than the first of the word count nothing in front. -/
theorem count_append_of_head_not_mem {x : α} {body post : List α} (hhead : word.head? = some x) (hx : x ∉ body) :
    count word (body ++ post) = count word post := by
  obtain ⟨ws, rfl⟩ : ∃ ws, word = x :: ws := by
    cases word with
    | nil => cases hhead
    | cons w ws => exact ⟨ws, by rw [Option.some.inj hhead]⟩
  induction body with
  | nil => rfl
  | cons a body ih =>
      rw [List.mem_cons, not_or] at hx
      rw [List.cons_append, count_cons_of_not_begins, ih hx.2]
      intro h
      exact hx.1 (List.cons_prefix_cons.mp h).1

/-- A word whose first letter is not there does not occur. -/
theorem count_of_head_not_mem {x : α} (hhead : word.head? = some x) (hx : x ∉ s) : count word s = 0 := by
  have h : count word (s ++ []) = count word [] := count_append_of_head_not_mem hhead hx
  rwa [List.append_nil, count_nil] at h

/-! ### Finding -/

theorem find_cons_of_begins {a : α} (h : word <+: a :: s) : find word (a :: s) = 0 := by
  rw [find, if_pos (List.isPrefixOf_iff_prefix.mpr h)]

theorem find_cons_of_not_begins {a : α} (h : ¬ word <+: a :: s) : find word (a :: s) = find word s + 1 := by
  rw [find, if_neg fun hp => h (List.isPrefixOf_iff_prefix.mp hp)]

/-- A word that occurs is found, and not in front of where it is found. -/
theorem find_spec (hword : word ≠ []) (h : word <:+: s) : ∃ pre post, s = pre ++ (word ++ post) ∧
    find word s = pre.length ∧ count word pre = 0 ∧ count word s = count word (word ++ post) := by
  induction s with
  | nil => exact absurd (List.infix_nil.mp h) hword
  | cons a s ih =>
      by_cases hp : word <+: a :: s
      · obtain ⟨post, hpost⟩ := hp
        exact ⟨[], post, hpost.symm, find_cons_of_begins ⟨post, hpost⟩, rfl, by rw [hpost]⟩
      · obtain ⟨pre, post, rfl, hfind, hpre, hcount⟩ := ih ((List.infix_cons_iff.mp h).resolve_left hp)
        refine ⟨a :: pre, post, rfl, by rw [find_cons_of_not_begins hp, hfind, List.length_cons], ?_, ?_⟩
        · rw [count_cons_of_not_begins, hpre]
          exact fun hap => hp (hap.trans (List.prefix_append _ _))
        · rw [count_cons_of_not_begins hp, hcount]

/-- A word that is counted once cuts the list in two that do not have it. -/
theorem once_spec (hword : word ≠ []) (h : count word s = 1) : ∃ pre post, s = pre ++ (word ++ post) ∧
    find word s = pre.length ∧ count word pre = 0 ∧ count word post = 0 := by
  have hoccurs : word <:+: s := by
    by_contra hnot
    rw [(count_eq_zero_iff hword).mpr hnot] at h
    cases h
  obtain ⟨pre, post, hs, hfind, hpre, hcount⟩ := find_spec hword hoccurs
  rw [hcount, count_append_self hword] at h
  exact ⟨pre, post, hs, hfind, hpre, by omega⟩

omit [DecidableEq α] in
/-- A word in a list of two parts is in one of them, or across the seam. -/
theorem infix_append_cases {pre post : List α} (h : word <:+: pre ++ post) : word <:+: pre ∨ word <:+: post ∨
    ∃ u v, word = u ++ v ∧ u ≠ [] ∧ v ≠ [] ∧ u <:+ pre ∧ v <+: post := by
  obtain ⟨l, r, heq⟩ := h
  rcases List.append_eq_append_iff.mp heq with ⟨rest, rfl, -⟩ | ⟨rest, hword, rfl⟩
  · exact Or.inl ⟨l, rest, rfl⟩
  · rcases List.append_eq_append_iff.mp hword with ⟨u, rfl, rfl⟩ | ⟨u, rfl, rfl⟩
    · by_cases hu : u = []
      · subst hu
        exact Or.inr (Or.inl ⟨[], r, rfl⟩)
      · by_cases hrest : rest = []
        · subst hrest
          exact Or.inl ⟨l, [], by simp⟩
        · exact Or.inr (Or.inr ⟨u, rest, rfl, hu, hrest, List.suffix_append _ _, List.prefix_append _ _⟩)
    · exact Or.inr (Or.inl ⟨u, r, by simp⟩)

/-! ### Markers -/

/-- A word whose first letter does not come again in it. -/
def Marker (x : α) (word : List α) : Prop := word.head? = some x ∧ x ∉ word.tail

instance (x : α) (word : List α) : Decidable (Marker x word) := inferInstanceAs (Decidable (_ ∧ _))

omit [DecidableEq α] in
theorem Marker.ne_nil {x : α} (h : Marker x word) : word ≠ [] := by
  rintro rfl
  cases h.1

omit [DecidableEq α] in
theorem Marker.eq_cons {x : α} (h : Marker x word) : word = x :: word.tail := by
  obtain ⟨w, ws, rfl⟩ := List.exists_cons_of_ne_nil h.ne_nil
  rw [← Option.some.inj h.1]
  rfl

/-- A marker cannot run across the beginning of a marker. -/
theorem Marker.count_append {x : α} {other l r : List α} (h : Marker x word) (hother : Marker x other) :
    count word (l ++ (other ++ r)) = count word l + count word (other ++ r) := by
  rw [hother.eq_cons, List.cons_append]
  exact count_append_cons h.ne_nil h.2

/-- A marker in front counts once for itself. -/
theorem Marker.count_self {x : α} {l r : List α} (h : Marker x word) :
    count word (l ++ (word ++ r)) = count word l + (count word r + 1) := by
  rw [h.count_append h, count_append_self h.ne_nil]

/-- Another marker counts nothing for it, unless one begins the other. -/
theorem Marker.count_other {x : α} {other r : List α} (h : Marker x word) (hother : Marker x other)
    (hapart : ¬ word <+: other) (hapart' : ¬ other <+: word) : count word (other ++ r) = count word r := by
  have hnot : ¬ word <+: x :: (other.tail ++ r) := by
    intro hp
    rw [← List.cons_append, ← hother.eq_cons] at hp
    rcases List.prefix_or_prefix_of_prefix hp (List.prefix_append other r) with hpre | hpre
    · exact hapart hpre
    · exact hapart' hpre
  rw [hother.eq_cons, List.cons_append, count_cons_of_not_begins hnot]
  exact count_append_of_head_not_mem h.1 hother.2

/-- The place of a marker that is there once. -/
theorem Marker.unique {x : α} {l r l' r' : List α} (h : Marker x word) (heq : l ++ (word ++ r) = l' ++ (word ++ r'))
    (hl : count word l = 0) (hl' : count word l' = 0) : l = l' ∧ r = r' := by
  have hnot : ∀ {l r l' r' : List α}, l ++ (word ++ r) = l' ++ (word ++ r') → count word l' = 0 →
      l'.length ≤ l.length := by
    intro l r l' r' heq hl'
    by_contra hlt
    obtain ⟨v, rfl⟩ := List.prefix_of_prefix_length_le (List.prefix_append _ _)
      (heq ▸ List.prefix_append l' (word ++ r')) (by omega : l.length ≤ l'.length)
    rw [List.append_assoc] at heq
    have hv := List.append_cancel_left heq
    -- the word begins in `v`, and cannot run across the next one
    have hne : v ≠ [] := by
      rintro rfl
      simp at hlt
    have hword : word <+: v ++ (word ++ r') := hv ▸ List.prefix_append _ _
    rw [h.eq_cons, List.cons_append, ← h.eq_cons] at hword
    have hin := prefix_left h.2 hne hword
    rw [count_eq_zero_iff h.ne_nil] at hl'
    exact hl' (hin.isInfix.trans (List.suffix_append l v).isInfix)
  have hlength : l.length = l'.length := le_antisymm (hnot heq.symm hl) (hnot heq hl')
  obtain ⟨rfl, hr⟩ := List.append_inj heq hlength
  exact ⟨rfl, List.append_cancel_left hr⟩

omit [DecidableEq α] in
/-- Two markers across one seam are one, or one begins the other. -/
theorem Marker.seam {x : α} {other u v u' v' pre post : List α} (h : Marker x word) (hother : Marker x other)
    (hword : word = u ++ v) (hword' : other = u' ++ v') (hne : u ≠ []) (hne' : u' ≠ []) (hu : u <:+ pre) (hu' : u' <:+ pre)
    (hv : v <+: post) (hv' : v' <+: post) : word <+: other ∨ other <+: word := by
  -- the later of two first letters would come again in the other marker
  have hlength : ∀ {word u v u' v' other : List α}, Marker x word → Marker x other → word = u ++ v → other = u' ++ v' →
      u' ≠ [] → u <:+ pre → u' <:+ pre → u.length ≤ u'.length := by
    intro word u v u' v' other h hother hword hword' hne' hu hu'
    by_contra hlt
    obtain ⟨t, rfl⟩ := List.suffix_of_suffix_length_le hu' hu (by omega)
    obtain ⟨a, u', rfl⟩ := List.exists_cons_of_ne_nil hne'
    have ha : a = x := by
      have hhead := hother.1
      rw [hword'] at hhead
      exact Option.some.inj hhead
    cases t with
    | nil => simp at hlt
    | cons b t =>
        refine h.2 ?_
        rw [hword, ha]
        simp
  have hle := hlength h hother hword hword' hne' hu hu'
  have hle' := hlength hother h hword' hword hne hu' hu
  obtain ⟨t, rfl⟩ := List.suffix_of_suffix_length_le hu hu' hle
  have ht : t = [] := by
    have hlen := hle'
    rw [List.length_append] at hlen
    exact List.length_eq_zero_iff.mp (by omega)
  subst ht hword hword'
  rcases List.prefix_or_prefix_of_prefix hv hv' with hvv | hvv
  · exact Or.inl (by rw [List.nil_append]; exact (List.prefix_append_right_inj _).mpr hvv)
  · exact Or.inr (by rw [List.nil_append]; exact (List.prefix_append_right_inj _).mpr hvv)

/-- Where two parts meet, one of two markers apart can arise at most. -/
theorem Marker.one_across {x : α} {other pre post : List α} (h : Marker x word) (hother : Marker x other)
    (hapart : ¬ word <+: other) (hapart' : ¬ other <+: word) (hpre : count word pre = 0) (hpost : count word post = 0)
    (hpre' : count other pre = 0) (hpost' : count other post = 0) :
    count word (pre ++ post) = 0 ∨ count other (pre ++ post) = 0 := by
  by_contra hnot
  rw [not_or] at hnot
  have hacross : ∀ {word : List α}, Marker x word → count word pre = 0 → count word post = 0 →
      count word (pre ++ post) ≠ 0 → ∃ u v, word = u ++ v ∧ u ≠ [] ∧ v ≠ [] ∧ u <:+ pre ∧ v <+: post := by
    intro word h hpre hpost hne
    rw [count_eq_zero_iff h.ne_nil] at hpre hpost
    have hoccurs : word <:+: pre ++ post := by
      by_contra hno
      exact hne ((count_eq_zero_iff h.ne_nil).mpr hno)
    rcases infix_append_cases hoccurs with hin | hin | hin
    · exact absurd hin hpre
    · exact absurd hin hpost
    · exact hin
  obtain ⟨u, v, hword, hne, -, hu, hv⟩ := hacross h hpre hpost hnot.1
  obtain ⟨u', v', hword', hne', -, hu', hv'⟩ := hacross hother hpre' hpost' hnot.2
  rcases h.seam hother hword hword' hne hne' hu hu' hv hv' with hin | hin
  · exact hapart hin
  · exact hapart' hin

end Systems.Occurrence
