import CodingOS.Systems.Occurrence

/-!
# Blocks between two markers

A block stands between an opening and a closing marker that have one first letter and neither of which begins
with the other.  A list with one opening and one closing marker, in this order, is cut by them in one way; a
list put together around a block has the markers of its parts and no others.
-/

namespace Systems.Occurrence

variable {α : Type*} [DecidableEq α]

/-- Neither word begins with the other. -/
def Apart (word other : List α) : Prop := ¬ word <+: other ∧ ¬ other <+: word

instance (word other : List α) : Decidable (Apart word other) := inferInstanceAs (Decidable (_ ∧ _))

theorem Marker.count_self_eq {x : α} {word : List α} (h : Marker x word) : count word word = 1 := by
  have hself := count_append_self h.ne_nil []
  rw [List.append_nil] at hself
  rw [hself, count_nil]

/-- The markers of a list around a marker are those of its parts. -/
theorem Marker.count_around {x : α} {word other l r : List α} (h : Marker x word) (hother : Marker x other)
    (hword : word = other ∨ Apart word other) :
    count word (l ++ (other ++ r)) = count word l + (count word other + count word r) := by
  rw [h.count_append hother]
  rcases hword with rfl | ⟨hapart, hapart'⟩
  · rw [count_append_self h.ne_nil, h.count_self_eq]
    omega
  · have hnil := h.count_other (r := []) hother hapart hapart'
    rw [List.append_nil, count_nil] at hnil
    rw [h.count_other hother hapart hapart', hnil]
    omega

/-- The first place of a marker that does not come before. -/
theorem Marker.find_eq {x : α} {word l r : List α} (h : Marker x word) (hl : count word l = 0) :
    find word (l ++ (word ++ r)) = l.length := by
  obtain ⟨pre, post, hs, hfind, hpre, -⟩ := find_spec h.ne_nil (s := l ++ (word ++ r)) ⟨l, r, by simp⟩
  rw [hfind, (h.unique hs hl hpre).1]

/-- Two markers with one first letter. -/
structure Brackets (α : Type*) [DecidableEq α] where
  head : α
  opening : List α
  closing : List α
  marker_opening : Marker head opening
  marker_closing : Marker head closing
  apart : Apart opening closing

namespace Brackets

variable (b : Brackets α)

/-- Neither marker is there. -/
def Free (s : List α) : Prop := count b.opening s = 0 ∧ count b.closing s = 0

/-- One opening marker, and behind it one closing marker. -/
def Once (s : List α) : Prop :=
  count b.opening s = 1 ∧ count b.closing s = 1 ∧ find b.opening s ≤ find b.closing s

def block (body : List α) : List α := b.opening ++ (body ++ b.closing)

instance (s : List α) : Decidable (b.Free s) := inferInstanceAs (Decidable (_ ∧ _))

instance (s : List α) : Decidable (b.Once s) := inferInstanceAs (Decidable (_ ∧ _ ∧ _))

/-- A list cut by its one pair of markers. -/
structure Cut (s pre body post : List α) : Prop where
  eq : s = pre ++ (b.block body ++ post)
  free_pre : b.Free pre
  free_body : b.Free body
  free_post : b.Free post

variable {b} {s pre body post : List α}

/-- The markers of a list around a block: those of its parts, and those of the block's own two. -/
theorem count_block {word : List α} (hword : Marker b.head word) (hopening : word = b.opening ∨ Apart word b.opening)
    (hclosing : word = b.closing ∨ Apart word b.closing) :
    count word (pre ++ (b.block body ++ post)) = count word pre + (count word b.opening +
      (count word body + (count word b.closing + count word post))) := by
  rw [block, List.append_assoc, List.append_assoc, hword.count_around b.marker_opening hopening,
    hword.count_around b.marker_closing hclosing]

theorem count_opening_closing : count b.opening b.closing = 0 := by
  have h := b.marker_opening.count_other (r := []) b.marker_closing b.apart.1 b.apart.2
  rwa [List.append_nil, count_nil] at h

theorem count_closing_opening : count b.closing b.opening = 0 := by
  have h := b.marker_closing.count_other (r := []) b.marker_opening b.apart.2 b.apart.1
  rwa [List.append_nil, count_nil] at h

theorem count_opening_block : count b.opening (pre ++ (b.block body ++ post))
    = count b.opening pre + (1 + (count b.opening body + count b.opening post)) := by
  rw [count_block b.marker_opening (Or.inl rfl) (Or.inr b.apart), b.marker_opening.count_self_eq,
    count_opening_closing, Nat.zero_add]

theorem count_closing_block : count b.closing (pre ++ (b.block body ++ post))
    = count b.closing pre + (count b.closing body + (1 + count b.closing post)) := by
  rw [count_block b.marker_closing (Or.inr b.apart.symm) (Or.inl rfl), b.marker_closing.count_self_eq,
    count_closing_opening, Nat.zero_add]

/-- A marker of another pair is in one of the parts. -/
theorem count_foreign {word : List α} (hword : Marker b.head word) (hopening : Apart word b.opening)
    (hclosing : Apart word b.closing) : count word (pre ++ (b.block body ++ post))
      = count word pre + (count word body + count word post) := by
  have hzero : ∀ {other : List α}, Marker b.head other → Apart word other → count word other = 0 := by
    intro other hother hapart
    have h := hword.count_other (r := []) hother hapart.1 hapart.2
    rwa [List.append_nil, count_nil] at h
  rw [count_block hword (Or.inr hopening) (Or.inr hclosing), hzero b.marker_opening hopening,
    hzero b.marker_closing hclosing, Nat.zero_add, Nat.zero_add]

theorem Cut.find_opening (h : b.Cut s pre body post) : find b.opening s = pre.length := by
  rw [h.eq, block, List.append_assoc]
  exact b.marker_opening.find_eq h.free_pre.1

theorem Cut.find_closing (h : b.Cut s pre body post) :
    find b.closing s = (pre ++ (b.opening ++ body)).length := by
  have hs : s = (pre ++ (b.opening ++ body)) ++ (b.closing ++ post) := by
    rw [h.eq, block]
    simp only [List.append_assoc]
  have hbefore : count b.closing (pre ++ (b.opening ++ body)) = 0 := by
    rw [b.marker_closing.count_around b.marker_opening (Or.inr b.apart.symm), h.free_pre.2, count_closing_opening,
      h.free_body.2]
  rw [hs]
  exact b.marker_closing.find_eq hbefore

theorem Cut.once (h : b.Cut s pre body post) : b.Once s := by
  refine ⟨?_, ?_, ?_⟩
  · rw [h.eq, count_opening_block, h.free_pre.1, h.free_body.1, h.free_post.1]
  · rw [h.eq, count_closing_block, h.free_pre.2, h.free_body.2, h.free_post.2]
  · rw [h.find_opening, h.find_closing]
    simp

/-- The part in front of the block. -/
theorem Cut.take_opening (h : b.Cut s pre body post) : s.take (find b.opening s) = pre := by
  rw [h.find_opening, h.eq, List.take_left]

/-- The part behind the block. -/
theorem Cut.drop_closing (h : b.Cut s pre body post) :
    s.drop (find b.closing s + b.closing.length) = post := by
  have hs : s = (pre ++ (b.opening ++ (body ++ b.closing))) ++ post := by
    rw [h.eq, block]
    simp only [List.append_assoc]
  have hlength : find b.closing s + b.closing.length = (pre ++ (b.opening ++ (body ++ b.closing))).length := by
    rw [h.find_closing]
    simp only [List.length_append]
    omega
  rw [hlength]
  conv_lhs => rw [hs]
  exact List.drop_left

theorem Cut.unique {pre' body' post' : List α} (h : b.Cut s pre body post) (h' : b.Cut s pre' body' post') :
    pre = pre' ∧ body = body' ∧ post = post' := by
  have hpre : pre = pre' := h.take_opening.symm.trans h'.take_opening
  have hpost : post = post' := h.drop_closing.symm.trans h'.drop_closing
  subst hpre hpost
  have heq := h.eq.symm.trans h'.eq
  simp only [block, List.append_assoc, List.append_cancel_left_eq] at heq
  exact ⟨rfl, List.append_cancel_right heq, rfl⟩

/-- **One cut.**  One pair of markers in order cuts the list. -/
theorem cut_of_once (h : b.Once s) : ∃ pre body post, b.Cut s pre body post := by
  obtain ⟨hopening, hclosing, horder⟩ := h
  obtain ⟨pre, rest, rfl, hfind, hpre, hrest⟩ := once_spec b.marker_opening.ne_nil hopening
  have hcount : count b.closing pre + count b.closing rest = 1 := by
    have h := b.marker_closing.count_around (l := pre) (r := rest) b.marker_opening (Or.inr b.apart.symm)
    rw [h, count_closing_opening] at hclosing
    omega
  have hfree : count b.closing pre = 0 := by
    by_contra hne
    -- the closing marker would be found in front of the opening one
    have hoccurs : b.closing <:+: pre := by
      by_contra hnot
      exact hne ((count_eq_zero_iff b.marker_closing.ne_nil).mpr hnot)
    obtain ⟨l, r, rfl, hbefore, hl, -⟩ := find_spec b.marker_closing.ne_nil hoccurs
    have hplace : find b.closing ((l ++ (b.closing ++ r)) ++ (b.opening ++ rest)) = l.length := by
      have h := b.marker_closing.find_eq (r := r ++ (b.opening ++ rest)) hl
      simpa only [List.append_assoc] using h
    rw [hfind, hplace] at horder
    have hpos := List.length_pos_of_ne_nil b.marker_closing.ne_nil
    simp only [List.length_append] at horder
    omega
  obtain ⟨body, post, rfl, -, hbody, hpost⟩ := once_spec b.marker_closing.ne_nil (s := rest) (by omega)
  have hparts : count b.opening (body ++ (b.closing ++ post)) = 0 := hrest
  rw [b.marker_opening.count_around b.marker_closing (Or.inr b.apart), count_opening_closing] at hparts
  refine ⟨pre, body, post, ?_, ⟨hpre, hfree⟩, ⟨by omega, hbody⟩, ⟨by omega, hpost⟩⟩
  rw [block]
  simp only [List.append_assoc]

theorem once_iff_cut : b.Once s ↔ ∃ pre body post, b.Cut s pre body post :=
  ⟨cut_of_once, fun ⟨_, _, _, h⟩ => h.once⟩

/-- A list that begins with the opening and ends with the closing marker, each once, is a block. -/
theorem block_of_once (hopening : b.opening <+: s) (hclosing : b.closing <:+ s) (hone : count b.opening s = 1)
    (hone' : count b.closing s = 1) : ∃ body, s = b.block body ∧ b.Free body := by
  obtain ⟨rest, rfl⟩ := hopening
  have hfirst : count b.opening rest = 0 := by
    rw [count_append_self b.marker_opening.ne_nil] at hone
    omega
  rw [b.marker_closing.count_other b.marker_opening b.apart.2 b.apart.1] at hone'
  obtain ⟨body, post, rfl, -, hbody, hpost⟩ := once_spec b.marker_closing.ne_nil hone'
  obtain ⟨front, hfront⟩ := hclosing
  -- the closing marker at the end is the one that was found
  have heq : (b.opening ++ body) ++ (b.closing ++ post) = front ++ (b.closing ++ []) := by
    rw [List.append_nil, hfront, List.append_assoc]
  have hzero : count b.closing (b.opening ++ body) = 0 := by
    rw [b.marker_closing.count_other b.marker_opening b.apart.2 b.apart.1, hbody]
  have hzero' : count b.closing front = 0 := by
    have hboth := congrArg (count b.closing) heq
    rw [b.marker_closing.count_self, b.marker_closing.count_self, hzero, hpost, count_nil] at hboth
    omega
  obtain ⟨-, rfl⟩ := b.marker_closing.unique heq hzero hzero'
  refine ⟨body, by rw [block, List.append_nil], ?_, hbody⟩
  rw [b.marker_opening.count_around b.marker_closing (Or.inr b.apart), count_opening_closing] at hfirst
  omega

end Brackets

end Systems.Occurrence
