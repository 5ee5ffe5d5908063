import CodingOS.Python.Bytes

/-!
# Strict UTF-8

`data.decode("utf-8", errors="strict")`, as far as whether it raises.  The decoder owes, after the first
octet of a character, a list of ranges for the octets that must follow.  An ASCII octet is never owed, so a
byte string is decoded apart on both sides of one.
-/

namespace CodingOS.Python.Utf8

/-- The ranges of the octets a character still owes. -/
abbrev Owed := List (ℕ × ℕ)

/-- What the first octet of a character owes. -/
def first (b : ℕ) : Option Owed :=
  if b ≤ 0x7F then some []
  else if b < 0xC2 then none
  else if b ≤ 0xDF then some [(0x80, 0xBF)]
  else if b = 0xE0 then some [(0xA0, 0xBF), (0x80, 0xBF)]
  else if b = 0xED then some [(0x80, 0x9F), (0x80, 0xBF)]
  else if b ≤ 0xEF then some [(0x80, 0xBF), (0x80, 0xBF)]
  else if b = 0xF0 then some [(0x90, 0xBF), (0x80, 0xBF), (0x80, 0xBF)]
  else if b ≤ 0xF3 then some [(0x80, 0xBF), (0x80, 0xBF), (0x80, 0xBF)]
  else if b = 0xF4 then some [(0x80, 0x8F), (0x80, 0xBF), (0x80, 0xBF)]
  else none

def step : Owed → UInt8 → Option Owed
  | [], b => first b.toNat
  | (low, high) :: owed, b => if low ≤ b.toNat ∧ b.toNat ≤ high then some owed else none

def run (owed : Owed) (s : List UInt8) : Option Owed := s.foldlM step owed

/-- Whether `data.decode("utf-8", errors="strict")` returns. -/
def strict (s : List UInt8) : Bool := run [] s == some []

/-- The owed octets are not ASCII. -/
def Continuing (owed : Owed) : Prop := ∀ range ∈ owed, 0x80 ≤ range.1

theorem first_continuing {b : ℕ} {owed : Owed} (h : first b = some owed) : Continuing owed := by
  have hranges : ∀ range ∈ owed, 0x80 ≤ range.1 := by
    unfold first at h
    split_ifs at h <;> cases h <;> simp
  exact hranges

theorem step_continuing {owed next : Owed} {b : UInt8} (howed : Continuing owed) (h : step owed b = some next) :
    Continuing next := by
  cases owed with
  | nil => exact first_continuing h
  | cons range owed =>
      simp only [step] at h
      split_ifs at h
      cases h
      exact fun other hmem => howed other (List.mem_cons_of_mem _ hmem)

theorem run_continuing {s : List UInt8} {owed next : Owed} (howed : Continuing owed) (h : run owed s = some next) :
    Continuing next := by
  induction s generalizing owed with
  | nil =>
      cases h
      exact howed
  | cons b s ih =>
      rw [run, List.foldlM_cons, Option.bind_eq_bind, Option.bind_eq_some_iff] at h
      obtain ⟨middle, hstep, hrun⟩ := h
      exact ih (step_continuing howed hstep) hrun

theorem run_append (owed : Owed) (l r : List UInt8) : run owed (l ++ r) = (run owed l).bind fun next => run next r :=
  List.foldlM_append

/-- An ASCII octet stands between characters. -/
theorem step_ascii {owed next : Owed} {c : UInt8} (hc : c.toNat < 0x80) (howed : Continuing owed) :
    step owed c = some next ↔ owed = [] ∧ next = [] := by
  cases owed with
  | nil =>
      have hfirst : first c.toNat = some [] := if_pos (by omega)
      simp [step, hfirst, eq_comm]
  | cons range owed =>
      have hlow := howed range List.mem_cons_self
      have hout : ¬ (range.1 ≤ c.toNat ∧ c.toNat ≤ range.2) := by omega
      simp [step, hout]

theorem strict_append {l r : List UInt8} (hl : strict l) (hr : strict r) : strict (l ++ r) := by
  have hrun : run [] l = some [] := by simpa [strict] using hl
  simp only [strict, run_append, hrun]
  exact hr

/-- **Decoding apart.**  A byte string is decoded apart on both sides of an ASCII octet. -/
theorem strict_cut {c : UInt8} {l r : List UInt8} (hc : c.toNat < 0x80) :
    strict (l ++ c :: r) ↔ strict l ∧ strict (c :: r) := by
  constructor
  · intro h
    have hrun : run [] (l ++ c :: r) = some [] := by simpa [strict] using h
    rw [run_append, Option.bind_eq_some_iff] at hrun
    obtain ⟨owed, hl, hr⟩ := hrun
    have howed : Continuing owed := run_continuing (fun range h => absurd h (List.not_mem_nil)) hl
    have hempty : owed = [] := by
      rw [run, List.foldlM_cons, Option.bind_eq_bind, Option.bind_eq_some_iff] at hr
      obtain ⟨next, hstep, -⟩ := hr
      exact ((step_ascii hc howed).mp hstep).1
    subst hempty
    exact ⟨by simpa [strict] using hl, by simpa [strict] using hr⟩
  · rintro ⟨hl, hr⟩
    exact strict_append hl hr

/-- Decoding apart, where what follows begins with an ASCII octet or is nothing. -/
theorem strict_split {l r : List UInt8} (hr : ∀ c ∈ r.head?, c.toNat < 0x80) :
    strict (l ++ r) ↔ strict l ∧ strict r := by
  cases r with
  | nil =>
      have hnil : strict [] = true := rfl
      simp [hnil]
  | cons c r => exact strict_cut (hr c rfl)

theorem strict_cons {c : UInt8} {r : List UInt8} (hc : c.toNat < 0x80) : strict (c :: r) ↔ strict r := by
  have hstep : step [] c = some [] := (step_ascii hc (fun range h => absurd h (List.not_mem_nil))).mpr ⟨rfl, rfl⟩
  simp only [strict, run, List.foldlM_cons, hstep, Option.bind_eq_bind, Option.bind_some]

/-- The octets of an ASCII text. -/
def Ascii (s : List UInt8) : Prop := ∀ c ∈ s, c.toNat < 0x80

instance (s : List UInt8) : Decidable (Ascii s) := inferInstanceAs (Decidable (∀ c ∈ s, _))

theorem strict_ascii_append {s r : List UInt8} (hs : Ascii s) : strict (s ++ r) ↔ strict r := by
  induction s with
  | nil => rfl
  | cons c s ih =>
      rw [List.cons_append, strict_cons (hs c List.mem_cons_self)]
      exact ih fun b hb => hs b (List.mem_cons_of_mem _ hb)

/-- An ASCII text is decoded apart from what is on both sides of it. -/
theorem strict_around {s l r : List UInt8} (hs : Ascii s) (hne : s ≠ []) :
    strict (l ++ (s ++ r)) ↔ strict l ∧ strict r := by
  obtain ⟨c, s, rfl⟩ := List.exists_cons_of_ne_nil hne
  rw [List.cons_append, strict_cut (hs c List.mem_cons_self), ← List.cons_append, strict_ascii_append hs]

/-- `text.encode("utf-8")`. -/
def encode (text : String) : List UInt8 := text.toUTF8.data.toList

example : strict [0xE2, 0x82, 0xAC, 0x0A] = true ∧ strict [0xC0, 0x80] = false ∧ strict [0xED, 0xA0, 0x80] = false := by
  decide

end CodingOS.Python.Utf8
