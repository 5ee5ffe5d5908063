import CodingOS.Python.Value

/-!
# Canonical JSON

`canonical_json`: `json.dumps` with sorted keys, no spaces and no ASCII escaping, and the digest the
engine takes of it.
-/

namespace CodingOS.Python

/-- One character of a JSON text: `ESCAPE_DCT` of the standard encoder. -/
def jsonChar (c : Char) : List Char :=
  if c = '"' then ['\\', '"']
  else if c = '\\' then ['\\', '\\']
  else if c = '\n' then ['\\', 'n']
  else if c = '\r' then ['\\', 'r']
  else if c = '\t' then ['\\', 't']
  else if c.toNat = 0x0C then ['\\', 'f']
  else if c.toNat = 0x08 then ['\\', 'b']
  else if c.toNat < 0x20 then '\\' :: 'u' :: hexDigits 4 c.toNat
  else [c]

def jsonText (s : String) : String := String.ofList ('"' :: s.toList.flatMap jsonChar ++ ['"'])

/-! ### Reading a text back -/

/-- The control characters `json.dumps` writes with four hexadecimal digits. -/
def controlChar? (digits : List Char) : Option Char :=
  ((List.range 0x20).find? fun n => hexDigits 4 n = digits).map Char.ofNat

/-- The first character of the characters of a JSON text, and what follows it. -/
def readJsonChar : List Char → Option (Char × List Char)
  | '"' :: _ => none
  | '\\' :: '"' :: cs => some ('"', cs)
  | '\\' :: '\\' :: cs => some ('\\', cs)
  | '\\' :: 'n' :: cs => some ('\n', cs)
  | '\\' :: 'r' :: cs => some ('\r', cs)
  | '\\' :: 't' :: cs => some ('\t', cs)
  | '\\' :: 'f' :: cs => some (Char.ofNat 0x0C, cs)
  | '\\' :: 'b' :: cs => some (Char.ofNat 0x08, cs)
  | '\\' :: 'u' :: a :: b :: c :: d :: cs => (controlChar? [a, b, c, d]).map fun x => (x, cs)
  | c :: cs => some (c, cs)
  | [] => none

theorem controlChar?_hexDigits : ∀ n < 0x20, controlChar? (hexDigits 4 n) = some (Char.ofNat n) := by
  decide

theorem readJsonChar_control : ∀ n < 0x20, ∀ cs : List Char,
    readJsonChar ('\\' :: 'u' :: hexDigits 4 n ++ cs) = some (Char.ofNat n, cs) := by
  intro n hn cs
  have hread : readJsonChar ('\\' :: 'u' :: hexDigits 4 n ++ cs)
      = (controlChar? (hexDigits 4 n)).map fun x => (x, cs) := rfl
  rw [hread, controlChar?_hexDigits n hn, Option.map_some]

theorem readJsonChar_jsonChar (c : Char) (cs : List Char) :
    readJsonChar (jsonChar c ++ cs) = some (c, cs) := by
  have hof : ∀ n, c.toNat = n → Char.ofNat n = c := by
    rintro _ rfl
    exact Char.ofNat_toNat c
  unfold jsonChar
  split_ifs with h₁ h₂ h₃ h₄ h₅ h₆ h₇ h₈
  · subst h₁; rfl
  · subst h₂; rfl
  · subst h₃; rfl
  · subst h₄; rfl
  · subst h₅; rfl
  · rw [← hof _ h₆]; rfl
  · rw [← hof _ h₇]; rfl
  · rw [readJsonChar_control _ h₈ cs, hof _ rfl]
  · simp [readJsonChar, h₂]

theorem readJsonChar_quote (cs : List Char) : readJsonChar ('"' :: cs) = none := rfl

theorem jsonText_toList (s : String) :
    (jsonText s).toList = '"' :: (s.toList.flatMap jsonChar ++ ['"']) := by
  simp [jsonText]

theorem jsonChars_front (xs ys u v : List Char)
    (h : xs.flatMap jsonChar ++ '"' :: u = ys.flatMap jsonChar ++ '"' :: v) : xs = ys ∧ u = v := by
  induction xs generalizing ys with
  | nil =>
      cases ys with
      | nil => simpa using h
      | cons y ys =>
          have hread := congrArg readJsonChar h
          rw [List.flatMap_nil, List.nil_append, readJsonChar_quote, List.flatMap_cons, List.append_assoc,
            readJsonChar_jsonChar] at hread
          cases hread
  | cons x xs ih =>
      have hread := congrArg readJsonChar h
      cases ys with
      | nil =>
          rw [List.flatMap_nil, List.nil_append, readJsonChar_quote, List.flatMap_cons, List.append_assoc,
            readJsonChar_jsonChar] at hread
          cases hread
      | cons y ys =>
          rw [List.flatMap_cons, List.append_assoc, readJsonChar_jsonChar, List.flatMap_cons,
            List.append_assoc, readJsonChar_jsonChar, Option.some.injEq, Prod.mk.injEq] at hread
          obtain ⟨rfl, hrest⟩ := hread
          obtain ⟨rfl, rfl⟩ := ih ys hrest
          exact ⟨rfl, rfl⟩

/-- No JSON text of a text is the beginning of another: what follows it starts where it ends. -/
theorem jsonText_front {s t : String} {u v : List Char}
    (h : (jsonText s).toList ++ u = (jsonText t).toList ++ v) : s = t ∧ u = v := by
  rw [jsonText_toList, jsonText_toList, List.cons_append, List.cons_append, List.append_assoc,
    List.append_assoc] at h
  obtain ⟨hchars, hrest⟩ := jsonChars_front _ _ _ _ (List.cons.inj h).2
  exact ⟨String.toList_injective hchars, hrest⟩

theorem jsonText_injective {s t : String} (h : jsonText s = jsonText t) : s = t :=
  (jsonText_front (u := []) (v := []) (by rw [h])).1

theorem quote_mem_jsonChar {c : Char} (h : '"' ∈ jsonChar c) : jsonChar c = ['\\', '"'] := by
  have hhex : ∀ n < 0x20, '"' ∉ hexDigits 4 n := by decide
  unfold jsonChar at h ⊢
  split_ifs at h ⊢ with h₁ h₂ h₃ h₄ h₅ h₆ h₇ h₈
  · rfl
  · simp at h
  · simp at h
  · simp at h
  · simp at h
  · simp at h
  · simp at h
  · simp [hhex _ h₈] at h
  · exact absurd (List.mem_singleton.mp h).symm h₁

/-- Within a JSON text every quote follows a backslash. -/
theorem quote_escaped {xs b rest : List Char}
    (h : xs.flatMap jsonChar = b ++ '"' :: rest) : ∃ front, b = front ++ ['\\'] := by
  induction xs generalizing b with
  | nil => simp at h
  | cons x xs ih =>
      rw [List.flatMap_cons] at h
      rcases List.append_eq_append_iff.mp h with ⟨w, rfl, hrest⟩ | ⟨w, hchar, hrest⟩
      · obtain ⟨front, rfl⟩ := ih hrest
        exact ⟨jsonChar x ++ front, by rw [List.append_assoc]⟩
      · cases w with
        | nil =>
            -- the quote would be the first character of the rest
            obtain ⟨front, hnil⟩ := ih (b := []) hrest.symm
            simp at hnil
        | cons q w =>
            obtain ⟨rfl, -⟩ := List.cons.inj hrest
            have hescaped := quote_mem_jsonChar (c := x) (by rw [hchar]; simp)
            rw [hescaped] at hchar
            rcases b with _ | ⟨c, _ | ⟨c', b⟩⟩
            · cases hchar
            · obtain ⟨rfl, -⟩ := List.cons.inj hchar
              exact ⟨[], rfl⟩
            · simp at hchar

/-- A JSON text ends another only where it is all of it, unless a backslash stands before it. -/
theorem jsonText_suffix {s t : String} {u v : List Char} {c d : Char} (hc : c ≠ '\\') (hd : d ≠ '\\')
    (h : u ++ c :: (jsonText s).toList = v ++ d :: (jsonText t).toList) :
    u ++ [c] = v ++ [d] ∧ s = t := by
  -- a shorter text would start at a quote within the longer one
  have hshort : ∀ {s t : String} {u v w : List Char} {c d : Char}, d ≠ '\\' →
      v ++ [d] = u ++ [c] ++ w →
      '"' :: s.toList.flatMap jsonChar = w ++ '"' :: t.toList.flatMap jsonChar → w = [] := by
    intro s t u v w c d hd hsplit hchars
    cases w with
    | nil => rfl
    | cons q w =>
        obtain ⟨rfl, hrest⟩ := List.cons.inj hchars
        obtain ⟨front, rfl⟩ := quote_escaped (b := w) hrest
        rw [← List.cons_append, ← List.append_assoc] at hsplit
        exact absurd (List.append_inj' hsplit rfl).2 (by simpa using hd)
  rw [jsonText_toList, jsonText_toList] at h
  have hcut : (u ++ [c]) ++ ('"' :: s.toList.flatMap jsonChar)
      = (v ++ [d]) ++ ('"' :: t.toList.flatMap jsonChar) := by
    have hquoted : (u ++ [c]) ++ ('"' :: s.toList.flatMap jsonChar) ++ ['"']
        = (v ++ [d]) ++ ('"' :: t.toList.flatMap jsonChar) ++ ['"'] := by simpa using h
    exact List.append_cancel_right hquoted
  have hsame : u ++ [c] = v ++ [d] := by
    rcases List.append_eq_append_iff.mp hcut with ⟨w, hw, hchars⟩ | ⟨w, hw, hchars⟩
    · obtain rfl := hshort hd hw hchars
      rw [hw, List.append_nil]
    · obtain rfl := hshort hc hw hchars
      rw [hw, List.append_nil]
  refine ⟨hsame, ?_⟩
  rw [hsame] at hcut
  have hchars := (List.cons.inj (List.append_cancel_left hcut)).2
  refine String.toList_injective (jsonChars_front _ _ [] [] ?_).1
  rw [hchars]

theorem comma_not_mem_intText (n : ℕ) : ',' ∉ (intText n).toList := by
  intro h
  have hdecimal : (intText n).toList = Nat.toDigits 10 n := by
    show (toString n).toList = _
    simp [Nat.repr]
  rw [hdecimal] at h
  exact absurd (Nat.isDigit_of_mem_toDigits (by decide) (by decide) h) (by decide)

/-! ### Objects -/

/-- The entries of an object in the order `sort_keys` gives them. -/
def sortByKey {α : Type} (entries : List (String × α)) : List (String × α) :=
  entries.insertionSort fun a b => a.1 ≤ b.1

/-- Sorting is stable, so it changes no lookup. -/
theorem get?_sortByKey (m : Mapping) (key : String) :
    Mapping.get? (sortByKey m) key = m.get? key := by
  have insert : ∀ (e : String × Value) (l : Mapping),
      Mapping.get? (l.orderedInsert (fun a b => a.1 ≤ b.1) e) key = Mapping.get? (e :: l) key := by
    intro e l
    induction l with
    | nil => rfl
    | cons f l ih =>
        rw [List.orderedInsert_cons]
        split
        · rfl
        · next hgt =>
            have hne : e.1 ≠ f.1 := fun heq => hgt (heq ▸ String.le_refl f.1)
            obtain ⟨a, v⟩ := e
            obtain ⟨b, w⟩ := f
            simp only [Mapping.get?_cons] at ih ⊢
            rw [ih]
            by_cases hb : key = b
            · rw [if_pos hb, if_pos hb, if_neg (fun ha => hne (ha.symm.trans hb))]
            · rw [if_neg hb, if_neg hb]
  induction m with
  | nil => rfl
  | cons e m ih =>
      rw [sortByKey, List.insertionSort_cons, insert]
      obtain ⟨a, v⟩ := e
      rw [Mapping.get?_cons, Mapping.get?_cons, ← ih, sortByKey]

theorem intercalate_suffix {s : List Char} {l m : List (List Char)} (h : m ≠ []) :
    List.intercalate s m <:+ List.intercalate s (l ++ m) := by
  induction l with
  | nil => exact List.suffix_rfl
  | cons x l ih =>
      obtain ⟨y, ys, hys⟩ := List.exists_cons_of_ne_nil (List.append_ne_nil_of_right_ne_nil l h)
      rw [hys] at ih
      rw [List.cons_append, hys]
      refine ih.trans ⟨x ++ s, ?_⟩
      simp [List.intercalate]

/-- Where a character first occurs, two texts part. -/
theorem eq_of_append_cons {α : Type*} {x : α} {l m u v : List α} (hl : x ∉ l) (hm : x ∉ m)
    (h : l ++ x :: u = m ++ x :: v) : l = m ∧ u = v := by
  induction l generalizing m with
  | nil =>
      cases m with
      | nil => exact ⟨rfl, (List.cons.inj h).2⟩
      | cons y m => exact absurd (List.cons.inj h).1 fun hx => hm (hx ▸ List.mem_cons_self)
  | cons y l ih =>
      cases m with
      | nil => exact absurd (List.cons.inj h).1 fun hx => hl (hx ▸ List.mem_cons_self)
      | cons z m =>
          obtain ⟨rfl, hrest⟩ := List.cons.inj h
          obtain ⟨rfl, rfl⟩ := ih (fun hx => hl (List.mem_cons_of_mem _ hx))
            (fun hx => hm (List.mem_cons_of_mem _ hx)) hrest
          exact ⟨rfl, rfl⟩

variable [Runtime]

mutual

/-- `canonical_json(value)`. -/
def canonicalJson : Value → String
  | .null => "null"
  | .bool b => if b then "true" else "false"
  | .int n => intText n
  | .float q => Runtime.floatRepr q
  | .str s => jsonText s
  | .tuple xs => "[" ++ String.intercalate "," (jsonItems xs) ++ "]"
  | .mapping xs =>
      "\x7b" ++ String.intercalate ","
        ((sortByKey (jsonEntries xs)).map fun e => jsonText e.1 ++ ":" ++ e.2) ++ "\x7d"

def jsonItems : List Value → List String
  | [] => []
  | x :: xs => canonicalJson x :: jsonItems xs

def jsonEntries : List (String × Value) → List (String × String)
  | [] => []
  | (k, x) :: xs => (k, canonicalJson x) :: jsonEntries xs

end

/-- The text of an object ends with the texts of its last entries. -/
theorem canonicalJson_suffix {entries : Mapping} {last : List (String × String)}
    (h : last <:+ sortByKey (jsonEntries entries)) (hne : last ≠ []) :
    (String.intercalate "," (last.map fun e => jsonText e.1 ++ ":" ++ e.2) ++ "\x7d").toList
      <:+ (canonicalJson (.mapping entries)).toList := by
  obtain ⟨front, hfront⟩ := h
  rw [canonicalJson, ← hfront, List.map_append]
  obtain ⟨before, hbefore⟩ := intercalate_suffix (s := ",".toList)
    (l := front.map fun e => (jsonText e.1 ++ ":" ++ e.2).toList)
    (m := last.map fun e => (jsonText e.1 ++ ":" ++ e.2).toList) (by simpa using hne)
  refine ⟨"\x7b".toList ++ before, ?_⟩
  simp only [String.toList_append, String.toList_intercalate, List.map_append, List.map_map,
    Function.comp_def, List.append_assoc] at hbefore ⊢
  rw [← hbefore, List.append_assoc]

/-- `canonical_json_digest(value)`. -/
def canonicalJsonDigest (v : Value) : String := Runtime.sha256 (canonicalJson v)

end CodingOS.Python
