import CodingOS.Python.Text

/-!
# JSON pointers

`_json_pointer_segment` and `_json_pointer_parts` of `capability_config_fingerprint.py`: a path of keys as
one text, and back.
-/

namespace CodingOS.ConfigFingerprint

open CodingOS.Python

/-- `value.replace(old, new)`, for an old text of one character. -/
def replaceChar (old : Char) (new : List Char) (cs : List Char) : List Char :=
  cs.flatMap fun c => if c = old then new else [c]

/-- `value.replace(old, new)`, for an old text of two characters and a new one of one. -/
def replacePair (old₁ old₂ new : Char) : List Char → List Char
  | c :: d :: cs =>
      if c = old₁ ∧ d = old₂ then new :: replacePair old₁ old₂ new cs
      else c :: replacePair old₁ old₂ new (d :: cs)
  | cs => cs

/-- `_json_pointer_segment`. -/
def pointerSegment (s : String) : List Char := replaceChar '/' ['~', '1'] (replaceChar '~' ['~', '0'] s.toList)

/-- `"/" + "/".join(_json_pointer_segment(item) for item in path)`. -/
def pointer (path : List String) : String :=
  String.ofList ('/' :: List.intercalate ['/'] (path.map pointerSegment))

/-- `part.replace("~1", "/").replace("~0", "~")`. -/
def pointerPart (cs : List Char) : String :=
  String.ofList (replacePair '~' '0' '~' (replacePair '~' '1' '/' cs))

/-- `_json_pointer_parts`; `none` is the error of a text that starts with no slash. -/
def pointerParts (s : String) : Option (List String) :=
  match s.toList with
  | '/' :: cs => some ((splitChars '/' cs).map pointerPart)
  | _ => none

/-! ### Escaping -/

theorem replaceChar_cons (old c : Char) (new cs : List Char) :
    replaceChar old new (c :: cs) = (if c = old then new else [c]) ++ replaceChar old new cs := rfl

theorem replacePair_other {old₁ old₂ new c : Char} (hc : c ≠ old₁) (cs : List Char) :
    replacePair old₁ old₂ new (c :: cs) = c :: replacePair old₁ old₂ new cs := by
  cases cs with
  | nil => simp [replacePair]
  | cons d cs => rw [replacePair, if_neg fun h => hc h.1]

theorem replacePair_match (old₁ old₂ new : Char) (cs : List Char) :
    replacePair old₁ old₂ new (old₁ :: old₂ :: cs) = new :: replacePair old₁ old₂ new cs := by
  rw [replacePair, if_pos ⟨rfl, rfl⟩]

theorem replacePair_half {old₁ old₂ new d : Char} (hd : d ≠ old₂) (cs : List Char) :
    replacePair old₁ old₂ new (old₁ :: d :: cs) = old₁ :: replacePair old₁ old₂ new (d :: cs) := by
  rw [replacePair, if_neg fun h => hd h.2]

/-- The slashes come back first: no tilde of the escaped text stands before a one by chance. -/
theorem replacePair_slash (cs : List Char) :
    replacePair '~' '1' '/' (replaceChar '/' ['~', '1'] (replaceChar '~' ['~', '0'] cs))
      = replaceChar '~' ['~', '0'] cs := by
  induction cs with
  | nil => rfl
  | cons c cs ih =>
      rw [replaceChar_cons]
      by_cases htilde : c = '~'
      · subst htilde
        rw [if_pos rfl]
        show replacePair '~' '1' '/' ('~' :: '0' :: replaceChar '/' ['~', '1'] (replaceChar '~' ['~', '0'] cs)) = _
        rw [replacePair_half (by decide), replacePair_other (by decide), ih]
        rfl
      · rw [if_neg htilde, List.singleton_append, replaceChar_cons]
        by_cases hslash : c = '/'
        · subst hslash
          rw [if_pos rfl]
          show replacePair '~' '1' '/' ('~' :: '1' :: replaceChar '/' ['~', '1'] (replaceChar '~' ['~', '0'] cs)) = _
          rw [replacePair_match, ih]
        · rw [if_neg hslash, List.singleton_append, replacePair_other htilde, ih]

theorem replacePair_tilde (cs : List Char) :
    replacePair '~' '0' '~' (replaceChar '~' ['~', '0'] cs) = cs := by
  induction cs with
  | nil => rfl
  | cons c cs ih =>
      rw [replaceChar_cons]
      by_cases htilde : c = '~'
      · subst htilde
        rw [if_pos rfl]
        show replacePair '~' '0' '~' ('~' :: '0' :: replaceChar '~' ['~', '0'] cs) = _
        rw [replacePair_match, ih]
      · rw [if_neg htilde, List.singleton_append, replacePair_other htilde, ih]

/-- Unescaping undoes escaping. -/
theorem pointerPart_segment (s : String) : pointerPart (pointerSegment s) = s := by
  rw [pointerPart, pointerSegment, replacePair_slash, replacePair_tilde, String.ofList_toList]

theorem slash_not_mem_segment (s : String) : '/' ∉ pointerSegment s := by
  intro h
  obtain ⟨c, -, hc⟩ := List.mem_flatMap.mp h
  split at hc
  · simp at hc
  · next hne => exact hne (List.mem_singleton.mp hc).symm

theorem splitChars_of_not_mem {sep : Char} {cs : List Char} (h : sep ∉ cs) : splitChars sep cs = [cs] := by
  induction cs with
  | nil => rfl
  | cons c cs ih =>
      rw [List.mem_cons, not_or] at h
      rw [splitChars, if_neg (Ne.symm h.1), ih h.2]

theorem splitChars_append {sep : Char} {cs : List Char} (h : sep ∉ cs) (rest : List Char) :
    splitChars sep (cs ++ sep :: rest) = cs :: splitChars sep rest := by
  induction cs with
  | nil => rw [List.nil_append, splitChars, if_pos rfl]
  | cons c cs ih =>
      rw [List.mem_cons, not_or] at h
      rw [List.cons_append, splitChars, if_neg (Ne.symm h.1), ih h.2]

theorem splitChars_intercalate {sep : Char} {parts : List (List Char)} (hne : parts ≠ [])
    (h : ∀ part ∈ parts, sep ∉ part) : splitChars sep (List.intercalate [sep] parts) = parts := by
  induction parts with
  | nil => exact absurd rfl hne
  | cons part parts ih =>
      rw [List.forall_mem_cons] at h
      cases parts with
      | nil => simpa [List.intercalate] using splitChars_of_not_mem h.1
      | cons next rest =>
          have hjoin : List.intercalate [sep] (part :: next :: rest)
              = part ++ sep :: List.intercalate [sep] (next :: rest) := by
            simp [List.intercalate]
          rw [hjoin, splitChars_append h.1, ih (List.cons_ne_nil _ _) h.2]

/-- **Reading a pointer back.** -/
theorem pointerParts_pointer {path : List String} (h : path ≠ []) : pointerParts (pointer path) = some path := by
  have hsegments : ∀ part ∈ path.map pointerSegment, '/' ∉ part :=
    List.forall_mem_map.mpr fun s _ => slash_not_mem_segment s
  rw [pointerParts, pointer, String.toList_ofList]
  show some ((splitChars '/' (List.intercalate ['/'] (path.map pointerSegment))).map pointerPart) = _
  rw [splitChars_intercalate (by simpa using h) hsegments, List.map_map]
  refine congrArg some ((List.map_congr_left fun s _ => ?_).trans (List.map_id path))
  exact pointerPart_segment s

theorem pointer_injective {p q : List String} (hp : p ≠ []) (hq : q ≠ []) (h : pointer p = pointer q) : p = q :=
  Option.some.inj ((pointerParts_pointer hp).symm.trans ((congrArg pointerParts h).trans (pointerParts_pointer hq)))

end CodingOS.ConfigFingerprint
