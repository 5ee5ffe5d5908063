import CodingOS.Python.Json

/-!
# Reading canonical JSON back

`_freeze`, and `json.loads` on the texts `canonical_json` writes: no space between the tokens and no
escape the encoder does not write.  Reading the text of a value gives the value frozen, whatever order
its mappings were in, so two values of one text are equal up to `_freeze`.

The numbers of a text go through `int` and `float`.  What `float` makes of a text comes from
`FloatReader`, as what `repr` makes of a float comes from `Runtime`; `FloatLaws` says that they fit.
-/

namespace CodingOS.Python

/-! ### `_freeze` -/

mutual

/-- `_freeze(value)`: the entries of every mapping in the order of their keys. -/
def freeze : Value → Value
  | .null => .null
  | .bool b => .bool b
  | .int n => .int n
  | .float q => .float q
  | .str s => .str s
  | .tuple xs => .tuple (freezeItems xs)
  | .mapping xs => .mapping (sortByKey (freezeEntries xs))

def freezeItems : List Value → List Value
  | [] => []
  | x :: xs => freeze x :: freezeItems xs

def freezeEntries : List (String × Value) → List (String × Value)
  | [] => []
  | (k, x) :: xs => (k, freeze x) :: freezeEntries xs

end

theorem freezeItems_eq_map (xs : List Value) : freezeItems xs = xs.map freeze := by
  induction xs with
  | nil => rfl
  | cons x xs ih => rw [freezeItems, ih, List.map_cons]

theorem freezeEntries_eq_map (xs : Mapping) : freezeEntries xs = xs.map fun e => (e.1, freeze e.2) := by
  induction xs with
  | nil => rfl
  | cons e xs ih =>
      obtain ⟨k, x⟩ := e
      rw [freezeEntries, ih, List.map_cons]

/-- Sorting by key goes before or after what is done to the values. -/
theorem sortByKey_map {α β : Type} (f : α → β) (entries : List (String × α)) :
    sortByKey (entries.map fun e => (e.1, f e.2)) = (sortByKey entries).map fun e => (e.1, f e.2) :=
  (List.map_insertionSort (fun a b : String × α => a.1 ≤ b.1) (fun a b : String × β => a.1 ≤ b.1)
    (fun e => (e.1, f e.2)) entries fun _ _ _ _ => Iff.rfl).symm

theorem sortByKey_sortByKey {α : Type} (entries : List (String × α)) :
    sortByKey (sortByKey entries) = sortByKey entries :=
  (List.pairwise_insertionSort (fun a b : String × α => a.1 ≤ b.1) entries).insertionSort_eq

/-- A frozen mapping. -/
def Mapping.freeze (m : Mapping) : Mapping := sortByKey (freezeEntries m)

@[simp] theorem freeze_mapping (m : Mapping) : Python.freeze (.mapping m) = .mapping m.freeze := rfl

@[simp] theorem freeze_tuple (xs : List Value) :
    Python.freeze (.tuple xs) = .tuple (xs.map Python.freeze) := by
  rw [Python.freeze, freezeItems_eq_map]

theorem Mapping.freeze_eq (m : Mapping) :
    m.freeze = (sortByKey m).map fun e => (e.1, Python.freeze e.2) := by
  rw [Mapping.freeze, freezeEntries_eq_map, sortByKey_map]

theorem Mapping.get?_erase_of_ne (m : Mapping) {key other : String} (h : other ≠ key) :
    Mapping.get? (m.erase key) other = m.get? other := by
  induction m with
  | nil => rfl
  | cons e m ih =>
      obtain ⟨k, v⟩ := e
      by_cases hk : k = key
      · subst hk
        rw [Mapping.erase, List.filter_cons_of_neg (by simp), Mapping.get?_cons, if_neg h]
        exact ih
      · rw [Mapping.erase, List.filter_cons_of_pos (by simpa using hk), Mapping.get?_cons, Mapping.get?_cons]
        split
        · rfl
        · exact ih

theorem Mapping.sortByKey_freeze (m : Mapping) : sortByKey m.freeze = m.freeze :=
  sortByKey_sortByKey _

/-- What a frozen mapping holds under a key. -/
theorem Mapping.get?_freeze (m : Mapping) (key : String) :
    Mapping.get? m.freeze key = (m.get? key).map Python.freeze := by
  rw [Mapping.freeze, get?_sortByKey, freezeEntries_eq_map]
  induction m with
  | nil => rfl
  | cons e m ih =>
      obtain ⟨k, v⟩ := e
      rw [List.map_cons, Mapping.get?_cons, Mapping.get?_cons, ih]
      split <;> rfl

mutual

/-- Freezing what is frozen changes nothing. -/
theorem freeze_freeze : ∀ v : Value, freeze (freeze v) = freeze v
  | .null | .bool _ | .int _ | .float _ | .str _ => rfl
  | .tuple xs => by
      rw [freeze_tuple, freeze_tuple, List.map_map]
      exact congrArg Value.tuple (List.map_congr_left (freeze_freeze_items xs))
  | .mapping xs => by
      rw [freeze_mapping, freeze_mapping, Mapping.freeze_eq (Mapping.freeze xs),
        Mapping.sortByKey_freeze, Mapping.freeze_eq, List.map_map]
      refine congrArg Value.mapping (List.map_congr_left fun e he => ?_)
      exact congrArg (Prod.mk e.1) (freeze_freeze_entries xs e ((List.mem_insertionSort _).mp he))

theorem freeze_freeze_items : ∀ xs : List Value, (∀ x ∈ xs, freeze (freeze x) = freeze x)
  | [] => by simp
  | y :: ys => List.forall_mem_cons.mpr ⟨freeze_freeze y, freeze_freeze_items ys⟩

theorem freeze_freeze_entries : ∀ xs : List (String × Value), (∀ e ∈ xs, freeze (freeze e.2) = freeze e.2)
  | [] => by simp
  | (_, y) :: ys => List.forall_mem_cons.mpr ⟨freeze_freeze y, freeze_freeze_entries ys⟩

end

/-! ### The reader -/

/-- What `float` makes of the text of a number. -/
class FloatReader where
  float : String → Option ℚ

/-- The characters of a JSON number. -/
def isNumberChar (c : Char) : Bool := c.isDigit || ['-', '+', '.', 'e'].contains c

/-- A number with a fraction or an exponent is a float. -/
def isFloatText (token : List Char) : Bool := token.any fun c => c == '.' || c == 'e'

section Reader

variable [Runtime] [FloatReader]

/-- The number at the front of a text. -/
def readNumber (cs : List Char) : Option (Value × List Char) :=
  let token := cs.takeWhile isNumberChar
  let rest := cs.dropWhile isNumberChar
  if isFloatText token then
    (FloatReader.float (String.ofList token)).map fun q => (.float q, rest)
  else (readInt (String.ofList token)).map fun n => (.int n, rest)

/-- The characters of a text up to its closing quote; `depth` bounds their number. -/
def readTextChars : ℕ → List Char → Option (List Char × List Char)
  | 0, _ => none
  | _ + 1, '"' :: cs => some ([], cs)
  | depth + 1, cs => do
      let (c, rest) ← readJsonChar cs
      let (text, rest) ← readTextChars depth rest
      some (c :: text, rest)

/-- The text at the front, after its opening quote. -/
def readText (cs : List Char) : Option (String × List Char) :=
  (readTextChars (cs.length + 1) cs).map fun e => (String.ofList e.1, e.2)

/-- The items after the first one, up to the closing bracket; `depth` bounds their number. -/
def readItems {α : Type} (read : List Char → Option (α × List Char)) (close : Char) :
    ℕ → List Char → Option (List α × List Char)
  | 0, _ => none
  | _ + 1, [] => none
  | depth + 1, c :: cs =>
      if c = close then some ([], cs)
      else if c = ',' then do
        let (x, rest) ← read cs
        let (xs, rest) ← readItems read close depth rest
        some (x :: xs, rest)
      else none

/-- The items between two brackets, after the opening one. -/
def readBrackets {α : Type} (read : List Char → Option (α × List Char)) (close : Char) :
    List Char → Option (List α × List Char)
  | [] => none
  | c :: cs =>
      if c = close then some ([], cs)
      else do
        let (x, rest) ← read (c :: cs)
        let (xs, rest) ← readItems read close (rest.length + 1) rest
        some (x :: xs, rest)

/-- One entry of an object. -/
def readEntry (read : List Char → Option (Value × List Char)) :
    List Char → Option ((String × Value) × List Char)
  | '"' :: cs => do
      let (key, rest) ← readText cs
      let rest ← match rest with
        | ':' :: rest => some rest
        | _ => none
      let (v, rest) ← read rest
      some ((key, v), rest)
  | _ => none

/-- The value at the front of a text; `depth` bounds the nesting. -/
def readValue : ℕ → List Char → Option (Value × List Char)
  | 0, _ => none
  | _ + 1, 'n' :: 'u' :: 'l' :: 'l' :: cs => some (.null, cs)
  | _ + 1, 't' :: 'r' :: 'u' :: 'e' :: cs => some (.bool true, cs)
  | _ + 1, 'f' :: 'a' :: 'l' :: 's' :: 'e' :: cs => some (.bool false, cs)
  | _ + 1, '"' :: cs => (readText cs).map fun e => (.str e.1, e.2)
  | depth + 1, '[' :: cs => (readBrackets (readValue depth) ']' cs).map fun e => (.tuple e.1, e.2)
  | depth + 1, '\x7b' :: cs =>
      (readBrackets (readEntry (readValue depth)) '\x7d' cs).map fun e => (.mapping e.1, e.2)
  | _ + 1, cs => readNumber cs

/-- `json.loads(text)`. -/
def loads (text : String) : Option Value :=
  match readValue (text.toList.length + 1) text.toList with
  | some (v, []) => some v
  | _ => none

end Reader

/-! ### The text of a decoded value -/

section DecodedText

variable [Runtime]

mutual

/-- `repr(value)` of a value as `json.loads` gives it: arrays are lists and objects are dicts. -/
def decodedRepr : Value → String
  | .null => "None"
  | .bool b => if b then "True" else "False"
  | .int n => intText n
  | .float q => Runtime.floatRepr q
  | .str s => reprText s
  | .tuple [] => "[]"
  | .tuple (x :: xs) => "[" ++ decodedRepr x ++ decodedItems xs ++ "]"
  | .mapping [] => "\x7b\x7d"
  | .mapping ((k, x) :: xs) =>
      "\x7b" ++ reprText k ++ ": " ++ decodedRepr x ++ decodedEntries xs ++ "\x7d"

/-- The items after the first, each with its separator. -/
def decodedItems : List Value → String
  | [] => ""
  | x :: xs => ", " ++ decodedRepr x ++ decodedItems xs

/-- The entries after the first, each with its separator. -/
def decodedEntries : List (String × Value) → String
  | [] => ""
  | (k, x) :: xs => ", " ++ reprText k ++ ": " ++ decodedRepr x ++ decodedEntries xs

end

/-- `str(value)` of a value as `json.loads` gives it. -/
def decodedText : Value → String
  | .str s => s
  | v => decodedRepr v

@[simp] theorem decodedText_str (s : String) : decodedText (.str s) = s := rfl

end DecodedText

/-! ### What only one value freezes to -/

/-- No other value freezes to what this one freezes to. -/
def Solid (w : Value) : Prop := ∀ v, freeze v = freeze w → v = w

theorem Solid.str (s : String) : Solid (.str s) := by
  intro v h
  cases v <;> simp_all [freeze]

theorem Solid.int (n : ℤ) : Solid (.int n) := by
  intro v h
  cases v <;> simp_all [freeze]

theorem Solid.bool (b : Bool) : Solid (.bool b) := by
  intro v h
  cases v <;> simp_all [freeze]

theorem Solid.float (q : ℚ) : Solid (.float q) := by
  intro v h
  cases v <;> simp_all [freeze]

theorem Solid.null : Solid .null := by
  intro v h
  cases v <;> simp_all [freeze]

theorem items_of_freeze {v : Value} {ys : List Value} (h : freeze v = .tuple ys) :
    ∃ xs, v = .tuple xs ∧ xs.map freeze = ys := by
  cases v with
  | tuple xs =>
      rw [freeze_tuple] at h
      exact ⟨xs, rfl, Value.tuple.inj h⟩
  | null | bool _ | int _ | float _ | str _ | mapping _ => cases h

theorem entries_of_freeze {v : Value} {m : Mapping} (h : freeze v = .mapping m) :
    ∃ entries : Mapping, v = .mapping entries ∧ entries.freeze = m := by
  cases v with
  | mapping entries => exact ⟨entries, rfl, Value.mapping.inj h⟩
  | null | bool _ | int _ | float _ | str _ | tuple _ => cases h

theorem Solid.tuple {ws : List Value} (hws : ∀ w ∈ ws, Solid w) : Solid (.tuple ws) := by
  intro v h
  rw [freeze_tuple] at h
  obtain ⟨vs, rfl, hvs⟩ := items_of_freeze h
  refine congrArg Value.tuple ?_
  clear h
  induction ws generalizing vs with
  | nil => simpa using hvs
  | cons w ws ih =>
      obtain ⟨hw, hrest⟩ := List.forall_mem_cons.mp hws
      cases vs with
      | nil => simp at hvs
      | cons v vs =>
          obtain ⟨hv, hvs⟩ := List.cons.inj hvs
          rw [hw v hv, ih hrest vs hvs]

/-- Where two mappings agree up to `_freeze`, a value that only one freezes to is read by both. -/
theorem Solid.read {m d : Mapping} {key : String} {w : Value} (hw : Solid w)
    (h : (m.get? key).map freeze = (d.get? key).map freeze) (hd : d.get? key = some w) :
    m.get? key = some w := by
  rw [hd] at h
  obtain ⟨v, hv, hfreeze⟩ := Option.map_eq_some_iff.mp h
  rw [hv, hw v hfreeze]

/-! ### Numbers -/

/-- What follows a value: not a character of a number. -/
def Stops (rest : List Char) : Prop := ∀ c ∈ rest.head?, isNumberChar c = false

theorem takeWhile_stops {rest : List Char} (h : Stops rest) : rest.takeWhile isNumberChar = [] := by
  cases rest with
  | nil => rfl
  | cons c cs => rw [List.takeWhile_cons, h c rfl, if_neg Bool.false_ne_true]

theorem dropWhile_stops {rest : List Char} (h : Stops rest) : rest.dropWhile isNumberChar = rest := by
  cases rest with
  | nil => rfl
  | cons c cs => rw [List.dropWhile_cons, h c rfl, if_neg Bool.false_ne_true]

theorem isSpace_of_isDigit {c : Char} (h : c.isDigit = true) : isSpace c = false := by
  have hbound := Char.isDigit_iff_toNat.mp h
  simp only [isSpace, whitespacePoints, List.contains_eq_mem, decide_eq_false_iff_not]
  intro hmem
  have hle : '0'.toNat ≤ c.toNat := hbound.1
  have hge : c.toNat ≤ '9'.toNat := hbound.2
  simp only [List.mem_cons, List.not_mem_nil, or_false] at hmem
  have h0 : '0'.toNat = 48 := rfl
  have h9 : '9'.toNat = 57 := rfl
  omega

theorem intText_natCast (n : ℕ) : (intText n).toList = Nat.toDigits 10 n := by
  show (toString n).toList = _
  simp [Nat.repr]

theorem intText_negSucc (n : ℕ) : (intText (Int.negSucc n)).toList = '-' :: Nat.toDigits 10 (n + 1) := by
  show (toString (Int.negSucc n)).toList = _
  simp [toString, Int.repr, Nat.repr]

theorem isDigit_of_mem_digits {n : ℕ} {c : Char} (h : c ∈ Nat.toDigits 10 n) : c.isDigit = true :=
  Nat.isDigit_of_mem_toDigits (by decide) (by decide) h

theorem toDigits_ne_nil (n : ℕ) : Nat.toDigits 10 n ≠ [] := by
  rw [Nat.toDigits_eq_if (by decide)]
  split <;> simp

/-- A text without whitespace is stripped of nothing. -/
theorem strip_of_noSpace {cs : List Char} (h : ∀ c ∈ cs, isSpace c = false) :
    rstripChars (lstripChars cs) = cs := by
  have hdrop : ∀ l : List Char, (∀ c ∈ l, isSpace c = false) → l.dropWhile isSpace = l := by
    intro l hl
    cases l with
    | nil => rfl
    | cons c l => rw [List.dropWhile_cons, hl c List.mem_cons_self, if_neg Bool.false_ne_true]
  rw [lstripChars, hdrop cs h, rstripChars, hdrop cs.reverse fun c hc => h c (List.mem_reverse.mp hc),
    List.reverse_reverse]

section Numbers

variable [Runtime]

theorem digitValue_of_isDigit {c : Char} (h : c.isDigit = true) :
    digitValue c = some (c.toNat - '0'.toNat) := by
  obtain ⟨hlow, hhigh⟩ := Char.isDigit_iff_toNat.mp h
  exact if_pos ⟨hlow, hhigh⟩

theorem readDigits_digits {cs : List Char} (hdigits : ∀ c ∈ cs, c.isDigit = true) (acc : ℕ)
    {started : Bool} (hstart : started = true ∨ cs ≠ []) :
    readDigits cs acc started = some (Nat.ofDigitChars 10 cs acc) := by
  induction cs generalizing acc started with
  | nil =>
      rcases hstart with rfl | hne
      · rw [readDigits, if_pos rfl, Nat.ofDigitChars_nil]
      · exact absurd rfl hne
  | cons c cs ih =>
      obtain ⟨hc, hcs⟩ := List.forall_mem_cons.mp hdigits
      have hunder : c ≠ '_' := by
        rintro rfl
        exact absurd hc (by decide)
      rw [readDigits.eq_3 _ _ _ _ hunder, digitValue_of_isDigit hc, Nat.ofDigitChars_cons]
      exact ih hcs _ (.inl rfl)

/-- `int` reads what `str` writes. -/
theorem readInt_intText (n : ℤ) : readInt (intText n) = some n := by
  have hspace : ∀ m : ℕ, ∀ c ∈ Nat.toDigits 10 m, isSpace c = false := fun m c hc =>
    isSpace_of_isDigit (isDigit_of_mem_digits hc)
  have hdigits : ∀ m : ℕ, readDigits (Nat.toDigits 10 m) 0 false = some m := fun m => by
    rw [readDigits_digits (fun c => isDigit_of_mem_digits) 0 (.inr (toDigits_ne_nil m)),
      Nat.ofDigitChars_ten_toDigits]
  cases n with
  | ofNat m =>
      rw [readInt, show (intText (Int.ofNat m)).toList = Nat.toDigits 10 m from intText_natCast m,
        strip_of_noSpace (hspace m)]
      split
      · next heq =>
          exact absurd (isDigit_of_mem_digits (n := m) (c := '-') (heq ▸ List.mem_cons_self)) (by decide)
      · next heq =>
          exact absurd (isDigit_of_mem_digits (n := m) (c := '+') (heq ▸ List.mem_cons_self)) (by decide)
      · rw [hdigits]
        rfl
  | negSucc m =>
      rw [readInt, intText_negSucc,
        strip_of_noSpace (List.forall_mem_cons.mpr ⟨by decide, hspace (m + 1)⟩)]
      show Option.map _ (do
        let a ← readDigits (Nat.toDigits 10 (m + 1)) 0 false
        pure (a : ℤ)) = _
      rw [hdigits]
      rfl

end Numbers

theorem isNumberChar_intText (n : ℤ) :
    (∀ c ∈ (intText n).toList, isNumberChar c = true) ∧ isFloatText (intText n).toList = false := by
  have hdigit : ∀ c : Char, c.isDigit = true → isNumberChar c = true ∧ (c == '.' || c == 'e') = false := by
    intro c hc
    refine ⟨by simp [isNumberChar, hc], ?_⟩
    rw [Bool.or_eq_false_iff, beq_eq_false_iff_ne, beq_eq_false_iff_ne]
    refine ⟨?_, ?_⟩ <;> rintro rfl <;> exact absurd hc (by decide)
  have hdigits : ∀ m : ℕ, ∀ c ∈ Nat.toDigits 10 m,
      isNumberChar c = true ∧ (c == '.' || c == 'e') = false := fun m c hc =>
    hdigit c (isDigit_of_mem_digits hc)
  cases n with
  | ofNat m =>
      rw [show (intText (Int.ofNat m)).toList = Nat.toDigits 10 m from intText_natCast m]
      exact ⟨fun c hc => (hdigits m c hc).1, List.any_eq_false.mpr fun c hc => by simp [hdigits m c hc]⟩
  | negSucc m =>
      rw [intText_negSucc]
      refine ⟨List.forall_mem_cons.mpr ⟨by decide, fun c hc => (hdigits (m + 1) c hc).1⟩, ?_⟩
      rw [isFloatText, List.any_cons]
      exact List.any_eq_false.mpr fun c hc => by simp [hdigits (m + 1) c hc]

theorem intText_ne_nil (n : ℤ) : (intText n).toList ≠ [] := by
  cases n with
  | ofNat m =>
      rw [show (intText (Int.ofNat m)).toList = Nat.toDigits 10 m from intText_natCast m]
      exact toDigits_ne_nil m
  | negSucc m =>
      rw [intText_negSucc]
      exact List.cons_ne_nil _ _

/-! ### What a reader reads -/

/-- The reader gives the value and what follows its text. -/
def Reads {α : Type} (read : List Char → Option (α × List Char)) (text : List Char) (value : α) : Prop :=
  ∀ rest, Stops rest → read (text ++ rest) = some (value, rest)

theorem readTextChars_eq {x : Char} {cs rest : List Char} (h : readJsonChar cs = some (x, rest)) (depth : ℕ) :
    readTextChars (depth + 1) cs = (readTextChars depth rest).map fun e => (x :: e.1, e.2) := by
  have hquote : ∀ l, cs = '"' :: l → False := by
    rintro l rfl
    rw [readJsonChar_quote] at h
    cases h
  rw [readTextChars.eq_3 _ _ fun l hl => hquote l hl, h]
  show (do
    let (text, rest) ← readTextChars depth rest
    some (x :: text, rest)) = _
  cases readTextChars depth rest with
  | none => rfl
  | some e => rfl

theorem readTextChars_jsonChars (xs rest : List Char) {depth : ℕ} (h : xs.length < depth) :
    readTextChars depth (xs.flatMap jsonChar ++ '"' :: rest) = some (xs, rest) := by
  induction xs generalizing depth with
  | nil =>
      obtain ⟨depth, rfl⟩ := Nat.exists_eq_add_of_lt h
      rfl
  | cons x xs ih =>
      obtain ⟨depth, rfl⟩ : ∃ d, depth = d + 1 := ⟨depth - 1, by omega⟩
      rw [List.flatMap_cons, List.append_assoc, readTextChars_eq (readJsonChar_jsonChar x _),
        ih (by simpa using h), Option.map_some]

theorem jsonChar_length (c : Char) : 0 < (jsonChar c).length := by
  unfold jsonChar
  split_ifs <;> simp

theorem length_le_jsonChars (xs : List Char) : xs.length ≤ (xs.flatMap jsonChar).length := by
  induction xs with
  | nil => exact Nat.le_refl _
  | cons x xs ih =>
      have hpos := jsonChar_length x
      rw [List.flatMap_cons, List.length_append, List.length_cons]
      omega

/-- A text is read back. -/
theorem readText_jsonText (s : String) (rest : List Char) :
    readText (s.toList.flatMap jsonChar ++ '"' :: rest) = some (s, rest) := by
  have hlength := length_le_jsonChars s.toList
  have hdepth : s.toList.length < (s.toList.flatMap jsonChar ++ '"' :: rest).length + 1 := by
    rw [List.length_append]
    omega
  rw [readText, readTextChars_jsonChars _ _ hdepth, Option.map_some, String.ofList_toList]

section Brackets

variable {α β : Type} {read : List Char → Option (α × List Char)} {text : β → List Char} {value : β → α}
  {close : Char}

theorem stops_items (text : β → List Char) (hstop : isNumberChar close = false) (xs : List β) (rest : List Char) :
    Stops (xs.flatMap (fun x => ',' :: text x) ++ close :: rest) := by
  intro c hc
  cases xs with
  | nil =>
      obtain rfl := Option.some.inj hc
      exact hstop
  | cons y ys =>
      obtain rfl := Option.some.inj hc
      decide

theorem readItems_eq (hclose : close ≠ ',') (hstop : isNumberChar close = false) (rest : List Char) :
    ∀ (xs : List β), (∀ x ∈ xs, Reads read (text x) (value x)) → ∀ {depth : ℕ}, xs.length < depth →
      readItems read close depth (xs.flatMap (fun x => ',' :: text x) ++ close :: rest)
        = some (xs.map value, rest) := by
  intro xs hreads
  induction xs with
  | nil =>
      intro depth hdepth
      obtain ⟨depth, rfl⟩ : ∃ d, depth = d + 1 := ⟨depth - 1, by omega⟩
      simp [readItems]
  | cons x xs ih =>
      intro depth hdepth
      obtain ⟨hx, hxs⟩ := List.forall_mem_cons.mp hreads
      obtain ⟨depth, rfl⟩ : ∃ d, depth = d + 1 := ⟨depth - 1, by omega⟩
      rw [List.flatMap_cons, List.append_assoc, List.cons_append, readItems, if_neg hclose.symm,
        if_pos rfl, hx _ (stops_items text hstop xs rest)]
      show (do
        let (xs, rest) ← readItems read close depth (xs.flatMap (fun x => ',' :: text x) ++ close :: rest)
        some (value x :: xs, rest)) = _
      rw [ih hxs (by simpa using hdepth)]
      rfl

theorem intercalate_cons (x : List Char) (xs : List (List Char)) :
    List.intercalate [','] (x :: xs) = x ++ xs.flatMap fun y => ',' :: y := by
  induction xs generalizing x with
  | nil => simp [List.intercalate]
  | cons y ys ih =>
      rw [List.intercalate_cons_cons, ih, List.flatMap_cons]
      simp

theorem length_le_intercalate {x : List Char} {xs : List (List Char)} (h : x ∈ xs) :
    x.length ≤ (List.intercalate [','] xs).length := by
  obtain ⟨front, back, rfl⟩ := List.append_of_mem h
  refine le_trans ?_ (intercalate_suffix (s := [',']) (l := front) (List.cons_ne_nil x back)).length_le
  rw [intercalate_cons, List.length_append]
  exact Nat.le_add_right _ _

/-- Items between brackets are read back. -/
theorem readBrackets_eq (hclose : close ≠ ',') (hstop : isNumberChar close = false) (rest : List Char)
    (xs : List β) (hreads : ∀ x ∈ xs, Reads read (text x) (value x))
    (hhead : ∀ x ∈ xs, ∃ c cs, text x = c :: cs ∧ c ≠ close) :
    readBrackets read close (List.intercalate [','] (xs.map text) ++ close :: rest)
      = some (xs.map value, rest) := by
  cases xs with
  | nil => simp [readBrackets, List.intercalate]
  | cons x xs =>
      obtain ⟨hx, hxs⟩ := List.forall_mem_cons.mp hreads
      obtain ⟨c, cs, htext, hne⟩ := hhead x List.mem_cons_self
      have hread := hx _ (stops_items text hstop xs rest)
      have hlength : xs.length < (xs.flatMap (fun x => ',' :: text x) ++ close :: rest).length + 1 := by
        have hitems : xs.length ≤ (xs.flatMap fun x => ',' :: text x).length := by
          clear hx hxs hread hreads hhead
          induction xs with
          | nil => exact Nat.le_refl _
          | cons y ys ih =>
              rw [List.flatMap_cons, List.length_append, List.length_cons, List.length_cons]
              omega
        rw [List.length_append]
        omega
      rw [List.map_cons, intercalate_cons, List.flatMap_map, List.append_assoc, htext, List.cons_append,
        readBrackets, if_neg hne]
      rw [htext, List.cons_append] at hread
      rw [hread]
      show (do
        let (ys, rest) ← readItems read close
          ((xs.flatMap (fun x => ',' :: text x) ++ close :: rest).length + 1)
          (xs.flatMap (fun x => ',' :: text x) ++ close :: rest)
        some (value x :: ys, rest)) = _
      rw [readItems_eq hclose hstop rest xs hxs hlength]
      rfl

end Brackets

/-! ### Values -/

section Values

variable [Runtime]

theorem jsonItems_eq_map (xs : List Value) : jsonItems xs = xs.map canonicalJson := by
  induction xs with
  | nil => rfl
  | cons x xs ih => rw [jsonItems, ih, List.map_cons]

theorem jsonEntries_eq_map (xs : Mapping) : jsonEntries xs = xs.map fun e => (e.1, canonicalJson e.2) := by
  induction xs with
  | nil => rfl
  | cons e xs ih =>
      obtain ⟨k, x⟩ := e
      rw [jsonEntries, ih, List.map_cons]

/-- The characters of the canonical text of a value. -/
def jsonChars (v : Value) : List Char := (canonicalJson v).toList

/-- The characters of an entry. -/
def entryChars (e : String × Value) : List Char :=
  '"' :: (e.1.toList.flatMap jsonChar ++ '"' :: ':' :: jsonChars e.2)

theorem jsonChars_tuple (xs : List Value) :
    jsonChars (.tuple xs) = '[' :: (List.intercalate [','] (xs.map jsonChars) ++ [']']) := by
  rw [jsonChars, canonicalJson, jsonItems_eq_map, String.toList_append, String.toList_append,
    String.toList_intercalate, List.map_map]
  rfl

theorem jsonChars_mapping (xs : Mapping) :
    jsonChars (.mapping xs)
      = '\x7b' :: (List.intercalate [','] ((sortByKey xs).map entryChars) ++ ['\x7d']) := by
  rw [jsonChars, canonicalJson, jsonEntries_eq_map, sortByKey_map, String.toList_append,
    String.toList_append, String.toList_intercalate, List.map_map, List.map_map]
  have hentry : (String.toList ∘ fun e : String × String => jsonText e.1 ++ ":" ++ e.2) ∘
      (fun e : String × Value => (e.1, canonicalJson e.2)) = entryChars := by
    funext e
    simp [entryChars, jsonChars, jsonText_toList]
  rw [hentry]
  rfl

theorem jsonChars_null : jsonChars .null = "null".toList := by rw [jsonChars, canonicalJson]

theorem jsonChars_true : jsonChars (.bool true) = "true".toList := by rw [jsonChars, canonicalJson, if_pos rfl]

theorem jsonChars_false : jsonChars (.bool false) = "false".toList := by
  rw [jsonChars, canonicalJson, if_neg Bool.false_ne_true]

theorem readEntry_reads {read : List Char → Option (Value × List Char)} {e : String × Value} {v : Value}
    (h : Reads read (jsonChars e.2) v) : Reads (readEntry read) (entryChars e) (e.1, v) := by
  intro rest hrest
  have htext : entryChars e ++ rest
      = '"' :: (e.1.toList.flatMap jsonChar ++ '"' :: (':' :: (jsonChars e.2 ++ rest))) := by
    simp [entryChars]
  rw [htext, readEntry, readText_jsonText]
  show (do
    let (v, rest) ← read (jsonChars e.2 ++ rest)
    some ((e.1, v), rest)) = _
  rw [h rest hrest]
  rfl

variable [FloatReader]

/-- What `repr` makes of a float is the text of a number with a fraction or an exponent, and `float`
makes the same float of it. -/
structure FloatLaws : Prop where
  chars : ∀ q, ∀ c ∈ (Runtime.floatRepr q).toList, isNumberChar c = true
  mark : ∀ q, isFloatText (Runtime.floatRepr q).toList = true
  read : ∀ q, FloatReader.float (Runtime.floatRepr q) = some q

variable {depth : ℕ}

theorem readNumber_int (n : ℤ) : Reads readNumber (intText n).toList (.int n) := by
  intro rest hrest
  obtain ⟨hchars, hfloat⟩ := isNumberChar_intText n
  rw [readNumber, List.takeWhile_append_of_pos hchars, List.dropWhile_append_of_pos hchars,
    takeWhile_stops hrest, dropWhile_stops hrest, List.append_nil, hfloat, String.ofList_toList,
    readInt_intText]
  rfl

theorem readNumber_float (laws : FloatLaws) (q : ℚ) :
    Reads readNumber (Runtime.floatRepr q).toList (.float q) := by
  intro rest hrest
  rw [readNumber, List.takeWhile_append_of_pos (laws.chars q), List.dropWhile_append_of_pos (laws.chars q),
    takeWhile_stops hrest, dropWhile_stops hrest, List.append_nil, laws.mark, String.ofList_toList,
    laws.read]
  rfl

theorem readValue_number {c : Char} (hc : isNumberChar c = true) (cs : List Char) :
    readValue (depth + 1) (c :: cs) = readNumber (c :: cs) := by
  have hne : ∀ d, isNumberChar d = false → c ≠ d := by
    rintro d hd rfl
    rw [hc] at hd
    cases hd
  unfold readValue
  split
  case h_8 => rfl
  all_goals
    rename_i heq
    first
      | exact absurd (List.cons.inj heq).1 (hne _ (by decide))
      | cases heq

/-- The text of a number is not empty and is read as a number. -/
theorem readValue_token {token : List Char} {v : Value} (hchars : ∀ c ∈ token, isNumberChar c = true)
    (hne : token ≠ []) (h : Reads readNumber token v) : Reads (readValue (depth + 1)) token v := by
  intro rest hrest
  obtain ⟨c, cs, rfl⟩ := List.exists_cons_of_ne_nil hne
  rw [List.cons_append, readValue_number (hchars c List.mem_cons_self)]
  exact h rest hrest

theorem FloatLaws.ne_nil (laws : FloatLaws) (q : ℚ) : (Runtime.floatRepr q).toList ≠ [] := by
  intro h
  have hmark := laws.mark q
  rw [h] at hmark
  cases hmark

/-- No value's text starts with a closing bracket. -/
theorem jsonChars_head (laws : FloatLaws) (v : Value) : ∃ c cs, jsonChars v = c :: cs ∧ c ≠ ']' := by
  have number : ∀ token : List Char, (∀ c ∈ token, isNumberChar c = true) → token ≠ [] →
      ∃ c cs, token = c :: cs ∧ c ≠ ']' := by
    intro token hchars hne
    obtain ⟨c, cs, rfl⟩ := List.exists_cons_of_ne_nil hne
    refine ⟨c, cs, rfl, ?_⟩
    rintro rfl
    exact absurd (hchars _ List.mem_cons_self) (by decide)
  cases v with
  | null => exact ⟨'n', _, jsonChars_null, by decide⟩
  | bool b => cases b with
      | true => exact ⟨'t', _, jsonChars_true, by decide⟩
      | false => exact ⟨'f', _, jsonChars_false, by decide⟩
  | int n => exact number _ (isNumberChar_intText n).1 (intText_ne_nil n)
  | float q => exact number _ (laws.chars q) (laws.ne_nil q)
  | str s => exact ⟨'"', _, jsonText_toList s, by decide⟩
  | tuple xs => exact ⟨'[', _, jsonChars_tuple xs, by decide⟩
  | mapping xs => exact ⟨'\x7b', _, jsonChars_mapping xs, by decide⟩

/-- **Reading a canonical text** gives the value frozen, and stops where its text ends. -/
theorem readValue_reads (laws : FloatLaws) : ∀ (depth : ℕ) (v : Value), (jsonChars v).length ≤ depth →
    Reads (readValue depth) (jsonChars v) (freeze v) := by
  intro depth
  induction depth with
  | zero =>
      intro v hlength
      obtain ⟨c, cs, hchars, -⟩ := jsonChars_head laws v
      rw [hchars] at hlength
      cases hlength
  | succ depth ih =>
      intro v hlength
      cases v with
      | null =>
          rw [jsonChars_null]
          exact fun _ _ => rfl
      | bool b => cases b with
          | true =>
              rw [jsonChars_true]
              exact fun _ _ => rfl
          | false =>
              rw [jsonChars_false]
              exact fun _ _ => rfl
      | int n =>
          exact readValue_token (isNumberChar_intText n).1 (intText_ne_nil n) (readNumber_int n)
      | float q => exact readValue_token (laws.chars q) (laws.ne_nil q) (readNumber_float laws q)
      | str s =>
          intro rest _
          have htext : jsonChars (.str s) ++ rest
              = '"' :: (s.toList.flatMap jsonChar ++ '"' :: rest) := by
            simp [jsonChars, canonicalJson, jsonText_toList]
          rw [htext, readValue, readText_jsonText]
          rfl
      | tuple xs =>
          intro rest _
          rw [jsonChars_tuple, List.length_cons, List.length_append] at hlength
          have hitems : ∀ x ∈ xs, Reads (readValue depth) (jsonChars x) (freeze x) := by
            intro x hx
            have hle := length_le_intercalate (List.mem_map_of_mem (f := jsonChars) hx)
            exact ih x (by omega)
          rw [jsonChars_tuple, List.cons_append, List.append_assoc, List.singleton_append, readValue,
            readBrackets_eq (by decide) (by decide) rest xs hitems fun x _ => jsonChars_head laws x,
            freeze_tuple]
          rfl
      | mapping xs =>
          intro rest _
          rw [jsonChars_mapping, List.length_cons, List.length_append] at hlength
          have hentries : ∀ e ∈ sortByKey xs,
              Reads (readEntry (readValue depth)) (entryChars e) (e.1, freeze e.2) := by
            intro e he
            have hle := length_le_intercalate (List.mem_map_of_mem (f := entryChars) he)
            refine readEntry_reads (ih e.2 ?_)
            rw [entryChars, List.length_cons, List.length_append, List.length_cons, List.length_cons] at hle
            omega
          rw [jsonChars_mapping, List.cons_append, List.append_assoc, List.singleton_append, readValue,
            readBrackets_eq (by decide) (by decide) rest (sortByKey xs) hentries fun e _ =>
              ⟨'"', _, rfl, by decide⟩, freeze_mapping, Mapping.freeze_eq]
          rfl

/-- **`json.loads` of `canonical_json`.** -/
theorem loads_canonicalJson (laws : FloatLaws) (v : Value) : loads (canonicalJson v) = some (freeze v) := by
  have hread := readValue_reads laws ((jsonChars v).length + 1) v (Nat.le_succ _) [] fun c hc => by cases hc
  rw [List.append_nil] at hread
  rw [loads]
  exact (congrArg (fun r : Option (Value × List Char) => match r with
    | some (v, []) => some v
    | _ => none) hread)

/-- Values of one canonical text are equal once they are frozen. -/
theorem freeze_eq_of_canonicalJson (laws : FloatLaws) {v w : Value} (h : canonicalJson v = canonicalJson w) :
    freeze v = freeze w := by
  refine Option.some.inj ?_
  rw [← loads_canonicalJson laws v, h, loads_canonicalJson laws w]

end Values

end CodingOS.Python
