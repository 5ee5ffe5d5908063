import CodingOS.Python.Text

/-!
# Python values of JSON shape

`Value` is what a decoded JSON document becomes after `_freeze`: scalars, tuples and read-only
mappings with text keys.  The operations are those the engine applies to untrusted payloads:
`bool()`, `str()`, `==`, `tuple()`, `dict()`, `int()`, and the mapping methods.

A finite float is kept as the rational it denotes; its text comes from `Runtime.floatRepr`.
-/

namespace CodingOS.Python

/-- A frozen value of JSON shape. -/
inductive Value where
  | null
  | bool (b : Bool)
  | int (n : ℤ)
  | float (q : ℚ)
  | str (s : String)
  | tuple (items : List Value)
  | mapping (entries : List (String × Value))

/-- A `Mapping[str, Any]`, in insertion order. -/
abbrev Mapping := List (String × Value)

instance : Inhabited Value := ⟨.null⟩

/-! ### Structural equality -/

mutual

def Value.beq : Value → Value → Bool
  | .null, .null => true
  | .bool a, .bool b => a == b
  | .int a, .int b => a == b
  | .float a, .float b => a == b
  | .str a, .str b => a == b
  | .tuple xs, .tuple ys => beqItems xs ys
  | .mapping xs, .mapping ys => beqEntries xs ys
  | _, _ => false

def beqItems : List Value → List Value → Bool
  | [], [] => true
  | x :: xs, y :: ys => x.beq y && beqItems xs ys
  | _, _ => false

def beqEntries : List (String × Value) → List (String × Value) → Bool
  | [], [] => true
  | (k, x) :: xs, (l, y) :: ys => k == l && x.beq y && beqEntries xs ys
  | _, _ => false

end

mutual

theorem Value.beq_iff : ∀ v w : Value, v.beq w = true ↔ v = w
  | .null, w => by cases w <;> simp [Value.beq]
  | .bool a, w => by cases w <;> simp [Value.beq]
  | .int a, w => by cases w <;> simp [Value.beq]
  | .float a, w => by cases w <;> simp [Value.beq]
  | .str a, w => by cases w <;> simp [Value.beq]
  | .tuple xs, w => by cases w <;> simp [Value.beq, beqItems_iff xs]
  | .mapping xs, w => by cases w <;> simp [Value.beq, beqEntries_iff xs]

theorem beqItems_iff : ∀ xs ys : List Value, beqItems xs ys = true ↔ xs = ys
  | [], ys => by cases ys <;> simp [beqItems]
  | x :: xs, ys => by cases ys <;> simp [beqItems, Value.beq_iff x, beqItems_iff xs]

theorem beqEntries_iff : ∀ xs ys : List (String × Value), beqEntries xs ys = true ↔ xs = ys
  | [], ys => by cases ys <;> simp [beqEntries]
  | (k, x) :: xs, ys => by
      cases ys with
      | nil => simp [beqEntries]
      | cons y ys => simp [beqEntries, Value.beq_iff x, beqEntries_iff xs, Prod.ext_iff, and_assoc]

end

instance : DecidableEq Value := fun v w =>
  if h : v.beq w = true then isTrue ((Value.beq_iff v w).mp h)
  else isFalse fun e => h ((Value.beq_iff v w).mpr e)

/-! ### Mappings -/

namespace Mapping

/-- `mapping.get(key)`: the last value stored under the key. -/
def get? (m : Mapping) (key : String) : Option Value := List.lookup key m

/-- `mapping.get(key, default)`. -/
def getD (m : Mapping) (key : String) (default : Value) : Value := (m.get? key).getD default

/-- `mapping[key] = value`. -/
def set (m : Mapping) (key : String) (value : Value) : Mapping :=
  match m with
  | [] => [(key, value)]
  | (k, v) :: rest => if k = key then (k, value) :: rest else (k, v) :: set rest key value

/-- `mapping.setdefault(key, value)`. -/
def setDefault (m : Mapping) (key : String) (value : Value) : Mapping :=
  match m.get? key with
  | some _ => m
  | none => m.set key value

/-- `mapping.update(other)`. -/
def update (m other : Mapping) : Mapping := other.foldl (fun acc e => acc.set e.1 e.2) m

/-- The mapping without a key: what `pop` leaves. -/
def erase (m : Mapping) (key : String) : Mapping := m.filter fun e => e.1 != key

/-- `mapping.get(key)`, where a missing key reads as `None`. -/
def read (m : Mapping) (key : String) : Value := m.getD key .null

@[simp] theorem get?_nil (key : String) : get? [] key = none := rfl

theorem get?_cons (k key : String) (v : Value) (m : Mapping) :
    get? ((k, v) :: m) key = if key = k then some v else get? m key := by
  rw [get?, List.lookup_cons]
  by_cases h : key = k
  · simp [h]
  · rw [beq_false_of_ne h, if_neg h, get?]

@[simp] theorem get?_set_self (m : Mapping) (key : String) (value : Value) :
    (m.set key value).get? key = some value := by
  induction m with
  | nil => simp [set, get?_cons]
  | cons e m ih =>
      obtain ⟨k, v⟩ := e
      rw [set]
      split
      · next h => rw [get?_cons, if_pos h.symm]
      · next h => rw [get?_cons, if_neg (Ne.symm h), ih]

theorem get?_set_of_ne (m : Mapping) {key other : String} (value : Value) (h : other ≠ key) :
    (m.set key value).get? other = m.get? other := by
  induction m with
  | nil => simp [set, get?_cons, h]
  | cons e m ih =>
      obtain ⟨k, v⟩ := e
      rw [set]
      split
      · next hk => subst hk; rw [get?_cons, get?_cons, if_neg h, if_neg h]
      · next hk => rw [get?_cons, get?_cons, ih]

/-- After `setdefault` the key holds its old value, or the default when it had none. -/
theorem get?_setDefault_self (m : Mapping) (key : String) (value : Value) :
    (m.setDefault key value).get? key = some ((m.get? key).getD value) := by
  unfold setDefault
  cases h : m.get? key with
  | none => simp
  | some v => simp [h]

end Mapping

namespace Value

/-! ### Truth, numbers and equality -/

/-- `bool(value)`. -/
def truthy : Value → Bool
  | .null => false
  | .bool b => b
  | .int n => n != 0
  | .float q => q != 0
  | .str s => s != ""
  | .tuple xs => !xs.isEmpty
  | .mapping xs => !xs.isEmpty

/-- The number a bool, int or float compares as. -/
def number? : Value → Option ℚ
  | .bool b => some (if b then 1 else 0)
  | .int n => some n
  | .float q => some q
  | _ => none

/-- The entries of a value that passes `isinstance(value, Mapping)`. -/
def asMapping? : Value → Option Mapping
  | .mapping entries => some entries
  | _ => none

/-- The text of a value that passes `isinstance(value, str)`. -/
def asText? : Value → Option String
  | .str s => some s
  | _ => none

mutual

/-- Python's `==`: numbers compare by value across `bool`, `int` and `float`, mappings by their
keys whatever the order. -/
def eq : Value → Value → Bool
  | .null, w => match w with
      | .null => true
      | _ => false
  | .bool b, w => w.number? == some (if b then 1 else 0)
  | .int n, w => w.number? == some (n : ℚ)
  | .float q, w => w.number? == some q
  | .str a, w => match w with
      | .str b => a == b
      | _ => false
  | .tuple xs, w => match w with
      | .tuple ys => eqItems xs ys
      | _ => false
  | .mapping xs, w => match w with
      | .mapping ys => xs.length == ys.length && eqEntries xs ys
      | _ => false

def eqItems : List Value → List Value → Bool
  | [], [] => true
  | x :: xs, y :: ys => x.eq y && eqItems xs ys
  | _, _ => false

def eqEntries : List (String × Value) → List (String × Value) → Bool
  | [], _ => true
  | (k, x) :: xs, ys =>
      (match List.lookup k ys with
        | some y => x.eq y
        | none => false) && eqEntries xs ys

end

@[simp] theorem eq_str (v : Value) (s : String) : v.eq (.str s) = true ↔ v = .str s := by
  cases v <;> simp [eq, number?]

@[simp] theorem eq_null (v : Value) : v.eq .null = true ↔ v = .null := by
  cases v <;> simp [eq, number?]

@[simp] theorem str_eq (s : String) (v : Value) : (Value.str s).eq v = true ↔ .str s = v := by
  cases v <;> simp [eq]

/-- A tuple of texts is equal only to that tuple of texts. -/
theorem eqItems_strs (texts : List String) (items : List Value) :
    eqItems (texts.map .str) items = true ↔ texts.map .str = items := by
  induction texts generalizing items with
  | nil => cases items <;> simp [eqItems]
  | cons t texts ih =>
      cases items with
      | nil => simp [eqItems]
      | cons v items => simp [eqItems, ih]

/-- `item in items`. -/
def memberOf (v : Value) (items : List Value) : Bool := items.any fun w => v.eq w

/-- No two items are equal: the test `len(set(items)) == len(items)`. -/
def distinct : List Value → Bool
  | [] => true
  | v :: vs => !v.memberOf vs && distinct vs

/-- Texts at the front of a list without equal items are pairwise distinct. -/
theorem nodup_of_distinct {texts : List String} {items : List Value} (h : distinct items = true)
    (hfront : texts.map .str <+: items) : texts.Nodup := by
  induction texts generalizing items with
  | nil => exact List.nodup_nil
  | cons t texts ih =>
      obtain ⟨rest, rfl⟩ := hfront
      simp only [List.map_cons, List.cons_append, distinct, Bool.and_eq_true,
        Bool.not_eq_true'] at h
      refine List.nodup_cons.mpr ⟨fun hmem => ?_, ih h.2 (List.prefix_append _ _)⟩
      have hmember : (Value.str t).memberOf (texts.map .str ++ rest) = true :=
        List.any_eq_true.mpr ⟨.str t, List.mem_append_left _ (List.mem_map_of_mem hmem), by simp⟩
      rw [h.1] at hmember
      exact Bool.noConfusion hmember

mutual

/-- Whether the value can be put in a set: a mapping anywhere in it makes `hash` raise. -/
def hashable : Value → Bool
  | .mapping _ => false
  | .tuple xs => hashableItems xs
  | _ => true

def hashableItems : List Value → Bool
  | [] => true
  | x :: xs => x.hashable && hashableItems xs

end

/-! ### Text -/

section Text

variable [Runtime]

mutual

/-- `repr(value)`. -/
def repr : Value → String
  | .null => "None"
  | .bool b => if b then "True" else "False"
  | .int n => intText n
  | .float q => Runtime.floatRepr q
  | .str s => reprText s
  | .tuple [] => "()"
  | .tuple [x] => "(" ++ x.repr ++ ",)"
  | .tuple (x :: y :: xs) => "(" ++ x.repr ++ ", " ++ y.repr ++ reprItems xs ++ ")"
  | .mapping [] => "mappingproxy(\x7b\x7d)"
  | .mapping ((k, x) :: xs) =>
      "mappingproxy(\x7b" ++ reprText k ++ ": " ++ x.repr ++ reprEntries xs ++ "\x7d)"

/-- The items of a tuple after the second, each with its separator. -/
def reprItems : List Value → String
  | [] => ""
  | x :: xs => ", " ++ x.repr ++ reprItems xs

/-- The entries of a mapping after the first, each with its separator. -/
def reprEntries : List (String × Value) → String
  | [] => ""
  | (k, x) :: xs => ", " ++ reprText k ++ ": " ++ x.repr ++ reprEntries xs

end

/-- `str(value)`: a text is itself and a read-only mapping prints as the dict behind it. -/
def text : Value → String
  | .str s => s
  | .mapping [] => "\x7b\x7d"
  | .mapping ((k, x) :: xs) => "\x7b" ++ reprText k ++ ": " ++ x.repr ++ reprEntries xs ++ "\x7d"
  | v => v.repr

@[simp] theorem text_str (s : String) : (Value.str s).text = s := rfl

/-- `str(value).strip()`. -/
def stripped (v : Value) : String := strip v.text

/-- `int(value)`; `none` is the `TypeError` or `ValueError` it raises. -/
def toInt : Value → Option ℤ
  | .bool b => some (if b then 1 else 0)
  | .int n => some n
  | .float q => some (q.num.tdiv q.den)
  | .str s => readInt s
  | _ => none

end Text

/-! ### Iteration -/

/-- The items a value yields when iterated: `tuple(value)`.  `none` is the `TypeError` of a value
that is not iterable. -/
def items? : Value → Option (List Value)
  | .tuple xs => some xs
  | .mapping xs => some (xs.map fun e => .str e.1)
  | .str s => some (s.toList.map fun c => .str (String.singleton c))
  | _ => none

/-- One element of a sequence passed to `dict()`: an iterable of two items, the first a text. -/
def pair? (v : Value) : Option (String × Value) :=
  match v.items? with
  | some [.str k, x] => some (k, x)
  | _ => none

/-- `dict(value)`.  A key that is not a text is refused here: the engine always adds text keys and
then freezes the result, and sorting texts with anything else raises. -/
def dict? : Value → Option Mapping
  | .mapping xs => some xs
  | v => do
      let pairs ← (← v.items?).mapM pair?
      some (Mapping.update [] pairs)

end Value

end CodingOS.Python
