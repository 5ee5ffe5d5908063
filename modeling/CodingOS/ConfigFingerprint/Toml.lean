import CodingOS.Python.Json
import CodingOS.Systems.Result

/-!
# Typed values of a configuration

What `tomllib` makes of `config.toml`, and the typed tree `_normalize_value` of
`capability_config_fingerprint.py` makes of it.  Every node of the tree says its type, so a number and its
text differ.

A dict is the list of its entries; its keys are distinct (`Toml.Keyed`), and the tree keeps them in their
order (`Node.Ordered`).
-/

namespace CodingOS.ConfigFingerprint

open CodingOS.Python Systems Systems.Result

/-- `CapabilityConfigError`. -/
structure ConfigError where
  message : String
deriving DecidableEq

def ensure (condition : Bool) (message : String) : Except ConfigError Unit :=
  if condition then .ok () else .error ⟨message⟩

theorem ensure_eq_ok {condition : Bool} {message : String} {u : Unit} :
    ensure condition message = .ok u ↔ condition = true := by
  cases condition <;> simp [ensure]

/-! ### Parsed values -/

/-- A value of a parsed configuration.  A number that is not finite has no rational; a date or a time is its
`isoformat`. -/
inductive Toml where
  | bool (b : Bool)
  | int (n : ℤ)
  | float (q : Option ℚ)
  | str (s : String)
  | datetime (iso : String)
  | date (iso : String)
  | time (iso : String)
  | array (items : List Toml)
  | table (entries : List (String × Toml))

/-- A table, by its entries. -/
abbrev TomlTable := List (String × Toml)

mutual

/-- Every dict in the value has distinct keys. -/
def Toml.Keyed : Toml → Prop
  | .array items => KeyedItems items
  | .table entries => (entries.map Prod.fst).Nodup ∧ KeyedEntries entries
  | _ => True

def KeyedItems : List Toml → Prop
  | [] => True
  | t :: ts => t.Keyed ∧ KeyedItems ts

def KeyedEntries : List (String × Toml) → Prop
  | [] => True
  | (_, t) :: es => t.Keyed ∧ KeyedEntries es

end

theorem keyedItems_iff {ts : List Toml} : KeyedItems ts ↔ ∀ t ∈ ts, t.Keyed := by
  induction ts with
  | nil => simp [KeyedItems]
  | cons t ts ih => rw [KeyedItems, ih, List.forall_mem_cons]

theorem keyedEntries_iff {es : TomlTable} : KeyedEntries es ↔ ∀ e ∈ es, e.2.Keyed := by
  induction es with
  | nil => simp [KeyedEntries]
  | cons e es ih =>
      obtain ⟨k, t⟩ := e
      rw [KeyedEntries, ih, List.forall_mem_cons]

/-- What `tomllib.loads` returns. -/
structure Configuration where
  entries : TomlTable
  keyed : (Toml.table entries).Keyed

/-! ### Typed nodes -/

inductive Scalar where
  | bool (b : Bool)
  | int (n : ℤ)
  | float (q : ℚ)
  | str (s : String)
  | datetime (iso : String)
  | date (iso : String)
  | time (iso : String)
  /-- What stands for the session pipe, which is another one in every session. -/
  | sessionPipe
deriving DecidableEq

/-- A node of the normalized projection. -/
inductive Node where
  | scalar (s : Scalar)
  | array (items : List Node)
  | table (entries : List (String × Node))

/-- `{"type": …, "value": …}`. -/
def typed (type : String) (value : Value) : Value := .mapping [("type", .str type), ("value", value)]

def Scalar.toValue : Scalar → Value
  | .bool b => typed "boolean" (.bool b)
  | .int n => typed "integer" (.int n)
  | .float q => typed "float" (.float q)
  | .str s => typed "string" (.str s)
  | .datetime iso => typed "datetime" (.str iso)
  | .date iso => typed "date" (.str iso)
  | .time iso => typed "time" (.str iso)
  | .sessionPipe => typed "volatile-runtime-value" (.str "codex-computer-use-session-pipe")

mutual

def Node.toValue : Node → Value
  | .scalar s => s.toValue
  | .array items => typed "array" (.tuple (itemValues items))
  | .table entries => typed "table" (.mapping (entryValues entries))

def itemValues : List Node → List Value
  | [] => []
  | n :: ns => n.toValue :: itemValues ns

def entryValues : List (String × Node) → Mapping
  | [] => []
  | (k, n) :: es => (k, n.toValue) :: entryValues es

end

theorem itemValues_eq_map (ns : List Node) : itemValues ns = ns.map Node.toValue := by
  induction ns with
  | nil => rfl
  | cons n ns ih => rw [itemValues, ih, List.map_cons]

theorem entryValues_eq_map (es : List (String × Node)) :
    entryValues es = es.map fun e => (e.1, e.2.toValue) := by
  induction es with
  | nil => rfl
  | cons e es ih =>
      obtain ⟨k, n⟩ := e
      rw [entryValues, ih, List.map_cons]

mutual

/-- Every dict in the tree has its keys in their order, none of them empty or twice. -/
def Node.Ordered : Node → Prop
  | .scalar _ => True
  | .array items => OrderedItems items
  | .table entries => (entries.map Prod.fst).Pairwise (· < ·) ∧ (∀ e ∈ entries, e.1 ≠ "") ∧
      OrderedEntries entries

def OrderedItems : List Node → Prop
  | [] => True
  | n :: ns => n.Ordered ∧ OrderedItems ns

def OrderedEntries : List (String × Node) → Prop
  | [] => True
  | (_, n) :: es => n.Ordered ∧ OrderedEntries es

end

theorem orderedItems_iff {ns : List Node} : OrderedItems ns ↔ ∀ n ∈ ns, n.Ordered := by
  induction ns with
  | nil => simp [OrderedItems]
  | cons n ns ih => rw [OrderedItems, ih, List.forall_mem_cons]

theorem orderedEntries_iff {es : List (String × Node)} : OrderedEntries es ↔ ∀ e ∈ es, e.2.Ordered := by
  induction es with
  | nil => simp [OrderedEntries]
  | cons e es ih =>
      obtain ⟨k, n⟩ := e
      rw [OrderedEntries, ih, List.forall_mem_cons]

/-! ### Normalization -/

/-- `_SESSION_PIPE_PATH`. -/
def sessionPipePath : List String :=
  ["controls", "mcp_servers", "node_repl", "runtime", "env", "SKY_CUA_NATIVE_PIPE_DIRECTORY"]

/-- `[0-9A-Fa-f]`. -/
def isHexDigit (c : Char) : Bool :=
  ('0' ≤ c && c ≤ '9') || ('A' ≤ c && c ≤ 'F') || ('a' ≤ c && c ≤ 'f')

/-- `_SESSION_PIPE_PATTERN.fullmatch`. -/
def isSessionPipe (s : String) : Bool :=
  "\\\\.\\pipe\\codex-computer-use-".toList.isPrefixOf s.toList &&
    match splitChars '-' (s.toList.drop "\\\\.\\pipe\\codex-computer-use-".length) with
    | [a, b, c, d, e] =>
        [(a, 8), (b, 4), (c, 4), (d, 4), (e, 12)].all fun g => g.1.length == g.2 && g.1.all isHexDigit
    | _ => false

def sessionPipeMessage : String := "node_repl session pipe must use the canonical Codex pipe identity"

/-- A node anywhere but at the session pipe. -/
def besidesPipe (path : List String) (node : Except ConfigError Node) : Except ConfigError Node :=
  if path = sessionPipePath then .error ⟨sessionPipeMessage⟩ else node

mutual

/-- `_normalize_value`. -/
def normalizeValue (path : List String) : Toml → Except ConfigError Node
  | .str s =>
      if path = sessionPipePath then
        if isSessionPipe s then .ok (.scalar .sessionPipe) else .error ⟨sessionPipeMessage⟩
      else .ok (.scalar (.str s))
  | .table entries => besidesPipe path do return .table (sortByKey (← normalizeEntries path entries))
  | .array items => besidesPipe path do return .array (← normalizeItems path 0 items)
  | .bool b => besidesPipe path (.ok (.scalar (.bool b)))
  | .int n => besidesPipe path (.ok (.scalar (.int n)))
  | .float (some q) => besidesPipe path (.ok (.scalar (.float q)))
  | .float none => besidesPipe path (.error ⟨"non-finite TOML numbers are not supported"⟩)
  | .datetime iso => besidesPipe path (.ok (.scalar (.datetime iso)))
  | .date iso => besidesPipe path (.ok (.scalar (.date iso)))
  | .time iso => besidesPipe path (.ok (.scalar (.time iso)))

def normalizeItems (path : List String) : ℕ → List Toml → Except ConfigError (List Node)
  | _, [] => .ok []
  | index, t :: ts => do
      let n ← normalizeValue (path ++ [toString index]) t
      let ns ← normalizeItems path (index + 1) ts
      return n :: ns

def normalizeEntries (path : List String) : List (String × Toml) → Except ConfigError (List (String × Node))
  | [] => .ok []
  | (key, t) :: es => do
      ensure (key != "") "TOML mapping keys must be non-empty strings"
      let n ← normalizeValue (path ++ [key]) t
      let ns ← normalizeEntries path es
      return (key, n) :: ns

end

end CodingOS.ConfigFingerprint
