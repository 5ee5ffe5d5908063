import CodingOS.Python.Value

/-!
# JSON schemas

The part of draft 2020-12 the schemas of the repository use, as `Draft202012Validator` applies it to a
decoded document: a keyword constrains the instances of its type and accepts every other one.
-/

namespace CodingOS.Python

/-! ### Patterns -/

/-- `[a-z0-9_]`: a character class, by its ranges. -/
abbrev CharClass := List (Char × Char)

def CharClass.has (k : CharClass) (c : Char) : Bool := k.any fun r => r.1 ≤ c && c ≤ r.2

/-- `^[head][body]{least,most}$`, or `^(?:…)?$`. -/
structure Pattern where
  head : Option CharClass := none
  body : CharClass
  least : ℕ
  most : ℕ
  orEmpty : Bool := false

/-- `re.fullmatch` of what stands between `^` and `$`. -/
def Pattern.full (p : Pattern) (cs : List Char) : Bool :=
  p.orEmpty && cs.isEmpty ||
    match p.head, cs with
    | none, cs => cs.all p.body.has && p.least ≤ cs.length && cs.length ≤ p.most
    | some head, c :: cs => head.has c && cs.all p.body.has && p.least ≤ cs.length && cs.length ≤ p.most
    | some _, [] => false

/-- `re.search`: `$` also stands before a newline at the end. -/
def Pattern.search (p : Pattern) (s : String) : Bool :=
  p.full s.toList || s.toList.getLast? == some '\n' && p.full s.toList.dropLast

/-! ### Schemas -/

inductive JsonType
  | null | boolean | integer | string | array | object
deriving DecidableEq

/-- `is_type`: a float without a fraction is an integer, a boolean is none. -/
def JsonType.has : JsonType → Value → Bool
  | .null, .null => true
  | .boolean, .bool _ => true
  | .integer, .int _ => true
  | .integer, .float q => q.den == 1
  | .string, .str _ => true
  | .array, .tuple _ => true
  | .object, .mapping _ => true
  | _, _ => false

/-- `equal`: Python's `==`, except that a boolean is no number. -/
def jsonEqual : Value → Value → Bool
  | .bool a, .bool b => a == b
  | .bool _, _ | _, .bool _ => false
  | v, w => v.eq w

/-- No two items are equal. -/
def jsonDistinct : List Value → Bool
  | [] => true
  | v :: vs => !vs.any (jsonEqual v) && jsonDistinct vs

/-- A schema, by its keywords; an object with several keywords is `all` of them. -/
inductive Schema where
  | type (types : List JsonType)
  | const (v : Value)
  | enum (vs : List Value)
  | minLength (n : ℕ)
  | minimum (n : ℤ)
  | maximum (n : ℤ)
  | pattern (p : Pattern)
  | required (names : List String)
  | properties (schemas : List (String × Schema))
  | closed (names : List String)
  | items (schema : Schema)
  | minItems (n : ℕ)
  | maxItems (n : ℕ)
  | uniqueItems
  | contains (schema : Schema)
  | all (schemas : List Schema)
  | any (schemas : List Schema)
  | one (schemas : List Schema)
  | negation (schema : Schema)
  | implies (condition consequence : Schema)

namespace Schema

mutual

/-- `is_valid`. -/
def accepts : Schema → Value → Bool
  | .type types, v => types.any fun t => t.has v
  | .const w, v => jsonEqual v w
  | .enum ws, v => ws.any (jsonEqual v)
  | .minLength n, v => match v with
      | .str s => n ≤ s.length
      | _ => true
  | .minimum n, v => match v with
      | .int k => n ≤ k
      | .float q => (n : ℚ) ≤ q
      | _ => true
  | .maximum n, v => match v with
      | .int k => k ≤ n
      | .float q => q ≤ (n : ℚ)
      | _ => true
  | .pattern p, v => match v with
      | .str s => p.search s
      | _ => true
  | .required names, v => match v with
      | .mapping m => names.all fun name => (Mapping.get? m name).isSome
      | _ => true
  | .properties schemas, v => match v with
      | .mapping m => acceptsProperties schemas m
      | _ => true
  | .closed names, v => match v with
      | .mapping m => m.all fun e => names.contains e.1
      | _ => true
  | .items schema, v => match v with
      | .tuple vs => vs.all fun item => accepts schema item
      | _ => true
  | .minItems n, v => match v with
      | .tuple vs => n ≤ vs.length
      | _ => true
  | .maxItems n, v => match v with
      | .tuple vs => vs.length ≤ n
      | _ => true
  | .uniqueItems, v => match v with
      | .tuple vs => jsonDistinct vs
      | _ => true
  | .contains schema, v => match v with
      | .tuple vs => vs.any fun item => accepts schema item
      | _ => true
  | .all schemas, v => acceptsAll schemas v
  | .any schemas, v => 0 < acceptsCount schemas v
  | .one schemas, v => acceptsCount schemas v == 1
  | .negation schema, v => !accepts schema v
  | .implies condition consequence, v => !accepts condition v || accepts consequence v

def acceptsProperties : List (String × Schema) → Mapping → Bool
  | [], _ => true
  | (name, schema) :: rest, m =>
      (match m.get? name with
        | some v => accepts schema v
        | none => true) && acceptsProperties rest m

def acceptsAll : List Schema → Value → Bool
  | [], _ => true
  | schema :: rest, v => accepts schema v && acceptsAll rest v

/-- How many of the schemas accept. -/
def acceptsCount : List Schema → Value → ℕ
  | [], _ => 0
  | schema :: rest, v => (accepts schema v).toNat + acceptsCount rest v

end

variable {schema : Schema} {schemas : List Schema} {v : Value}

theorem acceptsAll_iff : acceptsAll schemas v = true ↔ ∀ s ∈ schemas, s.accepts v = true := by
  induction schemas with
  | nil => simp [acceptsAll]
  | cons s rest ih => simp [acceptsAll, ih]

theorem accepts_all_iff : (Schema.all schemas).accepts v = true ↔ ∀ s ∈ schemas, s.accepts v = true := by
  rw [accepts, acceptsAll_iff]

theorem accepts_any_iff : (Schema.any schemas).accepts v = true ↔ ∃ s ∈ schemas, s.accepts v = true := by
  have hcount : ∀ l : List Schema, 0 < acceptsCount l v ↔ ∃ s ∈ l, s.accepts v = true := by
    intro l
    induction l with
    | nil => simp [acceptsCount]
    | cons s rest ih =>
        cases hs : s.accepts v with
        | true => simp [acceptsCount, hs]
        | false => simp [acceptsCount, hs, ih]
  rw [accepts, decide_eq_true_iff, hcount]

theorem accepts_implies_iff {condition consequence : Schema} :
    (Schema.implies condition consequence).accepts v = true ↔
      (condition.accepts v = true → consequence.accepts v = true) := by
  rw [accepts]
  cases condition.accepts v <;> simp

/-- An object is accepted property by property. -/
theorem accepts_properties_iff {m : Mapping} {properties : List (String × Schema)} :
    (Schema.properties properties).accepts (.mapping m) = true ↔
      ∀ p ∈ properties, ∀ v, m.get? p.1 = some v → p.2.accepts v = true := by
  rw [accepts]
  show acceptsProperties properties m = true ↔ _
  induction properties with
  | nil => simp [acceptsProperties]
  | cons p rest ih =>
      obtain ⟨name, schema⟩ := p
      rw [acceptsProperties, Bool.and_eq_true, ih, List.forall_mem_cons]
      refine and_congr ?_ Iff.rfl
      cases hget : m.get? name with
      | none => simp
      | some v => simp

theorem accepts_required_iff {m : Mapping} {names : List String} :
    (Schema.required names).accepts (.mapping m) = true ↔ ∀ name ∈ names, (m.get? name).isSome := by
  rw [accepts]
  exact List.all_eq_true

end Schema

end CodingOS.Python
