import CodingOS.Campaign.Vocabulary

/-!
# Scopes

The overlap test of `admission.py` between the allowed paths of two campaigns: each pattern is cut
at its first wildcard, and two patterns overlap when one cut is at the front of the other.
-/

namespace CodingOS.Admission

open CodingOS.Python CodingOS.Campaign

/-- `PurePosixPath(raw).parts` of a relative path: empty parts and dots are dropped. -/
def posixParts (raw : List Char) : List (List Char) :=
  (splitChars '/' raw).filter fun part => part ≠ [] && part ≠ ['.']

/-- Whether a path names a Windows drive. -/
def hasDrive : List Char → Bool
  | c :: ':' :: _ => ('A' ≤ c && c ≤ 'Z') || ('a' ≤ c && c ≤ 'z')
  | _ => false

variable [Runtime]

/-- `normalize_allowed_path`, as the parts of the path it returns. -/
def normalizeAllowedPath (value : String) : Result (List String) := do
  let slashed := value.toList.map fun c => if c = '\\' then '/' else c
  let raw := rstripChars (lstripChars slashed)
  check .admission (raw ≠ [] && raw.head? ≠ some '/' && !hasDrive raw)
    ("allowed path must be repository-relative: " ++ reprText value)
  let parts := posixParts raw
  check .admission (!parts.contains ['.', '.'])
    ("allowed path is not canonical: " ++ reprText value)
  let first ← orRaise parts.head? .python "tuple index out of range"
  check .admission (casefold (String.ofList first) != ".git")
    ".git is never an allowed product path"
  return parts.map String.ofList

/-- The part of a text before its first wildcard. -/
def beforeWildcard (part : String) : List Char :=
  part.toList.takeWhile fun c => !"*?[".toList.contains c

/-- The loop of `_scope_prefix`. -/
def scopeParts : List String → List String
  | [] => []
  | part :: parts =>
      let literal := beforeWildcard part
      if literal.length = part.length then casefold part :: scopeParts parts
      else if literal = [] then []
      else [casefold (String.ofList literal)]

/-- `_scope_prefix`. -/
def scopePrefix (value : String) : Result (List String) := do
  let parts ← normalizeAllowedPath value
  return scopeParts parts

/-- Whether one of two stems is at the front of the other. -/
def stemsMeet (a b : List String) : Bool := a.isPrefixOf b || b.isPrefixOf a

/-- The inner loop of `scopes_overlap`, which stops at the first overlap. -/
def overlapsAny (a : List String) : List String → Result Bool
  | [] => .ok false
  | second :: rest => do
      let b ← scopePrefix second
      if stemsMeet a b then return true else overlapsAny a rest

/-- `scopes_overlap`. -/
def scopesOverlap : List String → List String → Result Bool
  | [], _ => .ok false
  | first :: left, right => do
      let a ← scopePrefix first
      if ← overlapsAny a right then return true else scopesOverlap left right

end CodingOS.Admission
