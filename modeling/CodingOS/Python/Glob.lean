import CodingOS.Python.Text

/-!
# `fnmatch.fnmatchcase`

A pattern is cut into tokens, and a text matches them one after the other: `*` any run of characters,
`?` any character, `[…]` one character of a set, every other character itself.  A bracket that is never
closed is an ordinary character.
-/

namespace CodingOS.Python

inductive GlobToken
  | many
  | any
  | set (negated : Bool) (items : List Char)
  | literal (c : Char)
deriving DecidableEq

/-- Whether a character is in the body of a set, where `a-z` is a range. -/
def inSet (c : Char) : List Char → Bool
  | lo :: '-' :: hi :: rest => (lo ≤ c && c ≤ hi) || inSet c rest
  | item :: rest => item == c || inSet c rest
  | [] => false

/-- The set after an opening bracket and the pattern after the closing one.  A closing bracket at the
front is an item. -/
def readSet (rest : List Char) : Option (GlobToken × List Char) :=
  let (negated, body) := match rest with
    | '!' :: body => (true, body)
    | body => (false, body)
  let (front, body) := match body with
    | ']' :: body => ([']'], body)
    | body => ([], body)
  match body.span (· != ']') with
  | (_, []) => none
  | (items, _ :: after) => some (.set negated (front ++ items), after)

/-- The tokens of a pattern.  Every token takes a character, so the length is fuel enough. -/
def globTokens : ℕ → List Char → List GlobToken
  | 0, _ | _ + 1, [] => []
  | fuel + 1, '*' :: rest => .many :: globTokens fuel rest
  | fuel + 1, '?' :: rest => .any :: globTokens fuel rest
  | fuel + 1, '[' :: rest =>
      match readSet rest with
      | some (token, after) => token :: globTokens fuel after
      | none => .literal '[' :: globTokens fuel rest
  | fuel + 1, c :: rest => .literal c :: globTokens fuel rest

def globMatch : List GlobToken → List Char → Bool
  | [], text => text.isEmpty
  | .many :: tokens, text => text.tails.any fun suffix => globMatch tokens suffix
  | _ :: _, [] => false
  | .any :: tokens, _ :: text => globMatch tokens text
  | .set negated items :: tokens, c :: text => (inSet c items != negated) && globMatch tokens text
  | .literal other :: tokens, c :: text => other == c && globMatch tokens text

/-- `fnmatch.fnmatchcase(name, pattern)`. -/
def fnmatchcase (name pattern : String) : Bool :=
  globMatch (globTokens pattern.length pattern.toList) name.toList

end CodingOS.Python
