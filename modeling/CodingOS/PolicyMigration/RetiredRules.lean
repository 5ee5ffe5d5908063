import CodingOS.PolicyMigration.Migration

/-!
# Retired command rules

Before `default.rules` is migrated, the one-line rules that allow the retired case-state command are taken out
of it, line by line.
-/

namespace CodingOS.PolicyMigration

open CodingOS.Python CodingOS.Installer
open Systems.Occurrence

/-- A line break between a byte and what follows it; that of a `\r\n` is behind the `\n`. -/
def endsLine (c : UInt8) (s : Bytes) : Bool := isNewline c && !(c == carriage && s.head? == some newline)

/-- A byte in front of the first line. -/
def attach (c : UInt8) : List Bytes → List Bytes
  | [] => [[c]]
  | line :: lines => (c :: line) :: lines

/-- `value.splitlines(keepends=True)`, of bytes. -/
def splitLines : Bytes → List Bytes
  | [] => []
  | c :: s => if endsLine c s then [c] :: splitLines s else attach c (splitLines s)

section Rules

variable [Runtime] [Host] [PolicyHost]

/-- `re.sub(r"/+", "/", text)`. -/
def collapseSlashes : List Char → List Char
  | [] => []
  | c :: s => if c = '/' ∧ s.head? = some '/' then collapseSlashes s else c :: collapseSlashes s

/-- `_command_path_key`. -/
def commandPathKey (value : String) : String :=
  let normalized := (Host.nfc value).toList.map fun c => if c = '\\' then '/' else c
  let trimmed := ((collapseSlashes normalized).reverse.dropWhile (· == '/')).reverse
  casefold (String.ofList trimmed)

def rulePrefix : Bytes := Utf8.encode "prefix_rule(pattern="

def ruleSuffix : Bytes := Utf8.encode ", decision=\"allow\")"

/-- The first group of `^prefix_rule\(pattern=(\[[^\r\n]*\]), decision="allow"\)$`, where a line matches. -/
def rulePattern (line : Bytes) : Option Bytes :=
  if rulePrefix.isPrefixOf line ∧ endsWith line ruleSuffix ∧ rulePrefix.length + ruleSuffix.length ≤ line.length then
    let group := slice line rulePrefix.length (line.length - ruleSuffix.length)
    if group.head? = some 91 ∧ group.getLast? = some 93 ∧ 2 ≤ group.length ∧ group.all (fun c => !isNewline c) then
      some group
    else none
  else none

/-- The alias of the retired command. -/
def retiredAlias : Value :=
  .tuple [.str "corepack", .str "pnpm", .str "run", .str "agent:case-state", .str "--", .str "--help"]

/-- Whether a command is the retired one. -/
def retiredCommand (targetKey : String) (command : Value) : Bool :=
  match command with
  | .tuple items =>
      (match items with
        | .str program :: .str script :: _ => program == "python" && commandPathKey script == targetKey
        | _ => false) || command.eq retiredAlias
  | _ => false

/-- Whether a line is dropped, without its line end. -/
def removesLine (targetKey : String) (line : Bytes) : Except Failure Bool :=
  match rulePattern line with
  | none => .ok false
  | some group =>
      match PolicyHost.loads group with
      | .error message => .error (.other message)
      | .ok none => .ok false
      | .ok (some command) => .ok (retiredCommand targetKey command)

/-- The lines that are not dropped. -/
def retainedLines (targetKey : String) : List Bytes → Except Failure (List Bytes)
  | [] => .ok []
  | rawLine :: rest => do
      let remove ← removesLine targetKey (rstripNewlines rawLine)
      let retained ← retainedLines targetKey rest
      return if remove then retained else rawLine :: retained

/-- `_remove_retired_case_state_command_rules`. -/
def removeRetiredCaseStateCommandRules (existing : Bytes) (codexHome : String) : Except Failure Bytes := do
  strictUtf8 existing "default.rules"
  let targetKey := commandPathKey (PolicyHost.caseStatePath codexHome)
  return (← retainedLines targetKey (splitLines existing)).flatten

/-- What `migrate_rules_bytes` migrates. -/
def migratedInput (existing : Bytes) : Option String → Except Failure Bytes
  | some codexHome => removeRetiredCaseStateCommandRules existing codexHome
  | none => .ok existing

/-- `migrate_rules_bytes`. -/
def migrateRulesBytes (existing policySource : Bytes) (codexHome : Option String) : Except Failure Bytes := do
  let input ← migratedInput existing codexHome
  replaceLineOrMarker input policySource rulesLayout

end Rules

end CodingOS.PolicyMigration
