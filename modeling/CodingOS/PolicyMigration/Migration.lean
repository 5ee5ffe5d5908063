import CodingOS.Installer.Content
import CodingOS.Python.Utf8
import CodingOS.Python.Value
import CodingOS.Systems.Brackets
import CodingOS.Systems.Result

/-!
# Migration of the universal policy files

How the installer puts a managed block into the global `AGENTS.md` and `default.rules`, and how it takes one
out: over a block that is there, over a retired block, over the legacy line, over the sections of a known
layout, or at the end.  Files are byte strings; the texts the program looks for are ASCII.
-/

namespace CodingOS.PolicyMigration

open CodingOS.Python CodingOS.Installer
open Systems.Occurrence

abbrev Bytes := List UInt8

/-- What the migration raises: a `PolicyMigrationError`, or what `json.loads` raises beside a
`JSONDecodeError`. -/
inductive Failure
  | migration (message : String)
  | other (message : String)
deriving DecidableEq

/-- What the migration asks of the process. -/
class PolicyHost where
  /-- The text of a `UnicodeDecodeError`. -/
  decodeError : Bytes → String
  /-- `str(Path(codex_home).expanduser().resolve(strict=False) / ... / "case_state.py")`. -/
  caseStatePath : String → String
  /-- `json.loads`, of the text of the bytes; `none` is a `JSONDecodeError`. -/
  loads : Bytes → Except String (Option Value)

/-! ### The texts -/

def agentsStart : Bytes := Utf8.encode "<!-- BEGIN CODEX CODING OS MANAGED: CAMPAIGN ENGINE POLICY -->"

def agentsEnd : Bytes := Utf8.encode "<!-- END CODEX CODING OS MANAGED: CAMPAIGN ENGINE POLICY -->"

def retiredAgentsStart : Bytes :=
  Utf8.encode "<!-- BEGIN CODEX CODING OS MANAGED: AUTOMATION-PRESERVING CASE POLICY -->"

def retiredAgentsEnd : Bytes :=
  Utf8.encode "<!-- END CODEX CODING OS MANAGED: AUTOMATION-PRESERVING CASE POLICY -->"

def agentsLegacyLine : Bytes := Utf8.encode <|
  "  - Manual Session And Case Isolation Policy: parent-orchestrator mode and automatic session, review, " ++
  "and review-fix trains are disabled. A human may deliberately start one bounded implementation or review " ++
  "session, but no session may automatically spawn, authorize, or chain another session."

def agentsLegacyBlockStart : Bytes := Utf8.encode
  "- Instruction: Task primacy and anti-loop rule. The user's requested outcome is the controlling task."

def agentsLegacyBlockSentinel : Bytes := Utf8.encode
  "- Instruction: The user's style bans apply to normal assistant-generated prose only."

def agentsLegacyBlockNormalizedSize : ℕ := 6093

def agentsLegacyBlockNormalizedSha256 : String :=
  "da753c1149c555778d7b4cba6bdb870640bbb484281cb6b0f9f46a1b02a66cd6"

def agentsLegacyAuthorityLine : Bytes := Utf8.encode <|
  "- Global `AGENTS.md` owns instruction precedence, permission boundaries, task primacy, mandatory exclusions, " ++
  "and the managed case-policy block."

def agentsCampaignAuthorityLine : Bytes := Utf8.encode <|
  "- Global `AGENTS.md` owns instruction precedence, permission boundaries, task primacy, mandatory exclusions, " ++
  "and the managed campaign-policy bootstrap."

def agentsLegacyRoutingStart : Bytes := Utf8.encode "## Codex Coding OS routing"

def agentsLegacyRoutingSentinel : Bytes := Utf8.encode "## Universal generic workspace"

def agentsLegacyRoutingNormalizedSize : ℕ := 1040

def agentsLegacyRoutingNormalizedSha256 : String :=
  "7a583b1d396451457e6d8d3ac8159cba2fae5994bee7350a1b2d849ee8db238b"

def agentsCampaignRoutingPointer : Bytes := Utf8.encode <|
  "## Codex Coding OS routing\n" ++
  "- The installed campaign-engine managed block controls managed campaign lifecycle routing. For manual work " ++
  "outside a managed campaign, use explicit user instructions and current repository and Git evidence.\n\n"

def rulesStart : Bytes := Utf8.encode "# BEGIN CODEX CODING OS MANAGED: CAMPAIGN EXTERNAL EFFECTS"

def rulesEnd : Bytes := Utf8.encode "# END CODEX CODING OS MANAGED: CAMPAIGN EXTERNAL EFFECTS"

def retiredRulesStart : Bytes := Utf8.encode "# BEGIN CODEX CODING OS MANAGED: GH PR MERGE AUTHORITY"

def retiredRulesEnd : Bytes := Utf8.encode "# END CODEX CODING OS MANAGED: GH PR MERGE AUTHORITY"

def rulesLegacyLine : Bytes := Utf8.encode
  "prefix_rule(pattern=[\"gh\", \"pr\", \"merge\"], decision=\"allow\")"

/-! ### Byte strings -/

def newline : UInt8 := 10

def carriage : UInt8 := 13

def isNewline (c : UInt8) : Bool := c == newline || c == carriage

/-- `existing[i:j]`. -/
def slice (existing : Bytes) (i j : ℕ) : Bytes := (existing.take j).drop i

/-- `value.rstrip(b"\r\n")`. -/
def rstripNewlines (value : Bytes) : Bytes := (value.reverse.dropWhile isNewline).reverse

/-- `value.replace(b"\r\n", b"\n")`. -/
def unixLines : Bytes → Bytes
  | [] => []
  | c :: s => if c = carriage ∧ s.head? = some newline then unixLines s else c :: unixLines s

/-- `value.endswith(suffix)`. -/
def endsWith (value suffix : Bytes) : Bool := suffix.isSuffixOf value

/-- `part in value`. -/
def occurs (part value : Bytes) : Bool := count part value != 0

/-! ### One managed block -/

variable [PolicyHost]

def policyError {α : Type} (message : String) : Except Failure α := .error (.migration message)

/-- `_strict_utf8`. -/
def strictUtf8 (value : Bytes) (label : String) : Except Failure Unit :=
  if Utf8.strict value then .ok ()
  else policyError (label ++ " must be strict UTF-8: " ++ PolicyHost.decodeError value)

/-- `_trim_policy_source`. -/
def trimPolicySource (value : Bytes) (label : String) (markers : Brackets UInt8) : Except Failure Bytes := do
  strictUtf8 value label
  let trimmed := rstripNewlines value
  if ¬ (markers.opening.isPrefixOf trimmed ∧ endsWith trimmed markers.closing) then
    policyError (label ++ " source does not contain the exact managed marker block")
  else if count markers.opening trimmed ≠ 1 ∨ count markers.closing trimmed ≠ 1 then
    policyError (label ++ " source must contain exactly one marker pair")
  else return trimmed

/-- The keyword arguments of `_replace_line_or_marker`. -/
structure Layout where
  legacyLine : Bytes
  markers : Brackets UInt8
  label : String
  retiredMarkers : List (Brackets UInt8)
  firstMigration : Option (Bytes → Bytes → Except Failure Bytes)
  appendWhenLegacyMissing : Bool

/-- Whether the file has the active markers. -/
def activeMatch (existing : Bytes) (label : String) (markers : Brackets UInt8) : Except Failure Bool :=
  if count markers.opening existing = 0 ∧ count markers.closing existing = 0 then .ok false
  else if count markers.opening existing ≠ 1 ∨ count markers.closing existing ≠ 1 then
    policyError (label ++ " has a missing, duplicate, or partial managed marker block")
  else if find markers.closing existing < find markers.opening existing then
    policyError (label ++ " managed marker order is invalid")
  else .ok true

/-- The retired markers that the file has. -/
def retiredMatches (existing : Bytes) (label : String) : List (Brackets UInt8) → Except Failure (List (Brackets UInt8))
  | [] => .ok []
  | retired :: rest =>
      if count retired.opening existing = 0 ∧ count retired.closing existing = 0 then retiredMatches existing label rest
      else if count retired.opening existing ≠ 1 ∨ count retired.closing existing ≠ 1 then
        policyError (label ++ " has a missing, duplicate, or partial retired managed marker block")
      else do return retired :: (← retiredMatches existing label rest)

/-- `existing[:begin] + replacement + existing[finish:]`, of the first markers. -/
def replaceBlock (existing replacement : Bytes) (markers : Brackets UInt8) : Bytes :=
  existing.take (find markers.opening existing) ++
    (replacement ++ existing.drop (find markers.closing existing + markers.closing.length))

/-- Whether a line can begin at a position. -/
def lineBegins (existing : Bytes) (begin : ℕ) : Bool :=
  begin == 0 || [[newline], [carriage]].contains (slice existing (begin - 1) begin)

/-- Whether a line can end at a position. -/
def lineEnds (existing : Bytes) (finish : ℕ) : Bool :=
  finish == existing.length || [[newline], [carriage]].contains (slice existing finish (finish + 1))

/-- The legacy line, or what is done where there is none. -/
def replaceLegacyLine (existing replacement : Bytes) (layout : Layout) : Except Failure Bytes :=
  let legacy := layout.legacyLine
  if count legacy existing = 0 then
    match layout.firstMigration with
    | some firstMigration => firstMigration existing replacement
    | none =>
        if layout.appendWhenLegacyMissing then
          let separator := if existing.isEmpty || endsWith existing [newline] || endsWith existing [carriage] then []
            else [newline]
          .ok (existing ++ (separator ++ replacement))
        else policyError (layout.label ++ " first migration requires exactly one byte-exact legacy line")
  else if count legacy existing ≠ 1 then
    policyError (layout.label ++ " first migration requires exactly one byte-exact legacy line")
  else
    let begin := find legacy existing
    let afterIndex := begin + legacy.length
    if lineBegins existing begin && lineEnds existing afterIndex then
      .ok (existing.take begin ++ (replacement ++ existing.drop afterIndex))
    else policyError (layout.label ++ " legacy text is not an exact complete line")

/-- `_replace_line_or_marker`. -/
def replaceLineOrMarker (existing replacement : Bytes) (layout : Layout) : Except Failure Bytes := do
  strictUtf8 existing layout.label
  let replacement ← trimPolicySource replacement layout.label layout.markers
  let active ← activeMatch existing layout.label layout.markers
  let retired ← retiredMatches existing layout.label layout.retiredMarkers
  match active, retired with
  | _, _ :: _ :: _ => policyError (layout.label ++ " contains multiple retired managed marker blocks")
  | true, [_] => policyError (layout.label ++ " contains active and retired managed marker blocks")
  | true, [] => return replaceBlock existing replacement layout.markers
  | false, [markers] =>
      if find markers.closing existing < find markers.opening existing then
        policyError (layout.label ++ " retired managed marker order is invalid")
      else return replaceBlock existing replacement markers
  | false, [] => replaceLegacyLine existing replacement layout

/-- `_remove_exact_marker`. -/
def removeExactMarker (existing : Bytes) (markers : Brackets UInt8) (label : String) : Except Failure Bytes := do
  strictUtf8 existing label
  if count markers.opening existing ≠ 1 ∨ count markers.closing existing ≠ 1 then
    policyError (label ++ " uninstall requires exactly one complete managed marker pair")
  else if find markers.closing existing < find markers.opening existing then
    policyError (label ++ " managed marker order is invalid")
  else return replaceBlock existing [] markers

/-! ### The known layouts of `AGENTS.md` -/

/-- `_exact_line_span`. -/
def exactLineSpan (existing line : Bytes) (label : String) : Except Failure (ℕ × ℕ) :=
  if count line existing ≠ 1 then
    policyError (label ++ " requires exactly one byte-exact known legacy authority line")
  else
    let begin := find line existing
    let finish := begin + line.length
    let beforeOk := begin == 0 || slice existing (begin - 1) begin == [newline]
    let afterOk := finish == existing.length || slice existing finish (finish + 1) == [newline] ||
      slice existing finish (finish + 2) == [carriage, newline]
    if beforeOk && afterOk then .ok (begin, finish)
    else policyError (label ++ " known legacy authority text is not an exact complete line")

/-- Whether the file is the markerless layout at all. -/
def markerlessCampaign (existing : Bytes) : Bool :=
  !([agentsLegacyBlockStart, agentsLegacyAuthorityLine, retiredAgentsStart, retiredAgentsEnd].any fun value =>
      occurs value existing) &&
    count agentsCampaignAuthorityLine existing == 1 &&
    count agentsLegacyRoutingStart existing == 1 && count agentsLegacyRoutingSentinel existing == 1

/-- `b"\r\n" if b"\r\n" in routing else b"\n"`. -/
def newlineOf (routing : Bytes) : Bytes := if occurs [carriage, newline] routing then [carriage, newline] else [newline]

/-- `_migrate_markerless_campaign_agents_layout`. -/
def migrateMarkerlessCampaignAgentsLayout (existing replacement : Bytes) : Except Failure (Option Bytes) :=
  if markerlessCampaign existing = false then .ok none
  else do
    let authoritySpan ← exactLineSpan existing agentsCampaignAuthorityLine "AGENTS.md"
    let begin := find agentsLegacyRoutingStart existing
    let finish := find agentsLegacyRoutingSentinel existing
    if finish ≤ begin then policyError "AGENTS.md markerless campaign routing order is invalid"
    else if 0 < begin ∧ slice existing (begin - 1) begin ≠ [newline] then
      policyError "AGENTS.md markerless campaign routing is not a complete section"
    else
      let routing := slice existing begin finish
      if unixLines routing ≠ agentsCampaignRoutingPointer then
        policyError "AGENTS.md markerless campaign routing does not match the approved layout"
      else if begin ≤ authoritySpan.1 ∧ authoritySpan.1 < finish then
        policyError "AGENTS.md campaign authority line overlaps the routing section"
      else return some (existing.take begin ++ (replacement ++ (newlineOf routing ++ existing.drop begin)))

section Known

variable [FileDigest]

/-- `_verified_legacy_slice`. -/
def verifiedLegacySlice (existing start sentinel : Bytes) (normalizedSize : ℕ) (normalizedSha256 label : String) :
    Except Failure (ℕ × ℕ) :=
  if count start existing ≠ 1 ∨ count sentinel existing ≠ 1 then
    policyError (label ++ " has a missing, duplicate, or partial known legacy section")
  else
    let begin := find start existing
    let finish := find sentinel existing
    if finish ≤ begin then policyError (label ++ " known legacy section order is invalid")
    else
      let beforeOk := begin == 0 || slice existing (begin - 1) begin == [newline]
      let legacySlice := slice existing begin finish
      if ¬ (beforeOk ∧ endsWith legacySlice [newline]) then
        policyError (label ++ " known legacy section boundaries are not complete lines")
      else
        let normalized := unixLines legacySlice
        if normalized.length ≠ normalizedSize ∨ FileDigest.sha256 normalized ≠ normalizedSha256 then
          policyError (label ++ " known legacy section digest does not match the approved layout")
        else .ok (begin, finish)

/-- A span of the file and what is put in its place. -/
abbrev Span := ℕ × ℕ × Bytes

/-- The order of two tuples. -/
def Span.before (left right : Span) : Prop :=
  left.1 < right.1 ∨ left.1 = right.1 ∧ (left.2.1 < right.2.1 ∨ left.2.1 = right.2.1 ∧ left.2.2 ≤ right.2.2)

instance : DecidableRel Span.before := fun left right =>
  inferInstanceAs (Decidable (left.1 < right.1 ∨ left.1 = right.1 ∧
    (left.2.1 < right.2.1 ∨ left.2.1 = right.2.1 ∧ left.2.2 ≤ right.2.2)))

/-- `any(left[1] > right[0] for left, right in zip(replacements, replacements[1:]))`. -/
def overlap : List Span → Bool
  | left :: right :: rest => decide (right.1 < left.2.1) || overlap (right :: rest)
  | _ => false

/-- The loop that writes the output, from a cursor on. -/
def splice (existing : Bytes) : ℕ → List Span → Bytes
  | cursor, [] => existing.drop cursor
  | cursor, (begin, finish, newBytes) :: rest =>
      slice existing cursor begin ++ (newBytes ++ splice existing finish rest)

/-- `_migrate_known_agents_layout`. -/
def migrateKnownAgentsLayout (existing replacement : Bytes) : Except Failure Bytes := do
  match ← migrateMarkerlessCampaignAgentsLayout existing replacement with
  | some markerless => return markerless
  | none =>
      let lifecycleSpan ← verifiedLegacySlice existing agentsLegacyBlockStart agentsLegacyBlockSentinel
        agentsLegacyBlockNormalizedSize agentsLegacyBlockNormalizedSha256 "AGENTS.md lifecycle block"
      let routingSpan ← verifiedLegacySlice existing agentsLegacyRoutingStart agentsLegacyRoutingSentinel
        agentsLegacyRoutingNormalizedSize agentsLegacyRoutingNormalizedSha256 "AGENTS.md routing block"
      let authoritySpan ← exactLineSpan existing agentsLegacyAuthorityLine "AGENTS.md"
      let lifecycleSlice := slice existing lifecycleSpan.1 lifecycleSpan.2
      let lifecycleNewline := if endsWith lifecycleSlice [carriage, newline] then [carriage, newline] else [newline]
      let replacements : List Span := List.insertionSort Span.before
        [(lifecycleSpan.1, lifecycleSpan.2, replacement ++ lifecycleNewline),
         (authoritySpan.1, authoritySpan.2, agentsCampaignAuthorityLine),
         (routingSpan.1, routingSpan.2, agentsCampaignRoutingPointer)]
      if overlap replacements then policyError "AGENTS.md known legacy migration spans overlap"
      else return splice existing 0 replacements

end Known

/-! ### The markers -/

omit [PolicyHost] in
theorem marker_words :
    (Marker 60 agentsStart ∧ Marker 60 agentsEnd ∧ Apart agentsStart agentsEnd) ∧
    (Marker 60 retiredAgentsStart ∧ Marker 60 retiredAgentsEnd ∧ Apart retiredAgentsStart retiredAgentsEnd) ∧
    (Marker 35 rulesStart ∧ Marker 35 rulesEnd ∧ Apart rulesStart rulesEnd) ∧
    (Marker 35 retiredRulesStart ∧ Marker 35 retiredRulesEnd ∧ Apart retiredRulesStart retiredRulesEnd) := by
  decide +kernel

def agentsMarkers : Brackets UInt8 where
  head := 60
  opening := agentsStart
  closing := agentsEnd
  marker_opening := marker_words.1.1
  marker_closing := marker_words.1.2.1
  apart := marker_words.1.2.2

def retiredAgentsMarkers : Brackets UInt8 where
  head := 60
  opening := retiredAgentsStart
  closing := retiredAgentsEnd
  marker_opening := marker_words.2.1.1
  marker_closing := marker_words.2.1.2.1
  apart := marker_words.2.1.2.2

def rulesMarkers : Brackets UInt8 where
  head := 35
  opening := rulesStart
  closing := rulesEnd
  marker_opening := marker_words.2.2.1.1
  marker_closing := marker_words.2.2.1.2.1
  apart := marker_words.2.2.1.2.2

def retiredRulesMarkers : Brackets UInt8 where
  head := 35
  opening := retiredRulesStart
  closing := retiredRulesEnd
  marker_opening := marker_words.2.2.2.1
  marker_closing := marker_words.2.2.2.2.1
  apart := marker_words.2.2.2.2.2

def agentsLayout [FileDigest] : Layout where
  legacyLine := agentsLegacyLine
  markers := agentsMarkers
  label := "AGENTS.md"
  retiredMarkers := [retiredAgentsMarkers]
  firstMigration := some migrateKnownAgentsLayout
  appendWhenLegacyMissing := false

def rulesLayout : Layout where
  legacyLine := rulesLegacyLine
  markers := rulesMarkers
  label := "default.rules"
  retiredMarkers := [retiredRulesMarkers]
  firstMigration := none
  appendWhenLegacyMissing := true

/-- `migrate_agents_bytes`. -/
def migrateAgentsBytes [FileDigest] (existing policySource : Bytes) : Except Failure Bytes :=
  replaceLineOrMarker existing policySource agentsLayout

/-- `remove_agents_policy_bytes`. -/
def removeAgentsPolicyBytes (existing : Bytes) : Except Failure Bytes :=
  removeExactMarker existing agentsMarkers "AGENTS.md"

/-- `remove_rules_policy_bytes`. -/
def removeRulesPolicyBytes (existing : Bytes) : Except Failure Bytes :=
  removeExactMarker existing rulesMarkers "default.rules"

end CodingOS.PolicyMigration
