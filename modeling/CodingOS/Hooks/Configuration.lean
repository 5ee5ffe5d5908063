import CodingOS.Python.CommandLine
import CodingOS.Python.JsonRead
import CodingOS.Python.Utf8
import CodingOS.Systems.Result

/-!
# The hooks of the installer

How the installer puts its own hook group into `hooks.json`, and how it takes it out.  A document is the
object of the file with the events read out of its `hooks` field; a group is its object with the commands
read out of its own.  Both carry what was read, so no later step can meet a document of another shape.
-/

namespace CodingOS.Hooks

open CodingOS.Python

abbrev Bytes := List UInt8

/-- What is raised: a `PolicyMigrationError`, an `OwnershipError`, or what another function raises. -/
inductive Failure
  | migration (message : String)
  | ownership (message : String)
  | other (message : String)
deriving DecidableEq

/-- What the hooks ask of the process. -/
class HooksHost where
  /-- `json.loads(raw.decode("utf-8-sig"))`; `none` is a `UnicodeDecodeError` or a `JSONDecodeError`. -/
  loads : Bytes → Except String (Option Value)
  /-- `sys.executable`. -/
  executable : String
  /-- `os.sep`. -/
  separator : Char
  /-- `str((codex_home / "hooks.json").resolve(strict=False))`. -/
  configurationPath : String → String
  /-- `str(Path(text).expanduser().resolve(strict=False))`. -/
  recordedPath : String → String

def campaignHookEvent : String := "PreToolUse"

def campaignHookMatcher : String := "^(campaign_apply_patch|campaign_commit)$"

def campaignHookStatus : String := "Verifying exact campaign actor lease"

def campaignHookSuffix : String := "/hooks/campaign-engine/campaign_hook.py"

def legacyLifecycleHookSuffix : String := "/coding-os/hooks/anti-loop-runtime/anti_loop_runtime.py"

def hooksConfigurationProtocol : String := "ccos-hooks-configuration-v1"

def manifestVersion : ℤ := 3

/-- `HASH_RE.fullmatch`. -/
def isHash (text : String) : Bool := text.length == 64 && isLowerHex text

/-! ### The document -/

/-- A hook group: its object, and the commands its `hooks` field holds. -/
structure HookGroup where
  fields : Mapping
  commands : List Mapping
  holds : fields.get? "hooks" = some (.tuple (commands.map .mapping))

def HookGroup.value (g : HookGroup) : Value := .mapping g.fields

/-- `group["hooks"] = commands`. -/
def HookGroup.withCommands (g : HookGroup) (commands : List Mapping) : HookGroup where
  fields := g.fields.set "hooks" (.tuple (commands.map .mapping))
  commands := commands
  holds := Mapping.get?_set_self _ _ _

/-- The groups of the events, each under the name of its event. -/
abbrev Events := List (String × List HookGroup)

def eventsValue (events : Events) : Mapping :=
  events.map fun e => (e.1, .tuple (e.2.map HookGroup.value))

/-- The object of the file, and the events its `hooks` field holds. -/
structure HooksDocument where
  fields : Mapping
  events : Events
  holds : fields.get? "hooks" = some (.mapping (eventsValue events))

def HooksDocument.value (d : HooksDocument) : Value := .mapping d.fields

def HooksDocument.withEvents (d : HooksDocument) (events : Events) : HooksDocument where
  fields := d.fields.set "hooks" (.mapping (eventsValue events))
  events := events
  holds := Mapping.get?_set_self _ _ _

/-- `{"hooks": {}}`. -/
def emptyDocument : HooksDocument where
  fields := [("hooks", .mapping [])]
  events := []
  holds := rfl

/-- The commands of an array, when every one is an object. -/
def commands? : List Value → Option (List Mapping)
  | [] => some []
  | .mapping m :: vs => (commands? vs).map (m :: ·)
  | _ :: _ => none

theorem commands?_eq_some {items : List Value} {commands : List Mapping} :
    commands? items = some commands ↔ items = commands.map .mapping := by
  induction items generalizing commands with
  | nil => cases commands <;> simp [commands?]
  | cons v vs ih =>
      cases v with
      | mapping m =>
          cases commands with
          | nil => simp [commands?]
          | cons c commands => simp [commands?, ih, and_comm]
      | null | bool _ | int _ | float _ | str _ | tuple _ => cases commands <;> simp [commands?]

def readGroup : Value → Except Failure HookGroup
  | .mapping fields =>
      match hfields : Mapping.get? fields "hooks" with
      | some (.tuple items) =>
          match hitems : commands? items with
          | some commands => .ok ⟨fields, commands, by rw [hfields, commands?_eq_some.mp hitems]⟩
          | none => .error (.migration "hooks.json hook commands must be objects")
      | _ => .error (.migration "hooks.json hook groups must contain hook arrays")
  | _ => .error (.migration "hooks.json hook groups must contain hook arrays")

def readEvent (event : String) : Value → Except Failure (String × List HookGroup)
  | .tuple groups => do
      let groups ← groups.mapM readGroup
      return (event, groups)
  | _ => .error (.migration "hooks.json event inventories must be arrays")

def readEvents (entries : Mapping) : Except Failure Events := entries.mapM fun e => readEvent e.1 e.2

theorem HookGroup.value_injective {g k : HookGroup} (h : g.value = k.value) : g = k := by
  obtain ⟨fields, commands, hg⟩ := g
  obtain ⟨fields', commands', hk⟩ := k
  have hfields : fields = fields' := Value.mapping.inj h
  subst hfields
  rw [hg, Option.some.injEq, Value.tuple.injEq] at hk
  have hcommands : commands = commands' := List.map_injective_iff.mpr (fun _ _ => Value.mapping.inj) hk
  subst hcommands
  rfl

theorem readGroup_eq_ok {v : Value} {g : HookGroup} : readGroup v = .ok g ↔ v = g.value := by
  constructor
  · intro h
    unfold readGroup at h
    split at h
    · split at h
      · split at h
        · rw [← Except.ok.inj h]
          rfl
        · cases h
      · cases h
    · cases h
  · rintro rfl
    have hread : commands? (g.commands.map .mapping) = some g.commands := commands?_eq_some.mpr rfl
    unfold readGroup HookGroup.value
    simp only
    split
    · next items hitems =>
        rw [g.holds, Option.some.injEq, Value.tuple.injEq] at hitems
        subst hitems
        split
        · next commands hcommands =>
            rw [hread, Option.some.injEq] at hcommands
            subst hcommands
            rfl
        · next hnone => simp [hread] at hnone
    · next hnone => exact absurd g.holds (hnone _)

theorem readGroups_eq_ok {values : List Value} {groups : List HookGroup} :
    values.mapM readGroup = .ok groups ↔ values = groups.map HookGroup.value := by
  induction values generalizing groups with
  | nil =>
      rw [List.mapM_nil, Systems.Result.pure_eq_ok, eq_comm (a := []), List.map_eq_nil_iff]
  | cons v values ih =>
      rw [List.mapM_cons, Systems.Result.bind_eq_ok]
      constructor
      · rintro ⟨g, hg, h⟩
        obtain ⟨rest, hrest, h⟩ := Systems.Result.bind_eq_ok.mp h
        rw [Systems.Result.pure_eq_ok.mp h, List.map_cons, readGroup_eq_ok.mp hg, ih.mp hrest]
      · intro h
        obtain ⟨g, rest, rfl, hv, hvalues⟩ := List.map_eq_cons_iff.mp h.symm
        exact ⟨g, readGroup_eq_ok.mpr hv.symm,
          Systems.Result.bind_eq_ok.mpr ⟨rest, ih.mpr hvalues.symm, rfl⟩⟩

theorem readEvent_eq_ok {event : String} {v : Value} {e : String × List HookGroup} :
    readEvent event v = .ok e ↔ (event, v) = (e.1, .tuple (e.2.map HookGroup.value)) := by
  obtain ⟨name, groups⟩ := e
  unfold readEvent
  split
  · next values =>
      simp only [Systems.Result.bind_eq_ok, Systems.Result.pure_eq_ok, readGroups_eq_ok, Prod.mk.injEq,
        Value.tuple.injEq]
      constructor
      · rintro ⟨_, hvalues, rfl, rfl⟩
        exact ⟨rfl, hvalues⟩
      · rintro ⟨rfl, hvalues⟩
        exact ⟨groups, hvalues, rfl, rfl⟩
  · next hnone =>
      constructor
      · intro h
        cases h
      · intro h
        exact absurd (Prod.mk.inj h).2 (hnone _)

/-- What `_load_hooks_document` accepts in the `hooks` field, and what it reads there. -/
theorem readEvents_eq_ok {entries : Mapping} {events : Events} :
    readEvents entries = .ok events ↔ entries = eventsValue events := by
  unfold readEvents eventsValue
  induction entries generalizing events with
  | nil =>
      rw [List.mapM_nil, Systems.Result.pure_eq_ok, eq_comm (a := []), List.map_eq_nil_iff]
  | cons e entries ih =>
      rw [List.mapM_cons, Systems.Result.bind_eq_ok]
      constructor
      · rintro ⟨x, hx, h⟩
        obtain ⟨rest, hrest, h⟩ := Systems.Result.bind_eq_ok.mp h
        rw [Systems.Result.pure_eq_ok.mp h, List.map_cons, ← readEvent_eq_ok.mp hx, ih.mp hrest]
      · intro h
        obtain ⟨x, rest, rfl, hx, hrest⟩ := List.map_eq_cons_iff.mp h.symm
        exact ⟨x, readEvent_eq_ok.mpr hx.symm,
          Systems.Result.bind_eq_ok.mpr ⟨rest, ih.mpr hrest.symm, rfl⟩⟩

theorem eventsValue_injective {events events' : Events} (h : eventsValue events = eventsValue events') :
    events = events' :=
  Except.ok.inj ((readEvents_eq_ok.mpr rfl).symm.trans (readEvents_eq_ok.mpr h))

theorem HooksDocument.value_injective {d k : HooksDocument} (h : d.value = k.value) : d = k := by
  obtain ⟨fields, events, hd⟩ := d
  obtain ⟨fields', events', hk⟩ := k
  have hfields : fields = fields' := Value.mapping.inj h
  subst hfields
  rw [hd, Option.some.injEq, Value.mapping.injEq] at hk
  have hevents : events = events' := eventsValue_injective hk
  subst hevents
  rfl

/-- `parsed["hooks"] = {}`, where there is none. -/
def withHooks (parsed : Mapping) : Mapping :=
  if parsed.read "hooks" = .null then parsed.set "hooks" (.mapping []) else parsed

def readDocument (parsed : Mapping) : Except Failure HooksDocument :=
  match hfield : Mapping.get? parsed "hooks" with
  | some (.mapping entries) =>
      match hevents : readEvents entries with
      | .ok events => .ok ⟨parsed, events, by rw [hfield, readEvents_eq_ok.mp hevents]⟩
      | .error e => .error e
  | _ => .error (.migration "hooks.json hooks field must be one object")

theorem readDocument_eq_ok {parsed : Mapping} {d : HooksDocument} :
    readDocument parsed = .ok d ↔ .mapping parsed = d.value := by
  constructor
  · intro h
    unfold readDocument at h
    split at h
    · split at h
      · rw [← Except.ok.inj h]
        rfl
      · cases h
    · cases h
  · intro h
    have hparsed : parsed = d.fields := Value.mapping.inj h
    subst hparsed
    have hread : readEvents (eventsValue d.events) = .ok d.events := readEvents_eq_ok.mpr rfl
    unfold readDocument
    split
    · next entries hfield =>
        rw [d.holds, Option.some.injEq, Value.mapping.injEq] at hfield
        subst hfield
        split
        · next events hevents =>
            rw [hread, Except.ok.injEq] at hevents
            subst hevents
            rfl
        · next hnone => simp [hread] at hnone
    · next hnone => exact absurd d.holds (hnone _)

/-- `_load_hooks_document(raw)`. -/
def loadHooksDocument [HooksHost] (raw : Option Bytes) : Except Failure HooksDocument :=
  match raw with
  | none => .ok emptyDocument
  | some bytes =>
      match HooksHost.loads bytes with
      | .error message => .error (.other message)
      | .ok none => .error (.migration "hooks.json must be valid UTF-8 JSON")
      | .ok (some (.mapping parsed)) => readDocument (withHooks parsed)
      | .ok (some _) => .error (.migration "hooks.json root must be one object")

/-! ### The commands -/

section Commands

variable [Runtime]

/-- `text.replace("\\", "/").casefold()`. -/
def normalizedCommand (text : String) : String :=
  casefold (String.ofList (text.toList.map fun c => if c = '\\' then '/' else c))

/-- `_hook_command_points_to(command, suffix)`. -/
def hookCommandPointsTo (command : Mapping) (suffix : String) : Bool :=
  ["command", "commandWindows"].any fun key =>
    match command.get? key with
    | some (.str text) => contains (normalizedCommand text) (normalizedCommand suffix)
    | _ => false

/-- `_legacy_lifecycle_hook(command)`. -/
def legacyLifecycleHook (command : Mapping) : Bool := hookCommandPointsTo command legacyLifecycleHookSuffix

/-- `_campaign_hook_command(command)`. -/
def campaignHookCommand (command : Mapping) : Bool := hookCommandPointsTo command campaignHookSuffix

/-- `_canonical_json_digest(value)`. -/
def canonicalJsonDigest [FileDigest] (v : Value) : String := FileDigest.sha256 (Utf8.encode (canonicalJson v))

end Commands

/-! ### Stripping commands -/

section Strip

variable (predicate : Mapping → Bool)

/-- What is left of a group, if any command is. -/
def stripGroup (g : HookGroup) : Option HookGroup :=
  match g.commands.filter fun c => !predicate c with
  | [] => none
  | c :: cs => some (g.withCommands (c :: cs))

/-- What is left of an event: it goes when a command was removed from it and no group is left. -/
def stripEvent (e : String × List HookGroup) : Option (String × List HookGroup) :=
  let eventRemoved := e.2.any fun g => g.commands.any predicate
  match e.2.filterMap (stripGroup predicate) with
  | [] => if eventRemoved then none else some (e.1, [])
  | g :: gs => some (e.1, g :: gs)

/-- The document `_strip_hook_commands(document, predicate)` leaves. -/
def stripHookCommands (d : HooksDocument) : HooksDocument :=
  d.withEvents (d.events.filterMap (stripEvent predicate))

/-- What `_strip_hook_commands(document, predicate)` returns. -/
def strippedCommands [Runtime] [FileDigest] (d : HooksDocument) : List Mapping :=
  d.events.flatMap fun e => e.2.flatMap fun g => (g.commands.filter predicate).map fun c =>
    [("event", .str e.1), ("matcher", g.fields.read "matcher"), ("digest", .str (canonicalJsonDigest (.mapping c)))]

end Strip

/-! ### The group of the campaign engine -/

section Campaign

variable [Runtime] [HooksHost]

/-- `str(parent / name)`. -/
def joinPath (parent name : String) : String :=
  if parent.toList.getLast? = some HooksHost.separator then parent ++ name
  else parent ++ String.ofList [HooksHost.separator] ++ name

/-- `codex_home / "hooks" / "campaign-engine" / "campaign_hook.py"`. -/
def campaignHookPath (codexHome : String) : String :=
  joinPath (joinPath (joinPath codexHome "hooks") "campaign-engine") "campaign_hook.py"

def campaignCommand (codexHome : String) : Mapping :=
  let hook := campaignHookPath codexHome
  [ ("type", .str "command"),
    ("command", .str (shellQuote (HooksHost.executable) ++ " -B " ++ shellQuote hook)),
    ("commandWindows", .str (list2cmdline [HooksHost.executable, "-B", hook])),
    ("timeout", .int 30),
    ("statusMessage", .str campaignHookStatus) ]

/-- `_campaign_hook_group(codex_home)`. -/
def campaignHookGroup (codexHome : String) : HookGroup where
  fields := [("matcher", .str campaignHookMatcher), ("hooks", .tuple [.mapping (campaignCommand codexHome)])]
  commands := [campaignCommand codexHome]
  holds := rfl

/-- `_campaign_hook_group_locations(document)`. -/
def campaignHookGroupLocations (d : HooksDocument) : List (String × ℕ) :=
  d.events.flatMap fun e =>
    (e.2.zipIdx.filter fun g => g.1.commands.any campaignHookCommand).map fun g => (e.1, g.2)

end Campaign

/-! ### The record of the last installation -/

/-- The one entry of `record["owned_entries"]`. -/
def ownedEntry (record : Mapping) : Mapping :=
  match record.read "owned_entries" with
  | .tuple [.mapping owned] => owned
  | _ => []

section Record

variable [Runtime] [HooksHost]

/-- Whether `owned_entries` holds one entry, of the event and matcher of the installer. -/
def validEntry (record : Mapping) : Bool :=
  match record.read "owned_entries" with
  | .tuple [.mapping owned] =>
      Mapping.read owned "event" == .str campaignHookEvent
        && Mapping.read owned "matcher" == .str campaignHookMatcher
        && isHash (Mapping.getD owned "digest" (.str "")).text
  | _ => false

/-- `str(value or "")`. -/
def orBlank (v : Value) : String := if v.truthy then v.text else ""

def validPreinstall (record : Mapping) : Bool :=
  let state := record.read "preinstall_state"
  let sha256 := record.read "preinstall_sha256"
  (state == .str "absent" && sha256 == .null) || (state == .str "present" && isHash (orBlank sha256))

def validRecord (codexHome : String) (record : Mapping) : Bool :=
  record.read "managed" == .bool true
    && record.read "ownership_protocol" == .str hooksConfigurationProtocol
    && HooksHost.recordedPath (record.getD "path" (.str "")).text == HooksHost.configurationPath codexHome
    && validEntry record && validPreinstall record
    && isHash (record.getD "installed_sha256" (.str "")).text
    && isHash (record.getD "preserved_unrelated_digest" (.str "")).text

/-- `_previous_hooks_configuration(previous, codex_home)`. -/
def previousHooksConfiguration (previous : Option Mapping) (codexHome : String) :
    Except Failure (Option Mapping) :=
  match previous with
  | none => .ok none
  | some manifest =>
      if (manifest.read "manifest_version").eq (.int manifestVersion) then
        match manifest.read "targets" with
        | .mapping targets =>
            match Mapping.read targets "hooks_configuration" with
            | .null => .ok none
            | .mapping record =>
                -- `in {"present", "absent"}` hashes what it looks for
                if !(Mapping.read record "preinstall_state").hashable then .error (.other "unhashable type")
                else if validRecord codexHome record then .ok (some record)
                else .error (.ownership "previous hooks.json ownership identity is invalid")
            | _ => .error (.ownership "previous hooks.json ownership record is invalid")
        | _ => .error (.ownership "previous install target inventory is invalid")
      else .ok none

end Record

/-! ### Removing the group -/

section Owned

variable [Runtime] [FileDigest]

/-- `del groups[index]`, and the event with its last group. -/
def eraseGroup (event : String) (index : ℕ) (e : String × List HookGroup) : Option (String × List HookGroup) :=
  if e.1 = event then
    match e.2.eraseIdx index with
    | [] => none
    | g :: gs => some (e.1, g :: gs)
  else some e

def removeGroup (event : String) (index : ℕ) (events : Events) : Events :=
  events.filterMap (eraseGroup event index)

def matchingGroups (digest : String) (groups : List HookGroup) : List ℕ :=
  (groups.zipIdx.filter fun g => canonicalJsonDigest g.1.value == digest).map Prod.snd

/-- `_remove_owned_campaign_hook(document, record)`. -/
def removeOwnedCampaignHook (d : HooksDocument) (record : Mapping) : Except Failure HooksDocument :=
  let ownership := ownedEntry record
  let event := (ownership.read "event").text
  let groups := (d.events.lookup event).getD []
  match matchingGroups (ownership.read "digest").text groups with
  | [index] => .ok (d.withEvents (removeGroup event index d.events))
  | _ => .error (.ownership "managed campaign hook entry changed or duplicated since installation")

/-! ### The evidence of what was retired -/

def evidenceKey (item : Mapping) : String × String := ((item.read "event").text, (item.read "digest").text)

/-- `unique[key] = item`, in the order the keys came. -/
def keepLast (unique : List ((String × String) × Mapping)) (item : Mapping) :
    List ((String × String) × Mapping) :=
  match unique with
  | [] => [(evidenceKey item, item)]
  | (key, old) :: rest =>
      if key = evidenceKey item then (key, item) :: rest else (key, old) :: keepLast rest item

def validEvidence (v : Value) : Bool :=
  match v with
  | .mapping item =>
      match Mapping.read item "event" with
      | .str _ => isHash (Mapping.getD item "digest" (.str "")).text
      | _ => false
  | _ => false

def priorEvidence (previous : Option Mapping) : Except Failure (List Mapping) :=
  match previous with
  | none => .ok []
  | some record =>
      match record.getD "retired_legacy_entries" (.tuple []) with
      | .tuple items =>
          if items.all validEvidence then .ok (items.filterMap Value.asMapping?)
          else .error (.ownership "previous legacy hook retirement evidence is invalid")
      | _ => .error (.ownership "previous legacy hook retirement evidence is invalid")

/-- `_merge_retired_hook_evidence(previous, removed)`. -/
def mergeRetiredHookEvidence (previous : Option Mapping) (removed : List Mapping) : Except Failure (List Mapping) := do
  let prior ← priorEvidence previous
  let unique := (prior ++ removed).foldl keepLast []
  return (unique.insertionSort fun a b => a.1.1 < b.1.1 ∨ (a.1.1 = b.1.1 ∧ a.1.2 ≤ b.1.2)).map Prod.snd

end Owned

/-! ### `_json_bytes` -/

section Bytes

variable [Runtime]

def indentText (level : ℕ) : String := "\n" ++ String.ofList (List.replicate (2 * level) ' ')

/-- The items of an array or an object, each on a line of its own. -/
def jsonBlock (opening closing : String) (level : ℕ) (items : List String) : String :=
  match items with
  | [] => opening ++ closing
  | item :: items =>
      opening ++ indentText (level + 1)
        ++ String.intercalate ("," ++ indentText (level + 1)) (item :: items)
        ++ indentText level ++ closing

mutual

/-- `json.dumps(value, ensure_ascii=False, indent=2, sort_keys=True)`, `level` brackets deep. -/
def jsonIndented (level : ℕ) : Value → String
  | .null => "null"
  | .bool b => if b then "true" else "false"
  | .int n => intText n
  | .float q => Runtime.floatRepr q
  | .str s => jsonText s
  | .tuple xs => jsonBlock "[" "]" level (indentedItems (level + 1) xs)
  | .mapping xs =>
      jsonBlock "\x7b" "\x7d" level
        ((sortByKey (indentedEntries (level + 1) xs)).map fun e => jsonText e.1 ++ ": " ++ e.2)

def indentedItems (level : ℕ) : List Value → List String
  | [] => []
  | x :: xs => jsonIndented level x :: indentedItems level xs

def indentedEntries (level : ℕ) : List (String × Value) → List (String × String)
  | [] => []
  | (k, x) :: xs => (k, jsonIndented level x) :: indentedEntries level xs

end

/-- `_json_bytes(value)`. -/
def jsonBytes (v : Value) : Bytes := Utf8.encode (jsonIndented 0 v ++ "\n")

end Bytes

/-! ### Preparing -/

/-- What is found at `hooks.json`. -/
inductive LiveFile
  | absent
  | regular (raw : Bytes)
  /-- `_assert_no_link_components` raises. -/
  | linked (message : String)
  /-- A link, a reparse point or a directory. -/
  | irregular
deriving DecidableEq

section Prepare

variable [Runtime] [FileDigest] [HooksHost]

/-- The bytes the installation starts from. -/
def installSource : LiveFile → Except Failure (Option Bytes)
  | .absent => .ok none
  | .regular raw => .ok (some raw)
  | .linked message => .error (.other message)
  | .irregular => .error (.ownership "hooks.json cannot be a link, reparse point, or directory")

/-- `document["hooks"].setdefault(CAMPAIGN_HOOK_EVENT, []).append(group)`. -/
def appendGroup (group : HookGroup) : Events → Events
  | [] => [(campaignHookEvent, [group])]
  | (event, groups) :: rest =>
      if event = campaignHookEvent then (event, groups ++ [group]) :: rest
      else (event, groups) :: appendGroup group rest

/-- The document the installation strips: what is there, less the group it owns itself. -/
def unownedDocument (previousRecord : Option Mapping) (raw : Option Bytes) (d : HooksDocument) :
    Except Failure HooksDocument :=
  match previousRecord with
  | some record =>
      if raw = none then .error (.ownership "previously managed hooks.json is missing")
      else removeOwnedCampaignHook d record
  | none =>
      if campaignHookGroupLocations d ≠ [] then
        .error (.ownership "unowned campaign engine hook entry already exists")
      else .ok d

def presence (raw : Option Bytes) : Value := .str (if raw.isSome then "present" else "absent")

def optionalSha256 : Option Bytes → Value
  | some raw => .str (FileDigest.sha256 raw)
  | none => .null

/-- The record of the installation. -/
def hooksRecord (codexHome : String) (previousRecord : Option Mapping) (raw : Option Bytes)
    (unrelated installed : HooksDocument) (retired : List Mapping) : Mapping :=
  [ ("path", .str (HooksHost.configurationPath codexHome)),
    ("managed", .bool true),
    ("ownership_protocol", .str hooksConfigurationProtocol),
    ("preinstall_state", match previousRecord with
      | none => presence raw
      | some record => record.read "preinstall_state"),
    ("preinstall_sha256", match previousRecord with
      | none => optionalSha256 raw
      | some record => record.read "preinstall_sha256"),
    ("transaction_prior_state", presence raw),
    ("transaction_prior_sha256", optionalSha256 raw),
    ("installed_sha256", .str (FileDigest.sha256 (jsonBytes installed.value))),
    ("preserved_unrelated_digest", .str (canonicalJsonDigest unrelated.value)),
    ("owned_entries", .tuple [.mapping
      [ ("event", .str campaignHookEvent),
        ("matcher", .str campaignHookMatcher),
        ("digest", .str (canonicalJsonDigest (campaignHookGroup codexHome).value)) ]]),
    ("retired_legacy_entries", .tuple (retired.map .mapping)) ]

/-- `_prepare_install_hooks_configuration(previous, codex_home)`. -/
def prepareInstallHooksConfiguration (previous : Option Mapping) (codexHome : String) (live : LiveFile) :
    Except Failure (Bytes × Mapping) := do
  let raw ← installSource live
  let document ← loadHooksDocument raw
  let previousRecord ← previousHooksConfiguration previous codexHome
  let document ← unownedDocument previousRecord raw document
  let removedLegacy := strippedCommands legacyLifecycleHook document
  let unrelated := stripHookCommands legacyLifecycleHook document
  if campaignHookGroupLocations unrelated ≠ [] then
    throw (.ownership "duplicate or unowned campaign engine hook entry exists")
  let installed := unrelated.withEvents (appendGroup (campaignHookGroup codexHome) unrelated.events)
  let retired ← mergeRetiredHookEvidence previousRecord removedLegacy
  return (jsonBytes installed.value, hooksRecord codexHome previousRecord raw unrelated installed retired)

/-- `_prepare_uninstall_hooks_configuration(manifest, codex_home)`; `none` is no file. -/
def prepareUninstallHooksConfiguration (manifest : Mapping) (codexHome : String) (live : LiveFile) :
    Except Failure (Option Bytes) := do
  let some record ← previousHooksConfiguration (some manifest) codexHome | return none
  match live with
  | .regular raw =>
      let document ← loadHooksDocument (some raw)
      let document ← removeOwnedCampaignHook document record
      let document := stripHookCommands legacyLifecycleHook document
      if campaignHookGroupLocations document ≠ [] then
        throw (.ownership "unowned campaign engine hook entry blocks uninstall")
      if record.read "preinstall_state" = .str "absent" ∧ document.fields = [("hooks", .mapping [])] then
        return none
      return some (jsonBytes document.value)
  | .linked message => throw (.other message)
  | .absent | .irregular => throw (.ownership "managed hooks.json is unavailable for uninstall")

end Prepare

end CodingOS.Hooks
