import CodingOS.ConfigFingerprint.Toml

/-!
# The projection of a configuration

`capability_config_projection` of `capability_config_fingerprint.py`: what a parsed configuration says of
the capabilities, table by table.  Keys that name a control are trimmed and case-folded; a key that is
neither projected nor known to be harmless is refused.
-/

namespace CodingOS.ConfigFingerprint

open CodingOS.Python Systems Systems.Result

/-- What the file system and the platform make of the path of a skill. -/
structure SkillPaths where
  /-- `Path(text).expanduser().is_absolute()`. -/
  expandedAbsolute : String → Bool
  /-- `Path(text).is_absolute()`. -/
  isAbsolute : String → Bool
  /-- `str(Path(text).expanduser().resolve(strict=False))`. -/
  resolve : String → String
  /-- `os.path.normcase`. -/
  normcase : String → String

/-! ### Controls -/

structure AppControl where
  enabled : Bool
  tools : List (String × Bool)
  gates : List (String × Bool)

structure McpControl where
  enabled : Bool
  gatewayManaged : Bool
  runtime : TomlTable
  tools : List (String × Bool)

structure PluginControl where
  enabled : Bool
  mcpServers : List (String × Bool)

/-- The controls of a configuration, before `_normalize_value`. -/
structure Controls where
  apps : List (String × AppControl)
  features : List (String × Bool)
  hooks : TomlTable
  mcpServers : List (String × McpControl)
  plugins : List (String × PluginControl)
  shell : List (String × String)
  skills : List (String × Bool)

/-- A dict, by what is stored under its keys. -/
def tomlTable {α : Type} (f : α → Toml) (entries : List (String × α)) : Toml :=
  .table (entries.map fun e => (e.1, f e.2))

/-- `{"enabled": …}`. -/
def enabledTable (enabled : Bool) : Toml := .table [("enabled", .bool enabled)]

def AppControl.toToml (c : AppControl) : Toml :=
  .table ([("enabled", .bool c.enabled), ("tools", tomlTable enabledTable c.tools)]
    ++ c.gates.map fun e => (e.1, .bool e.2))

def McpControl.toToml (c : McpControl) : Toml :=
  .table [("enabled", .bool c.enabled), ("gateway_managed", .bool c.gatewayManaged),
    ("runtime", .table c.runtime), ("tools", tomlTable enabledTable c.tools)]

def PluginControl.toToml (c : PluginControl) : Toml :=
  .table [("enabled", .bool c.enabled), ("mcp_servers", tomlTable enabledTable c.mcpServers)]

/-- `controls`. -/
def Controls.toToml (c : Controls) : Toml :=
  .table [
    ("apps", tomlTable AppControl.toToml c.apps),
    ("features", tomlTable Toml.bool c.features),
    ("hooks", .table c.hooks),
    ("mcp_servers", tomlTable McpControl.toToml c.mcpServers),
    ("plugins", tomlTable PluginControl.toToml c.plugins),
    ("shell_environment_policy", .table [("set", tomlTable Toml.str c.shell)]),
    ("skills", tomlTable enabledTable c.skills)]

/-! ### Reading -/

section Reading

variable [Runtime]

/-- `_normalized_control_key`, for a key of a table. -/
def normalizedControlKey (value label : String) : Except ConfigError String := do
  ensure (strip value != "") (label ++ " must be a non-empty string")
  let normalized := casefold (strip value)
  ensure (!(normalized == "." || normalized == "..")) (label ++ " is invalid")
  return normalized

/-- The loop of `_stable_keyed_table`. -/
def stableEntries (label : String) (seen : List String) :
    TomlTable → Except ConfigError (List (String × TomlTable))
  | [] => .ok []
  | (rawKey, rawValue) :: es => do
      let key ← normalizedControlKey rawKey (label ++ " key")
      ensure (!seen.contains key) ("duplicate normalized " ++ label ++ " key: " ++ key)
      match rawValue with
      | .table config => do
          let rows ← stableEntries label (key :: seen) es
          return (key, config) :: rows
      | _ => .error ⟨label ++ "." ++ rawKey ++ " must be a table"⟩

/-- `_stable_keyed_table`. -/
def stableKeyedTable (value : Option Toml) (label : String) : Except ConfigError (List (String × TomlTable)) :=
  match value with
  | none => .ok []
  | some (.table entries) => do
      let rows ← stableEntries label [] entries
      return sortByKey rows
  | some _ => .error ⟨label ++ " must be a table"⟩

/-- The keys of a table outside the ones allowed, in their order. -/
def unknownKeys (config : TomlTable) (allowed : List String) : List String :=
  ((config.map Prod.fst).filter fun key => !allowed.contains key).insertionSort (· ≤ ·)

def refuseUnknown (config : TomlTable) (allowed : List String) (what : String) : Except ConfigError Unit :=
  ensure (unknownKeys config allowed).isEmpty (what ++ ", ".intercalate (unknownKeys config allowed))

/-- `config.get(name, default)`, which must be Boolean. -/
def boolField (config : TomlTable) (name : String) (default : Bool) (message : String) : Except ConfigError Bool :=
  match config.lookup name with
  | none => .ok default
  | some (.bool b) => .ok b
  | some _ => .error ⟨message⟩

/-- The fields of the given names that are there, which must be Boolean. -/
def boolFields (config : TomlTable) (message : String → String) :
    List String → Except ConfigError (List (String × Bool))
  | [] => .ok []
  | name :: names => do
      match config.lookup name with
      | none => boolFields config message names
      | some (.bool b) => do
          let rest ← boolFields config message names
          return (name, b) :: rest
      | some _ => .error ⟨message name⟩

/-- The tools of an app or a server that say whether they are enabled. -/
def projectTools (label : String) : List (String × TomlTable) → Except ConfigError (List (String × Bool))
  | [] => .ok []
  | (toolId, config) :: rows => do
      refuseUnknown config ["approval_mode", "enabled"] ("unclassified " ++ label ++ "." ++ toolId ++ " keys: ")
      match config.lookup "enabled" with
      | none => projectTools label rows
      | some (.bool enabled) => do
          let rest ← projectTools label rows
          return (toolId, enabled) :: rest
      | some _ => .error ⟨label ++ "." ++ toolId ++ ".enabled must be Boolean"⟩

/-- `_APP_CAPABILITY_BOOLEAN_KEYS`, in their order. -/
def appCapabilityBooleanKeys : List String :=
  ["default_tools_enabled", "destructive_enabled", "open_world_enabled"]

def projectApp (appId : String) (config : TomlTable) : Except ConfigError AppControl := do
  refuseUnknown config
    (["enabled", "tools", "approvals_reviewer", "default_tools_approval_mode"] ++ appCapabilityBooleanKeys)
    ("unclassified apps." ++ appId ++ " keys: ")
  let enabled ← boolField config "enabled" true ("apps." ++ appId ++ ".enabled must be Boolean")
  let rows ← stableKeyedTable (config.lookup "tools") ("apps." ++ appId ++ ".tools")
  let tools ← projectTools ("apps." ++ appId ++ ".tools") rows
  let gates ← boolFields config (fun key => "apps." ++ appId ++ "." ++ key ++ " must be Boolean")
    appCapabilityBooleanKeys
  return { enabled, tools, gates }

/-- The rows of a table, each projected under its key. -/
def projectRows {α : Type} (project : String → TomlTable → Except ConfigError α) :
    List (String × TomlTable) → Except ConfigError (List (String × α))
  | [] => .ok []
  | (key, config) :: rows => do
      let control ← project key config
      let rest ← projectRows project rows
      return (key, control) :: rest

/-- `_project_apps`. -/
def projectApps (value : Option Toml) : Except ConfigError (List (String × AppControl)) := do
  let rows ← stableKeyedTable value "apps"
  projectRows projectApp rows

/-- `_CAPABILITY_FEATURE_KEYS`, in their order. -/
def capabilityFeatureKeys : List String :=
  ["apps", "browser_use", "computer_use", "connectors", "hooks", "in_app_browser", "js_repl", "memories",
    "plugins", "remote_plugin", "tool_search"]

/-- `_project_features`. -/
def projectFeatures (value : Option Toml) : Except ConfigError (List (String × Bool)) :=
  match value with
  | none => .ok []
  | some (.table config) => do
      refuseUnknown config capabilityFeatureKeys "unclassified capability feature keys: "
      boolFields config (fun key => "features." ++ key ++ " must be Boolean") capabilityFeatureKeys
  | some _ => .error ⟨"features must be a table"⟩

/-- `_project_hooks`. -/
def projectHooks (value : Option Toml) : Except ConfigError TomlTable :=
  match value with
  | none => .ok []
  | some (.table config) => .ok (config.filter fun e => e.1 != "state")
  | some _ => .error ⟨"hooks must be a table"⟩

/-- `_MCP_RUNTIME_KEYS`, in their order. -/
def mcpRuntimeKeys : List String := ["args", "command", "cwd", "env", "url"]

/-- The fields of the given names that are there. -/
def presentFields (config : TomlTable) (names : List String) : TomlTable :=
  names.filterMap fun name => (config.lookup name).map fun v => (name, v)

def projectMcpServer (serverId : String) (config : TomlTable) : Except ConfigError McpControl := do
  refuseUnknown config
    (mcpRuntimeKeys ++ ["startup_timeout_sec", "tool_timeout_sec", "enabled", "gateway_managed", "tools"])
    ("unclassified mcp_servers." ++ serverId ++ " keys: ")
  let enabled ← boolField config "enabled" true ("mcp_servers." ++ serverId ++ ".enabled must be Boolean")
  let gatewayManaged ← boolField config "gateway_managed" false
    ("mcp_servers." ++ serverId ++ ".gateway_managed must be Boolean")
  ensure (!(gatewayManaged && enabled))
    ("mcp_servers." ++ serverId ++ " must set enabled=false when gateway_managed=true")
  let rows ← stableKeyedTable (config.lookup "tools") ("mcp_servers." ++ serverId ++ ".tools")
  let tools ← projectTools ("mcp_servers." ++ serverId ++ ".tools") rows
  return { enabled, gatewayManaged, runtime := presentFields config mcpRuntimeKeys, tools }

/-- `_project_mcp_servers`. -/
def projectMcpServers (value : Option Toml) : Except ConfigError (List (String × McpControl)) := do
  let rows ← stableKeyedTable value "mcp_servers"
  projectRows projectMcpServer rows

/-- A server of a plugin, which holds nothing but `enabled`. -/
def projectPluginServer (pluginId serverId : String) (server : TomlTable) : Except ConfigError Bool := do
  ensure (!server.isEmpty && server.all fun e => e.1 == "enabled")
    ("plugins." ++ pluginId ++ ".mcp_servers." ++ serverId ++ " may contain only enabled")
  match server.lookup "enabled" with
  | some (.bool enabled) => .ok enabled
  | _ => .error ⟨"plugins." ++ pluginId ++ ".mcp_servers." ++ serverId ++ ".enabled must be Boolean"⟩

def projectPlugin (pluginId : String) (config : TomlTable) : Except ConfigError PluginControl := do
  refuseUnknown config ["enabled", "mcp_servers"] ("unclassified plugins." ++ pluginId ++ " keys: ")
  let enabled ← boolField config "enabled" true ("plugins." ++ pluginId ++ ".enabled must be Boolean")
  let rows ← stableKeyedTable (config.lookup "mcp_servers") ("plugins." ++ pluginId ++ ".mcp_servers")
  let mcpServers ← projectRows (projectPluginServer pluginId) rows
  return { enabled, mcpServers }

/-- `_project_plugins`. -/
def projectPlugins (value : Option Toml) : Except ConfigError (List (String × PluginControl)) := do
  let rows ← stableKeyedTable value "plugins"
  projectRows projectPlugin rows

/-- The key of a skill, for the text of its path. -/
def skillKey (paths : SkillPaths) (s : String) : String := casefold (paths.normcase (paths.resolve s))

/-- `_canonical_skill_path`. -/
def canonicalSkillPath (paths : SkillPaths) (value : Option Toml) : Except ConfigError String :=
  match value with
  | some (.str s) => do
      ensure (strip s != "") "skills.config path must be a non-empty string"
      ensure (paths.expandedAbsolute s) "skills.config path must be absolute"
      return skillKey paths s
  | _ => .error ⟨"skills.config path must be a non-empty string"⟩

def skillMessage (position : ℕ) (what : String) : String := "skills.config item " ++ toString position ++ what

/-- The loop of `_project_skills`. -/
def projectSkillItems (paths : SkillPaths) (seen : List String) :
    ℕ → List Toml → Except ConfigError (List (String × Bool))
  | _, [] => .ok []
  | position, item :: items => do
      match item with
      | .table config => do
          ensure ((config.all fun e => ["path", "enabled"].contains e.1) && (config.lookup "path").isSome
              && (config.lookup "enabled").isSome)
            (skillMessage position " must contain path and enabled")
          let path ← canonicalSkillPath paths (config.lookup "path")
          match config.lookup "enabled" with
          | some (.bool enabled) => do
              ensure (!seen.contains path) ("duplicate normalized skill path: " ++ path)
              let rest ← projectSkillItems paths (path :: seen) (position + 1) items
              return (path, enabled) :: rest
          | _ => .error ⟨skillMessage position " enabled must be Boolean"⟩
      | _ => .error ⟨skillMessage position " must contain path and enabled"⟩

/-- `_project_skills`. -/
def projectSkills (paths : SkillPaths) (value : Option Toml) : Except ConfigError (List (String × Bool)) :=
  match value with
  | none => .ok []
  | some (.table config) => do
      ensure (config.all fun e => e.1 == "config") "skills may contain only the config array"
      match config.lookup "config" with
      | none => .ok []
      | some (.array items) => do
          let rows ← projectSkillItems paths [] 0 items
          return sortByKey rows
      | some _ => .error ⟨"skills.config must be an array of tables"⟩
  | some _ => .error ⟨"skills may contain only the config array"⟩

/-- `_SHELL_ROUTING_KEYS`, in their order. -/
def shellRoutingKeys : List String :=
  ["BROWSER_USE_AVAILABLE_BACKENDS", "NODE_REPL_TRUSTED_BROWSER_CLIENT_SHA256S",
    "NODE_REPL_TRUSTED_CODE_PATHS"]

/-- The texts under the routing keys that are there. -/
def textFields (config : TomlTable) : List String → Except ConfigError (List (String × String))
  | [] => .ok []
  | name :: names => do
      match config.lookup name with
      | none => textFields config names
      | some (.str s) => do
          let rest ← textFields config names
          return (name, s) :: rest
      | some _ => .error ⟨"shell_environment_policy.set." ++ name ++ " must be a string"⟩

/-- `_project_shell_environment`. -/
def projectShellEnvironment (value : Option Toml) : Except ConfigError (List (String × String)) :=
  match value with
  | none => .ok []
  | some (.table config) =>
      match config.lookup "set" with
      | none => .ok []
      | some (.table rawSet) => textFields rawSet shellRoutingKeys
      | some _ => .error ⟨"shell_environment_policy.set must be a table"⟩
  | some _ => .error ⟨"shell_environment_policy must be a table"⟩

/-- `KNOWN_ROOTS`. -/
def knownRoots : List String :=
  ["apps", "features", "hooks", "mcp_servers", "plugins", "shell_environment_policy", "skills",
    "approval_policy", "approvals_reviewer", "desktop", "marketplaces", "model", "model_reasoning_effort",
    "notify", "personality", "projects", "sandbox_mode", "sandbox_workspace_write", "windows"]

/-- The controls `capability_config_projection` reads off a configuration. -/
def capabilityControls (paths : SkillPaths) (data : TomlTable) : Except ConfigError Controls := do
  refuseUnknown data knownRoots "unclassified top-level config keys: "
  let apps ← projectApps (data.lookup "apps")
  let features ← projectFeatures (data.lookup "features")
  let hooks ← projectHooks (data.lookup "hooks")
  let mcpServers ← projectMcpServers (data.lookup "mcp_servers")
  let plugins ← projectPlugins (data.lookup "plugins")
  let shell ← projectShellEnvironment (data.lookup "shell_environment_policy")
  let skills ← projectSkills paths (data.lookup "skills")
  return { apps, features, hooks, mcpServers, plugins, shell, skills }

/-- `capability_config_projection`: its normalized controls. -/
def capabilityConfigProjection (paths : SkillPaths) (data : TomlTable) : Except ConfigError Node := do
  let controls ← capabilityControls paths data
  normalizeValue ["controls"] controls.toToml

end Reading

end CodingOS.ConfigFingerprint
