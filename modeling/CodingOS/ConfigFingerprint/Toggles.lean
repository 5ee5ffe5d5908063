import CodingOS.ConfigFingerprint.Descriptors

/-!
# Switching one control

A configuration with the explicit `enabled` of one app, server, plugin, plugin server or skill inverted.
Its projection is the old one with the Boolean of that control inverted, so one leaf changes.
-/

namespace CodingOS.ConfigFingerprint

open CodingOS.Python Systems Systems.Result

/-! ### Switches -/

/-- A control that can be switched, by its raw name in the configuration or its position in it. -/
inductive Switch where
  | app (name : String)
  | mcp (name : String)
  | plugin (name : String)
  | pluginMcp (pluginName serverName : String)
  | skill (position : ℕ)

/-- The table of the configuration the control is in. -/
def Switch.root : Switch → String
  | .app _ => "apps"
  | .mcp _ => "mcp_servers"
  | .plugin _ => "plugins"
  | .pluginMcp _ _ => "plugins"
  | .skill _ => "skills"

/-- Where its `enabled` is in that table. -/
def Switch.path : Switch → List String
  | .app name => [name, "enabled"]
  | .mcp name => [name, "enabled"]
  | .plugin name => [name, "enabled"]
  | .pluginMcp pluginName serverName => [pluginName, "mcp_servers", serverName, "enabled"]
  | .skill position => ["config", toString position, "enabled"]

/-- What stands at a path below a key of a configuration. -/
def Configuration.get? (config : Configuration) (root : String) (path : List String) : Option Toml :=
  (config.entries.lookup root).bind fun t => t.get? path

theorem keyed_atKey {key : String} {f : Toml → Toml} {es : TomlTable} (h : (Toml.table es).Keyed)
    (hf : ∀ t : Toml, t.Keyed → (f t).Keyed) : (Toml.table (atKey key f es)).Keyed := by
  rw [Toml.Keyed, keyedEntries_iff] at h ⊢
  rw [keys_atKey]
  refine ⟨h.1, fun e he => ?_⟩
  obtain ⟨e₀, he₀, rfl⟩ := List.mem_map.mp he
  split
  · exact hf _ (h.2 e₀ he₀)
  · exact h.2 e₀ he₀

/-- Inverting a Boolean leaves the keys as they are. -/
theorem keyed_invertAt (path : List String) (t : Toml) (h : t.Keyed) : (t.invertAt path).Keyed := by
  induction path generalizing t with
  | nil => cases t <;> exact h
  | cons key path ih =>
      cases t with
      | table es =>
          rw [Toml.invertAt]
          exact keyed_atKey h ih
      | array items =>
          rw [Toml.Keyed, keyedItems_iff] at h
          rw [Toml.invertAt, Toml.Keyed, keyedItems_iff]
          intro t ht
          obtain ⟨i, hi, rfl⟩ := List.mem_mapIdx.mp ht
          split
          · exact ih _ (h _ (List.getElem_mem hi))
          · exact h _ (List.getElem_mem hi)
      | _ => exact h

/-- The configuration with the switch turned. -/
def Configuration.invert (config : Configuration) (s : Switch) : Configuration where
  entries := atKey s.root (fun t => t.invertAt s.path) config.entries
  keyed := keyed_atKey config.keyed (keyed_invertAt s.path)

def Switch.kind : Switch → ControlKind
  | .app _ => .app
  | .mcp _ => .mcp
  | .plugin _ => .plugin
  | .pluginMcp _ _ => .pluginMcp
  | .skill _ => .skill

section Paths

variable [Runtime]

/-- The key a skill of the configuration has in the projection. -/
def Configuration.skillKeyAt (config : Configuration) (paths : SkillPaths) (position : ℕ) : String :=
  match config.get? "skills" ["config", toString position, "path"] with
  | some (.str s) => skillKey paths s
  | _ => ""

/-- The name of the control in the descriptors. -/
def Switch.controlKey (paths : SkillPaths) (config : Configuration) : Switch → String
  | .app name => ConfigFingerprint.controlKey name
  | .mcp name => ConfigFingerprint.controlKey name
  | .plugin name => ConfigFingerprint.controlKey name
  | .pluginMcp pluginName serverName =>
      ConfigFingerprint.controlKey pluginName ++ "/" ++ ConfigFingerprint.controlKey serverName
  | .skill position => config.skillKeyAt paths position

/-- The leaf of the control. -/
def Switch.leafPath (paths : SkillPaths) (config : Configuration) : Switch → List String
  | .app name => ["apps", ConfigFingerprint.controlKey name, "enabled"]
  | .mcp name => ["mcp_servers", ConfigFingerprint.controlKey name, "enabled"]
  | .plugin name => ["plugins", ConfigFingerprint.controlKey name, "enabled"]
  | .pluginMcp pluginName serverName =>
      ["plugins", ConfigFingerprint.controlKey pluginName, "mcp_servers",
        ConfigFingerprint.controlKey serverName, "enabled"]
  | .skill position => ["skills", config.skillKeyAt paths position, "enabled"]

end Paths

/-! ### Rows -/

theorem mem_atKey {α : Type} {key : String} {f : α → α} {a : α} {entries : List (String × α)}
    (h : (key, a) ∈ entries) : (key, f a) ∈ atKey key f entries :=
  List.mem_map.mpr ⟨_, h, if_pos rfl⟩

theorem map_atKey {α β : Type} {key : String} {f : α → β} {g : α → α} {h : β → β} {entries : List (String × α)}
    (hstep : ∀ a, (key, a) ∈ entries → f (g a) = h (f a)) :
    (atKey key g entries).map (fun e => (e.1, f e.2)) = atKey key h (entries.map fun e => (e.1, f e.2)) := by
  rw [atKey, atKey, List.map_map, List.map_map]
  refine List.map_congr_left fun e he => ?_
  obtain ⟨k, a⟩ := e
  show ((if k = key then (k, g a) else (k, a)).1, f (if k = key then (k, g a) else (k, a)).2)
    = if k = key then (k, h (f a)) else (k, f a)
  by_cases hk : k = key
  · subst hk
    rw [if_pos rfl, if_pos rfl, hstep a he]
  · rw [if_neg hk, if_neg hk]

/-- Renaming the keys goes before or after a change under one key. -/
theorem map_keys_atKey {α : Type} {k : String → String} {name : String} {f : α → α} {es : List (String × α)}
    (hinj : ∀ e ∈ es, k e.1 = k name → e.1 = name) :
    (atKey name f es).map (fun e => (k e.1, e.2)) = atKey (k name) f (es.map fun e => (k e.1, e.2)) := by
  rw [atKey, atKey, List.map_map, List.map_map]
  refine List.map_congr_left fun e he => ?_
  show (k (if e.1 = name then (e.1, f e.2) else e).1, (if e.1 = name then (e.1, f e.2) else e).2)
    = if k e.1 = k name then (k e.1, f e.2) else (k e.1, e.2)
  by_cases hname : e.1 = name
  · rw [if_pos hname, if_pos (congrArg k hname)]
  · rw [if_neg hname, if_neg fun hkey => hname (hinj e he hkey)]

/-- A change of one row changes one control. -/
theorem projectRows_atKey {α : Type} {project : String → TomlTable → Except ConfigError α} {key : String}
    {g : TomlTable → TomlTable} {rows : List (String × TomlTable)} {w : α → α} {controls controls' : List (String × α)} (h : projectRows project rows = .ok controls)
    (h' : projectRows project (atKey key g rows) = .ok controls')
    (hstep : ∀ config a a', (key, config) ∈ rows → project key config = .ok a → project key (g config) = .ok a' →
      a' = w a) : controls' = atKey key w controls := by
  induction rows generalizing controls controls' with
  | nil =>
      cases h
      cases h'
      rfl
  | cons row rows ih =>
      obtain ⟨k, config⟩ := row
      rw [projectRows] at h
      obtain ⟨a, ha, h⟩ := bind_eq_ok.mp h
      obtain ⟨rest, hrest, h⟩ := bind_eq_ok.mp h
      obtain rfl := pure_eq_ok.mp h
      have hrow : (if k = key then (k, g config) else (k, config)) = (k, if k = key then g config else config) := by
        split <;> rfl
      rw [atKey_cons, hrow, projectRows] at h'
      obtain ⟨a', ha', h'⟩ := bind_eq_ok.mp h'
      obtain ⟨rest', hrest', h'⟩ := bind_eq_ok.mp h'
      obtain rfl := pure_eq_ok.mp h'
      rw [ih hrest hrest' fun config a a' hmem => hstep config a a' (List.mem_cons_of_mem _ hmem), atKey_cons]
      by_cases hk : k = key
      · subst hk
        rw [if_pos rfl] at ha'
        rw [if_pos rfl, hstep config a a' List.mem_cons_self ha ha']
      · rw [if_neg hk, ha] at ha'
        obtain rfl := Except.ok.inj ha'
        rw [if_neg hk]

theorem rowEntry_injective : Function.Injective rowEntry := by
  rintro ⟨k, a⟩ ⟨l, b⟩ h
  obtain ⟨rfl, htable⟩ := Prod.mk.inj h
  exact congrArg (Prod.mk k) (Toml.table.inj htable)

/-- Every row is projected. -/
theorem mem_projectRows {α : Type} {project : String → TomlTable → Except ConfigError α} {key : String}
    {rows : List (String × TomlTable)} {controls : List (String × α)} {config : TomlTable}
    (h : projectRows project rows = .ok controls) (hrow : (key, config) ∈ rows) :
    ∃ a, (key, a) ∈ controls ∧ project key config = .ok a := by
  induction rows generalizing controls with
  | nil => cases hrow
  | cons row rows ih =>
      obtain ⟨k, first⟩ := row
      rw [projectRows] at h
      obtain ⟨a, ha, h⟩ := bind_eq_ok.mp h
      obtain ⟨rest, hrest, h⟩ := bind_eq_ok.mp h
      obtain rfl := pure_eq_ok.mp h
      rcases List.mem_cons.mp hrow with heq | hrow
      · obtain ⟨rfl, rfl⟩ := Prod.mk.inj heq
        exact ⟨a, List.mem_cons_self, ha⟩
      · obtain ⟨a', ha', hok⟩ := ih hrest hrow
        exact ⟨a', List.mem_cons_of_mem _ ha', hok⟩

section Rows

variable [Runtime] {es : TomlTable} {name label label' : String} {f : Toml → Toml} {g : TomlTable → TomlTable}
  {rows rows' : List (String × TomlTable)}

/-- Two entries of an accepted table have one control key only if they have one key. -/
theorem controlKey_inj (h : stableKeyedTable (some (.table es)) label = .ok rows) {e e' : String × Toml}
    (he : e ∈ es) (he' : e' ∈ es) (hkey : controlKey e.1 = controlKey e'.1) : e = e' := by
  obtain ⟨hrows, hnodup⟩ := stableKeyedTable_spec h
  have hfst : rows.map Prod.fst = (rows.map rowEntry).map Prod.fst := by
    rw [List.map_map]
    rfl
  have hkeys : (es.map fun e => controlKey e.1).Nodup := by
    rw [hfst, hrows] at hnodup
    have hperm := (perm_sortByKey (es.map fun e => (controlKey e.1, e.2))).map Prod.fst
    have hsame : (es.map fun e => controlKey e.1) = (es.map fun e => (controlKey e.1, e.2)).map Prod.fst := by
      rw [List.map_map, Function.comp_def]
    rw [hsame]
    exact hperm.nodup_iff.mp hnodup
  exact List.inj_on_of_nodup_map hkeys he he' hkey

/-- The row of an entry. -/
theorem row_of_lookup (h : stableKeyedTable (some (.table es)) label = .ok rows) {t : Toml}
    (ht : (name, t) ∈ es) : ∃ config, t = .table config ∧ (controlKey name, config) ∈ rows := by
  have hmem : (controlKey name, t) ∈ rows.map rowEntry := by
    rw [(stableKeyedTable_spec h).1, (perm_sortByKey _).mem_iff]
    exact List.mem_map.mpr ⟨_, ht, rfl⟩
  obtain ⟨⟨key, config⟩, hrow, heq⟩ := List.mem_map.mp hmem
  rw [rowEntry, Prod.mk.injEq] at heq
  exact ⟨config, heq.2.symm, heq.1 ▸ hrow⟩

/-- A change of one entry changes one row. -/
theorem stableKeyedTable_atKey (hmem : ∃ t, (name, t) ∈ es) (hf : ∀ config, f (.table config) = .table (g config))
    (h : stableKeyedTable (some (.table es)) label = .ok rows)
    (h' : stableKeyedTable (some (.table (atKey name f es))) label' = .ok rows') :
    rows' = atKey (controlKey name) g rows := by
  obtain ⟨t, ht⟩ := hmem
  have hentries := map_keys_atKey (k := controlKey) (f := f) fun e he hkey =>
    congrArg Prod.fst (controlKey_inj h he ht hkey)
  refine List.map_injective_iff.mpr rowEntry_injective ?_
  have hrows : (atKey (controlKey name) g rows).map rowEntry = atKey (controlKey name) f (rows.map rowEntry) :=
    map_atKey (f := Toml.table) fun config _ => (hf config).symm
  have hentries' : tableEntries (some (.table (atKey name f es))) = atKey name f es := rfl
  have hentries₀ : tableEntries (some (.table es)) = es := rfl
  rw [hrows, (stableKeyedTable_spec h).1, (stableKeyedTable_spec h').1, ← sortByKey_atKey, hentries', hentries,
    hentries₀]

end Rows

/-! ### One control with its switch turned -/

/-- `enabled`, inverted. -/
def invertEnabled (config : TomlTable) : TomlTable := atKey "enabled" (fun t => t.invertAt []) config

theorem boolField_atKey {key name message : String} {f : Toml → Toml} {config : TomlTable} {default : Bool}
    (h : name ≠ key) :
    boolField (atKey key f config) name default message = boolField config name default message := by
  rw [boolField, boolField, lookup_atKey_of_ne h]

theorem boolField_enabled {message : String} {config : TomlTable} {default b enabled : Bool}
    (hb : config.lookup "enabled" = some (.bool b)) (h : boolField config "enabled" default message = .ok enabled) :
    enabled = b := by
  rw [boolField, hb] at h
  exact (Except.ok.inj h).symm

theorem lookup_invertEnabled {config : TomlTable} {b : Bool} (hb : config.lookup "enabled" = some (.bool b)) :
    (invertEnabled config).lookup "enabled" = some (.bool !b) := by
  rw [invertEnabled, lookup_atKey_self, hb]
  rfl

theorem boolFields_atKey {key : String} {f : Toml → Toml} {config : TomlTable} {message : String → String}
    {names : List String} (h : key ∉ names) :
    boolFields (atKey key f config) message names = boolFields config message names := by
  induction names with
  | nil => rfl
  | cons name names ih =>
      rw [List.mem_cons, not_or] at h
      rw [boolFields, boolFields, lookup_atKey_of_ne (Ne.symm h.1), ih h.2]

theorem presentFields_atKey {key : String} {f : Toml → Toml} {config : TomlTable} {names : List String}
    (h : key ∉ names) : presentFields (atKey key f config) names = presentFields config names := by
  refine List.filterMap_congr fun name hname => ?_
  have hne : name ≠ key := fun heq => h (heq ▸ hname)
  rw [lookup_atKey_of_ne hne]

theorem projectPluginServer_invert {pluginId key : String} {config : TomlTable} {a a' b : Bool}
    (hb : config.lookup "enabled" = some (.bool b))
    (h : projectPluginServer pluginId key config = .ok a)
    (h' : projectPluginServer pluginId key (invertEnabled config) = .ok a') : a = b ∧ a' = !a := by
  rw [projectPluginServer] at h h'
  obtain ⟨_, -, h⟩ := bind_eq_ok.mp h
  obtain ⟨_, -, h'⟩ := bind_eq_ok.mp h'
  simp only [hb, lookup_invertEnabled hb, Except.ok.injEq] at h h'
  subst h h'
  exact ⟨rfl, rfl⟩

section Controls

variable [Runtime] {key : String} {config : TomlTable} {b : Bool}

def AppControl.invert (c : AppControl) : AppControl := { c with enabled := !c.enabled }

def McpControl.invert (c : McpControl) : McpControl := { c with enabled := !c.enabled }

def PluginControl.invert (c : PluginControl) : PluginControl := { c with enabled := !c.enabled }

theorem projectApp_invert {a a' : AppControl} (hb : config.lookup "enabled" = some (.bool b))
    (h : projectApp key config = .ok a) (h' : projectApp key (invertEnabled config) = .ok a') :
    a.enabled = b ∧ a' = a.invert := by
  rw [projectApp] at h h'
  obtain ⟨_, -, h⟩ := bind_eq_ok.mp h
  obtain ⟨enabled, henabled, h⟩ := bind_eq_ok.mp h
  obtain ⟨_, -, h'⟩ := bind_eq_ok.mp h'
  obtain ⟨enabled', henabled', h'⟩ := bind_eq_ok.mp h'
  have hvalue := boolField_enabled hb henabled
  have hvalue' := boolField_enabled (lookup_invertEnabled hb) henabled'
  rw [invertEnabled, lookup_atKey_of_ne (by decide), boolFields_atKey (by decide)] at h'
  obtain ⟨rows, hrows, h⟩ := bind_eq_ok.mp h
  obtain ⟨tools, htools, h⟩ := bind_eq_ok.mp h
  obtain ⟨gates, hgates, h⟩ := bind_eq_ok.mp h
  simp only [hrows, htools, hgates, pure_eq_ok, bind_eq_ok, Except.ok.injEq, exists_eq_left'] at h h'
  subst hvalue hvalue' h h'
  exact ⟨rfl, rfl⟩

theorem projectMcpServer_invert {a a' : McpControl} (hb : config.lookup "enabled" = some (.bool b))
    (h : projectMcpServer key config = .ok a) (h' : projectMcpServer key (invertEnabled config) = .ok a') :
    a.enabled = b ∧ a' = a.invert := by
  rw [projectMcpServer] at h h'
  obtain ⟨_, -, h⟩ := bind_eq_ok.mp h
  obtain ⟨enabled, henabled, h⟩ := bind_eq_ok.mp h
  obtain ⟨_, -, h'⟩ := bind_eq_ok.mp h'
  obtain ⟨enabled', henabled', h'⟩ := bind_eq_ok.mp h'
  have hvalue := boolField_enabled hb henabled
  have hvalue' := boolField_enabled (lookup_invertEnabled hb) henabled'
  rw [invertEnabled, boolField_atKey (by decide), lookup_atKey_of_ne (by decide),
    presentFields_atKey (by decide)] at h'
  obtain ⟨managed, hmanaged, h⟩ := bind_eq_ok.mp h
  obtain ⟨_, -, h⟩ := bind_eq_ok.mp h
  obtain ⟨rows, hrows, h⟩ := bind_eq_ok.mp h
  obtain ⟨tools, htools, h⟩ := bind_eq_ok.mp h
  obtain ⟨managed', hmanaged', h'⟩ := bind_eq_ok.mp h'
  obtain ⟨_, -, h'⟩ := bind_eq_ok.mp h'
  rw [hmanaged] at hmanaged'
  obtain rfl := Except.ok.inj hmanaged'
  simp only [hrows, htools, pure_eq_ok, bind_eq_ok, Except.ok.injEq, exists_eq_left'] at h h'
  subst hvalue hvalue' h h'
  exact ⟨rfl, rfl⟩

theorem projectPlugin_invert {a a' : PluginControl} (hb : config.lookup "enabled" = some (.bool b))
    (h : projectPlugin key config = .ok a) (h' : projectPlugin key (invertEnabled config) = .ok a') :
    a.enabled = b ∧ a' = a.invert := by
  rw [projectPlugin] at h h'
  obtain ⟨_, -, h⟩ := bind_eq_ok.mp h
  obtain ⟨enabled, henabled, h⟩ := bind_eq_ok.mp h
  obtain ⟨_, -, h'⟩ := bind_eq_ok.mp h'
  obtain ⟨enabled', henabled', h'⟩ := bind_eq_ok.mp h'
  have hvalue := boolField_enabled hb henabled
  have hvalue' := boolField_enabled (lookup_invertEnabled hb) henabled'
  rw [invertEnabled, lookup_atKey_of_ne (by decide)] at h'
  obtain ⟨rows, hrows, h⟩ := bind_eq_ok.mp h
  obtain ⟨servers, hservers, h⟩ := bind_eq_ok.mp h
  simp only [hrows, hservers, pure_eq_ok, bind_eq_ok, Except.ok.injEq, exists_eq_left'] at h h'
  subst hvalue hvalue' h h'
  exact ⟨rfl, rfl⟩

/-- A table of controls with the switch of one turned. -/
theorem project_invert {α : Type} {project : String → TomlTable → Except ConfigError α} {label name : String}
    {rest : List String} {g : TomlTable → TomlTable} {w : α → α} {P : α → Prop} {t : Toml}
    {controls controls' : List (String × α)}
    (hg : ∀ config, (Toml.table config).invertAt rest = .table (g config))
    (hstep : ∀ config a a', (Toml.table config).get? rest = some (.bool b) →
      project (controlKey name) config = .ok a → project (controlKey name) (g config) = .ok a' → P a ∧ a' = w a)
    (hget : t.get? (name :: rest) = some (.bool b))
    (h : (stableKeyedTable (some t) label >>= projectRows project) = .ok controls)
    (h' : (stableKeyedTable (some (t.invertAt (name :: rest))) label >>= projectRows project) = .ok controls') :
    controls' = atKey (controlKey name) w controls ∧ (controls.map Prod.fst).Nodup ∧
      ∃ a, (controlKey name, a) ∈ controls ∧ P a := by
  obtain ⟨rows, hrows, hproject⟩ := bind_eq_ok.mp h
  obtain ⟨rows', hrows', hproject'⟩ := bind_eq_ok.mp h'
  cases t with
  | table es =>
      obtain ⟨u, hu, hget⟩ := Option.bind_eq_some_iff.mp hget
      have hnodup := (stableKeyedTable_spec hrows).2
      have hmem : (name, u) ∈ es := by
        obtain ⟨l₁, l₂, hsplit, -⟩ := List.lookup_eq_some_iff.mp hu
        rw [hsplit]
        simp
      obtain ⟨config, rfl, hrow⟩ := row_of_lookup hrows hmem
      obtain rfl : rows' = atKey (controlKey name) g rows := stableKeyedTable_atKey ⟨_, hmem⟩ hg hrows hrows'
      -- the rows have distinct keys, so the row with the key is that of the entry
      have hboth : ∀ config' a a', (controlKey name, config') ∈ rows → project (controlKey name) config' = .ok a →
          project (controlKey name) (g config') = .ok a' → P a ∧ a' = w a := by
        intro config' a a' hrow' ha ha'
        obtain rfl : config' = config := congrArg Prod.snd (List.inj_on_of_nodup_map hnodup hrow' hrow rfl)
        exact hstep _ a a' hget ha ha'
      obtain ⟨a, ha, hok⟩ := mem_projectRows hproject hrow
      obtain ⟨a', -, hok'⟩ := mem_projectRows hproject' (mem_atKey hrow)
      exact ⟨projectRows_atKey hproject hproject' fun config' a a' hrow' ha ha' => (hboth config' a a' hrow' ha ha').2,
        (projectRows_spec hproject).1 ▸ hnodup, a, ha, (hboth config a a' hrow hok hok').1⟩
  | _ => cases hrows

/-- A plugin with the switch of one of its servers turned. -/
def PluginControl.invertServer (c : PluginControl) (serverKey : String) : PluginControl :=
  { c with mcpServers := atKey serverKey (fun enabled => !enabled) c.mcpServers }

theorem projectPlugin_invertServer {server : String} {a a' : PluginControl}
    (hget : (Toml.table config).get? ["mcp_servers", server, "enabled"] = some (.bool b))
    (h : projectPlugin key config = .ok a)
    (h' : projectPlugin key (atKey "mcp_servers" (fun t => t.invertAt [server, "enabled"]) config) = .ok a') :
    ((a.mcpServers.map Prod.fst).Nodup ∧ (controlKey server, b) ∈ a.mcpServers) ∧
      a' = a.invertServer (controlKey server) := by
  obtain ⟨t, ht, hget⟩ := Option.bind_eq_some_iff.mp hget
  rw [projectPlugin] at h h'
  rw [boolField_atKey (by decide), lookup_atKey_self] at h'
  rw [ht] at h h'
  obtain ⟨_, -, h⟩ := bind_eq_ok.mp h
  obtain ⟨enabled, henabled, h⟩ := bind_eq_ok.mp h
  obtain ⟨_, -, h'⟩ := bind_eq_ok.mp h'
  obtain ⟨enabled', henabled', h'⟩ := bind_eq_ok.mp h'
  rw [henabled] at henabled'
  obtain rfl := Except.ok.inj henabled'
  obtain ⟨rows, hrows, h⟩ := bind_eq_ok.mp h
  obtain ⟨servers, hservers, h⟩ := bind_eq_ok.mp h
  obtain rfl := pure_eq_ok.mp h
  obtain ⟨rows', hrows', h'⟩ := bind_eq_ok.mp h'
  obtain ⟨servers', hservers', h'⟩ := bind_eq_ok.mp h'
  obtain rfl := pure_eq_ok.mp h'
  obtain ⟨rfl, hnodup, a, ha, rfl⟩ := project_invert (P := fun a => a = b) (w := fun enabled => !enabled)
    (fun _ => rfl) (fun config' a a' hget' hok hok' => by
      obtain ⟨u, hu, hbool⟩ := Option.bind_eq_some_iff.mp hget'
      obtain rfl := Option.some.inj hbool
      exact projectPluginServer_invert hu hok hok')
    hget (bind_eq_ok.mpr ⟨rows, hrows, hservers⟩) (bind_eq_ok.mpr ⟨rows', hrows', hservers'⟩)
  exact ⟨⟨hnodup, ha⟩, rfl⟩

end Controls

/-! ### The projection with the switch turned -/

theorem tomlTable_invert {α : Type} {f : α → Toml} {w : α → α} {key : String} {rest : List String}
    {controls : List (String × α)} (hstep : ∀ a, (key, a) ∈ controls → f (w a) = (f a).invertAt rest) :
    tomlTable f (atKey key w controls) = (tomlTable f controls).invertAt (key :: rest) :=
  congrArg Toml.table (map_atKey hstep)

theorem boolAt_tomlTable {α : Type} {f : α → Toml} {a : α} {b : Bool} {key : String} {rest : List String}
    {controls : List (String × α)} (hnodup : (controls.map Prod.fst).Nodup) (hmem : (key, a) ∈ controls)
    (hbool : BoolAt b rest (f a)) : BoolAt b (key :: rest) (tomlTable f controls) := by
  refine .under ((lookup_eq_some_iff ?_).mpr (List.mem_map.mpr ⟨_, hmem, rfl⟩)) hbool
  rw [List.map_map]
  exact hnodup

theorem AppControl.toToml_invert {c : AppControl}
    (hgates : (c.gates.map Prod.fst).Sublist appCapabilityBooleanKeys) :
    c.invert.toToml = c.toToml.invertAt ["enabled"] := by
  have hsame : atKey "enabled" (fun t : Toml => t.invertAt []) (c.gates.map fun e => (e.1, Toml.bool e.2))
      = c.gates.map fun e => (e.1, Toml.bool e.2) := by
    rw [atKey, List.map_map]
    refine List.map_congr_left fun e he => if_neg fun heq => ?_
    have hmem : "enabled" ∈ appCapabilityBooleanKeys := heq ▸ hgates.subset (List.mem_map_of_mem he)
    exact absurd hmem (by decide)
  have happend : ∀ xs ys : TomlTable, atKey "enabled" (fun t : Toml => t.invertAt []) (xs ++ ys)
      = atKey "enabled" (fun t : Toml => t.invertAt []) xs ++ atKey "enabled" (fun t : Toml => t.invertAt []) ys :=
    fun xs ys => List.map_append
  rw [AppControl.toToml, AppControl.toToml, Toml.invertAt, happend, hsame]
  rfl

theorem McpControl.toToml_invert (c : McpControl) : c.invert.toToml = c.toToml.invertAt ["enabled"] := rfl

theorem PluginControl.toToml_invert (c : PluginControl) : c.invert.toToml = c.toToml.invertAt ["enabled"] := rfl

theorem PluginControl.toToml_invertServer (c : PluginControl) (server : String) :
    (c.invertServer server).toToml = c.toToml.invertAt ["mcp_servers", server, "enabled"] := by
  have hservers : tomlTable enabledTable (atKey server (fun enabled => !enabled) c.mcpServers)
      = (tomlTable enabledTable c.mcpServers).invertAt [server, "enabled"] :=
    tomlTable_invert fun _ _ => rfl
  rw [PluginControl.toToml, PluginControl.invertServer, hservers]
  rfl

/-! ### Skills -/

theorem nodup_indices (items : List Toml) :
    ((items.zipIdx.map fun e => (toString e.2, e.1)).map Prod.fst).Nodup := by
  have hkeys : (items.zipIdx.map fun e => (toString e.2, e.1)).map Prod.fst
      = (List.range' 0 items.length).map fun i => toString i := by
    rw [← List.zipIdx_map_snd, List.map_map, List.map_map]
    rfl
  rw [hkeys]
  exact List.Nodup.map (fun _ _ => toString_injective) List.nodup_range'

theorem get?_array (items : List Toml) (i : ℕ) (path : List String) :
    (Toml.array items).get? (toString i :: path) = items[i]?.bind fun t => t.get? path := by
  have hfind : (items.zipIdx.map fun e => (toString e.2, e.1)).lookup (toString i) = items[i]? := by
    refine Option.ext fun t => ?_
    rw [lookup_eq_some_iff (nodup_indices items), List.mem_map]
    constructor
    · rintro ⟨⟨u, j⟩, hmem, heq⟩
      obtain ⟨hij, rfl⟩ := Prod.mk.inj heq
      obtain rfl := toString_injective hij
      exact List.mk_mem_zipIdx_iff_getElem?.mp hmem
    · intro ht
      exact ⟨(t, i), List.mk_mem_zipIdx_iff_getElem?.mpr ht, rfl⟩
  rw [Toml.get?, hfind]

section Skills

variable [Runtime] {paths : SkillPaths}

theorem projectSkillItems_invert {items : List Toml} {rows rows' : List (String × Bool)} {i : ℕ} {s : String}
    {config : TomlTable} {b : Bool} (hitem : items[i]? = some (.table config))
    (hpath : config.lookup "path" = some (.str s)) (hb : config.lookup "enabled" = some (.bool b))
    (h : projectSkillItems paths [] 0 items = .ok rows)
    (h' : projectSkillItems paths [] 0
      (items.mapIdx fun j t => if toString j = toString i then t.invertAt ["enabled"] else t) = .ok rows') :
    rows' = atKey (skillKey paths s) (fun enabled => !enabled) rows ∧ (skillKey paths s, b) ∈ rows := by
  obtain ⟨hrows, hnodup, -⟩ := projectSkillItems_spec h
  obtain ⟨hrows', -, -⟩ := projectSkillItems_spec h'
  obtain ⟨hlength, hrow⟩ := List.forall₂_iff_get.mp hrows
  obtain ⟨hlength', hrow'⟩ := List.forall₂_iff_get.mp hrows'
  rw [List.length_mapIdx] at hlength'
  obtain ⟨hi, hget⟩ := List.getElem?_eq_some_iff.mp hitem
  obtain ⟨config₀, s₀, hconfig₀, hpath₀, hb₀, hkey₀⟩ := hrow i hi (hlength ▸ hi)
  simp only [List.get_eq_getElem, hget, Toml.table.injEq] at hconfig₀
  subst hconfig₀
  rw [hpath] at hpath₀
  cases hpath₀
  rw [hb] at hb₀
  have hvalue : b = (rows.get ⟨i, hlength ▸ hi⟩).2 := by simpa using hb₀
  have hthis : rows.get ⟨i, hlength ▸ hi⟩ = (skillKey paths s, b) := Prod.ext hkey₀ hvalue.symm
  refine ⟨List.ext_getElem ?_ fun j hj hj' => ?_, hthis ▸ List.get_mem _ _⟩
  · rw [atKey, List.length_map, ← hlength, ← hlength']
  · rw [atKey, List.length_map] at hj'
    have hitems : j < items.length := hlength ▸ hj'
    obtain ⟨config₁, s₁, hconfig₁, hpath₁, hb₁, hkey₁⟩ := hrow j hitems hj'
    obtain ⟨config₂, s₂, hconfig₂, hpath₂, hb₂, hkey₂⟩ := hrow' j (by simpa using hitems) hj
    simp only [List.get_eq_getElem] at hconfig₁ hb₁ hkey₁ hconfig₂ hb₂ hkey₂
    rw [List.getElem_mapIdx, hconfig₁] at hconfig₂
    simp only [atKey, List.getElem_map]
    have hkeys : rows[j].1 = skillKey paths s ↔ j = i := by
      constructor
      · intro heq
        have hi' : i < rows.length := hlength ▸ hi
        have hfst : (rows.map Prod.fst)[j]? = (rows.map Prod.fst)[i]? := by
          rw [List.getElem?_map, List.getElem?_map, List.getElem?_eq_getElem hj', List.getElem?_eq_getElem hi']
          exact congrArg some (heq.trans hkey₀.symm)
        exact (List.getElem?_inj (by simpa using hj') hnodup).mp hfst
      · rintro rfl
        exact hkey₀
    by_cases hij : j = i
    · subst hij
      rw [if_pos rfl] at hconfig₂
      obtain rfl := Toml.table.inj hconfig₂
      have hname : "path" ≠ "enabled" := by decide
      rw [lookup_atKey_of_ne hname, hpath₁] at hpath₂
      rw [lookup_atKey_self, hb₁] at hb₂
      cases hpath₂
      rw [if_pos (hkeys.mpr rfl)]
      have hinverted : (!rows[j].2) = rows'[j].2 := by simpa [Toml.invertAt] using hb₂
      exact Prod.ext (hkey₂.trans hkey₁.symm) hinverted.symm
    · rw [if_neg fun heq => hij (toString_injective heq)] at hconfig₂
      obtain rfl := Toml.table.inj hconfig₂
      rw [hpath₁] at hpath₂
      rw [hb₁] at hb₂
      cases hpath₂
      rw [if_neg fun heq => hij (hkeys.mp heq)]
      have hsame : rows[j].2 = rows'[j].2 := by simpa using hb₂
      exact Prod.ext (hkey₂.trans hkey₁.symm) hsame.symm

theorem projectSkills_invert {t : Toml} {skills skills' : List (String × Bool)} {i : ℕ} {b : Bool}
    (hget : t.get? ["config", toString i, "enabled"] = some (.bool b))
    (h : projectSkills paths (some t) = .ok skills)
    (h' : projectSkills paths (some (t.invertAt ["config", toString i, "enabled"])) = .ok skills') :
    ∃ s, t.get? ["config", toString i, "path"] = some (.str s) ∧
      skills' = atKey (skillKey paths s) (fun enabled => !enabled) skills ∧ (skillKey paths s, b) ∈ skills := by
  cases t with
  | table config =>
      obtain ⟨u, hu, hget⟩ := Option.bind_eq_some_iff.mp hget
      rw [Toml.invertAt, projectSkills, lookup_atKey_self] at h'
      rw [projectSkills] at h
      rw [hu] at h h'
      obtain ⟨_, -, h⟩ := bind_eq_ok.mp h
      obtain ⟨_, -, h'⟩ := bind_eq_ok.mp h'
      cases u with
      | array items =>
          obtain ⟨rows, hrows, h⟩ := bind_eq_ok.mp h
          obtain rfl := pure_eq_ok.mp h
          obtain ⟨rows', hrows', h'⟩ := bind_eq_ok.mp h'
          obtain rfl := pure_eq_ok.mp h'
          rw [get?_array] at hget
          obtain ⟨item, hitem, hget⟩ := Option.bind_eq_some_iff.mp hget
          obtain ⟨hi, hget'⟩ := List.getElem?_eq_some_iff.mp hitem
          obtain ⟨hlength, hrow⟩ := List.forall₂_iff_get.mp (projectSkillItems_spec hrows).1
          obtain ⟨config', s, hconfig, hpath, -, -⟩ := hrow i hi (hlength ▸ hi)
          rw [List.get_eq_getElem, hget'] at hconfig
          subst hconfig
          obtain ⟨v, hv, hbool⟩ := Option.bind_eq_some_iff.mp hget
          obtain rfl := Option.some.inj hbool
          obtain ⟨rfl, hmem⟩ := projectSkillItems_invert hitem hpath hv hrows hrows'
          refine ⟨s, ?_, sortByKey_atKey rows, (perm_sortByKey rows).mem_iff.mpr hmem⟩
          rw [Toml.get?, hu, Option.bind_some, get?_array, hitem, Option.bind_some, Toml.get?, hpath]
          rfl
      | _ => cases h
  | _ => cases h

end Skills

/-! ### One leaf -/

theorem lookup_invert_of_ne {config : Configuration} {s : Switch} {root : String} (h : root ≠ s.root) :
    (config.invert s).entries.lookup root = config.entries.lookup root :=
  lookup_atKey_of_ne h config.entries

theorem lookup_invert_root {config : Configuration} {s : Switch} {t : Toml}
    (h : config.entries.lookup s.root = some t) :
    (config.invert s).entries.lookup s.root = some (t.invertAt s.path) := by
  rw [Configuration.invert, lookup_atKey_self, h]
  rfl

theorem toggle_eq_ok {controls : Value} {path : List String} {kind : ControlKind} {key : String} {d : Descriptor}
    (h : toggle controls path kind key = .ok (some d)) :
    d.changeClass = .availabilityToggle ∧ d.controlKind = kind ∧ d.controlKey = key := by
  obtain ⟨enabled, -, h⟩ := bind_eq_ok.mp h
  obtain rfl := Option.some.inj (pure_eq_ok.mp h)
  exact ⟨rfl, rfl, rfl⟩

section Local

variable [Runtime] {paths : SkillPaths}

/-- The controls with the switch turned are the controls with its Boolean inverted. -/
theorem controls_invert {config : Configuration} {s : Switch} {b : Bool} {c c' : Controls}
    (hb : config.get? s.root s.path = some (.bool b)) (h : capabilityControls paths config.entries = .ok c)
    (h' : capabilityControls paths (config.invert s).entries = .ok c') :
    c'.toToml = c.toToml.invertAt (s.leafPath paths config) ∧ BoolAt b (s.leafPath paths config) c.toToml := by
  obtain ⟨t, ht, hget⟩ := Option.bind_eq_some_iff.mp hb
  have hroot := lookup_invert_root ht
  obtain ⟨happs, hfeatures, hhooks, hservers, hplugins, hshell, hskills⟩ := capabilityControls_eq_ok h
  obtain ⟨happs', hfeatures', hhooks', hservers', hplugins', hshell', hskills'⟩ := capabilityControls_eq_ok h'
  obtain ⟨apps, features, hooks, servers, plugins, shell, skills⟩ := c
  obtain ⟨apps', features', hooks', servers', plugins', shell', skills'⟩ := c'
  simp only at happs hfeatures hhooks hservers hplugins hshell hskills
  simp only at happs' hfeatures' hhooks' hservers' hplugins' hshell' hskills'
  have hother : ∀ {α : Type} {project : Option Toml → Except ConfigError α} {root : String} {a a' : α},
      root ≠ s.root → project (config.entries.lookup root) = .ok a →
      project ((config.invert s).entries.lookup root) = .ok a' → a' = a := by
    intro α project root a a' hne ha ha'
    rw [lookup_invert_of_ne hne, ha] at ha'
    exact (Except.ok.inj ha').symm
  obtain rfl : features' = features := hother (by cases s <;> simp [Switch.root]) hfeatures hfeatures'
  obtain rfl : hooks' = hooks := hother (by cases s <;> simp [Switch.root]) hhooks hhooks'
  obtain rfl : shell' = shell := hother (by cases s <;> simp [Switch.root]) hshell hshell'
  cases s with
  | app name =>
      obtain rfl : servers' = servers := hother (by simp [Switch.root]) hservers hservers'
      obtain rfl : plugins' = plugins := hother (by simp [Switch.root]) hplugins hplugins'
      obtain rfl : skills' = skills := hother (by simp [Switch.root]) hskills hskills'
      have hgates := gates_of_controls h
      rw [show config.entries.lookup "apps" = some t from ht] at happs
      rw [show (config.invert (.app name)).entries.lookup "apps" = some _ from hroot] at happs'
      obtain ⟨rfl, hnodup, a, ha, rfl⟩ := project_invert (P := fun a => a.enabled = b) (w := AppControl.invert)
        (fun _ => rfl) (fun config' a a' hget' hok hok' => by
          obtain ⟨u, hu, hbool⟩ := Option.bind_eq_some_iff.mp hget'
          obtain rfl := Option.some.inj hbool
          exact projectApp_invert hu hok hok') hget happs happs'
      refine ⟨?_, .under rfl (boolAt_tomlTable hnodup ha (.under rfl .here))⟩
      rw [Controls.toToml, Controls.toToml,
        tomlTable_invert fun a ha => AppControl.toToml_invert (hgates _ ha)]
      rfl
  | mcp name =>
      obtain rfl : apps' = apps := hother (by simp [Switch.root]) happs happs'
      obtain rfl : plugins' = plugins := hother (by simp [Switch.root]) hplugins hplugins'
      obtain rfl : skills' = skills := hother (by simp [Switch.root]) hskills hskills'
      rw [show config.entries.lookup "mcp_servers" = some t from ht] at hservers
      rw [show (config.invert (.mcp name)).entries.lookup "mcp_servers" = some _ from hroot] at hservers'
      obtain ⟨rfl, hnodup, a, ha, rfl⟩ := project_invert (P := fun a => a.enabled = b) (w := McpControl.invert)
        (fun _ => rfl) (fun config' a a' hget' hok hok' => by
          obtain ⟨u, hu, hbool⟩ := Option.bind_eq_some_iff.mp hget'
          obtain rfl := Option.some.inj hbool
          exact projectMcpServer_invert hu hok hok') hget hservers hservers'
      refine ⟨?_, .under rfl (boolAt_tomlTable hnodup ha (.under rfl .here))⟩
      rw [Controls.toToml, Controls.toToml, tomlTable_invert fun a _ => a.toToml_invert]
      rfl
  | plugin name =>
      obtain rfl : apps' = apps := hother (by simp [Switch.root]) happs happs'
      obtain rfl : servers' = servers := hother (by simp [Switch.root]) hservers hservers'
      obtain rfl : skills' = skills := hother (by simp [Switch.root]) hskills hskills'
      rw [show config.entries.lookup "plugins" = some t from ht] at hplugins
      rw [show (config.invert (.plugin name)).entries.lookup "plugins" = some _ from hroot] at hplugins'
      obtain ⟨rfl, hnodup, a, ha, rfl⟩ := project_invert (P := fun a => a.enabled = b) (w := PluginControl.invert)
        (fun _ => rfl) (fun config' a a' hget' hok hok' => by
          obtain ⟨u, hu, hbool⟩ := Option.bind_eq_some_iff.mp hget'
          obtain rfl := Option.some.inj hbool
          exact projectPlugin_invert hu hok hok') hget hplugins hplugins'
      refine ⟨?_, .under rfl (boolAt_tomlTable hnodup ha (.under rfl .here))⟩
      rw [Controls.toToml, Controls.toToml, tomlTable_invert fun a _ => a.toToml_invert]
      rfl
  | pluginMcp pluginName serverName =>
      obtain rfl : apps' = apps := hother (by simp [Switch.root]) happs happs'
      obtain rfl : servers' = servers := hother (by simp [Switch.root]) hservers hservers'
      obtain rfl : skills' = skills := hother (by simp [Switch.root]) hskills hskills'
      rw [show config.entries.lookup "plugins" = some t from ht] at hplugins
      rw [show (config.invert (.pluginMcp pluginName serverName)).entries.lookup "plugins" = some _ from hroot]
        at hplugins'
      obtain ⟨rfl, hnodup, a, ha, hservernodup, hserver⟩ := project_invert
        (w := fun a => PluginControl.invertServer a (controlKey serverName))
        (fun _ => rfl) (fun config' a a' hget' hok hok' => projectPlugin_invertServer hget' hok hok')
        hget hplugins hplugins'
      refine ⟨?_, .under rfl (boolAt_tomlTable hnodup ha (.under rfl
        (boolAt_tomlTable hservernodup hserver (.under rfl .here))))⟩
      rw [Controls.toToml, Controls.toToml,
        tomlTable_invert fun a _ => a.toToml_invertServer (controlKey serverName)]
      rfl
  | skill position =>
      obtain rfl : apps' = apps := hother (by simp [Switch.root]) happs happs'
      obtain rfl : servers' = servers := hother (by simp [Switch.root]) hservers hservers'
      obtain rfl : plugins' = plugins := hother (by simp [Switch.root]) hplugins hplugins'
      have hnodup := nodup_skills hskills
      rw [show config.entries.lookup "skills" = some t from ht] at hskills
      rw [show (config.invert (.skill position)).entries.lookup "skills" = some _ from hroot] at hskills'
      obtain ⟨s, hs, rfl, hmem⟩ := projectSkills_invert hget hskills hskills'
      have hkey : config.skillKeyAt paths position = skillKey paths s := by
        rw [Configuration.skillKeyAt, Configuration.get?, show config.entries.lookup "skills" = some t from ht,
          Option.bind_some, hs]
      rw [Switch.leafPath, hkey]
      refine ⟨?_, .under rfl (boolAt_tomlTable hnodup hmem (.under rfl .here))⟩
      have htable : tomlTable enabledTable (atKey (skillKey paths s) (fun enabled => !enabled) skills)
          = (tomlTable enabledTable skills).invertAt [skillKey paths s, "enabled"] :=
        tomlTable_invert fun _ _ => rfl
      rw [Controls.toToml, Controls.toToml, htable]
      rfl

/-- The hash at a pointer. -/
theorem lookup_leafHashes {es : List (String × Node)} (h : (Node.table es).Ordered) {q x : String} :
    (capabilityConfigLeafHashes (.table es)).lookup q = some x ↔
      ∃ p v, (Node.table es).leafAt p = some v ∧ p ≠ [] ∧ q = pointer p ∧ x = sha256Upper (canonicalJson v) := by
  rw [lookup_eq_some_iff ((sorted_leafHashes h).imp fun hlt => ne_of_lt hlt), mem_leafHashes]
  constructor
  · rintro ⟨⟨p, v⟩, hl, heq⟩
    obtain ⟨rfl, rfl⟩ := Prod.mk.inj heq
    exact ⟨p, v, (mem_leaves _ h p v).mp hl, ne_nil_of_mem_leaves hl, rfl, rfl⟩
  · rintro ⟨p, v, hv, -, rfl, rfl⟩
    exact ⟨(p, v), (mem_leaves _ h p v).mpr hv, rfl⟩

/-- Trees that differ in one leaf have leaf hashes that differ in one pointer. -/
theorem leafHashes_differ {es fs : List (String × Node)} (ha : (Node.table es).Ordered)
    (hb : (Node.table fs).Ordered) {p : List String} {v w : Value} (hp : p ≠ [])
    (hv : (Node.table es).leafAt p = some v) (hw : (Node.table fs).leafAt p = some w)
    (hhash : sha256Upper (canonicalJson w) ≠ sha256Upper (canonicalJson v))
    (hsame : ∀ q, q ≠ p → (Node.table es).leafAt q = (Node.table fs).leafAt q) (q : String) :
    (capabilityConfigLeafHashes (.table fs)).lookup q ≠ (capabilityConfigLeafHashes (.table es)).lookup q ↔
      q = pointer p := by
  constructor
  · intro hne
    by_contra hq
    refine hne (Option.ext fun x => ?_)
    rw [lookup_leafHashes ha, lookup_leafHashes hb]
    refine exists_congr fun r => exists_congr fun u => ?_
    by_cases hr : r = p
    · subst hr
      exact ⟨fun h => absurd h.2.2.1 hq, fun h => absurd h.2.2.1 hq⟩
    · rw [hsame r hr]
  · rintro rfl
    rw [(lookup_leafHashes ha).mpr ⟨p, v, hv, hp, rfl, rfl⟩, (lookup_leafHashes hb).mpr ⟨p, w, hw, hp, rfl, rfl⟩]
    exact fun heq => hhash (Option.some.inj heq)

/-- The leaf of a switch is described as its control. -/
theorem describe_leafPath (controls : Value) (config : Configuration) (s : Switch) {d : Descriptor}
    (h : describe controls (s.leafPath paths config) = .ok (some d)) :
    d.changeClass = .availabilityToggle ∧ d.controlKind = s.kind ∧ d.controlKey = s.controlKey paths config := by
  cases s <;> exact toggle_eq_ok h

theorem leafPath_ne_nil (config : Configuration) (s : Switch) : s.leafPath paths config ≠ [] := by
  cases s <;> exact List.cons_ne_nil _ _

/-- **Control descriptors.**  Every leaf of an accepted configuration has its descriptor, a toggle with what
stands at the leaf; and turning one switch changes the hash of one leaf, that of the control. -/
theorem control_descriptors
    (hhash : sha256Upper (canonicalJson (Scalar.bool true).toValue)
      ≠ sha256Upper (canonicalJson (Scalar.bool false).toValue))
    (config : Configuration) {n : Node} (h : capabilityConfigProjection paths config.entries = .ok n) :
    ∃ ds, capabilityConfigControlDescriptors n = .ok ds ∧
      ds.map Prod.fst = (capabilityConfigLeafHashes n).map Prod.fst ∧
      (∀ q d, (q, d) ∈ ds → d.changeClass = .availabilityToggle →
        ∃ p b, q = pointer p ∧ n.leafAt p = some (Scalar.bool b).toValue ∧ d.enabled = some (.bool b)) ∧
      ∀ (s : Switch) (b : Bool) (m : Node), config.get? s.root s.path = some (.bool b) →
        capabilityConfigProjection paths (config.invert s).entries = .ok m →
          ∃ q d, (q, d) ∈ ds ∧ d.changeClass = .availabilityToggle ∧ d.controlKind = s.kind ∧
            d.controlKey = s.controlKey paths config ∧
            ∀ q', (capabilityConfigLeafHashes m).lookup q' ≠ (capabilityConfigLeafHashes n).lookup q' ↔ q' = q := by
  obtain ⟨ds, hds, hkeys, hmem, htoggles⟩ := controlDescriptors_of_projection config.keyed h
  refine ⟨ds, hds, hkeys, htoggles, fun s b m hb hm => ?_⟩
  obtain ⟨c, es, hc, hkeyed, hn, rfl, hordered⟩ := capabilityConfigProjection_eq_ok config.keyed h
  obtain ⟨c', fs, hc', -, hn', rfl, hordered'⟩ := capabilityConfigProjection_eq_ok (config.invert s).keyed hm
  obtain ⟨htoml, hbool⟩ := controls_invert hb hc hc'
  rw [htoml] at hn'
  obtain ⟨hbefore, hafter, hsame⟩ := leafAt_invertAt hbool hkeyed hn hordered hn' hordered'
  obtain ⟨d, hd, -⟩ := described_of_leaf hkeyed (gates_of_controls hc) hn hbefore
  obtain ⟨hclass, hkind, hkey⟩ := describe_leafPath _ config s hd
  refine ⟨pointer (s.leafPath paths config), d, (hmem _ _).mpr ⟨_, _, hbefore, rfl, hd⟩, hclass, hkind, hkey, ?_⟩
  refine leafHashes_differ hordered hordered' (leafPath_ne_nil config s) hbefore hafter ?_ hsame
  cases b
  · exact hhash
  · exact Ne.symm hhash

end Local

/-! ### A server that is switched off -/

namespace Sample

def serverConfiguration : Configuration where
  entries := [("mcp_servers", .table [("Docs", .table [("enabled", .bool true)])])]
  keyed := by simp [Toml.Keyed, KeyedEntries]

theorem serverConfiguration_accepted : ∃ n m, capabilityConfigProjection paths serverConfiguration.entries = .ok n ∧
    capabilityConfigProjection paths (serverConfiguration.invert (.mcp "Docs")).entries = .ok m := by
  refine ⟨_, _, rfl, rfl⟩

end Sample

open scoped Sample in
theorem control_descriptors_sample : ∃ n m ds q d,
    capabilityConfigProjection Sample.paths Sample.serverConfiguration.entries = .ok n ∧
      capabilityConfigProjection Sample.paths (Sample.serverConfiguration.invert (.mcp "Docs")).entries = .ok m ∧
      capabilityConfigControlDescriptors n = .ok ds ∧ (q, d) ∈ ds ∧ d.controlKind = .mcp ∧
      (capabilityConfigLeafHashes m).lookup q ≠ (capabilityConfigLeafHashes n).lookup q := by
  obtain ⟨n, m, hn, hm⟩ := Sample.serverConfiguration_accepted
  have hhash : sha256Upper (canonicalJson (Scalar.bool true).toValue)
      ≠ sha256Upper (canonicalJson (Scalar.bool false).toValue) := by
    intro heq
    have hjson := Sample.sha256Upper_injective (Set.mem_range_self _) (Set.mem_range_self _) heq
    have hvalue := leafValue_eq Sample.laws (.inl ⟨_, rfl⟩) (.inl ⟨_, rfl⟩) hjson
    exact absurd (Scalar.toValue_injective hvalue) (by decide)
  obtain ⟨ds, hds, -, -, hswitch⟩ := control_descriptors hhash Sample.serverConfiguration hn
  obtain ⟨q, d, hd, -, hkind, -, hdiffer⟩ := hswitch (.mcp "Docs") true m rfl hm
  exact ⟨n, m, ds, q, d, hn, hm, hds, hd, hkind, (hdiffer q).mpr rfl⟩

end CodingOS.ConfigFingerprint
