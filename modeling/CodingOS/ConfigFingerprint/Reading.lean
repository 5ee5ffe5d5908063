import CodingOS.ConfigFingerprint.Normalized
import CodingOS.ConfigFingerprint.Projection

/-!
# What the projection reads

One lemma for each function of the projection: which rows it returns for which entries.  From them, the
controls of a configuration are dicts with distinct keys.
-/

namespace CodingOS.ConfigFingerprint

open CodingOS.Python Systems Systems.Result

/-! ### Rows of a table -/

/-- The dict a value is, or the empty one. -/
def tableEntries : Option Toml → TomlTable
  | some (.table entries) => entries
  | _ => []

/-- A row, as the entry it came from. -/
def rowEntry (row : String × TomlTable) : String × Toml := (row.1, .table row.2)

theorem projectRows_spec {α : Type} {project : String → TomlTable → Except ConfigError α}
    {rows : List (String × TomlTable)} {controls : List (String × α)}
    (h : projectRows project rows = .ok controls) : controls.map Prod.fst = rows.map Prod.fst ∧
      ∀ e ∈ controls, ∃ config, (e.1, config) ∈ rows ∧ project e.1 config = .ok e.2 := by
  induction rows generalizing controls with
  | nil =>
      cases h
      simp
  | cons row rows ih =>
      obtain ⟨key, config⟩ := row
      rw [projectRows] at h
      obtain ⟨control, hcontrol, h⟩ := bind_eq_ok.mp h
      obtain ⟨rest, hrest, h⟩ := bind_eq_ok.mp h
      obtain rfl := pure_eq_ok.mp h
      obtain ⟨hkeys, hall⟩ := ih hrest
      refine ⟨by rw [List.map_cons, List.map_cons, hkeys],
        List.forall_mem_cons.mpr ⟨⟨config, List.mem_cons_self, hcontrol⟩, fun e he => ?_⟩⟩
      obtain ⟨config', hconfig, hproject⟩ := hall e he
      exact ⟨config', List.mem_cons_of_mem _ hconfig, hproject⟩

theorem boolFields_sublist {config : TomlTable} {message : String → String} {names : List String}
    {fields : List (String × Bool)} (h : boolFields config message names = .ok fields) :
    (fields.map Prod.fst).Sublist names := by
  induction names generalizing fields with
  | nil =>
      cases h
      exact List.Sublist.slnil
  | cons name names ih =>
      rw [boolFields] at h
      split at h
      · exact (ih h).cons name
      · obtain ⟨rest, hrest, h⟩ := bind_eq_ok.mp h
        obtain rfl := pure_eq_ok.mp h
        exact (ih hrest).cons_cons name
      · cases h

theorem textFields_sublist {config : TomlTable} {names : List String} {fields : List (String × String)}
    (h : textFields config names = .ok fields) : (fields.map Prod.fst).Sublist names := by
  induction names generalizing fields with
  | nil =>
      cases h
      exact List.Sublist.slnil
  | cons name names ih =>
      rw [textFields] at h
      split at h
      · exact (ih h).cons name
      · obtain ⟨rest, hrest, h⟩ := bind_eq_ok.mp h
        obtain rfl := pure_eq_ok.mp h
        exact (ih hrest).cons_cons name
      · cases h

theorem projectTools_sublist {label : String} {rows : List (String × TomlTable)} {tools : List (String × Bool)}
    (h : projectTools label rows = .ok tools) : (tools.map Prod.fst).Sublist (rows.map Prod.fst) := by
  induction rows generalizing tools with
  | nil =>
      cases h
      exact List.Sublist.slnil
  | cons row rows ih =>
      obtain ⟨toolId, config⟩ := row
      rw [projectTools] at h
      obtain ⟨_, -, h⟩ := bind_eq_ok.mp h
      split at h
      · exact (ih h).cons toolId
      · obtain ⟨rest, hrest, h⟩ := bind_eq_ok.mp h
        obtain rfl := pure_eq_ok.mp h
        exact (ih hrest).cons_cons toolId
      · cases h

theorem presentFields_sublist (config : TomlTable) (names : List String) :
    ((presentFields config names).map Prod.fst).Sublist names := by
  induction names with
  | nil => exact List.Sublist.slnil
  | cons name names ih =>
      rw [presentFields, List.filterMap_cons]
      cases hvalue : config.lookup name with
      | none => exact ih.cons name
      | some v => exact ih.cons_cons name

section Rows

variable [Runtime]

/-- The key a control has in the projection. -/
def controlKey (raw : String) : String := casefold (strip raw)

theorem normalizedControlKey_eq {value label key : String} (h : normalizedControlKey value label = .ok key) :
    key = controlKey value := by
  rw [normalizedControlKey] at h
  obtain ⟨_, -, h⟩ := bind_eq_ok.mp h
  obtain ⟨_, -, h⟩ := bind_eq_ok.mp h
  exact pure_eq_ok.mp h

/-- The rows are the entries, each under its control key, and no two have one key. -/
theorem stableEntries_spec {label : String} {seen : List String} {es : TomlTable}
    {rows : List (String × TomlTable)} (h : stableEntries label seen es = .ok rows) :
    rows.map rowEntry = es.map (fun e => (controlKey e.1, e.2)) ∧ (rows.map Prod.fst).Nodup ∧
      ∀ key ∈ rows.map Prod.fst, key ∉ seen := by
  induction es generalizing seen rows with
  | nil =>
      cases h
      simp
  | cons e es ih =>
      obtain ⟨raw, t⟩ := e
      rw [stableEntries] at h
      obtain ⟨key, hkey, h⟩ := bind_eq_ok.mp h
      obtain ⟨_, hseen, h⟩ := bind_eq_ok.mp h
      rw [ensure_eq_ok] at hseen
      cases t with
      | table config =>
          obtain ⟨rest, hrest, h⟩ := bind_eq_ok.mp h
          obtain rfl := pure_eq_ok.mp h
          obtain ⟨hrows, hnodup, hnew⟩ := ih hrest
          refine ⟨?_, ?_, ?_⟩
          · rw [List.map_cons, List.map_cons, hrows, rowEntry, normalizedControlKey_eq hkey]
          · refine List.nodup_cons.mpr ⟨fun hmem => ?_, hnodup⟩
            exact hnew key hmem List.mem_cons_self
          · refine List.forall_mem_cons.mpr ⟨by simpa using hseen, fun k hk hmem => ?_⟩
            exact hnew k hk (List.mem_cons_of_mem _ hmem)
      | _ => cases h

theorem stableKeyedTable_spec {value : Option Toml} {label : String} {rows : List (String × TomlTable)}
    (h : stableKeyedTable value label = .ok rows) :
    rows.map rowEntry = sortByKey ((tableEntries value).map fun e => (controlKey e.1, e.2)) ∧
      (rows.map Prod.fst).Nodup := by
  cases value with
  | none =>
      cases h
      exact ⟨rfl, List.nodup_nil⟩
  | some t =>
      cases t with
      | table es =>
          rw [stableKeyedTable] at h
          obtain ⟨stable, hstable, h⟩ := bind_eq_ok.mp h
          obtain rfl := pure_eq_ok.mp h
          obtain ⟨hrows, hnodup, -⟩ := stableEntries_spec hstable
          refine ⟨?_, ((perm_sortByKey stable).map Prod.fst).nodup_iff.mpr hnodup⟩
          show _ = sortByKey (es.map fun e => (controlKey e.1, e.2))
          rw [← hrows]
          exact (sortByKey_map Toml.table stable).symm
      | _ => cases h

/-- A row holds a dict of the configuration. -/
theorem mem_stableKeyedTable {value : Option Toml} {label : String} {rows : List (String × TomlTable)}
    (h : stableKeyedTable value label = .ok rows) {row : String × TomlTable} (hrow : row ∈ rows) :
    ∃ raw, (raw, Toml.table row.2) ∈ tableEntries value ∧ controlKey raw = row.1 := by
  have hmem : rowEntry row ∈ rows.map rowEntry := List.mem_map_of_mem hrow
  rw [(stableKeyedTable_spec h).1, (perm_sortByKey _).mem_iff, List.mem_map] at hmem
  obtain ⟨⟨raw, t⟩, he, heq⟩ := hmem
  obtain ⟨hkey, rfl⟩ := Prod.mk.inj heq
  exact ⟨raw, he, hkey⟩

theorem canonicalSkillPath_eq_ok {paths : SkillPaths} {value : Option Toml} {key : String}
    (h : canonicalSkillPath paths value = .ok key) : ∃ s, value = some (.str s) ∧ key = skillKey paths s := by
  rw [canonicalSkillPath.eq_def] at h
  split at h
  · next s =>
      obtain ⟨_, -, h⟩ := bind_eq_ok.mp h
      obtain ⟨_, -, h⟩ := bind_eq_ok.mp h
      exact ⟨s, rfl, pure_eq_ok.mp h⟩
  · cases h

theorem projectSkillItems_spec {paths : SkillPaths} {seen : List String} {position : ℕ} {items : List Toml}
    {rows : List (String × Bool)} (h : projectSkillItems paths seen position items = .ok rows) :
    List.Forall₂ (fun item row => ∃ config s, item = .table config ∧ config.lookup "path" = some (.str s) ∧
        config.lookup "enabled" = some (.bool row.2) ∧ row.1 = skillKey paths s) items rows ∧
      (rows.map Prod.fst).Nodup ∧ ∀ key ∈ rows.map Prod.fst, key ∉ seen := by
  induction items generalizing seen position rows with
  | nil =>
      cases h
      exact ⟨.nil, by simp, by simp⟩
  | cons item items ih =>
      cases item with
      | table config =>
          rw [projectSkillItems] at h
          obtain ⟨_, -, h⟩ := bind_eq_ok.mp h
          obtain ⟨key, hkey, h⟩ := bind_eq_ok.mp h
          split at h
          · next enabled henabled =>
              obtain ⟨_, hseen, h⟩ := bind_eq_ok.mp h
              rw [ensure_eq_ok] at hseen
              obtain ⟨rest, hrest, h⟩ := bind_eq_ok.mp h
              obtain rfl := pure_eq_ok.mp h
              obtain ⟨hrows, hnodup, hnew⟩ := ih hrest
              obtain ⟨s, hpath, hskill⟩ := canonicalSkillPath_eq_ok hkey
              refine ⟨.cons ⟨config, s, rfl, hpath, henabled, hskill⟩ hrows,
                List.nodup_cons.mpr ⟨fun hmem => hnew _ hmem List.mem_cons_self, hnodup⟩,
                List.forall_mem_cons.mpr ⟨by simpa using hseen, fun k hk hmem => ?_⟩⟩
              exact hnew k hk (List.mem_cons_of_mem _ hmem)
          · cases h
      | _ => cases h

end Rows

/-! ### Distinct keys -/

theorem keyed_lookup {es : TomlTable} (h : (Toml.table es).Keyed) {key : String} {t : Toml}
    (ht : es.lookup key = some t) : t.Keyed := by
  rw [Toml.Keyed, keyedEntries_iff] at h
  exact h.2 _ ((lookup_eq_some_iff h.1).mp ht)

theorem keyed_tomlTable {α : Type} {f : α → Toml} {entries : List (String × α)}
    (hkeys : (entries.map Prod.fst).Nodup) (hf : ∀ e ∈ entries, (f e.2).Keyed) : (tomlTable f entries).Keyed := by
  rw [tomlTable, Toml.Keyed, keyedEntries_iff, List.map_map]
  exact ⟨hkeys, List.forall_mem_map.mpr hf⟩

theorem keyed_enabledTable (enabled : Bool) : (enabledTable enabled).Keyed := by
  rw [enabledTable, Toml.Keyed, keyedEntries_iff]
  exact ⟨List.nodup_singleton _, by simp [Toml.Keyed]⟩

theorem keyed_enabledTables {entries : List (String × Bool)} (hkeys : (entries.map Prod.fst).Nodup) :
    (tomlTable enabledTable entries).Keyed := keyed_tomlTable hkeys fun _ _ => keyed_enabledTable _

theorem nodup_features {value : Option Toml} {features : List (String × Bool)}
    (h : projectFeatures value = .ok features) : (features.map Prod.fst).Nodup := by
  rw [projectFeatures.eq_def] at h
  split at h
  · cases h
    exact List.nodup_nil
  · obtain ⟨_, -, h⟩ := bind_eq_ok.mp h
    exact (boolFields_sublist h).nodup (by decide)
  · cases h

theorem keyed_hooks {value : Option Toml} {hooks : TomlTable} (hkeyed : ∀ t, value = some t → t.Keyed)
    (h : projectHooks value = .ok hooks) : (Toml.table hooks).Keyed := by
  rw [projectHooks.eq_def] at h
  rw [Toml.Keyed, keyedEntries_iff]
  split at h
  · cases h
    simp
  · next config =>
      cases h
      have hconfig := hkeyed _ rfl
      rw [Toml.Keyed, keyedEntries_iff] at hconfig
      refine ⟨(List.filter_sublist.map Prod.fst).nodup hconfig.1, fun e he => ?_⟩
      exact hconfig.2 e (List.mem_of_mem_filter he)
  · cases h

theorem shell_sublist {value : Option Toml} {shell : List (String × String)}
    (h : projectShellEnvironment value = .ok shell) : (shell.map Prod.fst).Sublist shellRoutingKeys := by
  rw [projectShellEnvironment.eq_def] at h
  split at h
  · cases h
    exact List.nil_sublist _
  · split at h
    · cases h
      exact List.nil_sublist _
    · exact textFields_sublist h
    · cases h
  · cases h

section Controls

variable [Runtime] {paths : SkillPaths}

theorem keyed_app {appId : String} {config : TomlTable} {c : AppControl} (h : projectApp appId config = .ok c) :
    c.toToml.Keyed ∧ (c.gates.map Prod.fst).Sublist appCapabilityBooleanKeys := by
  rw [projectApp] at h
  obtain ⟨_, -, h⟩ := bind_eq_ok.mp h
  obtain ⟨enabled, -, h⟩ := bind_eq_ok.mp h
  obtain ⟨rows, hrows, h⟩ := bind_eq_ok.mp h
  obtain ⟨tools, htools, h⟩ := bind_eq_ok.mp h
  obtain ⟨gates, hgates, h⟩ := bind_eq_ok.mp h
  obtain rfl := pure_eq_ok.mp h
  have hsub := boolFields_sublist hgates
  refine ⟨?_, hsub⟩
  have htooled := keyed_enabledTables ((projectTools_sublist htools).nodup (stableKeyedTable_spec hrows).2)
  rw [AppControl.toToml, Toml.Keyed, keyedEntries_iff, List.map_append, List.map_map]
  refine ⟨((hsub.cons_cons "tools").cons_cons "enabled").nodup (by decide), fun e he => ?_⟩
  rcases List.mem_append.mp he with he | he
  · simp only [List.mem_cons, List.not_mem_nil, or_false] at he
    obtain rfl | rfl := he
    · exact trivial
    · exact htooled
  · obtain ⟨g, -, rfl⟩ := List.mem_map.mp he
    exact trivial

theorem keyed_mcpServer {serverId : String} {config : TomlTable} {c : McpControl}
    (hkeyed : (Toml.table config).Keyed) (h : projectMcpServer serverId config = .ok c) : c.toToml.Keyed := by
  rw [projectMcpServer] at h
  obtain ⟨_, -, h⟩ := bind_eq_ok.mp h
  obtain ⟨enabled, -, h⟩ := bind_eq_ok.mp h
  obtain ⟨managed, -, h⟩ := bind_eq_ok.mp h
  obtain ⟨_, -, h⟩ := bind_eq_ok.mp h
  obtain ⟨rows, hrows, h⟩ := bind_eq_ok.mp h
  obtain ⟨tools, htools, h⟩ := bind_eq_ok.mp h
  obtain rfl := pure_eq_ok.mp h
  have htooled := keyed_enabledTables ((projectTools_sublist htools).nodup (stableKeyedTable_spec hrows).2)
  have hruntime : (Toml.table (presentFields config mcpRuntimeKeys)).Keyed := by
    rw [Toml.Keyed, keyedEntries_iff]
    refine ⟨(presentFields_sublist config mcpRuntimeKeys).nodup (by decide), fun e he => ?_⟩
    obtain ⟨name, -, hvalue⟩ := List.mem_filterMap.mp he
    obtain ⟨v, hv, rfl⟩ := Option.map_eq_some_iff.mp hvalue
    exact keyed_lookup hkeyed hv
  rw [McpControl.toToml, Toml.Keyed, keyedEntries_iff]
  refine ⟨by simp, ?_⟩
  simp only [List.forall_mem_cons]
  exact ⟨trivial, trivial, hruntime, htooled, by simp⟩

theorem keyed_plugin {pluginId : String} {config : TomlTable} {c : PluginControl}
    (h : projectPlugin pluginId config = .ok c) : c.toToml.Keyed := by
  rw [projectPlugin] at h
  obtain ⟨_, -, h⟩ := bind_eq_ok.mp h
  obtain ⟨enabled, -, h⟩ := bind_eq_ok.mp h
  obtain ⟨rows, hrows, h⟩ := bind_eq_ok.mp h
  obtain ⟨servers, hservers, h⟩ := bind_eq_ok.mp h
  obtain rfl := pure_eq_ok.mp h
  have hnodup : (servers.map Prod.fst).Nodup :=
    (projectRows_spec hservers).1 ▸ (stableKeyedTable_spec hrows).2
  rw [PluginControl.toToml, Toml.Keyed, keyedEntries_iff]
  refine ⟨by simp, ?_⟩
  simp only [List.forall_mem_cons]
  exact ⟨trivial, keyed_enabledTables hnodup, by simp⟩

/-- A row of a dict with distinct keys is one. -/
theorem keyed_row {value : Option Toml} {label : String} {rows : List (String × TomlTable)}
    (hkeyed : ∀ t, value = some t → t.Keyed) (h : stableKeyedTable value label = .ok rows)
    {row : String × TomlTable} (hrow : row ∈ rows) : (Toml.table row.2).Keyed := by
  obtain ⟨raw, hmem, -⟩ := mem_stableKeyedTable h hrow
  cases value with
  | none => cases hmem
  | some t =>
      cases t with
      | table es =>
          have hes := hkeyed _ rfl
          rw [Toml.Keyed, keyedEntries_iff] at hes
          exact hes.2 _ hmem
      | _ => cases hmem

theorem nodup_skills {value : Option Toml} {skills : List (String × Bool)}
    (h : projectSkills paths value = .ok skills) : (skills.map Prod.fst).Nodup := by
  rw [projectSkills.eq_def] at h
  split at h
  · cases h
    exact List.nodup_nil
  · obtain ⟨_, -, h⟩ := bind_eq_ok.mp h
    split at h
    · cases h
      exact List.nodup_nil
    · obtain ⟨rows, hrows, h⟩ := bind_eq_ok.mp h
      obtain rfl := pure_eq_ok.mp h
      exact ((perm_sortByKey rows).map Prod.fst).nodup_iff.mpr (projectSkillItems_spec hrows).2.1
    · cases h
  · cases h

/-- What each part of the controls is read from. -/
theorem capabilityControls_eq_ok {data : TomlTable} {c : Controls} (h : capabilityControls paths data = .ok c) :
    projectApps (data.lookup "apps") = .ok c.apps ∧ projectFeatures (data.lookup "features") = .ok c.features ∧
    projectHooks (data.lookup "hooks") = .ok c.hooks ∧
    projectMcpServers (data.lookup "mcp_servers") = .ok c.mcpServers ∧
    projectPlugins (data.lookup "plugins") = .ok c.plugins ∧
    projectShellEnvironment (data.lookup "shell_environment_policy") = .ok c.shell ∧
    projectSkills paths (data.lookup "skills") = .ok c.skills := by
  rw [capabilityControls] at h
  obtain ⟨_, -, h⟩ := bind_eq_ok.mp h
  obtain ⟨apps, happs, h⟩ := bind_eq_ok.mp h
  obtain ⟨features, hfeatures, h⟩ := bind_eq_ok.mp h
  obtain ⟨hooks, hhooks, h⟩ := bind_eq_ok.mp h
  obtain ⟨servers, hservers, h⟩ := bind_eq_ok.mp h
  obtain ⟨plugins, hplugins, h⟩ := bind_eq_ok.mp h
  obtain ⟨shell, hshell, h⟩ := bind_eq_ok.mp h
  obtain ⟨skills, hskills, h⟩ := bind_eq_ok.mp h
  obtain rfl := pure_eq_ok.mp h
  exact ⟨happs, hfeatures, hhooks, hservers, hplugins, hshell, hskills⟩

/-- **The controls are dicts with distinct keys**, as the configuration is. -/
theorem keyed_controls {data : TomlTable} {c : Controls} (hkeyed : (Toml.table data).Keyed)
    (h : capabilityControls paths data = .ok c) : c.toToml.Keyed := by
  obtain ⟨happs, hfeatures, hhooks, hservers, hplugins, hshell, hskills⟩ := capabilityControls_eq_ok h
  have hroot : ∀ key t, data.lookup key = some t → t.Keyed := fun key t ht => keyed_lookup hkeyed ht
  have hrows : ∀ {α : Type} {project : String → TomlTable → Except ConfigError α} {f : α → Toml}
      {rows : List (String × TomlTable)} {controls : List (String × α)}, (rows.map Prod.fst).Nodup →
      projectRows project rows = .ok controls →
      (∀ key config a, (key, config) ∈ rows → project key config = .ok a → (f a).Keyed) →
      (tomlTable f controls).Keyed := by
    intro α project f rows controls hnodup hproject hf
    obtain ⟨hkeys, hall⟩ := projectRows_spec hproject
    refine keyed_tomlTable (hkeys ▸ hnodup) fun e he => ?_
    obtain ⟨config, hconfig, hok⟩ := hall e he
    exact hf _ _ _ hconfig hok
  rw [projectApps] at happs
  obtain ⟨appRows, happRows, happs⟩ := bind_eq_ok.mp happs
  rw [projectMcpServers] at hservers
  obtain ⟨serverRows, hserverRows, hservers⟩ := bind_eq_ok.mp hservers
  rw [projectPlugins] at hplugins
  obtain ⟨pluginRows, hpluginRows, hplugins⟩ := bind_eq_ok.mp hplugins
  rw [Controls.toToml, Toml.Keyed, keyedEntries_iff]
  refine ⟨by simp, ?_⟩
  simp only [List.forall_mem_cons]
  refine ⟨?_, ?_, ?_, ?_, ?_, ?_, ?_, by simp⟩
  · exact hrows (stableKeyedTable_spec happRows).2 happs fun _ _ _ _ hok => (keyed_app hok).1
  · exact keyed_tomlTable (nodup_features hfeatures) fun _ _ => trivial
  · exact keyed_hooks (hroot _) hhooks
  · refine hrows (stableKeyedTable_spec hserverRows).2 hservers fun _ _ _ hmem hok => ?_
    exact keyed_mcpServer (keyed_row (hroot _) hserverRows hmem) hok
  · exact hrows (stableKeyedTable_spec hpluginRows).2 hplugins fun _ _ _ _ hok => keyed_plugin hok
  · rw [Toml.Keyed, keyedEntries_iff]
    refine ⟨by simp, List.forall_mem_cons.mpr ⟨?_, by simp⟩⟩
    exact keyed_tomlTable ((shell_sublist hshell).nodup (by decide)) fun _ _ => trivial
  · exact keyed_enabledTables (nodup_skills hskills)

/-- A projection is an ordered table. -/
theorem ordered_projection {data : TomlTable} {n : Node} (hkeyed : (Toml.table data).Keyed)
    (h : capabilityConfigProjection paths data = .ok n) : n.Ordered ∧ ∃ es, n = .table es := by
  rw [capabilityConfigProjection] at h
  obtain ⟨c, hc, h⟩ := bind_eq_ok.mp h
  have hcontrols := keyed_controls hkeyed hc
  refine ⟨ordered_normalizeValue _ hcontrols h, ?_⟩
  rw [Controls.toToml, Toml.Keyed] at hcontrols
  rw [Controls.toToml] at h
  obtain ⟨es, hes, -⟩ := normalizeValue_table hcontrols.1 h
  exact ⟨es, hes⟩

end Controls

end CodingOS.ConfigFingerprint
