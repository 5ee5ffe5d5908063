import CodingOS.ConfigFingerprint.Toggles

/-!
# The capability authority of a configuration

`capability_config_authority` of `capability_config_fingerprint.py`.  Beside the fingerprint it returns three
lists read from the raw configuration: the names in them are spelled as in the file, while the projection
trims and folds them.  So the fingerprint tells the lists up to that spelling.
-/

namespace CodingOS.ConfigFingerprint

open CodingOS.Python Systems Systems.Result

/-! ### The lists -/

/-- In which order a set of texts is iterated. -/
structure SetOrder where
  order : Finset String → List String
  mem_order : ∀ s x, x ∈ order s ↔ x ∈ s

section Lists

variable [Runtime]

/-- `sorted(set(names), key=str.casefold)`. -/
def sortedByCasefold (sets : SetOrder) (names : List String) : List String :=
  (sets.order names.toFinset).insertionSort fun a b => casefold a ≤ casefold b

/-- The loop of `_configured_disabled_skill_paths`. -/
def disabledSkillItems (paths : SkillPaths) : ℕ → List Toml → Except ConfigError (List String)
  | _, [] => .ok []
  | position, .table config :: items =>
      match config.lookup "path" with
      | some (.str s) => do
          ensure (strip s != "") (skillMessage position " must have a non-empty path")
          ensure (paths.isAbsolute s) (skillMessage position " path must be absolute")
          match config.lookup "enabled" with
          | some (.bool enabled) => do
              let rest ← disabledSkillItems paths (position + 1) items
              return if enabled then rest else paths.resolve s :: rest
          | _ => .error ⟨skillMessage position " must have a Boolean enabled value"⟩
      | _ => .error ⟨skillMessage position " must have a non-empty path"⟩
  | position, _ :: _ => .error ⟨skillMessage position " must be a table"⟩

/-- `_configured_disabled_skill_paths`. -/
def configuredDisabledSkillPaths (paths : SkillPaths) (sets : SetOrder) (data : TomlTable) :
    Except ConfigError (List String) :=
  match data.lookup "skills" with
  | none => .ok []
  | some (.table skills) =>
      match skills.lookup "config" with
      | none => .ok (sortedByCasefold sets [])
      | some (.array items) => do
          let disabled ← disabledSkillItems paths 0 items
          return sortedByCasefold sets disabled
      | some _ => .error ⟨"skills.config must be an array of tables"⟩
  | some _ => .error ⟨"skills must be a table"⟩

/-- The servers of a table that say `enabled = false`. -/
def disabledServers (label : String) : TomlTable → Except ConfigError (List (String × TomlTable))
  | [] => .ok []
  | (name, .table config) :: es => do
      let rest ← disabledServers label es
      return if config.lookup "enabled" matches some (.bool false) then (name, config) :: rest else rest
  | (name, _) :: _ => .error ⟨label ++ "." ++ name ++ " must be a table"⟩

/-- `data.get(key, {})`, which must be a dict. -/
def dictField (data : TomlTable) (key message : String) : Except ConfigError TomlTable :=
  match data.lookup key with
  | none => .ok []
  | some (.table entries) => .ok entries
  | some _ => .error ⟨message⟩

/-- The servers of the plugins that say `enabled = false`. -/
def disabledPluginServers : TomlTable → Except ConfigError (List (String × TomlTable))
  | [] => .ok []
  | (name, .table plugin) :: es => do
      let label := "plugins." ++ name ++ ".mcp_servers"
      let servers ← dictField plugin "mcp_servers" (label ++ " must be a table")
      let disabled ← disabledServers label servers
      let rest ← disabledPluginServers es
      return disabled ++ rest
  | (name, _) :: _ => .error ⟨"plugins." ++ name ++ " must be a table"⟩

/-- `_configured_mcp_controls`: the servers that are disabled, and those of them a gateway manages. -/
def configuredMcpControls (sets : SetOrder) (data : TomlTable) :
    Except ConfigError (List String × List String) := do
  let servers ← dictField data "mcp_servers" "mcp_servers must be a table"
  let disabled ← disabledServers "mcp_servers" servers
  let plugins ← dictField data "plugins" "plugins must be a table"
  let nested ← disabledPluginServers plugins
  let managed := disabled.filter fun e => e.2.lookup "gateway_managed" matches some (.bool true)
  return (sortedByCasefold sets ((disabled ++ nested).map Prod.fst), sortedByCasefold sets (managed.map Prod.fst))

end Lists

/-! ### The authority -/

/-- How a configuration file is read. -/
structure ConfigReader where
  /-- `tomllib.loads(raw.decode("utf-8-sig"))`. -/
  parse : List UInt8 → Except String Configuration
  /-- `hashlib.sha256(raw).hexdigest().upper()`. -/
  rawSha256 : List UInt8 → String

structure ConfigAuthority where
  sha256 : String
  rawSha256 : String
  projectionLeafHashes : List (String × String)
  controlDescriptors : List (String × Descriptor)
  disabledSkillPaths : List String
  explicitlyDisabledMcpNames : List String
  gatewayManagedMcpNames : List String

def liftConfig {α : Type} : Except ConfigError α → Except DescriptorError α
  | .ok a => .ok a
  | .error e => .error (.config e)

/-- `capability_config_authority`, on the bytes of the file. -/
def capabilityConfigAuthority [Runtime] (reader : ConfigReader) (paths : SkillPaths) (sets : SetOrder)
    (raw : List UInt8) : Except DescriptorError ConfigAuthority :=
  match reader.parse raw with
  | .error message => .error (.config ⟨"cannot parse capability config: " ++ message⟩)
  | .ok config => do
      let projection ← liftConfig (capabilityConfigProjection paths config.entries)
      let controlDescriptors ← capabilityConfigControlDescriptors projection
      let controls ← liftConfig (configuredMcpControls sets config.entries)
      let disabledSkillPaths ← liftConfig (configuredDisabledSkillPaths paths sets config.entries)
      return {
        sha256 := projectionDigest projection
        rawSha256 := reader.rawSha256 raw
        projectionLeafHashes := capabilityConfigLeafHashes projection
        controlDescriptors := controlDescriptors
        disabledSkillPaths := disabledSkillPaths
        explicitlyDisabledMcpNames := controls.1
        gatewayManagedMcpNames := controls.2 }

/-! ### What a leaf says of the value it came from -/

theorem normalizeValue_scalar {t : Toml} {path : List String} {n : Node}
    (h : normalizeValue path t = .ok n) :
    (∃ es, t = .table es) ∨ (∃ items, t = .array items) ∨
      ∃ s, n = .scalar s ∧ (∀ b, s = .bool b ↔ t = .bool b) ∧ ∀ key path, t.get? (key :: path) = none := by
  cases t with
  | table es => exact .inl ⟨es, rfl⟩
  | array items => exact .inr (.inl ⟨items, rfl⟩)
  | str s =>
      refine .inr (.inr ?_)
      rw [normalizeValue] at h
      split at h
      · split at h
        · cases h
          exact ⟨_, rfl, by simp, fun _ _ => rfl⟩
        · cases h
      · cases h
        exact ⟨_, rfl, by simp, fun _ _ => rfl⟩
  | float q =>
      refine .inr (.inr ?_)
      cases q with
      | none =>
          rw [normalizeValue, besidesPipe_eq_ok] at h
          cases h.2
      | some q =>
          rw [normalizeValue, besidesPipe_eq_ok] at h
          cases h.2
          exact ⟨_, rfl, by simp, fun _ _ => rfl⟩
  | _ =>
      refine .inr (.inr ?_)
      rw [normalizeValue, besidesPipe_eq_ok] at h
      cases h.2
      exact ⟨_, rfl, by simp, fun _ _ => rfl⟩

/-- **A Boolean leaf** stands where the Boolean stood. -/
theorem leafAt_eq_bool_iff {b : Bool} (p : List String) {t : Toml} (hkeyed : t.Keyed) {path : List String} {n : Node}
    (h : normalizeValue path t = .ok n) :
    n.leafAt p = some (Scalar.bool b).toValue ↔ t.get? p = some (.bool b) := by
  have hordered := ordered_normalizeValue t hkeyed h
  induction p generalizing t path n with
  | nil =>
      rcases normalizeValue_scalar h with ⟨es, rfl⟩ | ⟨items, rfl⟩ | ⟨s, rfl, hs, -⟩
      · rw [Toml.Keyed] at hkeyed
        obtain ⟨ns, rfl, -⟩ := normalizeValue_table hkeyed.1 h
        simp [Node.leafAt, Toml.get?]
      · obtain ⟨ns, rfl, -⟩ := normalizeValue_array h
        simp [Node.leafAt, Toml.get?]
      · rw [Node.leafAt, Toml.get?, Option.some.injEq, Option.some.injEq, ← hs b]
        exact ⟨fun heq => Scalar.toValue_injective heq, fun heq => by rw [heq]⟩
  | cons key p ih =>
      rcases normalizeValue_scalar h with ⟨es, rfl⟩ | ⟨items, rfl⟩ | ⟨s, rfl, -, hnone⟩
      · have hkeys := hkeyed
        rw [Toml.Keyed] at hkeys
        obtain ⟨ns, rfl, -, -, hsome, hns⟩ := normalizeValue_table hkeys.1 h
        rw [leafAt_cons hordered (.inr fun _ hne => by cases hne), Toml.get?, Option.bind_eq_some_iff]
        constructor
        · rintro ⟨c, hc, hv⟩
          obtain ⟨t, ht, hn⟩ := (hns key c).mp hc
          exact ⟨t, ht, (ih (keyed_lookup hkeyed ht) hn (ordered_children hordered hc)).mp hv⟩
        · rintro ⟨t, ht, hget⟩
          obtain ⟨c, hn⟩ := hsome key t ht
          have hc := (hns key c).mpr ⟨t, ht, hn⟩
          exact ⟨c, hc, (ih (keyed_lookup hkeyed ht) hn (ordered_children hordered hc)).mpr hget⟩
      · obtain ⟨ns, rfl, hlength, hitems⟩ := normalizeValue_array h
        rw [Toml.Keyed, keyedItems_iff] at hkeyed
        by_cases hkey : key = "@type"
        · subst hkey
          have hget : (Toml.array items).get? ("@type" :: p) = none := by
            cases hget : (Toml.array items).get? ("@type" :: p) with
            | none => rfl
            | some u =>
                obtain ⟨t, ht, -⟩ := Option.bind_eq_some_iff.mp hget
                obtain ⟨e, -, heq⟩ := List.mem_map.mp ((lookup_eq_some_iff (nodup_indices items)).mp ht)
                exact absurd (Prod.mk.inj heq).1 (toString_ne_type e.2)
          rw [hget, Node.leafAt, if_pos rfl]
          constructor
          · intro hv
            split at hv
            · exact absurd (Option.some.inj hv).symm (Scalar.toValue_ne_marker _ _)
            · cases hv
          · intro hv
            cases hv
        · rw [leafAt_cons hordered (.inl hkey), Toml.get?, Option.bind_eq_some_iff]
          constructor
          · rintro ⟨c, hc, hv⟩
            obtain ⟨⟨c, i⟩, he, heq⟩ := List.mem_map.mp hc
            obtain ⟨rfl, rfl⟩ := Prod.mk.inj heq
            have hci := List.mk_mem_zipIdx_iff_getElem?.mp he
            obtain ⟨hi, -⟩ := List.getElem?_eq_some_iff.mp hci
            have hti : items[i]? = some items[i] := List.getElem?_eq_getElem (hlength ▸ hi)
            refine ⟨items[i], (lookup_eq_some_iff (nodup_indices items)).mpr (List.mem_map.mpr
              ⟨(items[i], i), List.mk_mem_zipIdx_iff_getElem?.mpr hti, rfl⟩), ?_⟩
            exact (ih (hkeyed _ (List.getElem_mem _)) (hitems i _ _ hti hci) (ordered_children hordered hc)).mp hv
          · rintro ⟨t, ht, hget⟩
            obtain ⟨⟨t, i⟩, he, heq⟩ := List.mem_map.mp ((lookup_eq_some_iff (nodup_indices items)).mp ht)
            obtain ⟨rfl, rfl⟩ := Prod.mk.inj heq
            have hti := List.mk_mem_zipIdx_iff_getElem?.mp he
            obtain ⟨hi, -⟩ := List.getElem?_eq_some_iff.mp hti
            have hci : ns[i]? = some ns[i] := List.getElem?_eq_getElem (hlength ▸ hi)
            have hchild : (toString i, ns[i]) ∈ (Node.array ns).children :=
              List.mem_map.mpr ⟨(ns[i], i), List.mk_mem_zipIdx_iff_getElem?.mpr hci, rfl⟩
            refine ⟨ns[i], hchild, ?_⟩
            exact (ih (hkeyed _ (List.mem_of_getElem? hti)) (hitems i _ _ hti hci)
              (ordered_children hordered hchild)).mpr hget
      · rw [hnone]
        simp [Node.leafAt]

/-! ### What the lists hold -/

/-- A skill that the item says is disabled. -/
def DisabledSkill (items : List Toml) (s : String) : Prop :=
  ∃ config, Toml.table config ∈ items ∧ config.lookup "path" = some (.str s) ∧
    config.lookup "enabled" = some (.bool false)

theorem disabledSkillItems_spec {paths : SkillPaths} {items : List Toml} {position : ℕ} {disabled : List String}
    (h : disabledSkillItems paths position items = .ok disabled) (x : String) :
    x ∈ disabled ↔ ∃ s, DisabledSkill items s ∧ x = paths.resolve s := by
  induction items generalizing position disabled with
  | nil =>
      cases h
      simp [DisabledSkill]
  | cons item items ih =>
      cases item with
      | table config =>
          rw [disabledSkillItems] at h
          split at h
          · next s hs =>
              obtain ⟨_, -, h⟩ := bind_eq_ok.mp h
              obtain ⟨_, -, h⟩ := bind_eq_ok.mp h
              split at h
              · next enabled henabled =>
                  obtain ⟨rest, hrest, h⟩ := bind_eq_ok.mp h
                  obtain rfl := pure_eq_ok.mp h
                  have hcons : (∃ s', DisabledSkill (.table config :: items) s' ∧ x = paths.resolve s') ↔
                      (enabled = false ∧ x = paths.resolve s) ∨ ∃ s', DisabledSkill items s' ∧ x = paths.resolve s' := by
                    constructor
                    · rintro ⟨s', ⟨config', hmem, hpath, hfalse⟩, rfl⟩
                      rcases List.mem_cons.mp hmem with heq | hmem
                      · cases heq
                        rw [hs] at hpath
                        rw [henabled] at hfalse
                        cases hpath
                        exact .inl ⟨by simpa using hfalse, rfl⟩
                      · exact .inr ⟨s', ⟨config', hmem, hpath, hfalse⟩, rfl⟩
                    · rintro (⟨rfl, rfl⟩ | ⟨s', ⟨config', hmem, hpath, hfalse⟩, rfl⟩)
                      · exact ⟨s, ⟨config, List.mem_cons_self, hs, henabled⟩, rfl⟩
                      · exact ⟨s', ⟨config', List.mem_cons_of_mem _ hmem, hpath, hfalse⟩, rfl⟩
                  rw [hcons, ← ih hrest]
                  cases enabled <;> simp
              · cases h
          · cases h
      | _ => cases h

theorem disabledServers_spec {label : String} {es : TomlTable} {disabled : List (String × TomlTable)}
    (h : disabledServers label es = .ok disabled) (e : String × TomlTable) :
    e ∈ disabled ↔ (e.1, Toml.table e.2) ∈ es ∧ e.2.lookup "enabled" = some (.bool false) := by
  induction es generalizing disabled with
  | nil =>
      cases h
      simp
  | cons e₀ es ih =>
      obtain ⟨name, t⟩ := e₀
      cases t with
      | table config =>
          rw [disabledServers] at h
          obtain ⟨rest, hrest, h⟩ := bind_eq_ok.mp h
          obtain rfl := pure_eq_ok.mp h
          have hmatch : (config.lookup "enabled" matches some (.bool false)) = true ↔
              config.lookup "enabled" = some (.bool false) := by
            split <;> simp_all
          by_cases hfalse : config.lookup "enabled" = some (.bool false)
          · rw [if_pos (hmatch.mpr hfalse), List.mem_cons, ih hrest, List.mem_cons, or_and_right]
            refine or_congr_left ⟨?_, ?_⟩
            · rintro rfl
              exact ⟨rfl, hfalse⟩
            · rintro ⟨heq, -⟩
              obtain ⟨hname, htable⟩ := Prod.mk.inj heq
              exact Prod.ext hname (Toml.table.inj htable)
          · rw [if_neg fun htrue => hfalse (hmatch.mp htrue), ih hrest, List.mem_cons, or_and_right]
            refine (or_iff_right ?_).symm
            rintro ⟨heq, henabled⟩
            obtain ⟨-, htable⟩ := Prod.mk.inj heq
            rw [Toml.table.inj htable] at henabled
            exact hfalse henabled
      | _ => cases h

theorem dictField_eq_ok {data es : TomlTable} {key message : String} (h : dictField data key message = .ok es) :
    es = tableEntries (data.lookup key) := by
  rw [dictField] at h
  split at h
  · next hnone =>
      cases h
      rw [hnone]
      rfl
  · next hsome =>
      cases h
      rw [hsome]
      rfl
  · cases h

theorem disabledPluginServers_spec {es : TomlTable} {disabled : List (String × TomlTable)}
    (h : disabledPluginServers es = .ok disabled) (e : String × TomlTable) :
    e ∈ disabled ↔ ∃ name plugin, (name, Toml.table plugin) ∈ es ∧
      (e.1, Toml.table e.2) ∈ tableEntries (plugin.lookup "mcp_servers") ∧
      e.2.lookup "enabled" = some (.bool false) := by
  induction es generalizing disabled with
  | nil =>
      cases h
      simp
  | cons e₀ es ih =>
      obtain ⟨name, t⟩ := e₀
      cases t with
      | table plugin =>
          rw [disabledPluginServers] at h
          obtain ⟨servers, hservers, h⟩ := bind_eq_ok.mp h
          obtain ⟨first, hfirst, h⟩ := bind_eq_ok.mp h
          obtain ⟨rest, hrest, h⟩ := bind_eq_ok.mp h
          obtain rfl := pure_eq_ok.mp h
          rw [List.mem_append, disabledServers_spec hfirst, dictField_eq_ok hservers, ih hrest]
          constructor
          · rintro (hmem | ⟨name', plugin', hmem, hserver⟩)
            · exact ⟨name, plugin, List.mem_cons_self, hmem⟩
            · exact ⟨name', plugin', List.mem_cons_of_mem _ hmem, hserver⟩
          · rintro ⟨name', plugin', hmem, hserver⟩
            rcases List.mem_cons.mp hmem with heq | hmem
            · cases heq
              exact .inl hserver
            · exact .inr ⟨name', plugin', hmem, hserver⟩
      | _ => cases h

theorem lookup_of_boolField {config : TomlTable} {name message : String} {default b : Bool}
    (h : boolField config name default message = .ok b) (hb : b ≠ default) :
    config.lookup name = some (.bool b) := by
  rw [boolField] at h
  split at h
  · exact absurd (Except.ok.inj h).symm hb
  · next b' hb' =>
      obtain rfl := Except.ok.inj h
      exact hb'
  · cases h

section Specs

variable [Runtime] {paths : SkillPaths} {sets : SetOrder}

theorem mem_sortedByCasefold {names : List String} {x : String} :
    x ∈ sortedByCasefold sets names ↔ x ∈ names := by
  rw [sortedByCasefold, List.mem_insertionSort, sets.mem_order, List.mem_toFinset]

theorem mem_projectSkillItems {seen : List String} {items : List Toml} {position : ℕ} {rows : List (String × Bool)}
    (h : projectSkillItems paths seen position items = .ok rows) (key : String) :
    (key, false) ∈ rows ↔ ∃ s, DisabledSkill items s ∧ key = skillKey paths s := by
  obtain ⟨hrows, -, -⟩ := projectSkillItems_spec h
  clear h
  induction hrows with
  | nil => simp [DisabledSkill]
  | @cons item row items rows hrow _ ih =>
      obtain ⟨config, s, rfl, hpath, henabled, hkey⟩ := hrow
      rw [List.mem_cons, ih]
      constructor
      · rintro (rfl | ⟨s', ⟨config', hmem, hpath', hfalse⟩, rfl⟩)
        · exact ⟨s, ⟨config, List.mem_cons_self, hpath, henabled⟩, hkey⟩
        · exact ⟨s', ⟨config', List.mem_cons_of_mem _ hmem, hpath', hfalse⟩, rfl⟩
      · rintro ⟨s', ⟨config', hmem, hpath', hfalse⟩, rfl⟩
        rcases List.mem_cons.mp hmem with heq | hmem
        · cases heq
          rw [hpath] at hpath'
          rw [henabled] at hfalse
          cases hpath'
          have hrow : row.2 = false := by simpa using hfalse
          exact .inl (Prod.ext hkey.symm hrow.symm)
        · exact .inr ⟨s', ⟨config', hmem, hpath', hfalse⟩, rfl⟩

/-- The disabled skills, up to the spelling of their paths. -/
theorem mem_disabledSkillPaths {data : TomlTable} {skills : List (String × Bool)} {disabled : List String}
    (hskills : projectSkills paths (data.lookup "skills") = .ok skills)
    (h : configuredDisabledSkillPaths paths sets data = .ok disabled) (key : String) :
    key ∈ disabled.map (fun p => casefold (paths.normcase p)) ↔ (key, false) ∈ skills := by
  rw [configuredDisabledSkillPaths] at h
  split at h
  · next hnone =>
      cases h
      rw [hnone, projectSkills] at hskills
      cases hskills
      simp
  · next config hsome =>
      rw [hsome, projectSkills] at hskills
      obtain ⟨_, -, hskills⟩ := bind_eq_ok.mp hskills
      split at h
      · next hnone =>
          cases h
          rw [hnone] at hskills
          cases hskills
          simp [mem_sortedByCasefold]
      · next items hitems =>
          rw [hitems] at hskills
          obtain ⟨rows, hrows, hskills⟩ := bind_eq_ok.mp hskills
          obtain rfl := pure_eq_ok.mp hskills
          obtain ⟨names, hnames, h⟩ := bind_eq_ok.mp h
          obtain rfl := pure_eq_ok.mp h
          rw [(perm_sortByKey rows).mem_iff, mem_projectSkillItems hrows, List.mem_map]
          constructor
          · rintro ⟨x, hx, rfl⟩
            obtain ⟨s, hs, rfl⟩ := (disabledSkillItems_spec hnames x).mp (mem_sortedByCasefold.mp hx)
            exact ⟨s, hs, rfl⟩
          · rintro ⟨s, hs, rfl⟩
            exact ⟨paths.resolve s, mem_sortedByCasefold.mpr ((disabledSkillItems_spec hnames _).mpr ⟨s, hs, rfl⟩), rfl⟩
      · cases h
  · cases h

/-- The row of an entry that is a dict. -/
theorem row_of_entry {value : Option Toml} {label raw : String} {rows : List (String × TomlTable)}
    {config : TomlTable} (h : stableKeyedTable value label = .ok rows)
    (hraw : (raw, Toml.table config) ∈ tableEntries value) : (controlKey raw, config) ∈ rows := by
  have hmem : (controlKey raw, Toml.table config) ∈ rows.map rowEntry := by
    rw [(stableKeyedTable_spec h).1, (perm_sortByKey _).mem_iff]
    exact List.mem_map.mpr ⟨_, hraw, rfl⟩
  obtain ⟨⟨key, config'⟩, hrow, heq⟩ := List.mem_map.mp hmem
  obtain ⟨hkey, htable⟩ := Prod.mk.inj heq
  obtain rfl := Toml.table.inj htable
  exact hkey ▸ hrow

section Projected

variable {α : Type} {project : String → TomlTable → Except ConfigError α} {value : Option Toml} {label : String}
  {controls : List (String × α)}

/-- Every dict of an accepted table is projected. -/
theorem exists_project (h : (stableKeyedTable value label >>= projectRows project) = .ok controls) {raw : String}
    {config : TomlTable} (hraw : (raw, Toml.table config) ∈ tableEntries value) :
    ∃ a, (controlKey raw, a) ∈ controls ∧ project (controlKey raw) config = .ok a := by
  obtain ⟨rows, hrows, hproject⟩ := bind_eq_ok.mp h
  exact mem_projectRows hproject (row_of_entry hrows hraw)

/-- What a table of controls is projected to. -/
theorem mem_project (h : (stableKeyedTable value label >>= projectRows project) = .ok controls) {key : String}
    {a : α} (hmem : (key, a) ∈ controls) : ∃ raw config, (raw, Toml.table config) ∈ tableEntries value ∧
      controlKey raw = key ∧ project key config = .ok a := by
  obtain ⟨rows, hrows, hproject⟩ := bind_eq_ok.mp h
  obtain ⟨config, hrow, hok⟩ := (projectRows_spec hproject).2 _ hmem
  obtain ⟨raw, hraw, hkey⟩ := mem_stableKeyedTable hrows hrow
  exact ⟨raw, config, hraw, hkey, hok⟩

end Projected

theorem mcpServer_enabled {key : String} {config : TomlTable} {m : McpControl}
    (h : projectMcpServer key config = .ok m) :
    (m.enabled = false ↔ config.lookup "enabled" = some (.bool false)) ∧
      (m.gatewayManaged = true ↔ config.lookup "gateway_managed" = some (.bool true)) ∧
      (m.gatewayManaged = true → m.enabled = false) := by
  rw [projectMcpServer] at h
  obtain ⟨_, -, h⟩ := bind_eq_ok.mp h
  obtain ⟨enabled, henabled, h⟩ := bind_eq_ok.mp h
  obtain ⟨managed, hmanaged, h⟩ := bind_eq_ok.mp h
  obtain ⟨_, hensure, h⟩ := bind_eq_ok.mp h
  rw [ensure_eq_ok] at hensure
  obtain ⟨rows, -, h⟩ := bind_eq_ok.mp h
  obtain ⟨tools, -, h⟩ := bind_eq_ok.mp h
  obtain rfl := pure_eq_ok.mp h
  refine ⟨⟨?_, ?_⟩, ⟨?_, ?_⟩, ?_⟩
  · rintro rfl
    exact lookup_of_boolField henabled (by decide)
  · intro hfalse
    rw [boolField, hfalse] at henabled
    exact (Except.ok.inj henabled).symm
  · rintro rfl
    exact lookup_of_boolField hmanaged (by decide)
  · intro htrue
    rw [boolField, htrue] at hmanaged
    exact (Except.ok.inj hmanaged).symm
  · rintro rfl
    simpa using hensure

theorem plugin_servers {key : String} {config : TomlTable} {c : PluginControl}
    (h : projectPlugin key config = .ok c) (server : String) : (server, false) ∈ c.mcpServers ↔
      ∃ raw config', (raw, Toml.table config') ∈ tableEntries (config.lookup "mcp_servers") ∧
        controlKey raw = server ∧ config'.lookup "enabled" = some (.bool false) := by
  rw [projectPlugin] at h
  obtain ⟨_, -, h⟩ := bind_eq_ok.mp h
  obtain ⟨enabled, -, h⟩ := bind_eq_ok.mp h
  obtain ⟨rows, hrows, h⟩ := bind_eq_ok.mp h
  obtain ⟨servers, hservers, h⟩ := bind_eq_ok.mp h
  obtain rfl := pure_eq_ok.mp h
  have hok : ∀ {raw : String} {config' : TomlTable} {a : Bool}, projectPluginServer key raw config' = .ok a →
      config'.lookup "enabled" = some (.bool a) := by
    intro raw config' a ha
    rw [projectPluginServer] at ha
    obtain ⟨_, -, ha⟩ := bind_eq_ok.mp ha
    split at ha
    · next b hb =>
        obtain rfl := Except.ok.inj ha
        exact hb
    · cases ha
  constructor
  · intro hmem
    obtain ⟨raw, config', hraw, hkey, ha⟩ := mem_project (bind_eq_ok.mpr ⟨rows, hrows, hservers⟩) hmem
    exact ⟨raw, config', hraw, hkey, hok ha⟩
  · rintro ⟨raw, config', hraw, rfl, hfalse⟩
    obtain ⟨a, ha, hproject⟩ := exists_project (bind_eq_ok.mpr ⟨rows, hrows, hservers⟩) hraw
    have hvalue := hok hproject
    rw [hfalse] at hvalue
    cases hvalue
    exact ha

/-- The servers that are disabled, up to the spelling of their names. -/
theorem mem_disabledMcp {data : TomlTable} {servers : List (String × McpControl)}
    {plugins : List (String × PluginControl)} {lists : List String × List String}
    (hservers : projectMcpServers (data.lookup "mcp_servers") = .ok servers)
    (hplugins : projectPlugins (data.lookup "plugins") = .ok plugins)
    (h : configuredMcpControls sets data = .ok lists) (key : String) :
    (key ∈ lists.1.map controlKey ↔ (∃ m, (key, m) ∈ servers ∧ m.enabled = false) ∨
      ∃ pluginKey c, (pluginKey, c) ∈ plugins ∧ (key, false) ∈ c.mcpServers) ∧
    (key ∈ lists.2.map controlKey ↔ ∃ m, (key, m) ∈ servers ∧ m.gatewayManaged = true) := by
  rw [configuredMcpControls] at h
  obtain ⟨es, hes, h⟩ := bind_eq_ok.mp h
  obtain ⟨disabled, hdisabled, h⟩ := bind_eq_ok.mp h
  obtain ⟨ps, hps, h⟩ := bind_eq_ok.mp h
  obtain ⟨nested, hnested, h⟩ := bind_eq_ok.mp h
  obtain rfl := pure_eq_ok.mp h
  rw [dictField_eq_ok hes] at hdisabled
  rw [dictField_eq_ok hps] at hnested
  have hnames : ∀ rows : List (String × TomlTable),
      key ∈ (sortedByCasefold sets (rows.map Prod.fst)).map controlKey ↔ ∃ e ∈ rows, controlKey e.1 = key := by
    intro rows
    rw [List.mem_map]
    constructor
    · rintro ⟨name, hname, rfl⟩
      obtain ⟨e, he, rfl⟩ := List.mem_map.mp (mem_sortedByCasefold.mp hname)
      exact ⟨e, he, rfl⟩
    · rintro ⟨e, he, rfl⟩
      exact ⟨e.1, mem_sortedByCasefold.mpr (List.mem_map_of_mem he), rfl⟩
  have htop : (∃ e ∈ disabled, controlKey e.1 = key) ↔ ∃ m, (key, m) ∈ servers ∧ m.enabled = false := by
    constructor
    · rintro ⟨e, he, rfl⟩
      obtain ⟨hraw, hfalse⟩ := (disabledServers_spec hdisabled e).mp he
      obtain ⟨m, hm, hok⟩ := exists_project hservers hraw
      exact ⟨m, hm, (mcpServer_enabled hok).1.mpr hfalse⟩
    · rintro ⟨m, hm, hfalse⟩
      obtain ⟨raw, config, hraw, hkey, hok⟩ := mem_project hservers hm
      exact ⟨(raw, config), (disabledServers_spec hdisabled _).mpr ⟨hraw, (mcpServer_enabled hok).1.mp hfalse⟩, hkey⟩
  have hnestedIff : (∃ e ∈ nested, controlKey e.1 = key) ↔
      ∃ pluginKey c, (pluginKey, c) ∈ plugins ∧ (key, false) ∈ c.mcpServers := by
    constructor
    · rintro ⟨e, he, rfl⟩
      obtain ⟨name, plugin, hplugin, hserver⟩ := (disabledPluginServers_spec hnested e).mp he
      obtain ⟨c, hc, hok⟩ := exists_project hplugins hplugin
      exact ⟨controlKey name, c, hc, (plugin_servers hok _).mpr ⟨e.1, e.2, hserver.1, rfl, hserver.2⟩⟩
    · rintro ⟨pluginKey, c, hc, hmem⟩
      obtain ⟨name, plugin, hplugin, -, hok⟩ := mem_project hplugins hc
      obtain ⟨raw, config, hraw, hkey, hfalse⟩ := (plugin_servers hok key).mp hmem
      exact ⟨(raw, config), (disabledPluginServers_spec hnested _).mpr ⟨name, plugin, hplugin, hraw, hfalse⟩, hkey⟩
  refine ⟨?_, ?_⟩
  · rw [hnames, ← htop, ← hnestedIff, ← exists_or]
    refine exists_congr fun e => ?_
    rw [List.mem_append, or_and_right]
  · rw [hnames]
    constructor
    · rintro ⟨e, he, rfl⟩
      obtain ⟨he, htrue⟩ := List.mem_filter.mp he
      obtain ⟨hraw, -⟩ := (disabledServers_spec hdisabled e).mp he
      obtain ⟨m, hm, hok⟩ := exists_project hservers hraw
      refine ⟨m, hm, (mcpServer_enabled hok).2.1.mpr ?_⟩
      split at htrue <;> simp_all
    · rintro ⟨m, hm, htrue⟩
      obtain ⟨raw, config, hraw, hkey, hok⟩ := mem_project hservers hm
      obtain ⟨hfalse, hmanaged, himp⟩ := mcpServer_enabled hok
      refine ⟨(raw, config), List.mem_filter.mpr ⟨?_, ?_⟩, hkey⟩
      · exact (disabledServers_spec hdisabled _).mpr ⟨hraw, hfalse.mp (himp htrue)⟩
      · rw [hmanaged.mp htrue]

end Specs

/-! ### The lists and the leaves -/

theorem get?_tomlTable {α : Type} {f : α → Toml} {entries : List (String × α)} {key : String} {rest : List String}
    {v : Toml} (hnodup : (entries.map Prod.fst).Nodup) :
    (tomlTable f entries).get? (key :: rest) = some v ↔ ∃ a, (key, a) ∈ entries ∧ (f a).get? rest = some v := by
  have hkeys : ((entries.map fun e => (e.1, f e.2)).map Prod.fst).Nodup := by
    rw [List.map_map]
    exact hnodup
  rw [tomlTable, Toml.get?, Option.bind_eq_some_iff]
  constructor
  · rintro ⟨t, ht, hget⟩
    obtain ⟨e, he, heq⟩ := List.mem_map.mp ((lookup_eq_some_iff hkeys).mp ht)
    obtain ⟨rfl, rfl⟩ := Prod.mk.inj heq
    exact ⟨e.2, he, hget⟩
  · rintro ⟨a, ha, hget⟩
    exact ⟨f a, (lookup_eq_some_iff hkeys).mpr (List.mem_map.mpr ⟨_, ha, rfl⟩), hget⟩

theorem get?_enabled {key : String} {b : Bool} {entries : List (String × Bool)}
    (hnodup : (entries.map Prod.fst).Nodup) :
    (tomlTable enabledTable entries).get? [key, "enabled"] = some (.bool b) ↔ (key, b) ∈ entries := by
  rw [get?_tomlTable hnodup]
  constructor
  · rintro ⟨a, ha, hget⟩
    cases hget
    exact ha
  · intro hmem
    exact ⟨b, hmem, rfl⟩

section Derived

variable [Runtime] {paths : SkillPaths} {sets : SetOrder}

/-- What the authority of an accepted file is made of.  Up to the spelling of the names, each list holds what
a leaf of the projection says. -/
theorem capabilityConfigAuthority_eq_ok {reader : ConfigReader} {raw : List UInt8} {a : ConfigAuthority}
    (h : capabilityConfigAuthority reader paths sets raw = .ok a) : ∃ n es, n = .table es ∧ n.Ordered ∧
      a.sha256 = projectionDigest n ∧ a.projectionLeafHashes = capabilityConfigLeafHashes n ∧
      capabilityConfigControlDescriptors n = .ok a.controlDescriptors ∧
      (∀ key, key ∈ a.disabledSkillPaths.map (fun p => casefold (paths.normcase p)) ↔
        n.leafAt ["skills", key, "enabled"] = some (Scalar.bool false).toValue) ∧
      (∀ key, key ∈ a.explicitlyDisabledMcpNames.map controlKey ↔
        n.leafAt ["mcp_servers", key, "enabled"] = some (Scalar.bool false).toValue ∨
          ∃ plugin, n.leafAt ["plugins", plugin, "mcp_servers", key, "enabled"] = some (Scalar.bool false).toValue) ∧
      ∀ key, key ∈ a.gatewayManagedMcpNames.map controlKey ↔
        n.leafAt ["mcp_servers", key, "gateway_managed"] = some (Scalar.bool true).toValue := by
  have hlift : ∀ {α : Type} {x : Except ConfigError α} {v : α}, liftConfig x = .ok v → x = .ok v := by
    intro α x v hx
    cases x with
    | error e => cases hx
    | ok v' =>
        cases hx
        rfl
  rw [capabilityConfigAuthority] at h
  split at h
  · cases h
  · next config _ =>
      obtain ⟨n, hn, h⟩ := bind_eq_ok.mp h
      obtain ⟨descriptors, hdescriptors, h⟩ := bind_eq_ok.mp h
      obtain ⟨lists, hlists, h⟩ := bind_eq_ok.mp h
      obtain ⟨skillPaths, hskillPaths, h⟩ := bind_eq_ok.mp h
      obtain rfl := pure_eq_ok.mp h
      obtain ⟨c, es, hc, hkeyed, hnormal, hes, hordered⟩ := capabilityConfigProjection_eq_ok config.keyed (hlift hn)
      obtain ⟨-, -, -, hservers, hplugins, -, hskills⟩ := capabilityControls_eq_ok hc
      have hleaf : ∀ p b, n.leafAt p = some (Scalar.bool b).toValue ↔ c.toToml.get? p = some (.bool b) :=
        fun p b => leafAt_eq_bool_iff p hkeyed hnormal
      have hserverRows : (c.mcpServers.map Prod.fst).Nodup := by
        obtain ⟨rows, hrows, hproject⟩ := bind_eq_ok.mp hservers
        exact (projectRows_spec hproject).1 ▸ (stableKeyedTable_spec hrows).2
      have hpluginRows : (c.plugins.map Prod.fst).Nodup := by
        obtain ⟨rows, hrows, hproject⟩ := bind_eq_ok.mp hplugins
        exact (projectRows_spec hproject).1 ▸ (stableKeyedTable_spec hrows).2
      refine ⟨n, es, hes, hordered, rfl, rfl, hdescriptors, fun key => ?_, fun key => ?_, fun key => ?_⟩
      · rw [mem_disabledSkillPaths hskills (hlift hskillPaths), hleaf]
        exact (get?_enabled (nodup_skills hskills)).symm
      · rw [(mem_disabledMcp hservers hplugins (hlift hlists) key).1, hleaf]
        refine or_congr ?_ (exists_congr fun plugin => ?_)
        · refine Iff.trans ?_ (get?_tomlTable hserverRows).symm
          refine exists_congr fun m => and_congr_right fun _ => ?_
          show m.enabled = false ↔ some (Toml.bool m.enabled) = some (Toml.bool false)
          simp
        · rw [hleaf]
          refine Iff.trans ?_ (get?_tomlTable hpluginRows).symm
          refine exists_congr fun p => and_congr_right fun hp => ?_
          have hnodup : (p.mcpServers.map Prod.fst).Nodup := by
            obtain ⟨raw, config', -, -, hok⟩ := mem_project hplugins hp
            rw [projectPlugin] at hok
            obtain ⟨_, -, hok⟩ := bind_eq_ok.mp hok
            obtain ⟨_, -, hok⟩ := bind_eq_ok.mp hok
            obtain ⟨rows, hrows, hok⟩ := bind_eq_ok.mp hok
            obtain ⟨servers, hproject, hok⟩ := bind_eq_ok.mp hok
            obtain rfl := pure_eq_ok.mp hok
            exact (projectRows_spec hproject).1 ▸ (stableKeyedTable_spec hrows).2
          exact (get?_enabled hnodup).symm
      · rw [(mem_disabledMcp hservers hplugins (hlift hlists) key).2, hleaf]
        refine Iff.trans ?_ (get?_tomlTable hserverRows).symm
        refine exists_congr fun m => and_congr_right fun _ => ?_
        show m.gatewayManaged = true ↔ some (Toml.bool m.gatewayManaged) = some (Toml.bool true)
        simp

/-- **The fingerprint determines the derived controls.**  Two files of one fingerprint have the same leaf hashes
and descriptors, and their lists hold the same controls. -/
theorem fingerprint_determines_controls [FloatReader] (laws : FloatLaws)
    (hsha : Set.InjOn sha256Upper (Set.range canonicalJson)) {reader : ConfigReader} {raw raw' : List UInt8}
    {a a' : ConfigAuthority} (h : capabilityConfigAuthority reader paths sets raw = .ok a)
    (h' : capabilityConfigAuthority reader paths sets raw' = .ok a') (hfingerprint : a.sha256 = a'.sha256) :
    a.projectionLeafHashes = a'.projectionLeafHashes ∧ a.controlDescriptors = a'.controlDescriptors ∧
      (a.disabledSkillPaths.map fun p => casefold (paths.normcase p)).toFinset
        = (a'.disabledSkillPaths.map fun p => casefold (paths.normcase p)).toFinset ∧
      (a.explicitlyDisabledMcpNames.map controlKey).toFinset
        = (a'.explicitlyDisabledMcpNames.map controlKey).toFinset ∧
      (a.gatewayManagedMcpNames.map controlKey).toFinset = (a'.gatewayManagedMcpNames.map controlKey).toFinset := by
  obtain ⟨n, es, -, hn, hsha256, hhashes, hdescriptors, hskills, hservers, hmanaged⟩ := capabilityConfigAuthority_eq_ok h
  obtain ⟨n', es', -, hn', hsha256', hhashes', hdescriptors', hskills', hservers', hmanaged'⟩ :=
    capabilityConfigAuthority_eq_ok h'
  rw [hsha256, hsha256'] at hfingerprint
  obtain rfl := (projectionDigest_eq_iff laws hsha hn hn').mp hfingerprint
  rw [hdescriptors] at hdescriptors'
  refine ⟨hhashes.trans hhashes'.symm, Except.ok.inj hdescriptors', ?_, ?_, ?_⟩
  · ext key
    rw [List.mem_toFinset, List.mem_toFinset, hskills, hskills']
  · ext key
    rw [List.mem_toFinset, List.mem_toFinset, hservers, hservers']
  · ext key
    rw [List.mem_toFinset, List.mem_toFinset, hmanaged, hmanaged']

end Derived

/-! ### Two spellings of a server -/

namespace Sample

def sets : SetOrder where
  order names := names.sort (· ≤ ·)
  mem_order _ _ := Finset.mem_sort _

/-- A configuration that disables one server. -/
def disabledServer (name : String) : Configuration where
  entries := [("mcp_servers", .table [(name, .table [("enabled", .bool false)])])]
  keyed := by simp [Toml.Keyed, KeyedEntries]

/-- A reader that knows two files. -/
def reader : ConfigReader where
  parse raw := if raw = [] then .ok (disabledServer "docs") else .ok (disabledServer "Docs")
  rawSha256 raw := toString raw.length

/-- The projection of both. -/
def serverControls : Node :=
  .table [("apps", .table []), ("features", .table []), ("hooks", .table []),
    ("mcp_servers", .table [("docs", .table [("enabled", .scalar (.bool false)),
      ("gateway_managed", .scalar (.bool false)), ("runtime", .table []), ("tools", .table [])])]),
    ("plugins", .table []), ("shell_environment_policy", .table [("set", .table [])]), ("skills", .table [])]

theorem docs_accepted : capabilityConfigProjection paths (disabledServer "docs").entries = .ok serverControls := by
  rfl

theorem Docs_accepted : capabilityConfigProjection paths (disabledServer "Docs").entries = .ok serverControls := by
  rfl

theorem sorted_nil : sortedByCasefold sets [] = [] := by
  simp [sortedByCasefold, sets]

theorem sorted_one (name : String) : sortedByCasefold sets [name] = [name] := by
  simp [sortedByCasefold, sets]

/-- The authority of a file that disables one server spells it as the file does. -/
theorem disabledServer_authority (raw : List UInt8) {name : String}
    (hraw : reader.parse raw = .ok (disabledServer name))
    (hn : capabilityConfigProjection paths (disabledServer name).entries = .ok serverControls) :
    ∃ a, capabilityConfigAuthority reader paths sets raw = .ok a ∧ a.sha256 = projectionDigest serverControls ∧
      a.explicitlyDisabledMcpNames = [name] := by
  obtain ⟨ds, hds, -⟩ := controlDescriptors_of_projection (disabledServer name).keyed hn
  have hlists : configuredMcpControls sets (disabledServer name).entries = .ok ([name], []) := by
    show Except.ok (sortedByCasefold sets [name], sortedByCasefold sets []) = _
    rw [sorted_one, sorted_nil]
  have hskills : configuredDisabledSkillPaths paths sets (disabledServer name).entries = .ok [] := rfl
  refine ⟨{
    sha256 := projectionDigest serverControls
    rawSha256 := reader.rawSha256 raw
    projectionLeafHashes := capabilityConfigLeafHashes serverControls
    controlDescriptors := ds
    disabledSkillPaths := []
    explicitlyDisabledMcpNames := [name]
    gatewayManagedMcpNames := [] }, ?_, rfl, rfl⟩
  rw [capabilityConfigAuthority, hraw]
  exact bind_eq_ok.mpr ⟨_, by rw [hn, liftConfig], bind_eq_ok.mpr ⟨ds, hds, bind_eq_ok.mpr ⟨_, by rw [hlists, liftConfig],
    bind_eq_ok.mpr ⟨_, by rw [hskills, liftConfig], rfl⟩⟩⟩⟩

end Sample

open scoped Sample in
theorem fingerprint_keeps_spelling : ¬ ∀ (raw raw' : List UInt8) (a a' : ConfigAuthority),
    capabilityConfigAuthority Sample.reader Sample.paths Sample.sets raw = .ok a →
      capabilityConfigAuthority Sample.reader Sample.paths Sample.sets raw' = .ok a' → a.sha256 = a'.sha256 →
        a.explicitlyDisabledMcpNames = a'.explicitlyDisabledMcpNames := by
  intro h
  obtain ⟨a, ha, hsha256, hnames⟩ := Sample.disabledServer_authority [] rfl Sample.docs_accepted
  obtain ⟨a', ha', hsha256', hnames'⟩ := Sample.disabledServer_authority [0] rfl Sample.Docs_accepted
  have hsame := h [] [0] a a' ha ha' (hsha256.trans hsha256'.symm)
  rw [hnames, hnames'] at hsame
  exact absurd (List.cons.inj hsame).1 (by decide)

open scoped Sample in
theorem fingerprint_determines_controls_sample : ∃ a a',
    capabilityConfigAuthority Sample.reader Sample.paths Sample.sets [] = .ok a ∧
      capabilityConfigAuthority Sample.reader Sample.paths Sample.sets [0] = .ok a' ∧
      (a.explicitlyDisabledMcpNames.map controlKey).toFinset
        = (a'.explicitlyDisabledMcpNames.map controlKey).toFinset := by
  obtain ⟨a, ha, hsha256, -⟩ := Sample.disabledServer_authority [] rfl Sample.docs_accepted
  obtain ⟨a', ha', hsha256', -⟩ := Sample.disabledServer_authority [0] rfl Sample.Docs_accepted
  exact ⟨a, a', ha, ha', (fingerprint_determines_controls Sample.laws Sample.sha256Upper_injective ha ha'
    (hsha256.trans hsha256'.symm)).2.2.2.1⟩

end CodingOS.ConfigFingerprint
