import CodingOS.ConfigFingerprint.Fingerprint

/-!
# Control descriptors

`capability_config_control_descriptors` of `capability_config_fingerprint.py`: for every leaf of a
projection, the control it belongs to, found from its pointer.
-/

namespace CodingOS.ConfigFingerprint

open CodingOS.Python Systems Systems.Result

inductive ChangeClass where
  | availabilityToggle
  | runtimeIdentity
deriving DecidableEq

inductive ControlKind where
  | app
  | appTool
  | appRuntime
  | globalRuntime
  | mcp
  | mcpRuntime
  | plugin
  | pluginMcp
  | skill
deriving DecidableEq

structure Descriptor where
  changeClass : ChangeClass
  controlKind : ControlKind
  controlKey : String
  /-- Only a toggle has it. -/
  enabled : Option Value := none

/-- What the descriptors can raise: an error of the module, or a `KeyError`. -/
inductive DescriptorError where
  | config (e : ConfigError)
  | key (name : String)

/-! ### The projection as plain values -/

def Scalar.plain : Scalar → Value
  | .bool b => .bool b
  | .int n => .int n
  | .float q => .float q
  | .str s => .str s
  | .datetime iso => .str iso
  | .date iso => .str iso
  | .time iso => .str iso
  | .sessionPipe => .str "codex-computer-use-session-pipe"

mutual

/-- `_normalized_value`. -/
def Node.plain : Node → Value
  | .scalar s => s.plain
  | .array items => .tuple (plainItems items)
  | .table entries => .mapping (plainEntries entries)

def plainItems : List Node → List Value
  | [] => []
  | n :: ns => n.plain :: plainItems ns

def plainEntries : List (String × Node) → Mapping
  | [] => []
  | (key, n) :: es => (key, n.plain) :: plainEntries es

end

/-- `value[a][b]…`. -/
def descend : Value → List String → Except DescriptorError Value
  | v, [] => .ok v
  | .mapping entries, key :: path =>
      match Mapping.get? entries key with
      | some v => descend v path
      | none => .error (.key key)
  | _, key :: _ => .error (.key key)

/-! ### Descriptors by root -/

/-- What a branch of the chain answers; `none` leaves the leaf without a descriptor. -/
abbrev Described := Except DescriptorError (Option Descriptor)

def toggle (controls : Value) (path : List String) (kind : ControlKind) (key : String) : Described := do
  let enabled ← descend controls path
  return some { changeClass := .availabilityToggle, controlKind := kind, controlKey := key, enabled := some enabled }

def identity (kind : ControlKind) (key : String) : Described :=
  .ok (some { changeClass := .runtimeIdentity, controlKind := kind, controlKey := key })

def describeApp (controls : Value) : List String → Described
  | [appId, key] =>
      if key = "enabled" then toggle controls ["apps", appId, "enabled"] .app appId
      else if appCapabilityBooleanKeys.contains key then identity .app appId
      else .ok none
  | [appId, tools, toolId, key] =>
      if tools = "tools" ∧ key = "enabled" then identity .appTool (appId ++ "/" ++ toolId) else .ok none
  | _ => .ok none

def describeFeature : List String → Described
  | [key] => if key = "js_repl" then identity .appRuntime "node_repl" else identity .globalRuntime key
  | _ => .ok none

def describeMcp (controls : Value) : List String → Described
  | serverId :: key :: rest =>
      if key = "enabled" ∧ rest = [] then toggle controls ["mcp_servers", serverId, "enabled"] .mcp serverId
      else identity .mcpRuntime serverId
  | _ => .ok none

def describePlugin (controls : Value) : List String → Described
  | [pluginId, key] =>
      if key = "enabled" then toggle controls ["plugins", pluginId, "enabled"] .plugin pluginId else .ok none
  | [pluginId, servers, serverId, key] =>
      if servers = "mcp_servers" ∧ key = "enabled" then
        toggle controls ["plugins", pluginId, "mcp_servers", serverId, "enabled"] .pluginMcp
          (pluginId ++ "/" ++ serverId)
      else .ok none
  | _ => .ok none

def describeShell : List String → Described
  | [table, _] => if table = "set" then identity .appRuntime "node_repl" else .ok none
  | _ => .ok none

def describeSkill (controls : Value) : List String → Described
  | [skillPath, key] =>
      if key = "enabled" then toggle controls ["skills", skillPath, "enabled"] .skill skillPath else .ok none
  | _ => .ok none

/-- The chain of branches, by the first part of the pointer. -/
def describe (controls : Value) : List String → Described
  | [] => .ok none
  | root :: rest =>
      if root = "apps" then describeApp controls rest
      else if root = "features" then describeFeature rest
      else if root = "hooks" then identity .globalRuntime "hooks"
      else if root = "mcp_servers" then describeMcp controls rest
      else if root = "plugins" then describePlugin controls rest
      else if root = "shell_environment_policy" then describeShell rest
      else if root = "skills" then describeSkill controls rest
      else .ok none

/-- One turn of the loop. -/
def describePointer (controls : Value) (pointer : String) : Except DescriptorError (String × Descriptor) :=
  match pointerParts pointer with
  | none => .error (.config ⟨"config control pointer is malformed"⟩)
  | some parts => do
      match ← describe controls parts with
      | some descriptor => return (pointer, descriptor)
      | none => .error (.config ⟨"config projection leaf has no exact control descriptor: " ++ pointer⟩)

/-- `capability_config_control_descriptors`. -/
def capabilityConfigControlDescriptors [Runtime] (controls : Node) :
    Except DescriptorError (List (String × Descriptor)) :=
  match controls.plain with
  | .mapping entries => do
      let rows ← ((capabilityConfigLeafHashes controls).map Prod.fst).mapM (describePointer (.mapping entries))
      return sortByKey rows
  | _ => .error (.config ⟨"projection controls are malformed"⟩)

/-! ### Every leaf has its descriptor -/

theorem plainEntries_eq_map (es : List (String × Node)) :
    plainEntries es = es.map fun e => (e.1, e.2.plain) := by
  induction es with
  | nil => rfl
  | cons e es ih =>
      obtain ⟨k, n⟩ := e
      rw [plainEntries, ih, List.map_cons]

/-- An entry of a table, read from its plain value. -/
theorem descend_table {es : List (String × Node)} (h : (es.map Prod.fst).Nodup) {key : String} {c : Node}
    (hc : (key, c) ∈ es) (path : List String) :
    descend (Node.table es).plain (key :: path) = descend c.plain path := by
  have hget : ∀ es : List (String × Node), (es.map Prod.fst).Nodup → (key, c) ∈ es →
      Mapping.get? (es.map fun e => (e.1, e.2.plain)) key = some c.plain := by
    intro es
    induction es with
    | nil => intro _ hc; cases hc
    | cons e es ih =>
        intro hnodup hc
        obtain ⟨k, n⟩ := e
        rw [List.map_cons, List.nodup_cons] at hnodup
        rw [List.map_cons, Mapping.get?_cons]
        rcases List.mem_cons.mp hc with heq | hc
        · obtain ⟨rfl, rfl⟩ := Prod.mk.inj heq
          rw [if_pos rfl]
        · rw [if_neg fun heq => hnodup.1 (List.mem_map.mpr ⟨_, hc, heq⟩)]
          exact ih hnodup.2 hc
  rw [Node.plain, plainEntries_eq_map, descend, hget es h hc]

/-- A leaf of a normalized dict is one of a value of it. -/
theorem leaf_of_table {path : List String} {es : TomlTable} {n : Node} (hkeyed : (Toml.table es).Keyed)
    (h : normalizeValue path (.table es) = .ok n) {p : List String} {v : Value} (hleaf : n.leafAt p = some v) :
    ∃ key rest t c, p = key :: rest ∧ (key, t) ∈ es ∧ t.Keyed ∧
      normalizeValue (path ++ [key]) t = .ok c ∧ c.leafAt rest = some v ∧
      ∀ q, descend n.plain (key :: q) = descend c.plain q := by
  have hordered := ordered_normalizeValue _ hkeyed h
  have hkeys := hkeyed
  rw [Toml.Keyed] at hkeys
  obtain ⟨ns, rfl, hsorted, -, -, hmem⟩ := normalizeValue_table hkeys.1 h
  cases p with
  | nil => cases hleaf
  | cons key rest =>
      obtain ⟨c, hc, hv⟩ := (leafAt_cons hordered (.inr fun _ hne => by cases hne)).mp hleaf
      obtain ⟨t, ht, hn⟩ := (hmem key c).mp hc
      exact ⟨key, rest, t, c, rfl, (lookup_eq_some_iff hkeys.1).mp ht, keyed_lookup hkeyed ht, hn, hv,
        descend_table (hsorted.imp fun hlt => ne_of_lt hlt) hc⟩

theorem leaf_of_bool {path p : List String} {b : Bool} {n : Node} {v : Value}
    (h : normalizeValue path (.bool b) = .ok n) (hleaf : n.leafAt p = some v) :
    p = [] ∧ v = (Scalar.bool b).toValue ∧ n.plain = .bool b := by
  obtain rfl := normalizeValue_bool h
  cases p with
  | nil => exact ⟨rfl, (Option.some.inj hleaf).symm, rfl⟩
  | cons key rest => cases hleaf

theorem leaf_of_str {path p : List String} {s : String} {n : Node} {v : Value}
    (h : normalizeValue path (.str s) = .ok n) (hleaf : n.leafAt p = some v) : p = [] := by
  have hscalar : ∃ t, n = .scalar t := by
    rw [normalizeValue] at h
    split at h
    · split at h
      · cases h
        exact ⟨_, rfl⟩
      · cases h
    · cases h
      exact ⟨_, rfl⟩
  obtain ⟨t, rfl⟩ := hscalar
  cases p with
  | nil => rfl
  | cons key rest => cases hleaf

/-- The leaves of a table of `{"enabled": …}`. -/
theorem leaf_of_enabledTables {path p : List String} {entries : List (String × Bool)} {n : Node} {v : Value}
    (hkeyed : (tomlTable enabledTable entries).Keyed)
    (h : normalizeValue path (tomlTable enabledTable entries) = .ok n) (hleaf : n.leafAt p = some v) :
    ∃ key b, p = [key, "enabled"] ∧ v = (Scalar.bool b).toValue ∧
      descend n.plain [key, "enabled"] = .ok (.bool b) := by
  obtain ⟨key, rest, t, c, rfl, ht, htkeyed, hc, hv, hplain⟩ := leaf_of_table hkeyed h hleaf
  obtain ⟨⟨_, b⟩, -, heq⟩ := List.mem_map.mp ht
  obtain ⟨rfl, rfl⟩ := Prod.mk.inj heq
  obtain ⟨name, last, u, d, rfl, hu, -, hd, hv', hplain'⟩ := leaf_of_table htkeyed hc hv
  simp only [List.mem_singleton, Prod.mk.injEq] at hu
  obtain ⟨rfl, rfl⟩ := hu
  obtain ⟨rfl, rfl, hbool⟩ := leaf_of_bool hd hv'
  exact ⟨_, b, rfl, rfl, by rw [hplain, hplain', hbool]; rfl⟩

/-- A leaf has a descriptor; that of a toggle says what stands at the leaf. -/
def IsDescribed (controls : Value) (p : List String) (v : Value) : Prop :=
  ∃ d, describe controls p = .ok (some d) ∧ (d.changeClass = .availabilityToggle →
    ∃ b, v = (Scalar.bool b).toValue ∧ d.enabled = some (.bool b))

theorem described_identity {controls v : Value} {p : List String} (kind : ControlKind) (key : String)
    (h : describe controls p = identity kind key) : IsDescribed controls p v :=
  ⟨_, h, fun hclass => by cases hclass⟩

theorem described_toggle {controls : Value} {p : List String} (path : List String) (kind : ControlKind)
    (key : String) {b : Bool} (h : describe controls p = toggle controls path kind key) (hb : descend controls path = .ok (.bool b)) :
    IsDescribed controls p (Scalar.bool b).toValue := by
  refine ⟨{ changeClass := .availabilityToggle, controlKind := kind, controlKey := key, enabled := some (.bool b) },
    ?_, fun _ => ⟨b, rfl, rfl⟩⟩
  rw [h, toggle, hb]
  rfl

section Leaves

variable {path p : List String} {n : Node} {v : Value}

/-- The leaves of an app: its switch, its gates and its tools. -/
theorem leaf_of_app {c : AppControl} (hkeyed : c.toToml.Keyed) (h : normalizeValue path c.toToml = .ok n)
    (hgates : (c.gates.map Prod.fst).Sublist appCapabilityBooleanKeys) (hleaf : n.leafAt p = some v) :
    (p = ["enabled"] ∧ ∃ b, v = (Scalar.bool b).toValue ∧ descend n.plain ["enabled"] = .ok (.bool b)) ∨
      (∃ key ∈ appCapabilityBooleanKeys, p = [key]) ∨ ∃ tool, p = ["tools", tool, "enabled"] := by
  obtain ⟨key, rest, t, d, rfl, ht, htkeyed, hd, hv, hplain⟩ := leaf_of_table hkeyed h hleaf
  rcases List.mem_append.mp ht with ht | ht
  · simp only [List.mem_cons, Prod.mk.injEq, List.not_mem_nil, or_false] at ht
    obtain ⟨rfl, rfl⟩ | ⟨rfl, rfl⟩ := ht
    · obtain ⟨rfl, rfl, hbool⟩ := leaf_of_bool hd hv
      exact .inl ⟨rfl, _, rfl, by rw [hplain, hbool]; rfl⟩
    · obtain ⟨tool, b, rfl, -, -⟩ := leaf_of_enabledTables htkeyed hd hv
      exact .inr (.inr ⟨tool, rfl⟩)
  · obtain ⟨g, hg, heq⟩ := List.mem_map.mp ht
    obtain ⟨rfl, rfl⟩ := Prod.mk.inj heq
    obtain ⟨rfl, -, -⟩ := leaf_of_bool hd hv
    exact .inr (.inl ⟨g.1, hgates.subset (List.mem_map_of_mem hg), rfl⟩)

/-- The leaves of a server: its switch, and others. -/
theorem leaf_of_mcp {c : McpControl} (hkeyed : c.toToml.Keyed) (h : normalizeValue path c.toToml = .ok n)
    (hleaf : n.leafAt p = some v) :
    (p = ["enabled"] ∧ ∃ b, v = (Scalar.bool b).toValue ∧ descend n.plain ["enabled"] = .ok (.bool b)) ∨
      ∃ key rest, p = key :: rest ∧ key ≠ "enabled" := by
  obtain ⟨key, rest, t, d, rfl, ht, -, hd, hv, hplain⟩ := leaf_of_table hkeyed h hleaf
  simp only [List.mem_cons, Prod.mk.injEq, List.not_mem_nil, or_false] at ht
  obtain ⟨rfl, rfl⟩ | ⟨rfl, -⟩ | ⟨rfl, -⟩ | ⟨rfl, -⟩ := ht
  · obtain ⟨rfl, rfl, hbool⟩ := leaf_of_bool hd hv
    exact .inl ⟨rfl, _, rfl, by rw [hplain, hbool]; rfl⟩
  all_goals exact .inr ⟨_, _, rfl, by decide⟩

theorem leaf_of_plugin {c : PluginControl} (hkeyed : c.toToml.Keyed) (h : normalizeValue path c.toToml = .ok n)
    (hleaf : n.leafAt p = some v) : ∃ b, v = (Scalar.bool b).toValue ∧ descend n.plain p = .ok (.bool b) ∧
      (p = ["enabled"] ∨ ∃ server, p = ["mcp_servers", server, "enabled"]) := by
  obtain ⟨key, rest, t, d, rfl, ht, htkeyed, hd, hv, hplain⟩ := leaf_of_table hkeyed h hleaf
  simp only [List.mem_cons, Prod.mk.injEq, List.not_mem_nil, or_false] at ht
  obtain ⟨rfl, rfl⟩ | ⟨rfl, rfl⟩ := ht
  · obtain ⟨rfl, rfl, hbool⟩ := leaf_of_bool hd hv
    exact ⟨_, rfl, by rw [hplain, hbool]; rfl, .inl rfl⟩
  · obtain ⟨server, b, rfl, rfl, hdescend⟩ := leaf_of_enabledTables htkeyed hd hv
    exact ⟨b, rfl, (hplain _).trans hdescend, .inr ⟨server, rfl⟩⟩

/-- **Every leaf of the controls is described.** -/
theorem described_of_leaf {c : Controls} (hkeyed : c.toToml.Keyed)
    (hgates : ∀ e ∈ c.apps, (e.2.gates.map Prod.fst).Sublist appCapabilityBooleanKeys)
    (h : normalizeValue path c.toToml = .ok n) (hleaf : n.leafAt p = some v) : IsDescribed n.plain p v := by
  obtain ⟨root, rest, t, d, rfl, ht, htkeyed, hd, hv, hplain⟩ := leaf_of_table hkeyed h hleaf
  simp only [List.mem_cons, Prod.mk.injEq, List.not_mem_nil, or_false] at ht
  obtain ⟨rfl, rfl⟩ | ⟨rfl, rfl⟩ | ⟨rfl, rfl⟩ | ⟨rfl, rfl⟩ | ⟨rfl, rfl⟩ | ⟨rfl, rfl⟩ | ⟨rfl, rfl⟩ := ht
  · -- apps
    obtain ⟨appId, rest, t, a, rfl, ht, htkeyed, ha, hv', hplain'⟩ := leaf_of_table htkeyed hd hv
    obtain ⟨e, he, heq⟩ := List.mem_map.mp ht
    obtain ⟨rfl, rfl⟩ := Prod.mk.inj heq
    obtain ⟨rfl, b, rfl, hb⟩ | ⟨key, hkey, rfl⟩ | ⟨tool, rfl⟩ := leaf_of_app htkeyed ha (hgates e he) hv'
    · refine described_toggle ["apps", e.1, "enabled"] .app e.1 rfl ?_
      rw [hplain, hplain', hb]
    · refine described_identity .app e.1 ?_
      have hne : key ≠ "enabled" := fun heq => absurd (heq ▸ hkey) (by decide)
      show describeApp n.plain [e.1, key] = _
      rw [describeApp, if_neg hne, if_pos (by simpa using hkey)]
    · exact described_identity .appTool (e.1 ++ "/" ++ tool) rfl
  · -- features
    obtain ⟨key, rest, t, a, rfl, ht, -, ha, hv', -⟩ := leaf_of_table htkeyed hd hv
    obtain ⟨e, -, heq⟩ := List.mem_map.mp ht
    obtain ⟨rfl, rfl⟩ := Prod.mk.inj heq
    obtain ⟨rfl, -, -⟩ := leaf_of_bool ha hv'
    have hfeature : describe n.plain ["features", e.1]
        = if e.1 = "js_repl" then identity .appRuntime "node_repl" else identity .globalRuntime e.1 := rfl
    by_cases hrepl : e.1 = "js_repl"
    · exact described_identity _ _ (hfeature.trans (if_pos hrepl))
    · exact described_identity _ _ (hfeature.trans (if_neg hrepl))
  · -- hooks
    exact described_identity .globalRuntime "hooks" rfl
  · -- mcp_servers
    obtain ⟨serverId, rest, t, a, rfl, ht, htkeyed, ha, hv', hplain'⟩ := leaf_of_table htkeyed hd hv
    obtain ⟨e, -, heq⟩ := List.mem_map.mp ht
    obtain ⟨rfl, rfl⟩ := Prod.mk.inj heq
    obtain ⟨rfl, b, rfl, hb⟩ | ⟨key, rest, rfl, hne⟩ := leaf_of_mcp htkeyed ha hv'
    · refine described_toggle ["mcp_servers", e.1, "enabled"] .mcp e.1 rfl ?_
      rw [hplain, hplain', hb]
    · refine described_identity .mcpRuntime e.1 ?_
      show describeMcp n.plain (e.1 :: key :: rest) = _
      rw [describeMcp, if_neg fun hand => hne hand.1]
  · -- plugins
    obtain ⟨pluginId, rest, t, a, rfl, ht, htkeyed, ha, hv', hplain'⟩ := leaf_of_table htkeyed hd hv
    obtain ⟨e, -, heq⟩ := List.mem_map.mp ht
    obtain ⟨rfl, rfl⟩ := Prod.mk.inj heq
    obtain ⟨b, rfl, hb, rfl | ⟨server, rfl⟩⟩ := leaf_of_plugin htkeyed ha hv'
    · refine described_toggle ["plugins", e.1, "enabled"] .plugin e.1 rfl ?_
      rw [hplain, hplain', hb]
    · refine described_toggle ["plugins", e.1, "mcp_servers", server, "enabled"] .pluginMcp (e.1 ++ "/" ++ server) rfl ?_
      rw [hplain, hplain', hb]
  · -- shell_environment_policy
    obtain ⟨set, rest, t, a, rfl, ht, htkeyed, ha, hv', -⟩ := leaf_of_table htkeyed hd hv
    simp only [List.mem_singleton, Prod.mk.injEq] at ht
    obtain ⟨rfl, rfl⟩ := ht
    obtain ⟨key, rest, t, s, rfl, ht, -, hs, hv'', -⟩ := leaf_of_table htkeyed ha hv'
    obtain ⟨e, -, heq⟩ := List.mem_map.mp ht
    obtain ⟨rfl, rfl⟩ := Prod.mk.inj heq
    obtain rfl := leaf_of_str hs hv''
    exact described_identity .appRuntime "node_repl" rfl
  · -- skills
    obtain ⟨key, b, rfl, rfl, hb⟩ := leaf_of_enabledTables htkeyed hd hv
    refine described_toggle ["skills", key, "enabled"] .skill key rfl ?_
    rw [hplain, hb]

end Leaves

/-! ### The loop -/

theorem mapM_rows {ε α : Type} {f : String → Except ε (String × α)} {xs : List String}
    (h : ∀ x ∈ xs, ∃ y, f x = .ok (x, y)) :
    ∃ ys : List (String × α), xs.mapM f = .ok ys ∧ ys.map Prod.fst = xs ∧ ∀ e ∈ ys, f e.1 = .ok e := by
  induction xs with
  | nil => exact ⟨[], rfl, rfl, by simp⟩
  | cons x xs ih =>
      obtain ⟨⟨y, hy⟩, hrest⟩ := List.forall_mem_cons.mp h
      obtain ⟨ys, hys, hkeys, hall⟩ := ih hrest
      refine ⟨(x, y) :: ys, ?_, by rw [List.map_cons, hkeys], List.forall_mem_cons.mpr ⟨hy, hall⟩⟩
      rw [List.mapM_cons, hy, hys]
      rfl

theorem describePointer_of {controls : Value} {p : List String} {d : Descriptor} (hp : p ≠ [])
    (h : describe controls p = .ok (some d)) : describePointer controls (pointer p) = .ok (pointer p, d) := by
  rw [describePointer, pointerParts_pointer hp]
  show (describe controls p >>= _) = _
  rw [h]
  rfl

section Descriptors

variable [Runtime] {es : List (String × Node)}

/-- The descriptors stand at the pointers of the leaves, each what its path is described as. -/
theorem controlDescriptors_spec (hordered : (Node.table es).Ordered)
    (hdescribed : ∀ p v, (Node.table es).leafAt p = some v → IsDescribed (Node.table es).plain p v) :
    ∃ ds, capabilityConfigControlDescriptors (.table es) = .ok ds ∧
      ds.map Prod.fst = (capabilityConfigLeafHashes (.table es)).map Prod.fst ∧
      ∀ q d, (q, d) ∈ ds ↔ ∃ p v, (Node.table es).leafAt p = some v ∧ q = pointer p ∧
        describe (Node.table es).plain p = .ok (some d) := by
  have hleaf : ∀ q ∈ (capabilityConfigLeafHashes (.table es)).map Prod.fst,
      ∃ p v, p ≠ [] ∧ (Node.table es).leafAt p = some v ∧ q = pointer p := by
    intro q hq
    obtain ⟨e, he, rfl⟩ := List.mem_map.mp hq
    obtain ⟨⟨p, v⟩, hl, rfl⟩ := mem_leafHashes.mp he
    exact ⟨p, v, ne_nil_of_mem_leaves hl, (mem_leaves _ hordered p v).mp hl, rfl⟩
  have hpointer : ∀ q ∈ (capabilityConfigLeafHashes (.table es)).map Prod.fst,
      ∃ d, describePointer (Node.table es).plain q = .ok (q, d) := by
    intro q hq
    obtain ⟨p, v, hp, hv, rfl⟩ := hleaf q hq
    obtain ⟨d, hd, -⟩ := hdescribed p v hv
    exact ⟨d, describePointer_of hp hd⟩
  obtain ⟨ds, hds, hkeys, hall⟩ := mapM_rows hpointer
  have hsorted : ds.Pairwise fun a b => a.1 ≤ b.1 :=
    List.pairwise_map.mp (hkeys ▸ (sorted_leafHashes hordered).imp le_of_lt)
  have hsort : sortByKey ds = ds := hsorted.insertionSort_eq
  refine ⟨ds, ?_, hkeys, fun q d => ⟨fun hmem => ?_, ?_⟩⟩
  · rw [capabilityConfigControlDescriptors, Node.plain]
    rw [Node.plain] at hds
    show (_ >>= _) = _
    rw [hds]
    show Except.ok (sortByKey ds) = _
    rw [hsort]
  · have hq : q ∈ (capabilityConfigLeafHashes (.table es)).map Prod.fst := hkeys ▸ List.mem_map_of_mem hmem
    obtain ⟨p, v, hp, hv, rfl⟩ := hleaf q hq
    obtain ⟨d', hd', -⟩ := hdescribed p v hv
    have hrow : describePointer (Node.table es).plain (pointer p) = .ok (pointer p, d) := hall (pointer p, d) hmem
    rw [describePointer_of hp hd'] at hrow
    cases hrow
    exact ⟨p, v, hv, rfl, hd'⟩
  · rintro ⟨p, v, hv, rfl, hd⟩
    have hl := (mem_leaves _ hordered p v).mpr hv
    have hq : pointer p ∈ ds.map Prod.fst := by
      rw [hkeys]
      exact List.mem_map.mpr ⟨_, mem_leafHashes.mpr ⟨_, hl, rfl⟩, rfl⟩
    obtain ⟨⟨q, d'⟩, hmem, hfst⟩ := List.mem_map.mp hq
    obtain rfl : q = pointer p := hfst
    have hne : p ≠ [] := ne_nil_of_mem_leaves hl
    have hrow : describePointer (Node.table es).plain (pointer p) = .ok (pointer p, d') := hall (pointer p, d') hmem
    rw [describePointer_of hne hd] at hrow
    cases hrow
    exact hmem

/-- What an accepted configuration is projected to, and how its controls read. -/
theorem capabilityConfigProjection_eq_ok {paths : SkillPaths} {data : TomlTable} {n : Node}
    (hkeyed : (Toml.table data).Keyed) (h : capabilityConfigProjection paths data = .ok n) :
    ∃ c es, capabilityControls paths data = .ok c ∧ c.toToml.Keyed ∧
      normalizeValue ["controls"] c.toToml = .ok n ∧ n = .table es ∧ n.Ordered := by
  obtain ⟨hordered, es, hes⟩ := ordered_projection hkeyed h
  rw [capabilityConfigProjection] at h
  obtain ⟨c, hc, h⟩ := bind_eq_ok.mp h
  exact ⟨c, es, hc, keyed_controls hkeyed hc, h, hes, hordered⟩

/-- The gates of the apps are capability gates. -/
theorem gates_of_controls {paths : SkillPaths} {data : TomlTable} {c : Controls}
    (h : capabilityControls paths data = .ok c) :
    ∀ e ∈ c.apps, (e.2.gates.map Prod.fst).Sublist appCapabilityBooleanKeys := by
  have happs := (capabilityControls_eq_ok h).1
  rw [projectApps] at happs
  obtain ⟨rows, -, happs⟩ := bind_eq_ok.mp happs
  intro e he
  obtain ⟨config, -, hok⟩ := (projectRows_spec happs).2 e he
  exact (keyed_app hok).2

/-- **The descriptors close over the projection.** -/
theorem controlDescriptors_of_projection {paths : SkillPaths} {data : TomlTable} {n : Node}
    (hkeyed : (Toml.table data).Keyed) (h : capabilityConfigProjection paths data = .ok n) :
    ∃ ds, capabilityConfigControlDescriptors n = .ok ds ∧
      ds.map Prod.fst = (capabilityConfigLeafHashes n).map Prod.fst ∧
      (∀ q d, (q, d) ∈ ds ↔ ∃ p v, n.leafAt p = some v ∧ q = pointer p ∧ describe n.plain p = .ok (some d)) ∧
      ∀ q d, (q, d) ∈ ds → d.changeClass = .availabilityToggle →
        ∃ p b, q = pointer p ∧ n.leafAt p = some (Scalar.bool b).toValue ∧ d.enabled = some (.bool b) := by
  obtain ⟨c, es, hc, hcontrols, hn, rfl, hordered⟩ := capabilityConfigProjection_eq_ok hkeyed h
  have hdescribed : ∀ p v, (Node.table es).leafAt p = some v → IsDescribed (Node.table es).plain p v :=
    fun p v hv => described_of_leaf hcontrols (gates_of_controls hc) hn hv
  obtain ⟨ds, hds, hkeys, hmem⟩ := controlDescriptors_spec hordered hdescribed
  refine ⟨ds, hds, hkeys, hmem, fun q d hqd hclass => ?_⟩
  obtain ⟨p, v, hv, rfl, hd⟩ := (hmem q d).mp hqd
  obtain ⟨d', hd', henabled⟩ := hdescribed p v hv
  rw [hd] at hd'
  cases hd'
  obtain ⟨b, rfl, hb⟩ := henabled hclass
  exact ⟨p, b, rfl, hv, hb⟩

end Descriptors

end CodingOS.ConfigFingerprint
