import CodingOS.Campaign.SpecificationRecord
import CodingOS.ConfigFingerprint.Pointers
import CodingOS.ConfigFingerprint.Reading

/-!
# The fingerprint of a configuration

The digest of a projection and the hashes of its leaves.  The digest tells projections apart; the leaf
hashes tell them apart up to the tables that hold nothing.
-/

namespace CodingOS.ConfigFingerprint

open CodingOS.Python Systems Systems.Result

section Hashes

variable [Runtime]

/-- `hashlib.sha256(text.encode("utf-8")).hexdigest().upper()`. -/
def sha256Upper (text : String) : String := (Runtime.sha256 text).toUpper

/-- What `capability_config_projection` returns. -/
def projectionValue (controls : Node) : Value :=
  .mapping [("projection_schema", .str "capability-config-v2"), ("controls", controls.toValue)]

/-- The `sha256` of `capability_config_authority`. -/
def projectionDigest (controls : Node) : String := sha256Upper (canonicalJson (projectionValue controls))

/-- `capability_config_leaf_hashes`. -/
def capabilityConfigLeafHashes (controls : Node) : List (String × String) :=
  sortByKey (controls.leaves.map fun l => (pointer l.1, sha256Upper (canonicalJson l.2)))

end Hashes

/-! ### Paths of leaves -/

theorem nodup_entryLeaves {es : List (String × Node)} (hkeys : (es.map Prod.fst).Nodup)
    (hleaves : ∀ e ∈ es, (e.2.leaves.map Prod.fst).Nodup) : ((entryLeaves es).map Prod.fst).Nodup := by
  induction es with
  | nil => exact List.nodup_nil
  | cons e es ih =>
      obtain ⟨key, n⟩ := e
      rw [List.map_cons, List.nodup_cons] at hkeys
      rw [List.forall_mem_cons] at hleaves
      rw [entryLeaves, List.map_append, List.nodup_append]
      refine ⟨?_, ih hkeys.2 hleaves.2, ?_⟩
      · have hpaths : (n.leaves.map fun l => (key :: l.1, l.2)).map Prod.fst
            = (n.leaves.map Prod.fst).map (List.cons key) := by
          rw [List.map_map, List.map_map]
          rfl
        rw [hpaths]
        exact hleaves.1.map fun p q hpq => (List.cons.inj hpq).2
      · intro p hp q hq hpq
        subst hpq
        obtain ⟨l, hl, rfl⟩ := List.mem_map.mp hp
        obtain ⟨l₀, -, rfl⟩ := List.mem_map.mp hl
        obtain ⟨⟨_, v⟩, hr, heq⟩ := List.mem_map.mp hq
        obtain rfl : _ = key :: l₀.1 := heq
        obtain ⟨other, m, q, hmem, hcons, -⟩ := mem_entryLeaves.mp hr
        obtain ⟨rfl, -⟩ := List.cons.inj hcons
        exact hkeys.1 (List.mem_map.mpr ⟨_, hmem, rfl⟩)

/-- No two leaves have one path. -/
theorem nodup_leaves (n : Node) (h : n.Ordered) : (n.leaves.map Prod.fst).Nodup := by
  induction n using Node.child_induction with
  | step n ih =>
  have hchildren : ((entryLeaves n.children).map Prod.fst).Nodup :=
    nodup_entryLeaves (nodup_children h) fun e he => ih e.1 e.2 he (ordered_children h he)
  cases n with
  | scalar s => simp [Node.leaves]
  | table entries =>
      rw [Node.leaves]
      exact hchildren
  | array items =>
      rw [Node.leaves, List.map_cons, List.nodup_cons, itemLeaves_eq]
      refine ⟨fun hmem => ?_, hchildren⟩
      obtain ⟨⟨_, v⟩, hl, heq⟩ := List.mem_map.mp hmem
      obtain rfl : _ = ["@type"] := heq
      obtain ⟨key, m, q, hm, hcons, -⟩ := mem_entryLeaves.mp hl
      obtain ⟨rfl, -⟩ := List.cons.inj hcons
      exact children_ne_type hm

/-- What is recorded of a leaf. -/
def IsLeafValue (v : Value) : Prop := (∃ s : Scalar, v = s.toValue) ∨ ∃ length : ℕ, v = arrayMarker length

theorem isLeafValue (n : Node) {p : List String} {v : Value} (h : (p, v) ∈ n.leaves) : IsLeafValue v := by
  induction n using Node.child_induction generalizing p with
  | step n ih =>
  rcases mem_leaves_cases.mp h with (⟨s, -, -, rfl⟩ | ⟨items, -, -, rfl⟩) | ⟨key, c, q, hc, -, hq⟩
  · exact .inl ⟨s, rfl⟩
  · exact .inr ⟨items.length, rfl⟩
  · exact ih key c hc hq

/-- A table is no leaf. -/
theorem ne_nil_of_mem_leaves {es : List (String × Node)} {l : List String × Value}
    (h : l ∈ (Node.table es).leaves) : l.1 ≠ [] := by
  rw [Node.leaves] at h
  obtain ⟨key, m, q, -, hcons, -⟩ := mem_entryLeaves.mp h
  rw [hcons]
  exact List.cons_ne_nil _ _

theorem freeze_marker (length : ℕ) :
    freeze (arrayMarker length) = .mapping [("length", .int length), ("type", .str "array")] := by
  have hle : ¬ "type" ≤ "length" := by decide
  rw [arrayMarker, freeze_mapping, Mapping.freeze_eq]
  simp [sortByKey, List.insertionSort, hle, freeze]

/-! ### What the hashes tell -/

section Tells

variable [Runtime]

/-- Leaves are told by their JSON. -/
theorem leafValue_eq [FloatReader] (laws : FloatLaws) {v w : Value} (hv : IsLeafValue v) (hw : IsLeafValue w)
    (h : canonicalJson v = canonicalJson w) : v = w := by
  have hfreeze := freeze_eq_of_canonicalJson laws h
  rcases hv with ⟨s, rfl⟩ | ⟨i, rfl⟩ <;> rcases hw with ⟨t, rfl⟩ | ⟨j, rfl⟩
  · rwa [freeze_scalar, freeze_scalar] at hfreeze
  · rw [freeze_scalar, freeze_marker] at hfreeze
    cases s <;> simp [Scalar.toValue, typed] at hfreeze
  · rw [freeze_scalar, freeze_marker] at hfreeze
    cases t <;> simp [Scalar.toValue, typed] at hfreeze
  · rw [freeze_marker, freeze_marker] at hfreeze
    rw [arrayMarker, arrayMarker]
    simpa using hfreeze

/-- **The digest tells projections apart.** -/
theorem projectionDigest_eq_iff [FloatReader] (laws : FloatLaws)
    (hsha : Set.InjOn sha256Upper (Set.range canonicalJson)) {a b : Node} (ha : a.Ordered) (hb : b.Ordered) : projectionDigest a = projectionDigest b ↔ a = b := by
  refine ⟨fun h => ?_, fun h => by rw [h]⟩
  have hjson := hsha (Set.mem_range_self _) (Set.mem_range_self _) h
  have hfreeze := freeze_eq_of_canonicalJson laws hjson
  have hle : ¬ "projection_schema" ≤ "controls" := by decide
  rw [projectionValue, projectionValue, freeze_mapping, freeze_mapping, Mapping.freeze_eq, Mapping.freeze_eq] at hfreeze
  simp only [sortByKey, List.insertionSort, List.foldr_cons, List.foldr_nil, List.orderedInsert, hle, if_false,
    List.map_cons, List.map_nil, freeze_toValue a ha, freeze_toValue b hb, Value.mapping.injEq, List.cons.injEq,
    Prod.mk.injEq, true_and, and_true] at hfreeze
  exact toValue_injective a b hfreeze

variable {es fs : List (String × Node)}

theorem mem_leafHashes {n : Node} {e : String × String} : e ∈ capabilityConfigLeafHashes n ↔
    ∃ l ∈ n.leaves, e = (pointer l.1, sha256Upper (canonicalJson l.2)) := by
  rw [capabilityConfigLeafHashes, (perm_sortByKey _).mem_iff, List.mem_map]
  exact exists_congr fun l => and_congr_right' eq_comm

theorem sorted_leafHashes (h : (Node.table es).Ordered) :
    ((capabilityConfigLeafHashes (.table es)).map Prod.fst).Pairwise (· < ·) := by
  refine sorted_sortByKey ?_
  have hpointers : ((Node.table es).leaves.map fun l => (pointer l.1, sha256Upper (canonicalJson l.2))).map Prod.fst
      = ((Node.table es).leaves.map Prod.fst).map pointer := by
    rw [List.map_map, List.map_map]
    rfl
  rw [hpointers]
  refine List.Nodup.map_on (fun p hp q hq hpq => ?_) (nodup_leaves _ h)
  obtain ⟨l, hl, rfl⟩ := List.mem_map.mp hp
  obtain ⟨m, hm, rfl⟩ := List.mem_map.mp hq
  exact pointer_injective (ne_nil_of_mem_leaves hl) (ne_nil_of_mem_leaves hm) hpq

/-- A leaf of one tree is one of the other where its hash is one of the other's. -/
theorem leafAt_of_mem_leafHashes [FloatReader] (laws : FloatLaws)
    (hsha : Set.InjOn sha256Upper (Set.range canonicalJson))
    (ha : (Node.table es).Ordered) (hb : (Node.table fs).Ordered)
    (hsub : ∀ e ∈ capabilityConfigLeafHashes (.table es), e ∈ capabilityConfigLeafHashes (.table fs))
    {p : List String} {v : Value} (hv : (Node.table es).leafAt p = some v) : (Node.table fs).leafAt p = some v := by
  have hl := (mem_leaves _ ha p v).mpr hv
  obtain ⟨⟨q, w⟩, hm, heq⟩ := mem_leafHashes.mp (hsub _ (mem_leafHashes.mpr ⟨_, hl, rfl⟩))
  obtain ⟨hpointer, hhash⟩ := Prod.mk.inj heq
  have hpath : p = q := pointer_injective (ne_nil_of_mem_leaves hl) (ne_nil_of_mem_leaves hm) hpointer
  have hvalue : v = w := leafValue_eq laws (isLeafValue _ hl) (isLeafValue _ hm)
    (hsha (Set.mem_range_self _) (Set.mem_range_self _) hhash)
  rw [hpath, hvalue]
  exact (mem_leaves _ hb q w).mp hm

/-- **The leaf hashes tell the leaves.** -/
theorem leafHashes_eq_iff [FloatReader] (laws : FloatLaws) (hsha : Set.InjOn sha256Upper (Set.range canonicalJson))
    (ha : (Node.table es).Ordered) (hb : (Node.table fs).Ordered) :
    capabilityConfigLeafHashes (.table es) = capabilityConfigLeafHashes (.table fs) ↔
      ∀ p, (Node.table es).leafAt p = (Node.table fs).leafAt p := by
  constructor
  · intro h p
    refine Option.ext fun v => ⟨fun hv => ?_, fun hv => ?_⟩
    · exact leafAt_of_mem_leafHashes laws hsha ha hb (fun e he => h ▸ he) hv
    · exact leafAt_of_mem_leafHashes laws hsha hb ha (fun e he => h ▸ he) hv
  · intro h
    have hsame : ∀ e, e ∈ capabilityConfigLeafHashes (.table es) ↔ e ∈ capabilityConfigLeafHashes (.table fs) := by
      intro e
      rw [mem_leafHashes, mem_leafHashes]
      refine exists_congr fun l => and_congr_left' ?_
      rw [mem_leaves _ ha, mem_leaves _ hb, h]
    have : Std.Irrefl fun a b : String × String => a.1 < b.1 := ⟨fun a => lt_irrefl a.1⟩
    have : Std.Antisymm fun a b : String × String => a.1 < b.1 := ⟨fun a b hab hba => absurd hab hba.asymm⟩
    exact (List.pairwise_map.mp (sorted_leafHashes ha)).eq_of_mem_iff (List.pairwise_map.mp (sorted_leafHashes hb)) hsame

/-- **Leaf hashes and fingerprint.**  Of two configurations, equal leaf hashes and equal digests go together
exactly unless their projections differ in tables that hold nothing and in nothing else. -/
theorem leaf_hashes_tell_fingerprint [FloatReader] (laws : FloatLaws)
    (hsha : Set.InjOn sha256Upper (Set.range canonicalJson)) {paths : SkillPaths} (first second : Configuration)
    {a b : Node} (ha : capabilityConfigProjection paths first.entries = .ok a)
    (hb : capabilityConfigProjection paths second.entries = .ok b) :
    (capabilityConfigLeafHashes a = capabilityConfigLeafHashes b ↔ projectionDigest a = projectionDigest b) ↔
      (a.dropEmpty = b.dropEmpty → a = b) := by
  obtain ⟨hordered, es, rfl⟩ := ordered_projection first.keyed ha
  obtain ⟨hordered', fs, rfl⟩ := ordered_projection second.keyed hb
  rw [leafHashes_eq_iff laws hsha hordered hordered', projectionDigest_eq_iff laws hsha hordered hordered',
    leafAt_eq_iff hordered hordered']
  exact ⟨fun h => h.mp, fun h => ⟨h, fun heq => by rw [heq]⟩⟩

end Tells

/-! ### A hook without commands -/

namespace Sample

/-- A process whose digests are told apart by their length. -/
scoped instance process : Runtime where
  casefoldUnicode s := s
  lowerUnicode s := s
  isPrintable c := 32 ≤ c.toNat && c.toNat < 127
  decimalDigit c := if c.isDigit then some (c.toNat - 48) else none
  floatRepr q := intText q.num ++ "." ++ intText q.den
  sha256 s := String.ofList (List.replicate (Encodable.encode (s.toList.map Char.toNat)) '1')
  sha512 bytes := bytes
  resolvedPath s := s
  absolutePath s := s

scoped instance fractions : FloatReader := Campaign.RecordSample.fractions

theorem laws : FloatLaws := by
  have hchars := @FloatLaws.chars Campaign.RecordSample.process Campaign.RecordSample.fractions Campaign.RecordSample.laws
  have hmark := @FloatLaws.mark Campaign.RecordSample.process Campaign.RecordSample.fractions Campaign.RecordSample.laws
  have hread := @FloatLaws.read Campaign.RecordSample.process Campaign.RecordSample.fractions Campaign.RecordSample.laws
  exact ⟨hchars, hmark, hread⟩

theorem sha256Upper_injective : Set.InjOn sha256Upper (Set.range canonicalJson) := by
  intro s _ t _ h
  have hlength := congrArg String.length h
  simp only [sha256Upper, Runtime.sha256, String.toUpper, String.length_map, String.length_ofList,
    List.length_replicate] at hlength
  have hchars := Encodable.encode_injective hlength
  refine String.toList_injective ?_
  exact List.map_injective_iff.mpr (fun c d hcd => Char.toNat_inj.mp hcd) hchars

def paths : SkillPaths where
  expandedAbsolute s := s.toList.head? == some '/'
  isAbsolute s := s.toList.head? == some '/'
  resolve s := s
  normcase s := s

/-- A configuration with the hooks given. -/
def withHooks (hooks : TomlTable) (h : (Toml.table hooks).Keyed) : Configuration where
  entries := [("hooks", .table hooks)]
  keyed := by
    rw [Toml.Keyed, keyedEntries_iff]
    exact ⟨List.nodup_singleton _, by simpa using h⟩

def emptyHooks : Configuration := withHooks [] (by simp [Toml.Keyed, KeyedEntries])

/-- `hooks.PreToolUse` is there, with nothing in it. -/
def unusedHook : Configuration :=
  withHooks [("PreToolUse", .table [])] (by simp [Toml.Keyed, KeyedEntries])

def usedHook : Configuration :=
  withHooks [("PreToolUse", .str "check")] (by simp [Toml.Keyed, KeyedEntries])

/-- The projection of the sample configurations. -/
def controlsWith (hooks : Node) : Node :=
  .table [("apps", .table []), ("features", .table []), ("hooks", hooks), ("mcp_servers", .table []),
    ("plugins", .table []), ("shell_environment_policy", .table [("set", .table [])]), ("skills", .table [])]

theorem emptyHooks_accepted :
    capabilityConfigProjection paths emptyHooks.entries = .ok (controlsWith (.table [])) := by
  rfl

theorem unusedHook_accepted :
    capabilityConfigProjection paths unusedHook.entries
      = .ok (controlsWith (.table [("PreToolUse", .table [])])) := by
  rfl

theorem usedHook_accepted :
    capabilityConfigProjection paths usedHook.entries
      = .ok (controlsWith (.table [("PreToolUse", .scalar (.str "check"))])) := by
  rfl

end Sample

open scoped Sample in
theorem leaf_hashes_miss_table : ¬ ∀ (first second : Configuration) (a b : Node),
    capabilityConfigProjection Sample.paths first.entries = .ok a →
      capabilityConfigProjection Sample.paths second.entries = .ok b →
        (capabilityConfigLeafHashes a = capabilityConfigLeafHashes b ↔ projectionDigest a = projectionDigest b) := by
  intro h
  have hsame := h _ _ _ _ Sample.emptyHooks_accepted Sample.unusedHook_accepted
  have hleaves : capabilityConfigLeafHashes (Sample.controlsWith (.table []))
      = capabilityConfigLeafHashes (Sample.controlsWith (.table [("PreToolUse", .table [])])) := rfl
  obtain ⟨ha, -⟩ := ordered_projection Sample.emptyHooks.keyed Sample.emptyHooks_accepted
  obtain ⟨hb, -⟩ := ordered_projection Sample.unusedHook.keyed Sample.unusedHook_accepted
  have hdigests := hsame.mp hleaves
  rw [projectionDigest_eq_iff Sample.laws Sample.sha256Upper_injective ha hb] at hdigests
  simp [Sample.controlsWith] at hdigests

open scoped Sample in
theorem leaf_hashes_tell_fingerprint_sample : ∃ a b,
    capabilityConfigProjection Sample.paths Sample.unusedHook.entries = .ok a ∧
      capabilityConfigProjection Sample.paths Sample.usedHook.entries = .ok b ∧
        (capabilityConfigLeafHashes a = capabilityConfigLeafHashes b ↔ projectionDigest a = projectionDigest b) := by
  refine ⟨_, _, Sample.unusedHook_accepted, Sample.usedHook_accepted, ?_⟩
  refine (leaf_hashes_tell_fingerprint Sample.laws Sample.sha256Upper_injective Sample.unusedHook Sample.usedHook
    Sample.unusedHook_accepted Sample.usedHook_accepted).mpr fun hdrop => ?_
  simp [Sample.controlsWith, Node.dropEmpty, dropEmptyEntries, Node.holdsNothing] at hdrop

end CodingOS.ConfigFingerprint
