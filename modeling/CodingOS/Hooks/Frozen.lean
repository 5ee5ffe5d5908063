import CodingOS.Hooks.Configuration

/-!
# A document as it is read back

`_json_bytes` sorts the members of every object, so what is read back is the document frozen.  Sorting by
key is stable: what selects or changes entries under their keys does the same before it and after it.
-/

namespace CodingOS.Hooks

open CodingOS.Python

/-! ### Sorting by key -/

section Sorting

variable {α β : Type}

theorem orderedInsert_filterMap {f : String × α → Option (String × β)} (hkey : ∀ e x, f e = some x → x.1 = e.1)
    (e : String × α) {l : List (String × α)} (hsorted : l.Pairwise fun a b => a.1 ≤ b.1) :
    (l.orderedInsert (fun a b => a.1 ≤ b.1) e).filterMap f =
      match f e with
      | none => l.filterMap f
      | some x => (l.filterMap f).orderedInsert (fun a b => a.1 ≤ b.1) x := by
  induction l with
  | nil => cases h : f e <;> simp [h]
  | cons b l ih =>
      obtain ⟨hfirst, hrest⟩ := List.pairwise_cons.mp hsorted
      rw [List.orderedInsert_cons]
      split
      · next hle =>
          rw [List.filterMap_cons]
          cases h : f e with
          | none => rfl
          | some x =>
              -- what is selected from `b :: l` starts with a key no smaller than that of `b`
              have hall : ∀ y ∈ (b :: l).filterMap f, x.1 ≤ y.1 := by
                intro y hy
                obtain ⟨c, hc, hy⟩ := List.mem_filterMap.mp hy
                rw [hkey e x h, hkey c y hy]
                rcases List.mem_cons.mp hc with rfl | hc
                · exact hle
                · exact String.le_trans hle (hfirst c hc)
              show x :: (b :: l).filterMap f = _
              cases hl : (b :: l).filterMap f with
              | nil => rfl
              | cons y ys =>
                  show x :: y :: ys = (y :: ys).orderedInsert (fun a b => a.1 ≤ b.1) x
                  rw [List.orderedInsert_cons, if_pos (hall y (hl ▸ List.mem_cons_self))]
      · next hgt =>
          rw [List.filterMap_cons, ih hrest]
          cases hb : f b with
          | none => cases h : f e <;> simp [hb]
          | some y =>
              cases h : f e with
              | none => simp [hb]
              | some x =>
                  have hxy : ¬x.1 ≤ y.1 := by rwa [hkey e x h, hkey b y hb]
                  simp only [List.filterMap_cons, hb, List.orderedInsert_cons, if_neg hxy]

/-- What selects entries and keeps their keys may be done before sorting or after it. -/
theorem sortByKey_filterMap {f : String × α → Option (String × β)} (hkey : ∀ e x, f e = some x → x.1 = e.1)
    (l : List (String × α)) : (sortByKey l).filterMap f = sortByKey (l.filterMap f) := by
  induction l with
  | nil => rfl
  | cons e l ih =>
      have hsorted : (sortByKey l).Pairwise fun a b => a.1 ≤ b.1 := List.pairwise_insertionSort _ l
      have hcons : sortByKey (e :: l) = (sortByKey l).orderedInsert (fun a b => a.1 ≤ b.1) e := rfl
      rw [hcons, orderedInsert_filterMap hkey e hsorted, ih, List.filterMap_cons]
      cases f e <;> rfl

theorem mem_sortByKey {e : String × α} {l : List (String × α)} : e ∈ sortByKey l ↔ e ∈ l :=
  List.mem_insertionSort _

/-- The first entry of a key, by the entries of that key alone. -/
theorem lookup_eq_head (key : String) (l : List (String × α)) :
    l.lookup key = ((l.filter fun e => e.1 == key).head?).map Prod.snd := by
  induction l with
  | nil => rfl
  | cons e l ih =>
      obtain ⟨k, v⟩ := e
      rw [List.lookup_cons, List.filter_cons]
      by_cases h : k = key
      · simp [h]
      · rw [beq_false_of_ne h, beq_false_of_ne (Ne.symm h), ih]
        rfl

/-- Sorting is stable, so it changes no lookup. -/
theorem lookup_sortByKey (key : String) (l : List (String × α)) : (sortByKey l).lookup key = l.lookup key := by
  have hfilter : (sortByKey l).filter (fun e => e.1 == key) = sortByKey (l.filter fun e => e.1 == key) := by
    rw [← List.filterMap_eq_filter, sortByKey_filterMap]
    intro e x h
    rw [(Option.guard_eq_some_iff.mp h).1]
  have hsorted : (l.filter fun e => e.1 == key).Pairwise fun a b => a.1 ≤ b.1 := by
    refine List.Pairwise.imp_of_mem (R := fun _ _ => True) (fun ha hb _ => ?_) (List.pairwise_of_forall fun _ _ => trivial)
    rw [beq_iff_eq.mp (List.mem_filter.mp ha).2, beq_iff_eq.mp (List.mem_filter.mp hb).2]
  rw [lookup_eq_head, hfilter, sortByKey, hsorted.insertionSort_eq, ← lookup_eq_head]

end Sorting

/-! ### Setting a member -/

theorem set_orderedInsert_self (key : String) (v w : Value) (m : Mapping) :
    Mapping.set (m.orderedInsert (fun a b => a.1 ≤ b.1) (key, v)) key w
      = m.orderedInsert (fun a b => a.1 ≤ b.1) (key, w) := by
  induction m with
  | nil => simp [Mapping.set]
  | cons b m ih =>
      obtain ⟨k, x⟩ := b
      rw [List.orderedInsert_cons, List.orderedInsert_cons]
      split
      · simp [Mapping.set]
      · next hgt =>
          have hne : k ≠ key := fun h => hgt (h ▸ String.le_refl _)
          rw [Mapping.set, if_neg hne, ih]

theorem set_orderedInsert_of_ne {key other : String} (v w : Value) (hne : other ≠ key) {m : Mapping}
    (hmem : (m.get? key).isSome) :
    Mapping.set (m.orderedInsert (fun a b => a.1 ≤ b.1) (other, v)) key w
      = (m.set key w).orderedInsert (fun a b => a.1 ≤ b.1) (other, v) := by
  induction m with
  | nil => simp at hmem
  | cons b m ih =>
      obtain ⟨k, x⟩ := b
      by_cases hk : k = key
      · subst hk
        rw [List.orderedInsert_cons, Mapping.set, if_pos rfl, List.orderedInsert_cons]
        split
        · rw [Mapping.set, if_neg hne, Mapping.set, if_pos rfl]
        · rw [Mapping.set, if_pos rfl]
      · rw [Mapping.get?_cons, if_neg (Ne.symm hk)] at hmem
        rw [List.orderedInsert_cons, Mapping.set, if_neg hk, List.orderedInsert_cons]
        split
        · rw [Mapping.set, if_neg hne, Mapping.set, if_neg hk]
        · rw [Mapping.set, if_neg hk, ih hmem]

theorem sortByKey_set {m : Mapping} {key : String} (w : Value) (hmem : (m.get? key).isSome) :
    sortByKey (m.set key w) = Mapping.set (sortByKey m) key w := by
  induction m with
  | nil => simp at hmem
  | cons e m ih =>
      obtain ⟨k, v⟩ := e
      have hcons : sortByKey ((k, v) :: m) = (sortByKey m).orderedInsert (fun a b => a.1 ≤ b.1) (k, v) := rfl
      by_cases hk : k = key
      · subst hk
        rw [Mapping.set, if_pos rfl, hcons, set_orderedInsert_self]
        rfl
      · rw [Mapping.get?_cons, if_neg (Ne.symm hk)] at hmem
        have hsorted : (Mapping.get? (sortByKey m) key).isSome := by rwa [get?_sortByKey]
        rw [Mapping.set, if_neg hk, hcons, set_orderedInsert_of_ne v w hk hsorted, ← ih hmem]
        rfl

theorem freezeEntries_set (m : Mapping) (key : String) (w : Value) :
    freezeEntries (m.set key w) = Mapping.set (freezeEntries m) key (freeze w) := by
  induction m with
  | nil => rfl
  | cons e m ih =>
      obtain ⟨k, v⟩ := e
      rw [Mapping.set, freezeEntries, Mapping.set]
      split
      · rfl
      · rw [freezeEntries, ih]

theorem freeze_set {m : Mapping} {key : String} (w : Value) (hmem : (m.get? key).isSome) :
    (m.set key w).freeze = m.freeze.set key (freeze w) := by
  have hfrozen : (Mapping.get? (freezeEntries m) key).isSome := by
    rw [← get?_sortByKey, ← Mapping.freeze, Mapping.get?_freeze]
    simpa using hmem
  rw [Mapping.freeze, freezeEntries_set, sortByKey_set _ hfrozen, Mapping.freeze]

theorem set_set (m : Mapping) (key : String) (v w : Value) : (m.set key v).set key w = m.set key w := by
  induction m with
  | nil => simp [Mapping.set]
  | cons e m ih =>
      obtain ⟨k, x⟩ := e
      rw [Mapping.set, Mapping.set]
      split
      · next h => rw [Mapping.set, if_pos h]
      · next h => rw [Mapping.set, if_neg h, ih]

theorem set_eq_self {m : Mapping} {key : String} {v : Value} (h : m.get? key = some v) : m.set key v = m := by
  induction m with
  | nil => simp at h
  | cons e m ih =>
      obtain ⟨k, x⟩ := e
      rw [Mapping.get?_cons] at h
      rw [Mapping.set]
      split
      · next hk =>
          rw [if_pos hk.symm, Option.some.injEq] at h
          rw [h]
      · next hk =>
          rw [if_neg (Ne.symm hk)] at h
          rw [ih h]

/-! ### Frozen documents -/

/-- A group as it is read back. -/
def HookGroup.freeze (g : HookGroup) : HookGroup where
  fields := g.fields.freeze
  commands := g.commands.map Mapping.freeze
  holds := by
    rw [Mapping.get?_freeze, g.holds, Option.map_some, freeze_tuple, List.map_map, List.map_map]
    rfl

theorem HookGroup.freeze_value (g : HookGroup) : g.freeze.value = Python.freeze g.value := rfl

def freezeEvent (e : String × List HookGroup) : String × List HookGroup := (e.1, e.2.map HookGroup.freeze)

def freezeEvents (events : Events) : Events := sortByKey (events.map freezeEvent)

theorem freeze_eventsValue (events : Events) :
    Mapping.freeze (eventsValue events) = eventsValue (freezeEvents events) := by
  have hentries : freezeEntries (eventsValue events) = eventsValue (events.map freezeEvent) := by
    rw [freezeEntries_eq_map, eventsValue, eventsValue, List.map_map, List.map_map]
    refine List.map_congr_left fun e _ => ?_
    show (e.1, Python.freeze (.tuple (e.2.map HookGroup.value))) = (e.1, Value.tuple ((e.2.map HookGroup.freeze).map HookGroup.value))
    rw [freeze_tuple, List.map_map, List.map_map]
    rfl
  rw [Mapping.freeze, hentries, freezeEvents, eventsValue, eventsValue]
  exact sortByKey_map (fun groups : List HookGroup => Value.tuple (groups.map HookGroup.value)) _

/-- A document as it is read back. -/
def HooksDocument.freeze (d : HooksDocument) : HooksDocument where
  fields := d.fields.freeze
  events := freezeEvents d.events
  holds := by rw [Mapping.get?_freeze, d.holds, Option.map_some, freeze_mapping, freeze_eventsValue]

theorem HooksDocument.freeze_value (d : HooksDocument) : d.freeze.value = Python.freeze d.value := rfl

theorem HooksDocument.freeze_freeze (d : HooksDocument) : d.freeze.freeze = d.freeze :=
  HooksDocument.value_injective (Python.freeze_freeze d.value)

theorem HooksDocument.freeze_withEvents (d : HooksDocument) (events : Events) :
    (d.withEvents events).freeze = d.freeze.withEvents (freezeEvents events) := by
  refine HooksDocument.value_injective (congrArg Value.mapping ?_)
  show (d.fields.set "hooks" (.mapping (eventsValue events))).freeze
    = d.fields.freeze.set "hooks" (.mapping (eventsValue (freezeEvents events)))
  rw [freeze_set _ (by rw [d.holds]; rfl), freeze_mapping, freeze_eventsValue]

theorem HooksDocument.withEvents_withEvents (d : HooksDocument) (events events' : Events) :
    (d.withEvents events).withEvents events' = d.withEvents events' :=
  HooksDocument.value_injective (congrArg Value.mapping (set_set d.fields _ _ _))

theorem HooksDocument.withEvents_events (d : HooksDocument) : d.withEvents d.events = d :=
  HooksDocument.value_injective (congrArg Value.mapping (set_eq_self d.holds))

theorem HookGroup.withCommands_commands (g : HookGroup) : g.withCommands g.commands = g :=
  HookGroup.value_injective (congrArg Value.mapping (set_eq_self g.holds))

/-- Documents that are read back the same have the same events. -/
theorem freezeEvents_of_freeze {d k : HooksDocument} (h : Python.freeze d.value = Python.freeze k.value) :
    freezeEvents d.events = freezeEvents k.events := by
  have hdocs : d.freeze = k.freeze := HooksDocument.value_injective h
  exact congrArg HooksDocument.events hdocs

section Texts

variable [Runtime]

theorem indentedItems_eq_map (level : ℕ) (xs : List Value) : indentedItems level xs = xs.map (jsonIndented level) := by
  induction xs with
  | nil => rfl
  | cons x xs ih => rw [indentedItems, ih, List.map_cons]

theorem indentedEntries_eq_map (level : ℕ) (xs : Mapping) :
    indentedEntries level xs = xs.map fun e => (e.1, jsonIndented level e.2) := by
  induction xs with
  | nil => rfl
  | cons e xs ih =>
      obtain ⟨k, x⟩ := e
      rw [indentedEntries, ih, List.map_cons]

mutual

/-- `json.dumps` writes a value and what is read back of it alike: it sorts the members itself. -/
theorem jsonIndented_freeze : ∀ (level : ℕ) (v : Value), jsonIndented level (freeze v) = jsonIndented level v
  | _, .null | _, .bool _ | _, .int _ | _, .float _ | _, .str _ => rfl
  | level, .tuple xs => by
      rw [freeze_tuple, jsonIndented, jsonIndented, indentedItems_eq_map, indentedItems_eq_map, List.map_map]
      exact congrArg _ (List.map_congr_left (jsonIndented_freeze_items (level + 1) xs))
  | level, .mapping xs => by
      have hentries : (sortByKey (freezeEntries xs)).map (fun e => (e.1, jsonIndented (level + 1) e.2))
          = (sortByKey xs).map fun e => (e.1, jsonIndented (level + 1) e.2) := by
        rw [freezeEntries_eq_map, sortByKey_map, List.map_map]
        refine List.map_congr_left fun e he => congrArg (Prod.mk e.1) ?_
        exact jsonIndented_freeze_entries (level + 1) xs e (mem_sortByKey.mp he)
      have hsorted : sortByKey (indentedEntries (level + 1) (Mapping.freeze xs)) = sortByKey (indentedEntries (level + 1) xs) := by
        rw [indentedEntries_eq_map, indentedEntries_eq_map, Mapping.freeze, hentries, sortByKey_map,
          sortByKey_map, sortByKey_sortByKey]
      rw [freeze_mapping, jsonIndented, jsonIndented, hsorted]

theorem jsonIndented_freeze_items :
    ∀ (level : ℕ) (xs : List Value), ∀ x ∈ xs, jsonIndented level (freeze x) = jsonIndented level x
  | _, [] => by simp
  | level, x :: xs =>
      List.forall_mem_cons.mpr ⟨jsonIndented_freeze level x, jsonIndented_freeze_items level xs⟩

theorem jsonIndented_freeze_entries :
    ∀ (level : ℕ) (xs : Mapping), ∀ e ∈ xs, jsonIndented level (freeze e.2) = jsonIndented level e.2
  | _, [] => by simp
  | level, (_, x) :: xs =>
      List.forall_mem_cons.mpr ⟨jsonIndented_freeze level x, jsonIndented_freeze_entries level xs⟩

end

theorem jsonBytes_freeze (v : Value) : jsonBytes (freeze v) = jsonBytes v := by
  rw [jsonBytes, jsonBytes, jsonIndented_freeze]

mutual

theorem canonicalJson_freeze : ∀ v : Value, canonicalJson (freeze v) = canonicalJson v
  | .null | .bool _ | .int _ | .float _ | .str _ => rfl
  | .tuple xs => by
      rw [freeze_tuple, canonicalJson, canonicalJson, jsonItems_eq_map, jsonItems_eq_map, List.map_map]
      have hitems := List.map_congr_left (canonicalJson_freeze_items xs)
      simp only [Function.comp_def, hitems]
  | .mapping xs => by
      have hentries : (sortByKey (freezeEntries xs)).map (fun e => (e.1, canonicalJson e.2))
          = (sortByKey xs).map fun e => (e.1, canonicalJson e.2) := by
        rw [freezeEntries_eq_map, sortByKey_map, List.map_map]
        refine List.map_congr_left fun e he => congrArg (Prod.mk e.1) ?_
        exact canonicalJson_freeze_entries xs e (mem_sortByKey.mp he)
      have hsorted : sortByKey (jsonEntries (Mapping.freeze xs)) = sortByKey (jsonEntries xs) := by
        rw [jsonEntries_eq_map, jsonEntries_eq_map, Mapping.freeze, hentries, sortByKey_map, sortByKey_map,
          sortByKey_sortByKey]
      rw [freeze_mapping, canonicalJson, canonicalJson, hsorted]

theorem canonicalJson_freeze_items : ∀ xs : List Value, ∀ x ∈ xs, canonicalJson (freeze x) = canonicalJson x
  | [] => by simp
  | x :: xs => List.forall_mem_cons.mpr ⟨canonicalJson_freeze x, canonicalJson_freeze_items xs⟩

theorem canonicalJson_freeze_entries : ∀ xs : Mapping, ∀ e ∈ xs, canonicalJson (freeze e.2) = canonicalJson e.2
  | [] => by simp
  | (_, x) :: xs => List.forall_mem_cons.mpr ⟨canonicalJson_freeze x, canonicalJson_freeze_entries xs⟩

end

theorem canonicalJsonDigest_freeze [FileDigest] (v : Value) : canonicalJsonDigest (freeze v) = canonicalJsonDigest v := by
  rw [canonicalJsonDigest, canonicalJsonDigest, canonicalJson_freeze]

theorem hookCommandPointsTo_freeze (command : Mapping) (suffix : String) :
    hookCommandPointsTo command.freeze suffix = hookCommandPointsTo command suffix := by
  unfold hookCommandPointsTo
  refine congrArg (List.any _) (funext fun key => ?_)
  rw [Mapping.get?_freeze]
  cases command.get? key with
  | none => rfl
  | some v => cases v <;> rfl

end Texts

end CodingOS.Hooks
