import CodingOS.ConfigFingerprint.LeafHashes

/-!
# What a value normalizes to

A dict with distinct keys normalizes to an ordered tree, and the tree is read back from its JSON.  A value
with one Boolean inverted normalizes to a tree with one leaf changed.
-/

namespace CodingOS.ConfigFingerprint

open CodingOS.Python Systems Systems.Result

/-! ### Trees of parsed values -/

/-- Induction on a parsed value, by what an array or a dict holds. -/
theorem Toml.child_induction {P : Toml → Prop}
    (step : ∀ t : Toml, (∀ items, t = .array items → ∀ c ∈ items, P c) →
      (∀ entries, t = .table entries → ∀ e ∈ entries, P e.2) → P t) (t : Toml) : P t := by
  refine Toml.rec (motive_1 := P) (motive_2 := fun ts => ∀ c ∈ ts, P c)
    (motive_3 := fun es => ∀ e ∈ es, P e.2) (motive_4 := fun e => P e.2)
    ?_ ?_ ?_ ?_ ?_ ?_ ?_ ?_ ?_ ?_ ?_ ?_ ?_ ?_ t
  iterate 7
    intro _
    exact step _ (fun _ h => by cases h) fun _ h => by cases h
  · intro items ih
    refine step _ (fun items' h => ?_) fun _ h => by cases h
    cases h
    exact ih
  · intro entries ih
    refine step _ (fun _ h => by cases h) fun entries' h => ?_
    cases h
    exact ih
  · simp
  · exact fun c cs hc hcs => List.forall_mem_cons.mpr ⟨hc, hcs⟩
  · simp
  · exact fun e es he hes => List.forall_mem_cons.mpr ⟨he, hes⟩
  · exact fun key t ht => ht

theorem besidesPipe_eq_ok {path : List String} {node : Except ConfigError Node} {n : Node} :
    besidesPipe path node = .ok n ↔ path ≠ sessionPipePath ∧ node = .ok n := by
  rw [besidesPipe]
  split <;> simp_all

/-! ### Parts -/

theorem normalizeItems_spec {path : List String} {index : ℕ} {ts : List Toml} {ns : List Node}
    (h : normalizeItems path index ts = .ok ns) : ns.length = ts.length ∧
      ∀ i t n, ts[i]? = some t → ns[i]? = some n →
        normalizeValue (path ++ [toString (index + i)]) t = .ok n := by
  induction ts generalizing index ns with
  | nil =>
      cases h
      simp
  | cons t ts ih =>
      rw [normalizeItems] at h
      obtain ⟨n, hn, h⟩ := bind_eq_ok.mp h
      obtain ⟨ms, hms, h⟩ := bind_eq_ok.mp h
      obtain rfl := pure_eq_ok.mp h
      obtain ⟨hlength, hitems⟩ := ih hms
      refine ⟨by rw [List.length_cons, List.length_cons, hlength], fun i u m hu hm => ?_⟩
      cases i with
      | zero =>
          obtain rfl := Option.some.inj hu
          obtain rfl := Option.some.inj hm
          exact hn
      | succ i =>
          have hitem := hitems i u m hu hm
          rwa [Nat.add_assoc, Nat.add_comm 1 i] at hitem

theorem normalizeEntries_spec {path : List String} {es : TomlTable} {ns : List (String × Node)}
    (h : normalizeEntries path es = .ok ns) : ns.map Prod.fst = es.map Prod.fst ∧ (∀ e ∈ ns, e.1 ≠ "") ∧
      (∀ key t, es.lookup key = some t → ∃ n, normalizeValue (path ++ [key]) t = .ok n) ∧ ∀ key n, ns.lookup key = some n ↔
        ∃ t, es.lookup key = some t ∧ normalizeValue (path ++ [key]) t = .ok n := by
  induction es generalizing ns with
  | nil =>
      cases h
      simp
  | cons e es ih =>
      obtain ⟨k, t⟩ := e
      rw [normalizeEntries] at h
      obtain ⟨_, hne, h⟩ := bind_eq_ok.mp h
      obtain ⟨n, hn, h⟩ := bind_eq_ok.mp h
      obtain ⟨ms, hms, h⟩ := bind_eq_ok.mp h
      obtain rfl := pure_eq_ok.mp h
      obtain ⟨hkeys, hnonempty, hsome, hlookup⟩ := ih hms
      refine ⟨by rw [List.map_cons, List.map_cons, hkeys],
        List.forall_mem_cons.mpr ⟨by simpa using ensure_eq_ok.mp hne, hnonempty⟩, fun key u hu => ?_,
        fun key m => ?_⟩
      · rw [List.lookup_cons] at hu
        by_cases hkey : key = k
        · subst hkey
          rw [beq_self_eq_true] at hu
          obtain rfl := Option.some.inj hu
          exact ⟨n, hn⟩
        · rw [beq_false_of_ne hkey] at hu
          exact hsome key u hu
      · rw [List.lookup_cons, List.lookup_cons]
        by_cases hkey : key = k
        · subst hkey
          simp [hn, eq_comm]
        · rw [beq_false_of_ne hkey]
          exact hlookup key m

theorem perm_sortByKey {α : Type} (entries : List (String × α)) : (sortByKey entries).Perm entries :=
  List.perm_insertionSort _ _

/-- Entries with distinct keys are found in any order. -/
theorem lookup_sortByKey {α : Type} {entries : List (String × α)} (h : (entries.map Prod.fst).Nodup)
    (key : String) : (sortByKey entries).lookup key = entries.lookup key := by
  have hperm := perm_sortByKey entries
  have hsorted : ((sortByKey entries).map Prod.fst).Nodup := (hperm.map Prod.fst).nodup_iff.mpr h
  refine Option.ext fun v => ?_
  rw [lookup_eq_some_iff hsorted, lookup_eq_some_iff h, hperm.mem_iff]

/-- Distinct keys in their order. -/
theorem sorted_sortByKey {α : Type} {entries : List (String × α)} (h : (entries.map Prod.fst).Nodup) :
    ((sortByKey entries).map Prod.fst).Pairwise (· < ·) := by
  have hsorted : ((sortByKey entries).map Prod.fst).Pairwise (· ≤ ·) :=
    List.pairwise_map.mpr (List.pairwise_insertionSort (fun a b : String × α => a.1 ≤ b.1) entries)
  have hnodup := ((perm_sortByKey entries).map Prod.fst).nodup_iff.mpr h
  exact (hsorted.and hnodup).imp fun hab => lt_of_le_of_ne hab.1 hab.2

/-- **A dict, normalized.**  What stands under a key of it is what stood there, normalized. -/
theorem normalizeValue_table {path : List String} {es : TomlTable} {n : Node}
    (hkeys : (es.map Prod.fst).Nodup) (h : normalizeValue path (.table es) = .ok n) :
    ∃ ns : List (String × Node), n = .table ns ∧ (ns.map Prod.fst).Pairwise (· < ·) ∧ (∀ e ∈ ns, e.1 ≠ "") ∧
      (∀ key t, es.lookup key = some t → ∃ c, normalizeValue (path ++ [key]) t = .ok c) ∧
      ∀ key c, (key, c) ∈ ns ↔ ∃ t, es.lookup key = some t ∧ normalizeValue (path ++ [key]) t = .ok c := by
  rw [normalizeValue, besidesPipe_eq_ok] at h
  obtain ⟨-, h⟩ := h
  obtain ⟨ns, hns, h⟩ := bind_eq_ok.mp h
  obtain rfl := pure_eq_ok.mp h
  obtain ⟨hsame, hnonempty, hsome, hlookup⟩ := normalizeEntries_spec hns
  have hnodup : (ns.map Prod.fst).Nodup := hsame ▸ hkeys
  refine ⟨sortByKey ns, rfl, sorted_sortByKey hnodup, fun e he => ?_, hsome, fun key c => ?_⟩
  · exact hnonempty e ((perm_sortByKey ns).mem_iff.mp he)
  · rw [(perm_sortByKey ns).mem_iff, ← lookup_eq_some_iff hnodup, hlookup]

theorem normalizeValue_array {path : List String} {ts : List Toml} {n : Node}
    (h : normalizeValue path (.array ts) = .ok n) :
    ∃ ns : List Node, n = .array ns ∧ ns.length = ts.length ∧ ∀ (i : ℕ) (t : Toml) (c : Node),
      ts[i]? = some t → ns[i]? = some c → normalizeValue (path ++ [toString i]) t = .ok c := by
  rw [normalizeValue, besidesPipe_eq_ok] at h
  obtain ⟨-, h⟩ := h
  obtain ⟨ns, hns, h⟩ := bind_eq_ok.mp h
  obtain rfl := pure_eq_ok.mp h
  obtain ⟨hlength, hitems⟩ := normalizeItems_spec hns
  refine ⟨ns, rfl, hlength, fun i t c ht hc => ?_⟩
  simpa using hitems i t c ht hc

/-- A value is normalized to an ordered tree. -/
theorem ordered_normalizeValue (t : Toml) (hkeyed : t.Keyed) {path : List String} {n : Node}
    (h : normalizeValue path t = .ok n) : n.Ordered := by
  induction t using Toml.child_induction generalizing path n with
  | step t ihitems ihentries =>
  cases t with
  | array ts =>
      rw [Toml.Keyed, keyedItems_iff] at hkeyed
      obtain ⟨ns, rfl, hlength, hitems⟩ := normalizeValue_array h
      rw [Node.Ordered, orderedItems_iff]
      intro c hc
      obtain ⟨i, hi, rfl⟩ := List.mem_iff_getElem.mp hc
      have hts : i < ts.length := hlength ▸ hi
      exact ihitems ts rfl _ (List.getElem_mem hts) (hkeyed _ (List.getElem_mem hts))
        (hitems i _ _ (List.getElem?_eq_getElem hts) (List.getElem?_eq_getElem hi))
  | table es =>
      rw [Toml.Keyed, keyedEntries_iff] at hkeyed
      obtain ⟨ns, rfl, hsorted, hnonempty, -, hmem⟩ := normalizeValue_table hkeyed.1 h
      rw [Node.Ordered, orderedEntries_iff]
      refine ⟨hsorted, hnonempty, ?_⟩
      rintro ⟨key, c⟩ hc
      obtain ⟨t, ht, hn⟩ := (hmem key c).mp hc
      have hin := (lookup_eq_some_iff hkeyed.1).mp ht
      exact ihentries es rfl _ hin (hkeyed.2 _ hin) hn
  | str s =>
      rw [normalizeValue] at h
      split at h
      · split at h
        · cases h
          exact trivial
        · cases h
      · cases h
        exact trivial
  | float q =>
      cases q with
      | none =>
          rw [normalizeValue, besidesPipe_eq_ok] at h
          cases h.2
      | some q =>
          rw [normalizeValue, besidesPipe_eq_ok] at h
          cases h.2
          exact trivial
  | _ =>
      rw [normalizeValue, besidesPipe_eq_ok] at h
      cases h.2
      exact trivial

/-! ### Inverting one Boolean -/

/-- What stands under a key, changed. -/
def atKey {α : Type} (key : String) (f : α → α) (entries : List (String × α)) : List (String × α) :=
  entries.map fun e => if e.1 = key then (e.1, f e.2) else e

/-- What stands at a path of keys and positions. -/
def Toml.get? : List String → Toml → Option Toml
  | [], t => some t
  | key :: path, .table entries => (entries.lookup key).bind fun t => t.get? path
  | key :: path, .array items =>
      ((items.zipIdx.map fun e => (toString e.2, e.1)).lookup key).bind fun t => t.get? path
  | _ :: _, _ => none

/-- The value with the Boolean at a path inverted. -/
def Toml.invertAt : List String → Toml → Toml
  | [], .bool b => .bool !b
  | key :: path, .table entries => .table (atKey key (fun t => t.invertAt path) entries)
  | key :: path, .array items =>
      .array (items.mapIdx fun i t => if toString i = key then t.invertAt path else t)
  | _, t => t

section AtKey

variable {α : Type} {key : String} {f : α → α}

@[simp] theorem atKey_nil : atKey key f [] = [] := rfl

theorem atKey_cons (e : String × α) (entries : List (String × α)) :
    atKey key f (e :: entries) = (if e.1 = key then (e.1, f e.2) else e) :: atKey key f entries := rfl

@[simp] theorem keys_atKey (entries : List (String × α)) :
    (atKey key f entries).map Prod.fst = entries.map Prod.fst := by
  rw [atKey, List.map_map]
  refine List.map_congr_left fun e _ => ?_
  show (if e.1 = key then (e.1, f e.2) else e).1 = e.1
  split <;> rfl

theorem lookup_atKey_self (entries : List (String × α)) :
    (atKey key f entries).lookup key = (entries.lookup key).map f := by
  induction entries with
  | nil => rfl
  | cons e entries ih =>
      obtain ⟨k, v⟩ := e
      rw [atKey_cons]
      by_cases hk : k = key
      · subst hk
        simp
      · rw [if_neg hk, List.lookup_cons, List.lookup_cons, beq_false_of_ne (Ne.symm hk)]
        exact ih

theorem lookup_atKey_of_ne {other : String} (h : other ≠ key) (entries : List (String × α)) :
    (atKey key f entries).lookup other = entries.lookup other := by
  induction entries with
  | nil => rfl
  | cons e entries ih =>
      obtain ⟨k, v⟩ := e
      rw [atKey_cons]
      by_cases hk : k = key
      · subst hk
        rw [if_pos rfl, List.lookup_cons, List.lookup_cons, beq_false_of_ne h]
        exact ih
      · rw [if_neg hk, List.lookup_cons, List.lookup_cons, ih]

/-- Sorting by key goes before or after a change under one key. -/
theorem sortByKey_atKey (entries : List (String × α)) :
    sortByKey (atKey key f entries) = atKey key f (sortByKey entries) := by
  refine (List.map_insertionSort (fun a b : String × α => a.1 ≤ b.1) (fun a b : String × α => a.1 ≤ b.1)
    (fun e => if e.1 = key then (e.1, f e.2) else e) entries fun a _ b _ => ?_).symm
  have hfst : ∀ e : String × α, (if e.1 = key then (e.1, f e.2) else e).1 = e.1 := fun e => by split <;> rfl
  rw [hfst, hfst]

end AtKey

theorem normalizeValue_bool {path : List String} {b : Bool} {n : Node} (h : normalizeValue path (.bool b) = .ok n) :
    n = .scalar (.bool b) := by
  rw [normalizeValue, besidesPipe_eq_ok] at h
  cases h.2
  rfl

/-- A Boolean stands in a dict, some keys deep. -/
inductive BoolAt (b : Bool) : List String → Toml → Prop
  | here : BoolAt b [] (.bool b)
  | under {key : String} {path : List String} {entries : TomlTable} {t : Toml}
      (hkey : entries.lookup key = some t) (ht : BoolAt b path t) : BoolAt b (key :: path) (.table entries)

/-- **One leaf changes.**  Two dicts that differ in the Boolean at one path normalize to trees that differ in
the leaf at that path. -/
theorem leafAt_invertAt {b : Bool} {at_ : List String} {t : Toml} (hbool : BoolAt b at_ t) (hkeyed : t.Keyed)
    {path : List String} {n m : Node} (h : normalizeValue path t = .ok n) (hn : n.Ordered)
    (h' : normalizeValue path (t.invertAt at_) = .ok m) (hm : m.Ordered) :
    n.leafAt at_ = some (Scalar.bool b).toValue ∧ m.leafAt at_ = some (Scalar.bool !b).toValue ∧
      ∀ q, q ≠ at_ → n.leafAt q = m.leafAt q := by
  induction hbool generalizing path n m with
  | here =>
      obtain rfl := normalizeValue_bool h
      obtain rfl := normalizeValue_bool h'
      refine ⟨rfl, rfl, fun q hq => ?_⟩
      cases q with
      | nil => exact absurd rfl hq
      | cons key q => rfl
  | @under key at_ es t hkey ht ih =>
      rw [Toml.Keyed, keyedEntries_iff] at hkeyed
      rw [Toml.invertAt] at h'
      obtain ⟨ns, rfl, -, -, hsome, hns⟩ := normalizeValue_table hkeyed.1 h
      obtain ⟨ms, rfl, -, -, hsome', hms⟩ := normalizeValue_table (by rw [keys_atKey]; exact hkeyed.1) h'
      have hkey' : (atKey key (fun t : Toml => t.invertAt at_) es).lookup key
          = (es.lookup key).map fun t => t.invertAt at_ := lookup_atKey_self es
      rw [hkey] at hkey'
      obtain ⟨c, hc⟩ := hsome key t hkey
      obtain ⟨d, hd⟩ := hsome' key _ hkey'
      have hcn := (hns key c).mpr ⟨t, hkey, hc⟩
      have hdm := (hms key d).mpr ⟨_, hkey', hd⟩
      obtain ⟨hbefore, hafter, hsame⟩ := ih (hkeyed.2 _ ((lookup_eq_some_iff hkeyed.1).mp hkey)) hc
        (ordered_children hn hcn) hd (ordered_children hm hdm)
      refine ⟨by rw [leafAt_child hn hcn, hbefore], by rw [leafAt_child hm hdm, hafter], fun q hq => ?_⟩
      cases q with
      | nil => rfl
      | cons other q =>
          by_cases hother : other = key
          · subst hother
            rw [leafAt_child hn hcn, leafAt_child hm hdm]
            exact hsame q fun heq => hq (by rw [heq])
          · refine Option.ext fun v => ?_
            have hboth : ∀ e, (other, e) ∈ ns ↔ (other, e) ∈ ms := fun e => by
              rw [hns, hms, lookup_atKey_of_ne hother]
            rw [leafAt_cons hn (.inr fun _ hne => by cases hne), leafAt_cons hm (.inr fun _ hne => by cases hne)]
            exact exists_congr fun e => and_congr_left' (hboth e)

/-! ### Reading a tree back from its JSON -/

theorem freeze_typed (type : String) (v : Value) : freeze (typed type v) = typed type (freeze v) := by
  rw [typed, freeze_mapping, Mapping.freeze_eq]
  have hle : "type" ≤ "value" := by decide
  simp [sortByKey, List.insertionSort, hle, freeze, typed]

theorem freeze_scalar (s : Scalar) : freeze s.toValue = s.toValue := by
  cases s <;> rw [Scalar.toValue, freeze_typed, freeze]

/-- The JSON of a tree has its entries in their order. -/
theorem freeze_toValue (n : Node) (h : n.Ordered) : freeze n.toValue = n.toValue := by
  induction n using Node.child_induction with
  | step n ih =>
  cases n with
  | scalar s => exact freeze_scalar s
  | array items =>
      rw [Node.toValue, freeze_typed, freeze_tuple, itemValues_eq_map, List.map_map]
      refine congrArg (fun vs => typed "array" (.tuple vs)) (List.map_congr_left fun c hc => ?_)
      obtain ⟨i, hi, rfl⟩ := List.mem_iff_getElem.mp hc
      have hchild : (toString i, items[i]) ∈ (Node.array items).children :=
        List.mem_map.mpr ⟨(items[i], i), List.mk_mem_zipIdx_iff_getElem?.mpr (List.getElem?_eq_getElem hi), rfl⟩
      exact ih _ _ hchild (ordered_children h hchild)
  | table entries =>
      have hsorted : (entries.map fun e => (e.1, e.2.toValue)).Pairwise fun a b => a.1 ≤ b.1 :=
        List.pairwise_map.mpr ((List.pairwise_map.mp (sorted_entries h)).imp le_of_lt)
      have hsort : sortByKey (entries.map fun e => (e.1, e.2.toValue)) = entries.map fun e => (e.1, e.2.toValue) :=
        hsorted.insertionSort_eq
      rw [Node.toValue, freeze_typed, freeze_mapping, Mapping.freeze_eq, entryValues_eq_map, hsort, List.map_map]
      refine congrArg (fun m => typed "table" (.mapping m)) (List.map_congr_left fun e he => ?_)
      exact congrArg (Prod.mk e.1) (ih e.1 e.2 he (ordered_children h he))

theorem typed_inj {type type' : String} {v v' : Value} (h : typed type v = typed type' v') :
    type = type' ∧ v = v' := by
  simpa [typed] using h

/-- A tree is told by its JSON. -/
theorem toValue_injective (a b : Node) (h : a.toValue = b.toValue) : a = b := by
  induction a using Node.child_induction generalizing b with
  | step a ih =>
  cases a with
  | scalar s =>
      cases b with
      | scalar t => exact congrArg Node.scalar (Scalar.toValue_injective h)
      | array items => cases s <;> exact absurd (typed_inj h).1 (by decide)
      | table entries => cases s <;> exact absurd (typed_inj h).1 (by decide)
  | array items =>
      cases b with
      | scalar t => cases t <;> exact absurd (typed_inj h).1 (by decide)
      | table entries => exact absurd (typed_inj h).1 (by decide)
      | array items' =>
          rw [Node.toValue, Node.toValue, itemValues_eq_map, itemValues_eq_map] at h
          have hvalues := Value.tuple.inj (typed_inj h).2
          have hlength : items.length = items'.length := by simpa using congrArg List.length hvalues
          refine congrArg Node.array (List.ext_getElem hlength fun i hi hi' => ?_)
          have hchild : (toString i, items[i]) ∈ (Node.array items).children :=
            List.mem_map.mpr ⟨(items[i], i), List.mk_mem_zipIdx_iff_getElem?.mpr (List.getElem?_eq_getElem hi), rfl⟩
          refine ih _ _ hchild _ ?_
          have hvalue := List.getElem_of_eq hvalues (by simpa using hi)
          simpa using hvalue
  | table es =>
      cases b with
      | scalar t => cases t <;> exact absurd (typed_inj h).1 (by decide)
      | array items => exact absurd (typed_inj h).1 (by decide)
      | table fs =>
          rw [Node.toValue, Node.toValue, entryValues_eq_map, entryValues_eq_map] at h
          have hvalues := Value.mapping.inj (typed_inj h).2
          have hlength : es.length = fs.length := by simpa using congrArg List.length hvalues
          refine congrArg Node.table (List.ext_getElem hlength fun i hi hi' => ?_)
          have hvalue := List.getElem_of_eq hvalues (by simpa using hi)
          simp only [List.getElem_map, Prod.mk.injEq] at hvalue
          exact Prod.ext hvalue.1 (ih es[i].1 es[i].2 (List.getElem_mem hi) _ hvalue.2)

end CodingOS.ConfigFingerprint
