import CodingOS.ConfigFingerprint.Toml
import CodingOS.Python.JsonRead

/-!
# Leaf hashes

`capability_config_leaf_hashes` of `capability_config_fingerprint.py`: the leaves of a normalized
projection, each under its JSON pointer, and what they tell about it.  A table has no leaf of its own, an
array has one for its length, so the leaves tell a tree up to the tables that hold nothing.
-/

namespace CodingOS.ConfigFingerprint

open CodingOS.Python

/-! ### Leaves -/

/-- What is recorded of an array itself. -/
def arrayMarker (length : ℕ) : Value := .mapping [("type", .str "array"), ("length", .int length)]

mutual

/-- The leaves of a node, each with its path. -/
def Node.leaves : Node → List (List String × Value)
  | .scalar s => [([], s.toValue)]
  | .array items => (["@type"], arrayMarker items.length) :: itemLeaves 0 items
  | .table entries => entryLeaves entries

def itemLeaves : ℕ → List Node → List (List String × Value)
  | _, [] => []
  | index, n :: ns => n.leaves.map (fun l => (toString index :: l.1, l.2)) ++ itemLeaves (index + 1) ns

def entryLeaves : List (String × Node) → List (List String × Value)
  | [] => []
  | (key, n) :: es => n.leaves.map (fun l => (key :: l.1, l.2)) ++ entryLeaves es

end

/-- The nodes below a node, by the next part of their paths. -/
def Node.children : Node → List (String × Node)
  | .scalar _ => []
  | .array items => items.zipIdx.map fun e => (toString e.2, e.1)
  | .table entries => entries

/-- The leaf at a path. -/
def Node.leafAt : Node → List String → Option Value
  | .scalar s, [] => some s.toValue
  | .scalar _, _ :: _ => none
  | .array _, [] => none
  | .array items, key :: path =>
      if key = "@type" then if path = [] then some (arrayMarker items.length) else none
      else match (Node.array items).children.lookup key with
        | some n => n.leafAt path
        | none => none
  | .table _, [] => none
  | .table entries, key :: path =>
      match entries.lookup key with
      | some n => n.leafAt path
      | none => none

theorem lookup_eq_some_iff {α : Type*} {entries : List (String × α)} (h : (entries.map Prod.fst).Nodup)
    {key : String} {v : α} : entries.lookup key = some v ↔ (key, v) ∈ entries := by
  induction entries with
  | nil => simp
  | cons e entries ih =>
      obtain ⟨k, w⟩ := e
      rw [List.map_cons, List.nodup_cons] at h
      rw [List.lookup_cons, List.mem_cons, Prod.mk.injEq]
      by_cases hk : key = k
      · subst hk
        have hnot : (key, v) ∉ entries := fun hmem => h.1 (List.mem_map.mpr ⟨_, hmem, rfl⟩)
        simp [hnot, eq_comm]
      · rw [beq_false_of_ne hk, ih h.2]
        simp [hk]

theorem mem_entryLeaves {es : List (String × Node)} {p : List String} {v : Value} :
    (p, v) ∈ entryLeaves es ↔ ∃ k n q, (k, n) ∈ es ∧ p = k :: q ∧ (q, v) ∈ n.leaves := by
  induction es with
  | nil => simp [entryLeaves]
  | cons e es ih =>
      obtain ⟨k, n⟩ := e
      rw [entryLeaves, List.mem_append, ih, List.mem_map]
      constructor
      · rintro (⟨⟨q, w⟩, hq, heq⟩ | ⟨k', n', q, hmem, hp, hq⟩)
        · obtain ⟨rfl, rfl⟩ := Prod.mk.inj heq
          exact ⟨k, n, q, List.mem_cons_self, rfl, hq⟩
        · exact ⟨k', n', q, List.mem_cons_of_mem _ hmem, hp, hq⟩
      · rintro ⟨k', n', q, hmem, rfl, hq⟩
        rcases List.mem_cons.mp hmem with heq | hmem
        · obtain ⟨rfl, rfl⟩ := Prod.mk.inj heq
          exact .inl ⟨(q, v), hq, rfl⟩
        · exact .inr ⟨k', n', q, hmem, rfl, hq⟩

theorem itemLeaves_eq (index : ℕ) (ns : List Node) :
    itemLeaves index ns = entryLeaves ((ns.zipIdx index).map fun e => (toString e.2, e.1)) := by
  induction ns generalizing index with
  | nil => rfl
  | cons n ns ih => rw [itemLeaves, ih, List.zipIdx_cons, List.map_cons, entryLeaves]

theorem toString_injective {i j : ℕ} (h : toString i = toString j) : i = j := Nat.repr_injective h

theorem toString_ne_type (i : ℕ) : toString i ≠ "@type" := by
  intro h
  have hdigit : '@' ∈ Nat.toDigits 10 i := by
    have hchars : (toString i).toList = Nat.toDigits 10 i := by simp [Nat.repr]
    rw [← hchars, h]
    decide
  exact absurd (Nat.isDigit_of_mem_toDigits (by decide) (by decide) hdigit) (by decide)

theorem sorted_entries {es : List (String × Node)} (h : (Node.table es).Ordered) :
    (es.map Prod.fst).Pairwise (· < ·) := by
  rw [Node.Ordered] at h
  exact h.1

theorem nodup_children {n : Node} (h : n.Ordered) : (n.children.map Prod.fst).Nodup := by
  cases n with
  | scalar s => exact List.nodup_nil
  | table entries => exact (sorted_entries h).imp fun hlt => ne_of_lt hlt
  | array items =>
      have hkeys : (Node.array items).children.map Prod.fst
          = (List.range' 0 items.length).map fun i => toString i := by
        rw [← List.zipIdx_map_snd, List.map_map, Node.children, List.map_map]
        rfl
      rw [hkeys]
      exact List.Nodup.map (fun _ _ => toString_injective) List.nodup_range'

theorem children_ne_type {items : List Node} {n : Node} : ("@type", n) ∉ (Node.array items).children := by
  intro h
  obtain ⟨e, -, heq⟩ := List.mem_map.mp h
  exact toString_ne_type e.2 (Prod.mk.inj heq).1

theorem ordered_children {n c : Node} {key : String} (h : n.Ordered) (hc : (key, c) ∈ n.children) :
    c.Ordered := by
  cases n with
  | scalar s => cases hc
  | table entries =>
      rw [Node.Ordered] at h
      exact orderedEntries_iff.mp h.2.2 _ hc
  | array items =>
      obtain ⟨e, he, heq⟩ := List.mem_map.mp hc
      obtain ⟨-, rfl⟩ := Prod.mk.inj heq
      rw [Node.Ordered] at h
      exact orderedItems_iff.mp h _ (List.fst_mem_of_mem_zipIdx he)

/-- A leaf below a node is one of a child. -/
theorem leafAt_cons {n : Node} (h : n.Ordered) {key : String} {path : List String} {v : Value}
    (hkey : key ≠ "@type" ∨ ∀ items, n ≠ .array items) :
    n.leafAt (key :: path) = some v ↔ ∃ c, (key, c) ∈ n.children ∧ c.leafAt path = some v := by
  have hfind : n.leafAt (key :: path)
      = match n.children.lookup key with
        | some c => c.leafAt path
        | none => none := by
    cases n with
    | scalar s => rfl
    | table entries => rfl
    | array items =>
        rw [Node.leafAt, if_neg (hkey.resolve_right fun hall => hall items rfl)]
  rw [hfind]
  constructor
  · intro hv
    split at hv
    · next c hc => exact ⟨c, (lookup_eq_some_iff (nodup_children h)).mp hc, hv⟩
    · cases hv
  · rintro ⟨c, hc, hv⟩
    rw [(lookup_eq_some_iff (nodup_children h)).mpr hc]
    exact hv

/-- Induction on a tree, by the children of a node. -/
theorem Node.child_induction {P : Node → Prop}
    (step : ∀ n : Node, (∀ key c, (key, c) ∈ n.children → P c) → P n) (n : Node) : P n := by
  refine Node.rec (motive_1 := P) (motive_2 := fun ns => ∀ c ∈ ns, P c)
    (motive_3 := fun es => ∀ e ∈ es, P e.2) (motive_4 := fun e => P e.2) ?_ ?_ ?_ ?_ ?_ ?_ ?_ ?_ n
  · exact fun s => step _ fun key c hc => by cases hc
  · intro items ih
    refine step _ fun key c hc => ?_
    obtain ⟨e, he, heq⟩ := List.mem_map.mp hc
    obtain ⟨-, rfl⟩ := Prod.mk.inj heq
    exact ih _ (List.fst_mem_of_mem_zipIdx he)
  · exact fun entries ih => step _ fun key c hc => ih _ hc
  · simp
  · exact fun c cs hc hcs => List.forall_mem_cons.mpr ⟨hc, hcs⟩
  · simp
  · exact fun e es he hes => List.forall_mem_cons.mpr ⟨he, hes⟩
  · exact fun key c hc => hc

/-- The leaves of a node are its own and those of its children. -/
theorem mem_leaves_cases {n : Node} {p : List String} {v : Value} : (p, v) ∈ n.leaves ↔
    ((∃ s, n = .scalar s ∧ p = [] ∧ v = s.toValue) ∨
      (∃ items, n = .array items ∧ p = ["@type"] ∧ v = arrayMarker items.length)) ∨
    ∃ key c q, (key, c) ∈ n.children ∧ p = key :: q ∧ (q, v) ∈ c.leaves := by
  cases n with
  | scalar s => simp [Node.leaves, Node.children]
  | table entries => simp [Node.leaves, Node.children, mem_entryLeaves]
  | array items => simp [Node.leaves, itemLeaves_eq, mem_entryLeaves, Node.children]

/-- **The leaves of a tree** are what is found at its paths. -/
theorem mem_leaves (n : Node) (h : n.Ordered) (p : List String) (v : Value) :
    (p, v) ∈ n.leaves ↔ n.leafAt p = some v := by
  induction n using Node.child_induction generalizing p v with
  | step n ih =>
  rw [mem_leaves_cases]
  have hchild : ∀ key c, (key, c) ∈ n.children → ∀ q, (q, v) ∈ c.leaves ↔ c.leafAt q = some v :=
    fun key c hc q => ih key c hc (ordered_children h hc) q v
  have hbelow : ∀ key q, (key ≠ "@type" ∨ ∀ items, n ≠ .array items) →
      ((∃ k c r, (k, c) ∈ n.children ∧ key :: q = k :: r ∧ (r, v) ∈ c.leaves) ↔
        n.leafAt (key :: q) = some v) := by
    intro key q hkey
    rw [leafAt_cons h hkey]
    constructor
    · rintro ⟨k, c, r, hc, heq, hr⟩
      obtain ⟨rfl, rfl⟩ := List.cons.inj heq
      exact ⟨c, hc, (hchild _ c hc _).mp hr⟩
    · rintro ⟨c, hc, hv⟩
      exact ⟨key, c, q, hc, rfl, (hchild key c hc q).mpr hv⟩
  cases n with
  | scalar s =>
      cases p with
      | nil => simp [Node.leafAt, eq_comm]
      | cons key q => simpa using hbelow key q (.inr fun _ hne => by cases hne)
  | table entries =>
      cases p with
      | nil => simp [Node.leafAt]
      | cons key q => simpa using hbelow key q (.inr fun _ hne => by cases hne)
  | array items =>
      cases p with
      | nil => simp [Node.leafAt]
      | cons key q =>
          by_cases hkey : key = "@type"
          · subst hkey
            rw [Node.leafAt, if_pos rfl]
            constructor
            · rintro ((⟨s, hs, -⟩ | ⟨items', hitems, hp, rfl⟩) | ⟨k, c, r, hc, heq, -⟩)
              · cases hs
              · obtain rfl := Node.array.inj hitems
                rw [if_pos (List.cons.inj hp).2]
              · obtain ⟨rfl, -⟩ := List.cons.inj heq
                exact absurd hc children_ne_type
            · intro hv
              split at hv
              · next hnil => exact .inl (.inr ⟨items, rfl, by rw [hnil], (Option.some.inj hv).symm⟩)
              · cases hv
          · simpa [hkey] using hbelow key q (.inl hkey)

/-! ### Tables that hold nothing -/

/-- A table without entries. -/
def Node.holdsNothing : Node → Bool
  | .table [] => true
  | _ => false

mutual

/-- The tree without the entries whose tables hold nothing. -/
def Node.dropEmpty : Node → Node
  | .scalar s => .scalar s
  | .array items => .array (dropEmptyItems items)
  | .table entries => .table (dropEmptyEntries entries)

def dropEmptyItems : List Node → List Node
  | [] => []
  | n :: ns => n.dropEmpty :: dropEmptyItems ns

def dropEmptyEntries : List (String × Node) → List (String × Node)
  | [] => []
  | (key, n) :: es =>
      if n.dropEmpty.holdsNothing then dropEmptyEntries es
      else (key, n.dropEmpty) :: dropEmptyEntries es

end

theorem dropEmptyItems_eq_map (ns : List Node) : dropEmptyItems ns = ns.map Node.dropEmpty := by
  induction ns with
  | nil => rfl
  | cons n ns ih => rw [dropEmptyItems, ih, List.map_cons]

theorem dropEmptyEntries_eq (es : List (String × Node)) :
    dropEmptyEntries es = (es.map fun e => (e.1, e.2.dropEmpty)).filter fun e => !e.2.holdsNothing := by
  induction es with
  | nil => rfl
  | cons e es ih =>
      obtain ⟨k, n⟩ := e
      rw [dropEmptyEntries, ih, List.map_cons]
      cases h : n.dropEmpty.holdsNothing <;> simp [h]

theorem mem_dropEmptyEntries {es : List (String × Node)} {key : String} {d : Node} :
    (key, d) ∈ dropEmptyEntries es ↔
      ∃ c, (key, c) ∈ es ∧ c.dropEmpty = d ∧ d.holdsNothing = false := by
  rw [dropEmptyEntries_eq, List.mem_filter, List.mem_map]
  constructor
  · rintro ⟨⟨e, he, heq⟩, hholds⟩
    obtain ⟨rfl, rfl⟩ := Prod.mk.inj heq
    exact ⟨e.2, he, rfl, by simpa using hholds⟩
  · rintro ⟨c, hc, rfl, hholds⟩
    exact ⟨⟨(key, c), hc, rfl⟩, by rw [hholds]; rfl⟩

theorem sorted_dropEmptyEntries {es : List (String × Node)} (h : (es.map Prod.fst).Pairwise (· < ·)) :
    (dropEmptyEntries es).Pairwise fun a b => a.1 < b.1 := by
  rw [dropEmptyEntries_eq]
  refine List.Pairwise.filter _ ?_
  rw [List.pairwise_map]
  exact List.pairwise_map.mp h

/-- A tree that holds something has a leaf. -/
theorem exists_leaf (n : Node) (h : n.Ordered) (hholds : n.dropEmpty.holdsNothing = false) :
    ∃ p v, n.leafAt p = some v := by
  induction n using Node.child_induction with
  | step n ih =>
  cases n with
  | scalar s => exact ⟨[], s.toValue, rfl⟩
  | array items => exact ⟨["@type"], arrayMarker items.length, rfl⟩
  | table entries =>
      rw [Node.dropEmpty] at hholds
      cases hes : dropEmptyEntries entries with
      | nil =>
          rw [hes] at hholds
          cases hholds
      | cons e es =>
          obtain ⟨key, d⟩ := e
          obtain ⟨c, hc, rfl, hd⟩ := mem_dropEmptyEntries.mp (hes ▸ List.mem_cons_self)
          obtain ⟨p, v, hv⟩ := ih key c hc (ordered_children h hc) hd
          exact ⟨key :: p, v, (leafAt_cons h (.inr fun _ hne => by cases hne)).mpr ⟨c, hc, hv⟩⟩

theorem Scalar.toValue_injective {s t : Scalar} (h : s.toValue = t.toValue) : s = t := by
  cases s <;> cases t <;> simp_all [Scalar.toValue, typed]

theorem Scalar.toValue_ne_marker (s : Scalar) (length : ℕ) : s.toValue ≠ arrayMarker length := by
  cases s <;> simp [Scalar.toValue, typed, arrayMarker]

/-- No table has the leaf of an array. -/
theorem table_ne_marker {entries : List (String × Node)} (h : (Node.table entries).Ordered) (length : ℕ) :
    (Node.table entries).leafAt ["@type"] ≠ some (arrayMarker length) := by
  intro hleaf
  obtain ⟨c, -, hv⟩ := (leafAt_cons h (.inr fun _ hne => by cases hne)).mp hleaf
  cases c with
  | scalar s => exact s.toValue_ne_marker length (Option.some.inj hv)
  | array items => cases hv
  | table entries => cases hv

/-- A child is found by its key. -/
theorem leafAt_child {n c : Node} (h : n.Ordered) {key : String} (hc : (key, c) ∈ n.children)
    (path : List String) : n.leafAt (key :: path) = c.leafAt path := by
  have hkey : key ≠ "@type" ∨ ∀ items, n ≠ .array items := by
    by_cases hkey : key = "@type"
    · subst hkey
      refine .inr fun items hn => ?_
      subst hn
      exact children_ne_type hc
    · exact .inl hkey
  refine Option.ext fun v => ?_
  rw [leafAt_cons h hkey]
  constructor
  · rintro ⟨d, hd, hv⟩
    have hsame := (lookup_eq_some_iff (nodup_children h)).mpr hd
    rw [(lookup_eq_some_iff (nodup_children h)).mpr hc] at hsame
    obtain rfl := Option.some.inj hsame
    exact hv
  · exact fun hv => ⟨c, hc, hv⟩

/-- One direction of the comparison of two tables. -/
theorem mem_dropEmptyEntries_of_leafAt {es fs : List (String × Node)} (hes : (Node.table es).Ordered)
    (hfs : (Node.table fs).Ordered) (hleaves : ∀ p, (Node.table es).leafAt p = (Node.table fs).leafAt p)
    (heq : ∀ key c d, (key, c) ∈ es → (key, d) ∈ fs → (∀ p, c.leafAt p = d.leafAt p) →
      c.dropEmpty = d.dropEmpty)
    {e : String × Node} (he : e ∈ dropEmptyEntries es) : e ∈ dropEmptyEntries fs := by
  obtain ⟨key, n⟩ := e
  obtain ⟨c, hc, rfl, hholds⟩ := mem_dropEmptyEntries.mp he
  obtain ⟨p, v, hv⟩ := exists_leaf c (ordered_children hes hc) hholds
  have hfound := (leafAt_child hes hc p).trans hv
  rw [hleaves] at hfound
  obtain ⟨d, hd, -⟩ := (leafAt_cons hfs (.inr fun _ hne => by cases hne)).mp hfound
  have hsame : c.dropEmpty = d.dropEmpty := heq key c d hc hd fun q => by
    rw [← leafAt_child hes hc q, hleaves, leafAt_child hfs hd q]
  exact mem_dropEmptyEntries.mpr ⟨d, hd, hsame.symm, hholds⟩

/-- **Trees with the same leaves** are the same up to the tables that hold nothing. -/
theorem dropEmpty_eq_of_leafAt (a : Node) (ha : a.Ordered) (b : Node) (hb : b.Ordered)
    (hleaves : ∀ p, a.leafAt p = b.leafAt p) : a.dropEmpty = b.dropEmpty := by
  induction a using Node.child_induction generalizing b with
  | step a ih =>
  cases a with
  | scalar s =>
      have hroot := hleaves []
      cases b with
      | scalar t => rw [Scalar.toValue_injective (Option.some.inj hroot)]
      | array items => cases hroot
      | table entries => cases hroot
  | array items =>
      cases b with
      | scalar t => cases hleaves []
      | table entries => exact absurd (hleaves ["@type"]).symm (table_ne_marker hb items.length)
      | array items' =>
          have hmarker := Option.some.inj (hleaves ["@type"])
          have hlength : items.length = items'.length := by simpa [arrayMarker] using hmarker
          rw [Node.dropEmpty, Node.dropEmpty, dropEmptyItems_eq_map, dropEmptyItems_eq_map]
          refine congrArg Node.array (List.ext_getElem (by simpa using hlength) fun i hi hi' => ?_)
          rw [List.length_map] at hi hi'
          rw [List.getElem_map, List.getElem_map]
          have hmem : ∀ (ns : List Node) (hn : i < ns.length),
              (toString i, ns[i]) ∈ (Node.array ns).children := fun ns hn =>
            List.mem_map.mpr ⟨(ns[i], i), List.mk_mem_zipIdx_iff_getElem?.mpr (List.getElem?_eq_getElem hn), rfl⟩
          refine ih _ _ (hmem items hi) (ordered_children ha (hmem items hi)) _
            (ordered_children hb (hmem items' hi')) fun p => ?_
          rw [← leafAt_child ha (hmem items hi), hleaves, leafAt_child hb (hmem items' hi')]
  | table es =>
      cases b with
      | scalar t => cases hleaves []
      | array items => exact absurd (hleaves ["@type"]) (table_ne_marker ha items.length)
      | table fs =>
          have hsorted : ∀ {gs : List (String × Node)}, (gs.map Prod.fst).Pairwise (· < ·) →
              (dropEmptyEntries gs).Pairwise fun a b => a.1 < b.1 := sorted_dropEmptyEntries
          have : Std.Irrefl fun a b : String × Node => a.1 < b.1 := ⟨fun a => lt_irrefl a.1⟩
          have : Std.Antisymm fun a b : String × Node => a.1 < b.1 := ⟨fun a b hab hba => absurd hab hba.asymm⟩
          rw [Node.dropEmpty, Node.dropEmpty]
          refine congrArg Node.table ((hsorted (sorted_entries ha)).eq_of_mem_iff (hsorted (sorted_entries hb)) fun e => ⟨?_, ?_⟩)
          · refine mem_dropEmptyEntries_of_leafAt ha hb hleaves fun key c d hc hd hsame => ?_
            exact ih key c hc (ordered_children ha hc) d (ordered_children hb hd) hsame
          · refine mem_dropEmptyEntries_of_leafAt hb ha (fun p => (hleaves p).symm) fun key d c hd hc hsame => ?_
            exact (ih key c hc (ordered_children ha hc) d (ordered_children hb hd) fun p => (hsame p).symm).symm

theorem ordered_dropEmpty (n : Node) (h : n.Ordered) : n.dropEmpty.Ordered := by
  induction n using Node.child_induction with
  | step n ih =>
  cases n with
  | scalar s => exact h
  | array items =>
      rw [Node.dropEmpty, Node.Ordered, dropEmptyItems_eq_map, orderedItems_iff, List.forall_mem_map]
      intro c hc
      obtain ⟨i, hi, rfl⟩ := List.mem_iff_getElem.mp hc
      have hchild : (toString i, items[i]) ∈ (Node.array items).children :=
        List.mem_map.mpr ⟨(items[i], i), List.mk_mem_zipIdx_iff_getElem?.mpr (List.getElem?_eq_getElem hi), rfl⟩
      exact ih _ _ hchild (ordered_children h hchild)
  | table entries =>
      have hentries := h
      rw [Node.Ordered] at hentries
      rw [Node.dropEmpty, Node.Ordered, List.pairwise_map, orderedEntries_iff]
      refine ⟨sorted_dropEmptyEntries (sorted_entries h), ?_, ?_⟩
      · rintro ⟨key, d⟩ he
        obtain ⟨c, hc, -, -⟩ := mem_dropEmptyEntries.mp he
        exact hentries.2.1 (key, c) hc
      · rintro ⟨key, d⟩ he
        obtain ⟨c, hc, rfl, -⟩ := mem_dropEmptyEntries.mp he
        exact ih key c hc (ordered_children h hc)

theorem not_leafAt_of_holdsNothing {n : Node} (h : n.holdsNothing = true) (p : List String) :
    n.leafAt p = none := by
  cases n with
  | scalar s => cases h
  | array items => cases h
  | table entries =>
      cases entries with
      | nil => cases p <;> rfl
      | cons e es => cases h

/-- The tables that hold nothing have no leaf. -/
theorem leafAt_dropEmpty (n : Node) (h : n.Ordered) (p : List String) :
    n.dropEmpty.leafAt p = n.leafAt p := by
  induction n using Node.child_induction generalizing p with
  | step n ih =>
  have hordered := ordered_dropEmpty n h
  cases n with
  | scalar s => rfl
  | table entries =>
      cases p with
      | nil => rfl
      | cons key path =>
          refine Option.ext fun v => ?_
          rw [leafAt_cons h (.inr fun _ hne => by cases hne)]
          rw [Node.dropEmpty] at hordered ⊢
          rw [leafAt_cons hordered (.inr fun _ hne => by cases hne)]
          constructor
          · rintro ⟨d, hd, hv⟩
            obtain ⟨c, hc, rfl, -⟩ := mem_dropEmptyEntries.mp hd
            exact ⟨c, hc, (ih key c hc (ordered_children h hc) path).symm.trans hv⟩
          · rintro ⟨c, hc, hv⟩
            rw [← ih key c hc (ordered_children h hc) path] at hv
            refine ⟨c.dropEmpty, mem_dropEmptyEntries.mpr ⟨c, hc, rfl, ?_⟩, hv⟩
            cases hholds : c.dropEmpty.holdsNothing with
            | false => rfl
            | true =>
                rw [not_leafAt_of_holdsNothing hholds] at hv
                cases hv
  | array items =>
      cases p with
      | nil => rfl
      | cons key path =>
          have hchildren : (Node.array (dropEmptyItems items)).children
              = (Node.array items).children.map fun e => (e.1, e.2.dropEmpty) := by
            rw [dropEmptyItems_eq_map, Node.children, Node.children, List.zipIdx_map, List.map_map, List.map_map]
            rfl
          by_cases hkey : key = "@type"
          · subst hkey
            rw [Node.dropEmpty, Node.leafAt, Node.leafAt, if_pos rfl, if_pos rfl, dropEmptyItems_eq_map,
              List.length_map]
          · refine Option.ext fun v => ?_
            rw [leafAt_cons h (.inl hkey)]
            rw [Node.dropEmpty] at hordered ⊢
            rw [leafAt_cons hordered (.inl hkey), hchildren]
            constructor
            · rintro ⟨d, hd, hv⟩
              obtain ⟨⟨k, c⟩, hc, heq⟩ := List.mem_map.mp hd
              obtain ⟨rfl, rfl⟩ := Prod.mk.inj heq
              exact ⟨c, hc, (ih _ c hc (ordered_children h hc) path).symm.trans hv⟩
            · rintro ⟨c, hc, hv⟩
              exact ⟨c.dropEmpty, List.mem_map.mpr ⟨(key, c), hc, rfl⟩,
                (ih key c hc (ordered_children h hc) path).trans hv⟩

/-- **What the leaves tell.**  Two trees have the same leaves exactly when they are the same up to the tables
that hold nothing. -/
theorem leafAt_eq_iff {a b : Node} (ha : a.Ordered) (hb : b.Ordered) :
    (∀ p, a.leafAt p = b.leafAt p) ↔ a.dropEmpty = b.dropEmpty := by
  refine ⟨dropEmpty_eq_of_leafAt a ha b hb, fun h p => ?_⟩
  rw [← leafAt_dropEmpty a ha, h, leafAt_dropEmpty b hb]

end CodingOS.ConfigFingerprint
