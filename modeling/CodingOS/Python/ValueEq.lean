import CodingOS.Python.Value
import Mathlib.Data.List.Nodup

/-!
# Python's `==` is an equivalence

Numbers compare by what they denote and mappings by their keys, whatever the order.  On values whose
mappings have distinct keys, as the keys of a `dict` are, `==` is reflexive, symmetric and transitive.
-/

namespace CodingOS.Python.Value

/-! ### Distinct keys -/

mutual

/-- The keys of every mapping in the value are distinct. -/
def keyed : Value → Bool
  | .tuple xs => keyedItems xs
  | .mapping xs => decide (xs.map (·.1)).Nodup && keyedEntries xs
  | _ => true

def keyedItems : List Value → Bool
  | [] => true
  | x :: xs => x.keyed && keyedItems xs

def keyedEntries : List (String × Value) → Bool
  | [] => true
  | (_, x) :: xs => x.keyed && keyedEntries xs

end

theorem keyedItems_iff {xs : List Value} : keyedItems xs = true ↔ ∀ x ∈ xs, x.keyed = true := by
  induction xs with
  | nil => simp [keyedItems]
  | cons x xs ih => rw [keyedItems, Bool.and_eq_true, ih, List.forall_mem_cons]

theorem keyedEntries_iff {xs : Mapping} : keyedEntries xs = true ↔ ∀ e ∈ xs, e.2.keyed = true := by
  induction xs with
  | nil => simp [keyedEntries]
  | cons e xs ih =>
      obtain ⟨k, x⟩ := e
      rw [keyedEntries, Bool.and_eq_true, ih, List.forall_mem_cons]

theorem keyed_tuple {xs : List Value} : (Value.tuple xs).keyed = true ↔ ∀ x ∈ xs, x.keyed = true := by
  rw [keyed, keyedItems_iff]

theorem keyed_mapping {xs : Mapping} :
    (Value.mapping xs).keyed = true ↔ (xs.map (·.1)).Nodup ∧ ∀ e ∈ xs, e.2.keyed = true := by
  rw [keyed, Bool.and_eq_true, decide_eq_true_eq, keyedEntries_iff]

/-- What a mapping with distinct keys holds under a key. -/
theorem lookup_eq_some_iff {xs : Mapping} (h : (xs.map (·.1)).Nodup) {k : String} {x : Value} :
    List.lookup k xs = some x ↔ (k, x) ∈ xs := by
  induction xs with
  | nil => simp
  | cons e xs ih =>
      obtain ⟨k', x'⟩ := e
      rw [List.map_cons, List.nodup_cons] at h
      rw [List.lookup_cons]
      by_cases hk : k = k'
      · subst hk
        have hout : (k, x) ∉ xs := fun hmem => h.1 (List.mem_map.mpr ⟨_, hmem, rfl⟩)
        simp [hout, eq_comm]
      · rw [beq_false_of_ne hk, ih h.2, List.mem_cons]
        simp [hk]

/-- What a value with distinct keys holds under a key has distinct keys. -/
theorem keyed_of_get? {xs : Mapping} (h : (Value.mapping xs).keyed = true) {k : String} {x : Value}
    (hx : xs.get? k = some x) : x.keyed = true := by
  obtain ⟨hnodup, hvalues⟩ := keyed_mapping.mp h
  exact hvalues (k, x) ((lookup_eq_some_iff hnodup).mp hx)

/-! ### What `==` compares -/

theorem eqItems_iff {xs ys : List Value} : eqItems xs ys = true ↔ List.Forall₂ (fun x y => x.eq y = true) xs ys := by
  induction xs generalizing ys with
  | nil => cases ys <;> simp [eqItems]
  | cons x xs ih =>
      cases ys with
      | nil => simp [eqItems]
      | cons y ys => rw [eqItems, Bool.and_eq_true, ih, List.forall₂_cons]

theorem eqEntries_iff {xs ys : Mapping} :
    eqEntries xs ys = true ↔ ∀ e ∈ xs, ∃ y, List.lookup e.1 ys = some y ∧ e.2.eq y = true := by
  induction xs with
  | nil => simp [eqEntries]
  | cons e xs ih =>
      obtain ⟨k, x⟩ := e
      rw [eqEntries, Bool.and_eq_true, ih, List.forall_mem_cons]
      cases List.lookup k ys <;> simp

theorem tuple_eq_iff {xs : List Value} {w : Value} :
    (Value.tuple xs).eq w = true ↔ ∃ ys, w = .tuple ys ∧ List.Forall₂ (fun x y => x.eq y = true) xs ys := by
  cases w <;> simp [eq, eqItems_iff]

theorem mapping_eq_iff {xs : Mapping} {w : Value} :
    (Value.mapping xs).eq w = true ↔ ∃ ys, w = .mapping ys ∧ xs.length = ys.length ∧
      ∀ e ∈ xs, ∃ y, List.lookup e.1 ys = some y ∧ e.2.eq y = true := by
  cases w <;> simp [eq, eqEntries_iff]

/-- A number is equal to the values that denote it. -/
theorem eq_iff_of_number? {v w : Value} {q : ℚ} (h : v.number? = some q) :
    v.eq w = true ↔ w.number? = some q := by
  cases v <;> simp only [number?, Option.some.injEq, reduceCtorEq] at h <;> subst h <;>
    rw [eq, beq_iff_eq]

/-- Equal mappings have the same keys. -/
theorem keys_perm {xs ys : Mapping} (hxs : (xs.map (·.1)).Nodup) (hlength : xs.length = ys.length)
    (h : ∀ e ∈ xs, ∃ y, List.lookup e.1 ys = some y ∧ e.2.eq y = true) :
    (xs.map (·.1)).Perm (ys.map (·.1)) := by
  refine (hxs.subperm fun k hk => ?_).perm_of_length_le (by simp [hlength])
  obtain ⟨e, he, rfl⟩ := List.mem_map.mp hk
  obtain ⟨y, hy, -⟩ := h e he
  by_contra hout
  have hnone : List.lookup e.1 ys = none := List.lookup_eq_none_iff.mpr fun p hp => by
    rw [bne_iff_ne]
    rintro heq
    exact hout (List.mem_map.mpr ⟨p, hp, heq.symm⟩)
  rw [hnone] at hy
  cases hy

/-! ### The equivalence -/

mutual

theorem eq_refl : ∀ v : Value, v.keyed = true → v.eq v = true
  | .null, _ => rfl
  | .bool _, _ | .int _, _ | .float _, _ => (eq_iff_of_number? rfl).mpr rfl
  | .str s, _ => by simp
  | .tuple xs, h => tuple_eq_iff.mpr ⟨xs, rfl, List.forall₂_same.mpr fun x hx =>
      eq_refl_items xs x hx (keyed_tuple.mp h x hx)⟩
  | .mapping xs, h => by
      obtain ⟨hnodup, hvalues⟩ := keyed_mapping.mp h
      exact mapping_eq_iff.mpr ⟨xs, rfl, rfl, fun e he =>
        ⟨e.2, (lookup_eq_some_iff hnodup).mpr he, eq_refl_entries xs e he (hvalues e he)⟩⟩

theorem eq_refl_items : ∀ xs : List Value, ∀ x ∈ xs, x.keyed = true → x.eq x = true
  | [] => by simp
  | y :: ys => List.forall_mem_cons.mpr ⟨eq_refl y, eq_refl_items ys⟩

theorem eq_refl_entries : ∀ xs : Mapping, ∀ e ∈ xs, e.2.keyed = true → e.2.eq e.2 = true
  | [] => by simp
  | (_, y) :: ys => List.forall_mem_cons.mpr ⟨eq_refl y, eq_refl_entries ys⟩

end

mutual

theorem eq_symm : ∀ v w : Value, v.keyed = true → w.keyed = true → v.eq w = true → w.eq v = true
  | .null, w, _, _, h => by
      cases w <;> simp_all [eq]
  | .bool _, _, _, _, h | .int _, _, _, _, h | .float _, _, _, _, h =>
      (eq_iff_of_number? ((eq_iff_of_number? rfl).mp h)).mpr rfl
  | .str s, w, _, _, h => by
      obtain rfl := (str_eq s w).mp h
      exact h
  | .tuple xs, w, hv, hw, h => by
      obtain ⟨ys, rfl, hitems⟩ := tuple_eq_iff.mp h
      refine tuple_eq_iff.mpr ⟨xs, rfl, List.forall₂_iff_get.mpr ?_⟩
      obtain ⟨hlength, hget⟩ := List.forall₂_iff_get.mp hitems
      refine ⟨hlength.symm, fun i hi hi' => ?_⟩
      exact eq_symm_items xs _ (List.get_mem xs ⟨i, hi'⟩) _ (keyed_tuple.mp hv _ (List.get_mem _ _))
        (keyed_tuple.mp hw _ (List.get_mem _ _)) (hget i hi' hi)
  | .mapping xs, w, hv, hw, h => by
      obtain ⟨ys, rfl, hlength, hentries⟩ := mapping_eq_iff.mp h
      obtain ⟨hxs, hvalues⟩ := keyed_mapping.mp hv
      obtain ⟨hys, hvalues'⟩ := keyed_mapping.mp hw
      refine mapping_eq_iff.mpr ⟨xs, rfl, hlength.symm, fun e he => ?_⟩
      have hkey : e.1 ∈ xs.map (·.1) :=
        (keys_perm hxs hlength hentries).mem_iff.mpr (List.mem_map_of_mem he)
      obtain ⟨f, hf, hfe⟩ := List.mem_map.mp hkey
      obtain ⟨y, hy, heq⟩ := hentries f hf
      rw [hfe, (lookup_eq_some_iff hys).mpr he] at hy
      obtain rfl := Option.some.inj hy
      refine ⟨f.2, (lookup_eq_some_iff hxs).mpr (hfe ▸ hf), ?_⟩
      exact eq_symm_entries xs f hf e.2 (hvalues f hf) (hvalues' e he) heq

theorem eq_symm_items : ∀ xs : List Value, ∀ x ∈ xs, ∀ w : Value, x.keyed = true → w.keyed = true →
    x.eq w = true → w.eq x = true
  | [] => by simp
  | y :: ys => List.forall_mem_cons.mpr ⟨eq_symm y, eq_symm_items ys⟩

theorem eq_symm_entries : ∀ xs : Mapping, ∀ e ∈ xs, ∀ w : Value, e.2.keyed = true → w.keyed = true →
    e.2.eq w = true → w.eq e.2 = true
  | [] => by simp
  | (_, y) :: ys => List.forall_mem_cons.mpr ⟨eq_symm y, eq_symm_entries ys⟩

end

mutual

theorem eq_trans : ∀ u v w : Value, u.eq v = true → v.eq w = true → u.eq w = true
  | .null, v, w, huv, hvw => by
      cases v <;> simp_all [eq]
  | .bool _, _, _, huv, hvw | .int _, _, _, huv, hvw | .float _, _, _, huv, hvw =>
      (eq_iff_of_number? rfl).mpr ((eq_iff_of_number? ((eq_iff_of_number? rfl).mp huv)).mp hvw)
  | .str s, v, w, huv, hvw => by
      obtain rfl := (str_eq s v).mp huv
      exact hvw
  | .tuple xs, v, w, huv, hvw => by
      obtain ⟨ys, rfl, hxs⟩ := tuple_eq_iff.mp huv
      obtain ⟨zs, rfl, hys⟩ := tuple_eq_iff.mp hvw
      obtain ⟨hlength, hget⟩ := List.forall₂_iff_get.mp hxs
      obtain ⟨hlength', hget'⟩ := List.forall₂_iff_get.mp hys
      refine tuple_eq_iff.mpr ⟨zs, rfl, List.forall₂_iff_get.mpr ⟨hlength.trans hlength', ?_⟩⟩
      intro i hi hi'
      exact eq_trans_items xs _ (List.get_mem xs ⟨i, hi⟩) _ _ (hget i hi (hlength ▸ hi))
        (hget' i (hlength ▸ hi) hi')
  | .mapping xs, v, w, huv, hvw => by
      obtain ⟨ys, rfl, hlength, hentries⟩ := mapping_eq_iff.mp huv
      obtain ⟨zs, rfl, hlength', hentries'⟩ := mapping_eq_iff.mp hvw
      refine mapping_eq_iff.mpr ⟨zs, rfl, hlength.trans hlength', fun e he => ?_⟩
      obtain ⟨y, hy, hey⟩ := hentries e he
      have hmem : (e.1, y) ∈ ys := by
        obtain ⟨_, _, rfl, -⟩ := List.lookup_eq_some_iff.mp hy
        exact List.mem_append_right _ List.mem_cons_self
      obtain ⟨z, hz, hyz⟩ := hentries' (e.1, y) hmem
      exact ⟨z, hz, eq_trans_entries xs e he _ _ hey hyz⟩

theorem eq_trans_items : ∀ xs : List Value, ∀ x ∈ xs, ∀ v w : Value, x.eq v = true → v.eq w = true →
    x.eq w = true
  | [] => by simp
  | y :: ys => List.forall_mem_cons.mpr ⟨eq_trans y, eq_trans_items ys⟩

theorem eq_trans_entries : ∀ xs : Mapping, ∀ e ∈ xs, ∀ v w : Value, e.2.eq v = true → v.eq w = true →
    e.2.eq w = true
  | [] => by simp
  | (_, y) :: ys => List.forall_mem_cons.mpr ⟨eq_trans y, eq_trans_entries ys⟩

end

end CodingOS.Python.Value
