import CodingOS.Systems.Keyed

/-!
# Tables with a primary key

A relational table with a primary key, as a list of rows in insertion order that carries the
uniqueness of its keys.  The operations are the statements of SQL a store uses: `SELECT … WHERE
key = ?` (`get?`), `INSERT` (`insert?`, which fails on a key that is taken), `INSERT … ON CONFLICT DO
UPDATE` (`upsert`), `UPDATE … WHERE` (`update`), `DELETE … WHERE` (`delete`) and `SELECT COUNT(*) … WHERE` (`countWhere`).

Each operation has two lemmas: what it does to a lookup and what it does to the set of rows.
-/

namespace Systems

variable {ρ κ : Type*} {key : ρ → κ}

/-- A table whose rows are told apart by `key`. -/
structure Table (key : ρ → κ) where
  rows : List ρ
  keys_nodup : (rows.map key).Nodup

namespace Table

def empty : Table key := ⟨[], List.nodup_nil⟩

/-- Tables with the same rows are the same. -/
@[ext] theorem ext {t u : Table key} (h : t.rows = u.rows) : t = u := by
  cases t
  cases u
  cases h
  rfl

/-- `UPDATE … SET … WHERE p`, for an assignment that leaves the key alone. -/
def update (t : Table key) (p : ρ → Bool) (f : ρ → ρ) (keeps : ∀ r, key (f r) = key r) :
    Table key where
  rows := t.rows.map fun r => if p r then f r else r
  keys_nodup := by
    have hkeys : (t.rows.map fun r => if p r then f r else r).map key = t.rows.map key := by
      rw [List.map_map]
      refine List.map_congr_left fun r _ => ?_
      show key (if p r then f r else r) = key r
      split
      · exact keeps r
      · rfl
    rw [hkeys]
    exact t.keys_nodup

/-- `DELETE … WHERE p`. -/
def delete (t : Table key) (p : ρ → Bool) : Table key where
  rows := t.rows.filter fun r => !p r
  keys_nodup := t.keys_nodup.sublist (List.filter_sublist.map key)

theorem mem_update {t : Table key} {p : ρ → Bool} {f : ρ → ρ} {keeps : ∀ r, key (f r) = key r}
    {r : ρ} : r ∈ (t.update p f keeps).rows ↔
      (r ∈ t.rows ∧ p r = false) ∨ ∃ r' ∈ t.rows, p r' = true ∧ f r' = r := by
  show r ∈ t.rows.map _ ↔ _
  rw [List.mem_map]
  constructor
  · rintro ⟨r', hr', rfl⟩
    by_cases hp : p r' = true
    · rw [if_pos hp]
      exact .inr ⟨r', hr', hp, rfl⟩
    · rw [if_neg hp]
      exact .inl ⟨hr', by simpa using hp⟩
  · rintro (⟨hr, hp⟩ | ⟨r', hr', hp, rfl⟩)
    · exact ⟨r, hr, by simp [hp]⟩
    · exact ⟨r', hr', by simp [hp]⟩

/-- The rows with a property the assignment destroys are the ones the update left alone. -/
theorem mem_update_of_not {t : Table key} {p : ρ → Bool} {f : ρ → ρ} (keeps : ∀ r, key (f r) = key r)
    {Q : ρ → Prop} (hf : ∀ r, ¬ Q (f r)) {r : ρ} (hr : Q r) :
    r ∈ (t.update p f keeps).rows ↔ r ∈ t.rows ∧ p r = false := by
  rw [mem_update]
  constructor
  · rintro (hold | ⟨r', -, -, rfl⟩)
    · exact hold
    · exact absurd hr (hf r')
  · exact .inl

/-- An update that finds no row changes nothing. -/
theorem update_eq_self {t : Table key} {p : ρ → Bool} {f : ρ → ρ} (keeps : ∀ r, key (f r) = key r)
    (h : ∀ r ∈ t.rows, p r = false) : t.update p f keeps = t := by
  refine ext ?_
  show t.rows.map (fun r => if p r then f r else r) = t.rows
  conv_rhs => rw [← List.map_id t.rows]
  refine List.map_congr_left fun r hr => ?_
  rw [h r hr]
  rfl

@[simp] theorem mem_delete {t : Table key} {p : ρ → Bool} {r : ρ} :
    r ∈ (t.delete p).rows ↔ r ∈ t.rows ∧ p r = false := by
  show r ∈ t.rows.filter _ ↔ _
  rw [List.mem_filter]
  simp

/-! ### Lookups and inserts -/

variable [DecidableEq κ]

/-- `SELECT … WHERE key = k`. -/
def get? (t : Table key) (k : κ) : Option ρ := t.rows.find? fun r => key r == k

/-- `INSERT`: nothing when the key is taken. -/
def insert? (t : Table key) (r : ρ) : Option (Table key) :=
  if h : key r ∈ t.rows.map key then none
  else some {
    rows := t.rows ++ [r]
    keys_nodup := by
      rw [List.map_append]
      exact t.keys_nodup.append (List.nodup_singleton _) (by simpa using h) }

/-- `INSERT … ON CONFLICT (key) DO UPDATE`. -/
def upsert (t : Table key) (r : ρ) : Table key :=
  if h : key r ∈ t.rows.map key then
    { rows := t.rows.map fun r' => if key r' = key r then r else r'
      keys_nodup := by
        have hkeys : (t.rows.map fun r' => if key r' = key r then r else r').map key
            = t.rows.map key := by
          rw [List.map_map]
          refine List.map_congr_left fun r' _ => ?_
          show key (if key r' = key r then r else r') = key r'
          split
          · next heq => exact heq.symm
          · rfl
        rw [hkeys]
        exact t.keys_nodup }
  else
    { rows := t.rows ++ [r]
      keys_nodup := by
        rw [List.map_append]
        exact t.keys_nodup.append (List.nodup_singleton _) (by simpa using h) }

variable {t t' : Table key} {r : ρ} {k : κ}

theorem get?_eq_some : t.get? k = some r ↔ r ∈ t.rows ∧ key r = k :=
  find?_key_eq_some t.keys_nodup

theorem get?_key (h : r ∈ t.rows) : t.get? (key r) = some r := get?_eq_some.mpr ⟨h, rfl⟩

theorem get?_eq_none : t.get? k = none ↔ ∀ r ∈ t.rows, key r ≠ k := by
  simp [get?, List.find?_eq_none]

theorem mem_of_get? (h : t.get? k = some r) : r ∈ t.rows := (get?_eq_some.mp h).1

theorem key_of_get? (h : t.get? k = some r) : key r = k := (get?_eq_some.mp h).2

/-- Two rows of a table with one key are one row. -/
theorem eq_of_key {r' : ρ} (h : r ∈ t.rows) (h' : r' ∈ t.rows) (hkey : key r = key r') : r = r' :=
  Option.some.inj ((get?_key h).symm.trans (hkey ▸ get?_key h'))

@[simp] theorem get?_empty : (empty : Table key).get? k = none := rfl

/-- An insert succeeds exactly on a key that no row has, and appends the row. -/
theorem insert?_eq_some :
    t.insert? r = some t' ↔ t.get? (key r) = none ∧ t'.rows = t.rows ++ [r] := by
  unfold insert?
  rw [get?_eq_none]
  split
  · next h =>
      obtain ⟨r', hr', hkey⟩ := List.mem_map.mp h
      simp only [reduceCtorEq, false_iff]
      exact fun hnone => hnone.1 r' hr' hkey
  · next h =>
      have hfree : ∀ r' ∈ t.rows, key r' ≠ key r := by
        intro r' hr' hkey
        exact h (hkey ▸ List.mem_map_of_mem hr')
      rw [Option.some.injEq]
      constructor
      · rintro rfl
        exact ⟨hfree, rfl⟩
      · rintro ⟨-, hrows⟩
        exact ext hrows.symm

/-- An insert into a free key succeeds. -/
theorem exists_insert? (h : t.get? (key r) = none) :
    ∃ t', t.insert? r = some t' ∧ t'.rows = t.rows ++ [r] := by
  cases hinsert : t.insert? r with
  | some t' => exact ⟨t', rfl, (insert?_eq_some.mp hinsert).2⟩
  | none =>
      unfold insert? at hinsert
      split at hinsert
      · next hmem =>
          obtain ⟨r', hr', hkey⟩ := List.mem_map.mp hmem
          exact absurd hkey (get?_eq_none.mp h r' hr')
      · cases hinsert

theorem mem_insert? {s : ρ} (h : t.insert? r = some t') : s ∈ t'.rows ↔ s ∈ t.rows ∨ s = r := by
  rw [(insert?_eq_some.mp h).2]
  simp

theorem get?_insert? (h : t.insert? r = some t') :
    t'.get? k = if k = key r then some r else t.get? k := by
  obtain ⟨hnone, hrows⟩ := insert?_eq_some.mp h
  show t'.rows.find? _ = _
  rw [hrows, List.find?_append]
  by_cases hk : k = key r
  · subst hk
    have hfind : t.rows.find? (fun s => key s == key r) = none := hnone
    rw [hfind, if_pos rfl]
    simp
  · rw [if_neg hk]
    have hsingle : [r].find? (fun s => key s == k) = none := by simp [Ne.symm hk]
    rw [hsingle, Option.or_none]
    rfl

theorem get?_update {p : ρ → Bool} {f : ρ → ρ} {keeps : ∀ r, key (f r) = key r} :
    (t.update p f keeps).get? k = (t.get? k).map fun r => if p r then f r else r := by
  show (t.rows.map _).find? _ = _
  rw [List.find?_map]
  have hkeys : (fun r => key r == k) ∘ (fun r => if p r then f r else r)
      = fun r => key r == k := by
    funext r
    show (key (if p r then f r else r) == k) = (key r == k)
    split
    · rw [keeps]
    · rfl
  rw [hkeys]
  rfl

theorem get?_delete {p : ρ → Bool} :
    (t.delete p).get? k = (t.get? k).filter fun r => !p r := by
  apply Option.ext
  intro r
  rw [get?_eq_some, mem_delete, Option.filter_eq_some_iff, get?_eq_some]
  simp only [Bool.not_eq_true']
  exact and_right_comm

/-- An update forgets no key. -/
theorem exists_get?_update {p : ρ → Bool} {f : ρ → ρ} (keeps : ∀ r, key (f r) = key r)
    (h : t.get? k = some r) : ∃ r', (t.update p f keeps).get? k = some r' := by
  rw [get?_update, h]
  exact ⟨_, rfl⟩

theorem get?_upsert : (t.upsert r).get? k = if k = key r then some r else t.get? k := by
  unfold upsert
  split
  · next h =>
      show (t.rows.map _).find? _ = _
      rw [List.find?_map]
      have hkeys : (fun s => key s == k) ∘ (fun s => if key s = key r then r else s)
          = fun s => key s == k := by
        funext s
        show (key (if key s = key r then r else s) == k) = (key s == k)
        split
        · next heq => rw [heq]
        · rfl
      rw [hkeys]
      by_cases hk : k = key r
      · subst hk
        obtain ⟨r', hr', hkey⟩ := List.mem_map.mp h
        have hfound : t.rows.find? (fun s => key s == key r) = some r' :=
          get?_eq_some.mpr ⟨hr', hkey⟩
        rw [hfound, if_pos rfl, Option.map_some, if_pos hkey]
      · rw [if_neg hk]
        show (t.get? k).map _ = t.get? k
        cases hget : t.get? k with
        | none => rfl
        | some s =>
            have hne : key s ≠ key r := by
              rw [key_of_get? hget]
              exact hk
            rw [Option.map_some, if_neg hne]
  · next h =>
      have hfree : t.get? (key r) = none :=
        get?_eq_none.mpr fun s hs hkey => h (hkey ▸ List.mem_map_of_mem hs)
      obtain ⟨u, hu, hrows⟩ := exists_insert? hfree
      have heq : (⟨t.rows ++ [r], by rw [← hrows]; exact u.keys_nodup⟩ : Table key) = u :=
        ext hrows.symm
      rw [heq]
      exact get?_insert? hu

theorem mem_upsert {s : ρ} :
    s ∈ (t.upsert r).rows ↔ s = r ∨ (s ∈ t.rows ∧ key s ≠ key r) := by
  have hmem : ∀ {u : Table key}, s ∈ u.rows ↔ u.get? (key s) = some s :=
    ⟨get?_key, mem_of_get?⟩
  rw [hmem, get?_upsert]
  by_cases hk : key s = key r
  · rw [if_pos hk, Option.some.injEq]
    simp [hk, eq_comm]
  · rw [if_neg hk, ← hmem]
    constructor
    · exact fun hs => .inr ⟨hs, hk⟩
    · rintro (rfl | ⟨hs, -⟩)
      · exact absurd rfl hk
      · exact hs

/-! ### Counting -/

/-- `SELECT COUNT(*) … WHERE p`. -/
def countWhere (t : Table key) (p : ρ → Bool) : ℕ := t.rows.countP p

omit [DecidableEq κ] in
/-- A weaker condition counts more rows. -/
theorem countWhere_mono {p q : ρ → Bool} (h : ∀ r ∈ t.rows, p r = true → q r = true) :
    t.countWhere p ≤ t.countWhere q := List.countP_mono_left h

omit [DecidableEq κ] in
theorem countWhere_delete_le {p q : ρ → Bool} : (t.delete q).countWhere p ≤ t.countWhere p :=
  List.filter_sublist.countP_le

omit [DecidableEq κ] in
/-- Deleting rows that are not counted leaves the count. -/
theorem countWhere_delete {p q : ρ → Bool} (h : ∀ r ∈ t.rows, p r = true → q r = false) :
    (t.delete q).countWhere p = t.countWhere p := by
  show (t.rows.filter _).countP p = t.rows.countP p
  rw [List.countP_filter]
  refine List.countP_congr fun r hr => ?_
  constructor
  · intro hboth
    exact (Bool.and_eq_true_iff.mp hboth).1
  · intro hp
    simp [hp, h r hr hp]

/-- The row of a key is counted apart from the others. -/
theorem countWhere_eq {p : ρ → Bool} :
    t.countWhere p = (t.rows.filter fun r => key r ≠ k).countP p + ((t.get? k).any p).toNat := by
  obtain ⟨rows, hnodup⟩ := t
  show rows.countP p = _ + ((rows.find? fun r => key r == k).any p).toNat
  induction rows with
  | nil => rfl
  | cons r rows ih =>
      rw [List.map_cons, List.nodup_cons] at hnodup
      by_cases hk : key r = k
      · have hothers : rows.filter (fun r => key r ≠ k) = rows := by
          refine List.filter_eq_self.mpr fun r' hr' => decide_eq_true ?_
          rintro heq
          exact hnodup.1 ((heq.trans hk.symm) ▸ List.mem_map_of_mem hr')
        have hcut : (r :: rows).filter (fun r => key r ≠ k) = rows.filter fun r => key r ≠ k :=
          List.filter_cons_of_neg (by simp [hk])
        rw [hcut, hothers, List.find?_cons, hk, beq_self_eq_true, List.countP_cons]
        cases hp : p r <;> simp [hp]
      · rw [List.find?_cons, List.filter_cons, List.countP_cons]
        simp only [beq_false_of_ne hk, ne_eq, hk, not_false_eq_true, decide_true, if_true,
          List.countP_cons]
        have hrest := ih hnodup.2
        simp only [ne_eq] at hrest
        omega

/-- An upsert counts the new row in place of the old one. -/
theorem countWhere_upsert {p : ρ → Bool} :
    (t.upsert r).countWhere p + ((t.get? (key r)).any p).toNat = t.countWhere p + (p r).toNat := by
  have hothers : (t.upsert r).rows.filter (fun s => key s ≠ key r)
      = t.rows.filter fun s => key s ≠ key r := by
    unfold upsert
    split
    · show (t.rows.map _).filter _ = _
      rw [List.filter_map]
      have hsame : ((fun s => decide (key s ≠ key r)) ∘ fun s => if key s = key r then r else s)
          = fun s => decide (key s ≠ key r) := by
        funext s
        show decide (key (if key s = key r then r else s) ≠ key r) = decide (key s ≠ key r)
        split
        · next heq => simp [heq]
        · rfl
      rw [hsame]
      refine (List.map_congr_left fun s hs => ?_).trans (List.map_id _)
      exact if_neg (of_decide_eq_true (List.mem_filter.mp hs).2)
    · show (t.rows ++ [r]).filter _ = _
      simp
  rw [countWhere_eq (k := key r), hothers, get?_upsert, if_pos rfl, Option.any_some,
    countWhere_eq (t := t) (k := key r)]
  omega

/-! ### Several rows at once -/

/-- `upsert` for each row of a list. -/
def upsertAll (t : Table key) (rows : List ρ) : Table key := rows.foldl upsert t

/-- The given rows, and the old rows whose keys are not among theirs. -/
theorem mem_upsertAll {rows : List ρ} (hnodup : (rows.map key).Nodup) {s : ρ} :
    s ∈ (t.upsertAll rows).rows ↔ s ∈ rows ∨ (s ∈ t.rows ∧ key s ∉ rows.map key) := by
  induction rows generalizing t with
  | nil => simp [upsertAll]
  | cons r rows ih =>
      rw [List.map_cons, List.nodup_cons] at hnodup
      have hstep : t.upsertAll (r :: rows) = (t.upsert r).upsertAll rows := rfl
      rw [hstep, ih hnodup.2, mem_upsert, List.mem_cons, List.map_cons, List.mem_cons, not_or]
      constructor
      · rintro (hs | ⟨rfl | ⟨hs, hne⟩, hnot⟩)
        · exact .inl (.inr hs)
        · exact .inl (.inl rfl)
        · exact .inr ⟨hs, hne, hnot⟩
      · rintro ((rfl | hs) | ⟨hs, hne, hnot⟩)
        · exact .inr ⟨.inl rfl, hnodup.1⟩
        · exact .inl hs
        · exact .inr ⟨.inr ⟨hs, hne⟩, hnot⟩

/-- `insert?` for each row of a list. -/
def insertAll? (t : Table key) (rows : List ρ) : Option (Table key) := rows.foldlM insert? t

theorem insertAll?_eq_some {rows : List ρ} (h : t.insertAll? rows = some t') :
    t'.rows = t.rows ++ rows := by
  induction rows generalizing t with
  | nil =>
      obtain rfl := Option.some.inj h
      simp
  | cons r rows ih =>
      obtain ⟨u, hu, hrest⟩ := Option.bind_eq_some_iff.mp (by simpa [insertAll?] using h)
      rw [ih hrest, (insert?_eq_some.mp hu).2, List.append_assoc, List.singleton_append]

/-- Inserting rows succeeds when their keys are distinct and free. -/
theorem exists_insertAll? {rows : List ρ} (hnodup : (rows.map key).Nodup)
    (hfree : ∀ r ∈ rows, t.get? (key r) = none) :
    ∃ t', t.insertAll? rows = some t' ∧ t'.rows = t.rows ++ rows := by
  suffices hsome : ∃ t', t.insertAll? rows = some t' by
    obtain ⟨t', ht'⟩ := hsome
    exact ⟨t', ht', insertAll?_eq_some ht'⟩
  induction rows generalizing t with
  | nil => exact ⟨t, rfl⟩
  | cons r rows ih =>
      rw [List.map_cons, List.nodup_cons] at hnodup
      obtain ⟨u, hu, -⟩ := exists_insert? (hfree r List.mem_cons_self)
      have hfree' : ∀ s ∈ rows, u.get? (key s) = none := by
        intro s hs
        have hne : key s ≠ key r := fun heq => hnodup.1 (heq ▸ List.mem_map_of_mem hs)
        rw [get?_insert? hu, if_neg hne]
        exact hfree s (List.mem_cons_of_mem _ hs)
      obtain ⟨t', ht'⟩ := ih hnodup.2 hfree'
      refine ⟨t', ?_⟩
      show (t.insert? r).bind _ = _
      rw [hu]
      exact ht'

end Table

end Systems
