import Mathlib.Data.List.Nodup

/-!
# Keyed tables

A `Table key` is a list of rows with pairwise distinct keys: a table with a primary key. The
operations are those of single statements: `insert` of new rows, `modify` (an update by key) and
`delete`. A sequence of updates of one row is a `put`: `put_put`, `find_put`.
-/

namespace Tables

variable {ρ κ : Type} {key : ρ → κ}

/-- **Rows with pairwise distinct keys.** -/
@[ext] structure Table (key : ρ → κ) where
  rows : List ρ
  nodup : (rows.map key).Nodup

namespace Table

/-- The table without rows. -/
def empty : Table key := ⟨[], List.nodup_nil⟩

/-- The keys of the rows. -/
def keys (t : Table key) : List κ := t.rows.map key

/-- Delete the rows satisfying `p`. -/
def delete (t : Table key) (p : ρ → Bool) : Table key where
  rows := t.rows.filter fun r => !p r
  nodup := t.nodup.sublist (List.filter_sublist.map key)

variable [DecidableEq κ]

theorem map_key_modify (k : κ) {f : ρ → ρ} (hf : ∀ r, key (f r) = key r) (l : List ρ) :
    (l.map fun r => if key r = k then f r else r).map key = l.map key := by
  rw [List.map_map]
  refine List.map_congr_left fun r _ => ?_
  simp only [Function.comp_apply]
  split_ifs
  · exact hf r
  · rfl

/-- Update the row with key `k` by `f`, which keeps the key. -/
def modify (t : Table key) (k : κ) (f : ρ → ρ) (hf : ∀ r, key (f r) = key r) : Table key where
  rows := t.rows.map fun r => if key r = k then f r else r
  nodup := by
    rw [map_key_modify k hf]
    exact t.nodup

/-- Insert rows, all of them or, when a key would occur twice, none. -/
def insert (t : Table key) (rs : List ρ) : Option (Table key) :=
  if h : ((t.rows ++ rs).map key).Nodup then some ⟨t.rows ++ rs, h⟩ else none

/-- The row with key `k`. -/
def find (t : Table key) (k : κ) : Option ρ := t.rows.find? fun r => key r = k

omit [DecidableEq κ] in
@[simp] theorem rows_empty : (empty : Table key).rows = [] := rfl

@[simp] theorem rows_modify (t : Table key) (k : κ) (f : ρ → ρ) (hf : ∀ r, key (f r) = key r) :
    (t.modify k f hf).rows = t.rows.map fun r => if key r = k then f r else r := rfl

omit [DecidableEq κ] in
@[simp] theorem rows_delete (t : Table key) (p : ρ → Bool) :
    (t.delete p).rows = t.rows.filter fun r => !p r := rfl

omit [DecidableEq κ] in
theorem mem_keys {t : Table key} {k : κ} : k ∈ t.keys ↔ ∃ r ∈ t.rows, key r = k := List.mem_map

@[simp] theorem keys_modify (t : Table key) (k : κ) (f : ρ → ρ) (hf : ∀ r, key (f r) = key r) :
    (t.modify k f hf).keys = t.keys := map_key_modify k hf t.rows

theorem find_isSome {t : Table key} {k : κ} : (t.find k).isSome ↔ k ∈ t.keys := by
  simp [find, mem_keys]

theorem rows_of_insert {t t' : Table key} {rs : List ρ} (h : t.insert rs = some t') :
    t'.rows = t.rows ++ rs := by
  unfold insert at h
  split_ifs at h
  cases h
  rfl

theorem insert_eq_some {t : Table key} {rs : List ρ} (h : ((t.rows ++ rs).map key).Nodup) :
    t.insert rs = some ⟨t.rows ++ rs, h⟩ := by
  unfold insert
  rw [dif_pos h]

theorem notMem_of_insert {t t' : Table key} {rs : List ρ} (h : t.insert rs = some t') {r : ρ}
    (hr : r ∈ rs) : key r ∉ t.keys := by
  intro hmem
  have hnd := t'.nodup
  rw [rows_of_insert h, List.map_append] at hnd
  exact (List.nodup_append.mp hnd).2.2 _ hmem _ (List.mem_map_of_mem hr) rfl

theorem insert_eq_none {t : Table key} {rs : List ρ} (h : ¬ ((t.rows ++ rs).map key).Nodup) :
    t.insert rs = none := by
  unfold insert
  rw [dif_neg h]

/-- Two inserts, one after another, are the insert of all rows. -/
theorem insert_append (t : Table key) (a b : List ρ) :
    t.insert (a ++ b) = (t.insert a).bind fun t' => t'.insert b := by
  by_cases ha : ((t.rows ++ a).map key).Nodup
  · rw [insert_eq_some ha, Option.bind_some]
    unfold insert
    simp only [List.append_assoc]
  · rw [insert_eq_none ha, Option.bind_none]
    refine insert_eq_none fun h => ha ?_
    rw [← List.append_assoc, List.map_append] at h
    exact (List.nodup_append.mp h).1

omit [DecidableEq κ] in
theorem nodup_append_of_notMem {t : Table key} {r : ρ} (h : key r ∉ t.keys) :
    ((t.rows ++ [r]).map key).Nodup := by
  rw [List.map_append, List.nodup_append]
  refine ⟨t.nodup, List.nodup_singleton _, fun a ha b hb => ?_⟩
  rw [List.map_singleton, List.mem_singleton] at hb
  rintro rfl
  exact h (hb ▸ ha)

theorem mem_of_insert_singleton {t : Table key} {r : ρ} (h : t.insert [r] = none) :
    key r ∈ t.keys := by
  by_contra hr
  rw [insert_eq_some (nodup_append_of_notMem hr)] at h
  cases h

omit [DecidableEq κ] in
/-- A row is determined by its key. -/
theorem eq_of_key_eq (t : Table key) {a b : ρ} (ha : a ∈ t.rows) (hb : b ∈ t.rows)
    (h : key a = key b) : a = b :=
  List.inj_on_of_nodup_map t.nodup ha hb h

/-! ## Writing a row -/

/-- Write a row: replace the row with its key, or append it. -/
def put (t : Table key) (r : ρ) : Table key where
  rows := if key r ∈ t.keys then t.rows.map fun x => if key x = key r then r else x
    else t.rows ++ [r]
  nodup := by
    split_ifs with h
    · have hmap : (t.rows.map fun x => if key x = key r then r else x).map key = t.keys := by
        rw [List.map_map]
        refine List.map_congr_left fun x _ => ?_
        simp only [Function.comp_apply]
        split_ifs with hx
        · exact hx.symm
        · rfl
      rw [hmap]
      exact t.nodup
    · exact nodup_append_of_notMem h

theorem rows_put_of_mem {t : Table key} {r : ρ} (h : key r ∈ t.keys) :
    (t.put r).rows = t.rows.map fun x => if key x = key r then r else x := if_pos h

theorem rows_put_of_notMem {t : Table key} {r : ρ} (h : key r ∉ t.keys) :
    (t.put r).rows = t.rows ++ [r] := if_neg h

theorem mem_put {t : Table key} {r x : ρ} :
    x ∈ (t.put r).rows ↔ x = r ∨ x ∈ t.rows ∧ key x ≠ key r := by
  by_cases h : key r ∈ t.keys
  · rw [rows_put_of_mem h, List.mem_map]
    constructor
    · rintro ⟨y, hy, rfl⟩
      split_ifs with hk
      · exact Or.inl rfl
      · exact Or.inr ⟨hy, hk⟩
    · rintro (rfl | ⟨hx, hk⟩)
      · obtain ⟨y, hy, hk⟩ := mem_keys.mp h
        exact ⟨y, hy, if_pos hk⟩
      · exact ⟨x, hx, if_neg hk⟩
  · rw [rows_put_of_notMem h, List.mem_append, List.mem_singleton]
    constructor
    · rintro (hx | hx)
      · exact Or.inr ⟨hx, fun hk => h (mem_keys.mpr ⟨x, hx, hk⟩)⟩
      · exact Or.inl hx
    · rintro (hx | ⟨hx, -⟩)
      · exact Or.inr hx
      · exact Or.inl hx

theorem mem_keys_put {t : Table key} {r : ρ} {k : κ} :
    k ∈ (t.put r).keys ↔ k = key r ∨ k ∈ t.keys := by
  simp only [mem_keys, mem_put]
  constructor
  · rintro ⟨x, rfl | ⟨hx, -⟩, rfl⟩
    · exact Or.inl rfl
    · exact Or.inr ⟨x, hx, rfl⟩
  · rintro (rfl | ⟨x, hx, rfl⟩)
    · exact ⟨r, Or.inl rfl, rfl⟩
    · by_cases hk : key x = key r
      · exact ⟨r, Or.inl rfl, hk.symm⟩
      · exact ⟨x, Or.inr ⟨hx, hk⟩, rfl⟩

theorem find_eq_some {t : Table key} {k : κ} {r : ρ} : t.find k = some r ↔ r ∈ t.rows ∧ key r = k := by
  constructor
  · intro h
    exact ⟨List.mem_of_find?_eq_some h, by simpa using List.find?_some h⟩
  · rintro ⟨hr, rfl⟩
    obtain ⟨x, hx⟩ := Option.isSome_iff_exists.mp (find_isSome.mpr (mem_keys.mpr ⟨r, hr, rfl⟩))
    have hxk : key x = key r := by simpa using List.find?_some hx
    rw [hx, t.eq_of_key_eq (List.mem_of_find?_eq_some hx) hr hxk]

theorem find_eq_none {t : Table key} {k : κ} : t.find k = none ↔ k ∉ t.keys := by
  rw [← find_isSome, Option.not_isSome_iff_eq_none]

@[simp] theorem find_put (t : Table key) (r : ρ) : (t.put r).find (key r) = some r :=
  find_eq_some.mpr ⟨mem_put.mpr (Or.inl rfl), rfl⟩

theorem put_self {t : Table key} {k : κ} {r : ρ} (h : t.find k = some r) : t.put r = t := by
  obtain ⟨hr, rfl⟩ := find_eq_some.mp h
  refine Table.ext ?_
  rw [rows_put_of_mem (mem_keys.mpr ⟨r, hr, rfl⟩)]
  refine (List.map_congr_left fun x hx => ?_).trans (List.map_id _)
  split_ifs with hk
  · exact t.eq_of_key_eq hr hx hk.symm
  · rfl

/-- The last of two writes of one row counts. -/
theorem put_put (t : Table key) {a b : ρ} (h : key a = key b) : (t.put a).put b = t.put b := by
  refine Table.ext ?_
  rw [rows_put_of_mem (mem_keys_put.mpr (Or.inl h.symm))]
  by_cases hb : key b ∈ t.keys
  · rw [rows_put_of_mem hb, rows_put_of_mem (h ▸ hb), List.map_map]
    refine List.map_congr_left fun x _ => ?_
    simp only [Function.comp_apply, h]
    split_ifs with hx
    · rfl
    · rfl
  · rw [rows_put_of_notMem hb, rows_put_of_notMem (h ▸ hb), List.map_append, List.map_singleton,
      if_pos h]
    congr 1
    refine (List.map_congr_left fun x hx => ?_).trans (List.map_id _)
    exact if_neg fun hk => hb (mem_keys.mpr ⟨x, hx, hk⟩)

/-- An update of the row with key `k` writes that row. -/
theorem modify_eq_put {t : Table key} {k : κ} {f : ρ → ρ} (hf : ∀ r, key (f r) = key r) {r : ρ}
    (h : t.find k = some r) : t.modify k f hf = t.put (f r) := by
  obtain ⟨hr, rfl⟩ := find_eq_some.mp h
  refine Table.ext ?_
  rw [rows_put_of_mem (by rw [hf]; exact mem_keys.mpr ⟨r, hr, rfl⟩), rows_modify]
  refine List.map_congr_left fun x hx => ?_
  rw [hf]
  split_ifs with hk
  · rw [t.eq_of_key_eq hx hr hk]
  · rfl

theorem modify_eq_self {t : Table key} {k : κ} {f : ρ → ρ} (hf : ∀ r, key (f r) = key r)
    (h : t.find k = none) : t.modify k f hf = t := by
  refine Table.ext ((List.map_congr_left fun x hx => ?_).trans (List.map_id _))
  exact if_neg fun hk => find_eq_none.mp h (mem_keys.mpr ⟨x, hx, hk⟩)

/-- Looking up a row after an update. -/
theorem find?_modify (k k' : κ) {f : ρ → ρ} (hf : ∀ r, key (f r) = key r) (l : List ρ) :
    (l.map fun r => if key r = k then f r else r).find? (fun r => key r = k') =
      (l.find? fun r => key r = k').map fun r => if k' = k then f r else r := by
  induction l with
  | nil => rfl
  | cons r l ih =>
    have hkey : key (if key r = k then f r else r) = key r := by
      split_ifs
      · exact hf r
      · rfl
    rw [List.map_cons, List.find?_cons, List.find?_cons, hkey]
    by_cases hr : key r = k'
    · simp [hr]
    · simpa [hr] using ih

theorem find_modify (t : Table key) (k k' : κ) {f : ρ → ρ} (hf : ∀ r, key (f r) = key r) :
    (t.modify k f hf).find k' = (t.find k').map fun r => if k' = k then f r else r :=
  find?_modify k k' hf t.rows

end Table

end Tables
