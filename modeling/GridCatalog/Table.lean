/-! Tables: rows with distinct keys, in the order in which the keys came in.

    Writing under a key that is present replaces its value in place, and any other key goes to the
    end. A table is read through `get?`; each operation has one lemma that says what it does there,
    and `mem_rows` says that the rows hold exactly what `get?` finds. -/

namespace GridCatalog

/-- Values under distinct keys, in order of first insertion. -/
structure Table (κ ν : Type) where
  rows : List (κ × ν)
  nodup : (rows.map Prod.fst).Nodup

namespace Table

variable {κ ν : Type} [DecidableEq κ]

/-- The first value under a key. -/
def find (key : κ) : List (κ × ν) → Option ν
  | [] => none
  | (k, v) :: rest => if k = key then some v else find key rest

def empty : Table κ ν := ⟨[], List.nodup_nil⟩

instance : Inhabited (Table κ ν) := ⟨empty⟩

def get? (t : Table κ ν) (key : κ) : Option ν := find key t.rows

def keys (t : Table κ ν) : List κ := t.rows.map Prod.fst

/-- The values in order of the insertion of their keys. -/
def values (t : Table κ ν) : List ν := t.rows.map Prod.snd

def size (t : Table κ ν) : Nat := t.rows.length

/-- A row with its value replaced if it has the key. -/
def replaceRow (key : κ) (value : ν) (row : κ × ν) : κ × ν :=
  if row.1 = key then (row.1, value) else row

theorem map_fst_replaceRow (key : κ) (value : ν) (rows : List (κ × ν)) :
    (rows.map (replaceRow key value)).map Prod.fst = rows.map Prod.fst := by
  rw [List.map_map]
  refine List.map_congr_left fun row _ => ?_
  simp only [Function.comp, replaceRow]
  split <;> rfl

/-- Writes a value under a key: in place if the key is present, else behind all rows. -/
def insert (t : Table κ ν) (key : κ) (value : ν) : Table κ ν :=
  if h : key ∈ t.rows.map Prod.fst then
    ⟨t.rows.map (replaceRow key value), by rw [map_fst_replaceRow]; exact t.nodup⟩
  else
    ⟨t.rows ++ [(key, value)], by
      rw [List.map_append]
      exact List.nodup_append.2
        ⟨t.nodup, by simp, fun a ha b hb hab => h (by simp at hb; rw [← hb, ← hab]; exact ha)⟩⟩

def erase (t : Table κ ν) (key : κ) : Table κ ν :=
  ⟨t.rows.filter fun row => row.1 ≠ key, t.nodup.sublist (List.filter_sublist.map _)⟩

theorem find_eq_none_iff {key : κ} {rows : List (κ × ν)} :
    find key rows = none ↔ key ∉ rows.map Prod.fst := by
  induction rows with
  | nil => simp [find]
  | cons row rest ih =>
    by_cases h : row.1 = key
    · simp [find, h]
    · simp only [find, h, if_false, ih, List.map_cons, List.mem_cons, not_or]
      exact ⟨fun hr => ⟨fun e => h e.symm, hr⟩, fun hr => hr.2⟩

theorem get?_eq_none_iff {t : Table κ ν} {key : κ} : t.get? key = none ↔ key ∉ t.keys :=
  find_eq_none_iff

/-- The rows hold a value under a key exactly when it is found there. -/
theorem mem_rows {t : Table κ ν} {key : κ} {value : ν} :
    (key, value) ∈ t.rows ↔ t.get? key = some value := by
  obtain ⟨rows, nodup⟩ := t
  simp only [get?]
  induction rows with
  | nil => simp [find]
  | cons row rest ih =>
    have hrest := List.nodup_cons.1 nodup
    by_cases h : row.1 = key
    · have hno : (key, value) ∉ rest := fun hm => hrest.1 (h ▸ List.mem_map.2 ⟨_, hm, rfl⟩)
      obtain ⟨k, v⟩ := row
      simp only [find, if_pos h, List.mem_cons, Prod.mk.injEq, hno, or_false, Option.some.injEq]
      exact ⟨fun e => e.2.symm, fun e => ⟨h.symm, e.symm⟩⟩
    · obtain ⟨k, v⟩ := row
      simp only [find, h, if_false, List.mem_cons, Prod.mk.injEq]
      rw [← ih hrest.2]
      exact ⟨fun e => e.resolve_left fun e => h e.1.symm, Or.inr⟩

theorem mem_keys_of_get? {t : Table κ ν} {key : κ} {value : ν} (h : t.get? key = some value) : key ∈ t.keys :=
  List.mem_map.2 ⟨_, mem_rows.2 h, rfl⟩

theorem get?_empty (key : κ) : (empty : Table κ ν).get? key = none := rfl

theorem find_map_replaceRow (key : κ) (value : ν) (k : κ) (rows : List (κ × ν)) :
    find k (rows.map (replaceRow key value)) =
      if k = key then (find k rows).map fun _ => value else find k rows := by
  induction rows with
  | nil => simp [find]
  | cons row rest ih =>
    obtain ⟨a, v⟩ := row
    by_cases ha : a = key <;> by_cases hk : k = key <;> by_cases hak : a = k <;>
      simp_all [find, replaceRow]

theorem find_append (k : κ) (rows others : List (κ × ν)) :
    find k (rows ++ others) = (find k rows).or (find k others) := by
  induction rows with
  | nil => simp [find]
  | cons row rest ih =>
    obtain ⟨a, v⟩ := row
    by_cases h : a = k <;> simp [find, h, ih]

/-- After a write the key has the value and all other keys have what they had. -/
theorem get?_insert (t : Table κ ν) (key : κ) (value : ν) (k : κ) :
    (t.insert key value).get? k = if k = key then some value else t.get? k := by
  unfold insert
  split
  · rename_i h
    rw [get?, find_map_replaceRow]
    by_cases hk : k = key
    · subst hk
      obtain ⟨v, hv⟩ := Option.ne_none_iff_exists'.1 (mt find_eq_none_iff.1 (not_not_intro h))
      simp [hv]
    · simp [hk, get?]
  · rename_i h
    rw [get?, find_append]
    by_cases hk : k = key
    · subst hk
      simp [find_eq_none_iff.2 h, find]
    · have : ¬ key = k := fun e => hk e.symm
      simp [find, hk, this, get?]

/-- After an erasure the key has nothing and all other keys have what they had. -/
theorem get?_erase (t : Table κ ν) (key k : κ) :
    (t.erase key).get? k = if k = key then none else t.get? k := by
  obtain ⟨rows, nodup⟩ := t
  simp only [erase, get?]
  induction rows with
  | nil => simp [find]
  | cons row rest ih =>
    obtain ⟨a, v⟩ := row
    have := ih (List.nodup_cons.1 nodup).2
    by_cases ha : a = key <;> by_cases hk : k = key <;> by_cases hak : a = k <;>
      simp_all [find]

/-- Writing under a present key keeps the keys and their order. -/
theorem keys_insert_of_mem {t : Table κ ν} {key : κ} (h : key ∈ t.keys) (value : ν) :
    (t.insert key value).keys = t.keys := by
  unfold insert
  split
  · exact map_fst_replaceRow key value t.rows
  · rename_i hn; exact absurd h hn

/-- Writing under a new key puts the row behind the others. -/
theorem rows_insert_of_notMem {t : Table κ ν} {key : κ} (h : key ∉ t.keys) (value : ν) :
    (t.insert key value).rows = t.rows ++ [(key, value)] := by
  unfold insert
  split
  · rename_i hm; exact absurd hm h
  · rfl

theorem keys_insert_of_notMem {t : Table κ ν} {key : κ} (h : key ∉ t.keys) (value : ν) :
    (t.insert key value).keys = t.keys ++ [key] := by
  rw [keys, rows_insert_of_notMem h, List.map_append]
  rfl

end Table

end GridCatalog
