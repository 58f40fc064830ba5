/-
  EntityFormulas/Collection/Table.lean
  ====================================
  **Finite maps with keys of any kind.**

  A table keeps its keys in the order in which they came.  Look-ups after an
  operation are given by `get?_insert`, `get?_erase` and `get?_modify`, and
  `mem_entries_iff` says that the entries are exactly what look-ups find.
-/

namespace EntityFormulas

universe u v

/-- A finite map from `κ`. -/
structure Table (κ : Type u) (α : Type v) where
  entries : List (κ × α)
  nodup : (entries.map Prod.fst).Nodup

namespace Table

variable {κ : Type u} {α : Type v}

theorem nodup_filter {p : κ × α → Bool} {entries : List (κ × α)}
    (h : (entries.map Prod.fst).Nodup) : ((entries.filter p).map Prod.fst).Nodup :=
  (List.filter_sublist.map Prod.fst).nodup h

variable [DecidableEq κ]

/-! ### Operations -/

/-- The map without entries. -/
def empty : Table κ α := ⟨[], List.nodup_nil⟩

instance : Inhabited (Table κ α) := ⟨empty⟩

/-- The value that entries have for a key. -/
def find? (key : κ) : List (κ × α) → Option α
  | [] => none
  | (k, a) :: rest => if k = key then some a else find? key rest

/-- Writes the value of a key, at the end if the key is new. -/
def put (key : κ) (a : α) : List (κ × α) → List (κ × α)
  | [] => [(key, a)]
  | (k, b) :: rest => if k = key then (k, a) :: rest else (k, b) :: put key a rest

theorem mem_keys_put {key k : κ} {a : α} {entries : List (κ × α)} :
    k ∈ (put key a entries).map Prod.fst ↔ k = key ∨ k ∈ entries.map Prod.fst := by
  induction entries with
  | nil => simp [put]
  | cons e rest ih =>
    obtain ⟨l, b⟩ := e
    simp only [put]
    split
    · rename_i h
      subst h
      simp
    · simp only [List.map_cons, List.mem_cons, ih]
      exact or_left_comm

theorem nodup_put {key : κ} {a : α} {entries : List (κ × α)}
    (h : (entries.map Prod.fst).Nodup) : ((put key a entries).map Prod.fst).Nodup := by
  induction entries with
  | nil => simp [put]
  | cons e rest ih =>
    obtain ⟨l, b⟩ := e
    have hc := List.nodup_cons.1 h
    simp only [put]
    split
    · exact h
    · rename_i hne
      refine List.nodup_cons.2 ⟨fun hm => ?_, ih hc.2⟩
      rcases mem_keys_put.1 hm with hl | hl
      · exact hne hl
      · exact hc.1 hl

/-- The value of a key. -/
def get? (t : Table κ α) (key : κ) : Option α := find? key t.entries

/-- Whether the key has a value. -/
def contains (t : Table κ α) (key : κ) : Bool := (t.get? key).isSome

/-- Writes the value of a key. -/
def insert (t : Table κ α) (key : κ) (a : α) : Table κ α := ⟨put key a t.entries, nodup_put t.nodup⟩

/-- Removes a key. -/
def erase (t : Table κ α) (key : κ) : Table κ α :=
  ⟨t.entries.filter fun e => e.1 ≠ key, nodup_filter t.nodup⟩

/-- Changes the value of a key that has one. -/
def modify (t : Table κ α) (key : κ) (f : α → α) : Table κ α :=
  match t.get? key with
  | some a => t.insert key (f a)
  | none => t

/-- The entries that meet a condition. -/
def filter (t : Table κ α) (p : κ → α → Bool) : Table κ α :=
  ⟨t.entries.filter fun e => p e.1 e.2, nodup_filter t.nodup⟩

/-- The keys in the order in which they came. -/
def keys (t : Table κ α) : List κ := t.entries.map Prod.fst

/-- The values in the order in which their keys came. -/
def values (t : Table κ α) : List α := t.entries.map Prod.snd

/-- The number of keys. -/
def size (t : Table κ α) : Nat := t.entries.length

/-- Whether there is no key. -/
def isEmpty (t : Table κ α) : Bool := t.entries.isEmpty

/-! ### Laws -/

theorem find?_put (key key' : κ) (a : α) (entries : List (κ × α)) :
    find? key' (put key a entries) = if key = key' then some a else find? key' entries := by
  induction entries with
  | nil => simp [put, find?]
  | cons e rest ih =>
    obtain ⟨k, b⟩ := e
    simp only [put]
    split
    · rename_i hk
      subst hk
      by_cases hkk : k = key' <;> simp [find?, hkk]
    · rename_i hk
      by_cases hkk : k = key'
      · subst hkk
        simp [find?, Ne.symm hk]
      · simp [find?, hkk, ih]

theorem mem_iff_find? {key : κ} {a : α} {entries : List (κ × α)}
    (h : (entries.map Prod.fst).Nodup) : (key, a) ∈ entries ↔ find? key entries = some a := by
  induction entries with
  | nil => simp [find?]
  | cons e rest ih =>
    obtain ⟨k, b⟩ := e
    have hc := List.nodup_cons.1 h
    by_cases hk : k = key
    · subst hk
      have hn : (k, a) ∉ rest := fun hm => hc.1 (List.mem_map.2 ⟨_, hm, rfl⟩)
      simp [find?, hn, eq_comm]
    · simp [find?, hk, ih hc.2, Ne.symm hk]

@[simp] theorem get?_empty (key : κ) : (empty : Table κ α).get? key = none := rfl

theorem get?_insert (t : Table κ α) (key key' : κ) (a : α) :
    (t.insert key a).get? key' = if key = key' then some a else t.get? key' :=
  find?_put key key' a t.entries

theorem mem_entries_iff {t : Table κ α} {key : κ} {a : α} :
    (key, a) ∈ t.entries ↔ t.get? key = some a := mem_iff_find? t.nodup

theorem get?_filter (t : Table κ α) (p : κ → α → Bool) (key : κ) :
    (t.filter p).get? key = (t.get? key).filter (p key) := by
  apply Option.ext
  intro a
  rw [← mem_entries_iff, Option.filter_eq_some_iff, ← mem_entries_iff]
  exact List.mem_filter

theorem get?_erase (t : Table κ α) (key key' : κ) :
    (t.erase key).get? key' = if key = key' then none else t.get? key' := by
  apply Option.ext
  intro a
  rw [← mem_entries_iff]
  have hm : (key', a) ∈ (t.erase key).entries ↔ (key', a) ∈ t.entries ∧ key' ≠ key := by
    simp [erase]
  rw [hm, mem_entries_iff]
  split
  · rename_i h
    simp [h]
  · rename_i h
    simp [Ne.symm h]

theorem get?_modify (t : Table κ α) (key key' : κ) (f : α → α) :
    (t.modify key f).get? key' = if key = key' then (t.get? key).map f else t.get? key' := by
  unfold modify
  split
  · rename_i a ha
    simp [get?_insert, ha]
  · rename_i hn
    split
    · rename_i hk
      simp [← hk, hn]
    · rfl

end Table

end EntityFormulas
