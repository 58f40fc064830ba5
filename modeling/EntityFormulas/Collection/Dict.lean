/-
  EntityFormulas/Collection/Dict.lean
  ===================================
  **Finite maps from names, in the order of the names.**

  A `Dict` is a list of entries whose keys ascend strictly, by code points.
  The functions on plain entry lists (`Entries.find?`, `Entries.insert`, …) are
  also what a record value is built with, since its fields sit inside the type
  of values itself.

  `get?_insert`, `get?_erase` and `get?_modify` say what each operation does to
  a look-up; `Dict.ext_get?` says that a map is known by its look-ups.
-/

namespace EntityFormulas

universe u v

/-! ### Entry lists -/

namespace Entries

variable {α : Type u} {β : Type v}

/-- The keys ascend strictly. -/
def Ascending (entries : List (String × α)) : Prop := entries.Pairwise fun a b => a.1 < b.1

/-- The value of the first entry with this key. -/
def find? (key : String) : List (String × α) → Option α
  | [] => none
  | (k, a) :: rest => if k = key then some a else find? key rest

/-- Writes the value of a key into an ascending list. -/
def insert (key : String) (a : α) : List (String × α) → List (String × α)
  | [] => [(key, a)]
  | (k, b) :: rest =>
    if key < k then (key, a) :: (k, b) :: rest
    else if k < key then (k, b) :: insert key a rest
    else (key, a) :: rest

/-- Leaves out the entries with this key. -/
def erase (key : String) (entries : List (String × α)) : List (String × α) :=
  entries.filter fun e => e.1 ≠ key

/-- The ascending list of all entries; of two with one key the later counts. -/
def ofList (entries : List (String × α)) : List (String × α) :=
  entries.foldl (fun acc e => insert e.1 e.2 acc) []

theorem mem_insert {key : String} {a : α} {entries : List (String × α)} {e : String × α}
    (h : e ∈ insert key a entries) : e = (key, a) ∨ e ∈ entries := by
  induction entries with
  | nil => simpa [insert] using h
  | cons f rest ih =>
    obtain ⟨k, b⟩ := f
    simp only [insert] at h
    split at h
    · simpa using h
    · split at h
      · rcases List.mem_cons.1 h with h | h
        · exact .inr (h ▸ List.mem_cons_self)
        · exact (ih h).imp_right (List.mem_cons_of_mem _)
      · rcases List.mem_cons.1 h with h | h
        · exact .inl h
        · exact .inr (List.mem_cons_of_mem _ h)

theorem ascending_insert {key : String} {a : α} {entries : List (String × α)}
    (h : Ascending entries) : Ascending (insert key a entries) := by
  induction entries with
  | nil => simp [insert, Ascending]
  | cons f rest ih =>
    obtain ⟨k, b⟩ := f
    have hc := List.pairwise_cons.1 h
    simp only [insert]
    split
    · rename_i hlt
      refine List.pairwise_cons.2 ⟨fun e he => ?_, h⟩
      rcases List.mem_cons.1 he with rfl | he
      · exact hlt
      · exact String.lt_trans hlt (hc.1 e he)
    · split
      · rename_i hlt
        refine List.pairwise_cons.2 ⟨fun e he => ?_, ih hc.2⟩
        rcases mem_insert he with rfl | he
        · exact hlt
        · exact hc.1 e he
      · rename_i h1 h2
        have hk : k = key := String.le_antisymm (String.not_lt.1 h1) (String.not_lt.1 h2)
        exact List.pairwise_cons.2 ⟨fun e he => hk ▸ hc.1 e he, hc.2⟩

theorem ascending_erase {key : String} {entries : List (String × α)} (h : Ascending entries) :
    Ascending (erase key entries) := List.Pairwise.filter _ h

theorem ascending_map (f : String → α → β) {entries : List (String × α)} (h : Ascending entries) :
    Ascending (entries.map fun e => (e.1, f e.1 e.2)) := List.pairwise_map.2 h

theorem ascending_ofList (entries : List (String × α)) : Ascending (ofList entries) := by
  unfold ofList
  suffices ∀ acc, Ascending acc → Ascending (entries.foldl (fun acc e => insert e.1 e.2 acc) acc) from
    this [] List.Pairwise.nil
  induction entries with
  | nil => exact fun _ h => h
  | cons e rest ih => exact fun acc h => ih _ (ascending_insert h)

theorem find?_eq_none_of_lt {key : String} {entries : List (String × α)}
    (h : ∀ e ∈ entries, key < e.1) : find? key entries = none := by
  induction entries with
  | nil => rfl
  | cons f rest ih =>
    have hne : f.1 ≠ key := fun heq => String.lt_irrefl _ (heq ▸ h f List.mem_cons_self)
    simp only [find?, if_neg hne]
    exact ih fun e he => h e (List.mem_cons_of_mem _ he)

theorem find?_insert (key key' : String) (a : α) (entries : List (String × α)) :
    find? key' (insert key a entries) = if key = key' then some a else find? key' entries := by
  induction entries with
  | nil => simp [insert, find?]
  | cons f rest ih =>
    obtain ⟨k, b⟩ := f
    simp only [insert]
    split
    · simp [find?]
    · split
      · rename_i hlt
        have hne : k ≠ key := fun heq => String.lt_irrefl _ (heq ▸ hlt)
        by_cases hk : k = key'
        · subst hk; simp [find?, Ne.symm hne]
        · simp [find?, hk, ih]
      · rename_i h1 h2
        have hk : k = key := String.le_antisymm (String.not_lt.1 h1) (String.not_lt.1 h2)
        by_cases hkk : key = key' <;> simp [find?, hk, hkk]

theorem find?_erase (key key' : String) (entries : List (String × α)) :
    find? key' (erase key entries) = if key = key' then none else find? key' entries := by
  induction entries with
  | nil => simp [erase, find?]
  | cons f rest ih =>
    obtain ⟨k, b⟩ := f
    unfold erase at ih ⊢
    by_cases hk : k = key
    · subst hk
      by_cases hkk : k = key' <;> simp_all [find?]
    · by_cases hkk : k = key'
      · subst hkk; simp [find?, hk, Ne.symm hk]
      · simpa [find?, hk, hkk] using ih

theorem find?_map (key : String) (f : String → α → β) (entries : List (String × α)) :
    find? key (entries.map fun e => (e.1, f e.1 e.2)) = (find? key entries).map (f key) := by
  induction entries with
  | nil => rfl
  | cons g rest ih =>
    obtain ⟨k, b⟩ := g
    by_cases hk : k = key
    · subst hk; simp [find?]
    · simp [find?, hk, ih]

theorem mem_of_find? {key : String} {a : α} {entries : List (String × α)}
    (h : find? key entries = some a) : (key, a) ∈ entries := by
  induction entries with
  | nil => simp [find?] at h
  | cons f rest ih =>
    obtain ⟨k, b⟩ := f
    simp only [find?] at h
    split at h
    · rename_i hk; simp_all
    · exact List.mem_cons_of_mem _ (ih h)

theorem find?_of_mem {key : String} {a : α} {entries : List (String × α)}
    (hs : Ascending entries) (h : (key, a) ∈ entries) : find? key entries = some a := by
  induction entries with
  | nil => simp at h
  | cons f rest ih =>
    obtain ⟨k, b⟩ := f
    have hc := List.pairwise_cons.1 hs
    rcases List.mem_cons.1 h with h | h
    · cases h; simp [find?]
    · have hne : k ≠ key := fun heq => String.lt_irrefl _ (heq ▸ hc.1 _ h)
      simp [find?, hne, ih hc.2 h]

theorem find?_foldl_insert {key : String} {entries acc : List (String × α)} :
    (∀ a, find? key (entries.foldl (fun acc e => insert e.1 e.2 acc) acc) = some a →
      (key, a) ∈ entries ∨ find? key acc = some a) ∧
    ((∃ a, (key, a) ∈ entries) ∨ (find? key acc).isSome →
      (find? key (entries.foldl (fun acc e => insert e.1 e.2 acc) acc)).isSome) := by
  induction entries generalizing acc with
  | nil =>
    refine ⟨fun a h => .inr h, fun h => ?_⟩
    rcases h with ⟨a, h⟩ | h
    · exact absurd h List.not_mem_nil
    · exact h
  | cons e rest ih =>
    obtain ⟨k, b⟩ := e
    refine ⟨fun a h => ?_, fun h => ih.2 ?_⟩
    · rcases ih.1 a h with h | h
      · exact .inl (List.mem_cons_of_mem _ h)
      · rw [find?_insert] at h
        split at h
        · rename_i hk
          cases h
          exact .inl (hk ▸ List.mem_cons_self)
        · exact .inr h
    · rw [find?_insert]
      rcases h with ⟨a, h⟩ | h
      · rcases List.mem_cons.1 h with h | h
        · cases h
          exact .inr (by rw [if_pos rfl]; rfl)
        · exact .inl ⟨a, h⟩
      · split
        · exact .inr rfl
        · exact .inr h

/-- What is found in the map of some entries is one of them. -/
theorem mem_of_find?_ofList {key : String} {a : α} {entries : List (String × α)}
    (h : find? key (ofList entries) = some a) : (key, a) ∈ entries := by
  rcases find?_foldl_insert.1 a h with h | h
  · exact h
  · exact nomatch h

/-- A key that has one value among some entries has it in their map. -/
theorem find?_ofList_of_unique {key : String} {a : α} {entries : List (String × α)}
    (h : (key, a) ∈ entries) (hu : ∀ b, (key, b) ∈ entries → b = a) :
    find? key (ofList entries) = some a := by
  have hs : (find? key (ofList entries)).isSome := find?_foldl_insert.2 (.inl ⟨a, h⟩)
  obtain ⟨b, hb⟩ := Option.isSome_iff_exists.1 hs
  rw [hb, hu b (mem_of_find?_ofList hb)]

/-- Two ascending lists with the same look-ups are the same list. -/
theorem eq_of_find? {xs ys : List (String × α)} (hx : Ascending xs) (hy : Ascending ys)
    (h : ∀ key, find? key xs = find? key ys) : xs = ys := by
  induction xs generalizing ys with
  | nil =>
    cases ys with
    | nil => rfl
    | cons f rest => have := h f.1; simp [find?] at this
  | cons e xs ih =>
    cases ys with
    | nil => have := h e.1; simp [find?] at this
    | cons f ys =>
      obtain ⟨k, a⟩ := e
      obtain ⟨l, b⟩ := f
      have hxc := List.pairwise_cons.1 hx
      have hyc := List.pairwise_cons.1 hy
      have hkl : k = l := by
        refine String.le_antisymm (String.not_lt.1 fun hlt => ?_) (String.not_lt.1 fun hlt => ?_)
        · have h1 : find? l ((k, a) :: xs) = none := find?_eq_none_of_lt fun e he => by
            rcases List.mem_cons.1 he with rfl | he
            · exact hlt
            · exact String.lt_trans hlt (hxc.1 e he)
          have := h l
          rw [h1] at this
          simp [find?] at this
        · have h1 : find? k ((l, b) :: ys) = none := find?_eq_none_of_lt fun e he => by
            rcases List.mem_cons.1 he with rfl | he
            · exact hlt
            · exact String.lt_trans hlt (hyc.1 e he)
          have := h k
          rw [h1] at this
          simp [find?] at this
      subst hkl
      have hab : a = b := by have := h k; simpa [find?] using this
      subst hab
      refine congrArg _ (ih hxc.2 hyc.2 fun key => ?_)
      by_cases hk : k = key
      · subst hk
        rw [find?_eq_none_of_lt hxc.1, find?_eq_none_of_lt hyc.1]
      · have := h key; simpa [find?, hk] using this

end Entries

/-! ### Maps -/

/-- A finite map from names, in the order of the names. -/
structure Dict (α : Type u) where
  entries : List (String × α)
  ascending : Entries.Ascending entries

namespace Dict

variable {α : Type u} {β : Type v}

/-- The map without entries. -/
def empty : Dict α := ⟨[], List.Pairwise.nil⟩

instance : Inhabited (Dict α) := ⟨empty⟩

instance : EmptyCollection (Dict α) := ⟨empty⟩

/-- The value of a key. -/
def get? (d : Dict α) (key : String) : Option α := Entries.find? key d.entries

/-- Whether the key has a value. -/
def contains (d : Dict α) (key : String) : Bool := (d.get? key).isSome

/-- Writes the value of a key. -/
def insert (d : Dict α) (key : String) (a : α) : Dict α :=
  ⟨Entries.insert key a d.entries, Entries.ascending_insert d.ascending⟩

/-- Removes a key. -/
def erase (d : Dict α) (key : String) : Dict α :=
  ⟨Entries.erase key d.entries, Entries.ascending_erase d.ascending⟩

/-- Changes the value of a key that has one. -/
def modify (d : Dict α) (key : String) (f : α → α) : Dict α :=
  match d.get? key with
  | some a => d.insert key (f a)
  | none => d

/-- The map of all entries; of two with one key the later counts. -/
def ofList (entries : List (String × α)) : Dict α :=
  ⟨Entries.ofList entries, Entries.ascending_ofList entries⟩

/-- The keys, ascending. -/
def keys (d : Dict α) : List String := d.entries.map (·.1)

/-- The values in the order of their keys. -/
def values (d : Dict α) : List α := d.entries.map (·.2)

/-- Whether there is no key. -/
def isEmpty (d : Dict α) : Bool := d.entries.isEmpty

/-- Changes every value. -/
def map (f : String → α → β) (d : Dict α) : Dict β :=
  ⟨d.entries.map fun e => (e.1, f e.1 e.2), Entries.ascending_map f d.ascending⟩

/-! ### Laws -/

@[simp] theorem get?_empty (key : String) : (empty : Dict α).get? key = none := rfl

theorem get?_of_isEmpty {d : Dict α} (h : d.isEmpty = true) (key : String) :
    d.get? key = none := by
  unfold get?
  rw [List.isEmpty_iff.1 h]
  rfl

theorem get?_insert (d : Dict α) (key key' : String) (a : α) :
    (d.insert key a).get? key' = if key = key' then some a else d.get? key' :=
  Entries.find?_insert key key' a d.entries

@[simp] theorem get?_insert_self (d : Dict α) (key : String) (a : α) :
    (d.insert key a).get? key = some a := by simp [get?_insert]

theorem get?_erase (d : Dict α) (key key' : String) :
    (d.erase key).get? key' = if key = key' then none else d.get? key' :=
  Entries.find?_erase key key' d.entries

theorem get?_modify (d : Dict α) (key key' : String) (f : α → α) :
    (d.modify key f).get? key' = if key = key' then (d.get? key).map f else d.get? key' := by
  unfold modify
  split
  · rename_i a ha; simp [get?_insert, ha]
  · rename_i hn
    split
    · rename_i hk; simp [← hk, hn]
    · rfl

theorem get?_map (f : String → α → β) (d : Dict α) (key : String) :
    (d.map f).get? key = (d.get? key).map (f key) := Entries.find?_map key f d.entries

theorem mem_entries_iff {d : Dict α} {key : String} {a : α} :
    (key, a) ∈ d.entries ↔ d.get? key = some a :=
  ⟨Entries.find?_of_mem d.ascending, Entries.mem_of_find?⟩

theorem mem_values_iff {d : Dict α} {a : α} : a ∈ d.values ↔ ∃ key, d.get? key = some a := by
  constructor
  · intro h
    obtain ⟨⟨key, b⟩, he, rfl⟩ := List.mem_map.1 h
    exact ⟨key, mem_entries_iff.1 he⟩
  · intro ⟨key, h⟩
    exact List.mem_map.2 ⟨(key, a), mem_entries_iff.2 h, rfl⟩

theorem mem_of_get?_ofList {entries : List (String × α)} {key : String} {a : α}
    (h : (ofList entries).get? key = some a) : (key, a) ∈ entries := Entries.mem_of_find?_ofList h

theorem get?_ofList_of_unique {entries : List (String × α)} {key : String} {a : α}
    (h : (key, a) ∈ entries) (hu : ∀ b, (key, b) ∈ entries → b = a) :
    (ofList entries).get? key = some a := Entries.find?_ofList_of_unique h hu

/-- A map is known by its look-ups. -/
theorem ext_get? {d e : Dict α} (h : ∀ key, d.get? key = e.get? key) : d = e := by
  obtain ⟨xs, hx⟩ := d
  obtain ⟨ys, hy⟩ := e
  have : xs = ys := Entries.eq_of_find? hx hy h
  subst this; rfl

end Dict

end EntityFormulas
