/-
  EntityFormulas/Proofs/Json/Members.lean
  =======================================
  **Finding what was written.**

  Encoders write the members of a structure one after the other and leave out
  options that are absent; decoders look each name up.  The lemmas say what is
  found at a name, and that what is inside a tree is less high than the tree.

  `Finite` says that every number of a tree can be written as JSON.
-/
import EntityFormulas.Json.Decoder
import Mathlib.Data.List.Forall2

namespace EntityFormulas

/-- Entries that ascend are in order already. -/
theorem Entries.ofList_of_ascending {α : Type} {entries : List (String × α)}
    (h : Ascending entries) : ofList entries = entries := by
  refine eq_of_find? (ascending_ofList entries) h fun key => ?_
  cases hkey : find? key entries with
  | none =>
    rw [Option.eq_none_iff_forall_ne_some]
    intro a ha
    rw [find?_of_mem h (mem_of_find?_ofList ha)] at hkey
    exact nomatch hkey
  | some a =>
    refine find?_ofList_of_unique (mem_of_find? hkey) fun b hb => ?_
    rw [find?_of_mem h hb] at hkey
    exact Option.some.inj hkey

namespace Json

/-! ### Heights -/

theorem height_lt_of_mem_items {items : List Json} {j : Json} (h : j ∈ items) :
    j.height < (Json.array items).height := by
  have hle : j.height ≤ heightItems items := by
    induction items with
    | nil => exact nomatch h
    | cons i items ih =>
      unfold heightItems
      rcases List.mem_cons.1 h with rfl | h
      · exact Nat.le_max_left _ _
      · exact Nat.le_trans (ih h) (Nat.le_max_right _ _)
  exact Nat.lt_succ_of_le hle

theorem height_lt_of_mem_members {members : List (String × Json)} {m : String × Json}
    (h : m ∈ members) : m.2.height < (Json.object members).height := by
  have hle : m.2.height ≤ heightMembers members := by
    induction members with
    | nil => exact nomatch h
    | cons i members ih =>
      obtain ⟨name, j⟩ := i
      unfold heightMembers
      rcases List.mem_cons.1 h with rfl | h
      · exact Nat.le_max_left _ _
      · exact Nat.le_trans (ih h) (Nat.le_max_right _ _)
  exact Nat.lt_succ_of_le hle

theorem height_pos (j : Json) : 0 < j.height := by
  cases j <;> simp [height]

theorem height_le_of_mem_members {members : List (String × Json)} {m : String × Json} {h : Nat}
    (hm : m ∈ members) (hh : (Json.object members).height ≤ h + 1) : m.2.height ≤ h :=
  Nat.le_of_lt_succ (Nat.lt_of_lt_of_le (height_lt_of_mem_members hm) hh)

/-! ### Members -/

/-- No member has the name. -/
def Lacks (name : String) (ms : List (String × Json)) : Prop := ∀ m ∈ ms, m.1 ≠ name

section Lacks

variable {name other : String} {j : Json} {ms ms' : List (String × Json)}

@[simp] theorem lacks_nil : Lacks name [] := nofun

@[simp] theorem lacks_cons : Lacks name ((other, j) :: ms) ↔ other ≠ name ∧ Lacks name ms := by
  simp [Lacks]

@[simp] theorem lacks_append : Lacks name (ms ++ ms') ↔ Lacks name ms ∧ Lacks name ms' := by
  simp only [Lacks, List.mem_append, or_imp, forall_and]

theorem mem_optional {value : Option Json} {m : String × Json} (h : m ∈ optional other value) :
    m.1 = other := by
  cases value with
  | none => exact nomatch h
  | some j => rw [List.mem_singleton.1 h]

@[simp] theorem lacks_optional {value : Option Json} (h : other ≠ name) :
    Lacks name (optional other value) := by
  intro m hm
  rwa [mem_optional hm]

theorem once?_of_lacks (h : Lacks name ms) : once? name ms = some none := by
  unfold once?
  rw [List.filter_eq_nil_iff.2 fun m hm => by simpa using h m hm]

@[simp] theorem once?_nil : once? name [] = some none := rfl

theorem once?_cons_self (h : Lacks name ms) : once? name ((name, j) :: ms) = some (some j) := by
  unfold once?
  rw [List.filter_cons_of_pos (by simp), List.filter_eq_nil_iff.2 fun m hm => by simpa using h m hm]

theorem once?_cons_of_ne (h : other ≠ name) : once? name ((other, j) :: ms) = once? name ms := by
  unfold once?
  rw [List.filter_cons_of_neg (by simpa using h)]

theorem once?_append_of_lacks (h : Lacks name ms) : once? name (ms ++ ms') = once? name ms' := by
  unfold once?
  rw [List.filter_append, List.filter_eq_nil_iff.2 fun m hm => by simpa using h m hm,
    List.nil_append]

/-- An option is found as it was written. -/
theorem once?_optional (value : Option Json) (h : Lacks name ms) :
    once? name (optional name value ++ ms) = some value := by
  cases value with
  | none => exact once?_of_lacks h
  | some j => exact once?_cons_self h

theorem once?_optional_last (value : Option Json) : once? name (optional name value) = some value := by
  have h : once? name (optional name value ++ []) = some value := once?_optional value lacks_nil
  rwa [List.append_nil] at h

theorem once?_optional_of_ne (value : Option Json) (h : other ≠ name) :
    once? name (optional other value ++ ms) = once? name ms :=
  once?_append_of_lacks (lacks_optional h)

/-- A choice is written with its tag first. -/
theorem tagged?_cons {t : Json} (h : Lacks name ms) :
    (Json.object ((name, t) :: ms)).tagged? name = some (t, .object ms) := by
  unfold tagged?
  dsimp only
  rw [once?_cons_self h, List.filter_cons_of_neg (by simp),
    List.filter_eq_self.2 fun m hm => by simpa using h m hm]
  rfl

@[simp] theorem lacks_optional_self {value : Option Json} :
    Lacks name (optional name value) ↔ value = none := by
  cases value with
  | none => exact iff_of_true lacks_nil rfl
  | some j => simp [optional]

theorem Lacks.filter (h : Lacks name ms) (p : String × Json → Bool) : Lacks name (ms.filter p) :=
  fun m hm => h m (List.mem_of_mem_filter hm)

/-- The data of a choice lacks what the whole object lacks. -/
theorem tagged?_lacks {tag : String} {t data : Json}
    (h : (Json.object ms).tagged? tag = some (t, data)) :
    ∃ ms', data = .object ms' ∧ ∀ name, Lacks name ms → Lacks name ms' := by
  unfold tagged? at h
  obtain ⟨x, -, h⟩ := Option.bind_eq_some_iff.1 h
  obtain ⟨t', -, h⟩ := Option.bind_eq_some_iff.1 h
  cases h
  exact ⟨_, rfl, fun name hname => hname.filter _⟩

theorem fields?_lacks {names : List String} {xs : List (Option Json)}
    (h : (Json.object ms).fields? names = some xs) :
    List.Forall₂ (fun name x => Lacks name ms → x = none) names xs := by
  change names.mapM (fun name => once? name ms) = some xs at h
  induction names generalizing xs with
  | nil =>
    cases h
    exact .nil
  | cons name names ih =>
    rw [List.mapM_cons] at h
    obtain ⟨x, hx, h⟩ := Option.bind_eq_some_iff.1 h
    obtain ⟨xs', hxs, h⟩ := Option.bind_eq_some_iff.1 h
    cases h
    refine .cons (fun hlacks => ?_) (ih hxs)
    rw [once?_of_lacks hlacks] at hx
    exact (Option.some.inj hx).symm

theorem fields?_object (names : List String) :
    (Json.object ms).fields? names = names.mapM fun name => once? name ms := rfl

end Lacks

/-! ### Data -/

section Data

variable {α : Type} {item? : Json → Option α}

theorem nullable_map {f : α → Json} (hf : ∀ a, f a ≠ .null) {value : Option α}
    (h : ∀ a, value = some a → item? (f a) = some a) :
    nullable item? (value.map f) = some value := by
  cases value with
  | none => rfl
  | some a =>
    have ha := h a rfl
    have hne := hf a
    rw [Option.map_some]
    cases hj : f a with
    | null => exact absurd hj hne
    | _ =>
      rw [hj] at ha
      exact congrArg (Option.map some) ha

theorem isSome_nullable {field : Option Json} {value : Option α}
    (h : nullable item? field = some value) (hfield : field = none) : value.isSome = false := by
  subst hfield
  cases h
  rfl

/-- A list whose items are read as they were written is read so itself. -/
theorem mapM_map {β : Type} {f : α → β} {g : β → Option α} {as : List α}
    (h : ∀ a ∈ as, g (f a) = some a) : (as.map f).mapM g = some as := by
  induction as with
  | nil => rfl
  | cons a as ih =>
    rw [List.map_cons, List.mapM_cons, h a List.mem_cons_self,
      ih fun b hb => h b (List.mem_cons_of_mem _ hb)]
    rfl

/-- A map is read as it was written. -/
theorem asDict?_object {f : α → Json} {d : Dict α}
    (h : ∀ e ∈ d.entries, item? (f e.2) = some e.2) :
    asDict? item? (.object (d.entries.map fun e => (e.1, f e.2))) = some d := by
  have hentries : (d.entries.map fun e => (e.1, f e.2)).mapM
      (fun m => (item? m.2).map (m.1, ·)) = some d.entries :=
    mapM_map fun e he => by rw [h e he, Option.map_some]
  have hd : Dict.ofList d.entries = d := by
    unfold Dict.ofList
    congr 1
    exact Entries.ofList_of_ascending d.ascending
  unfold asDict?
  dsimp only
  rw [hentries, Option.bind_eq_bind, Option.bind_some, hd]

theorem asList?_texts (ss : List String) : asList? asText? (.texts ss) = some ss :=
  mapM_map fun _ _ => rfl

theorem asCount?_count (n : Nat) : asCount? (.count n) = some n := by
  simp [asCount?, count]

end Data

/-! ### Numbers -/

mutual

/-- Every real number of the tree is one that JSON can write. -/
def Finite : Json → Prop
  | .number (.real x) => isFiniteNumber x = true
  | .array items => FiniteItems items
  | .object members => FiniteMembers members
  | _ => True

def FiniteItems : List Json → Prop
  | [] => True
  | j :: rest => Finite j ∧ FiniteItems rest

def FiniteMembers : List (String × Json) → Prop
  | [] => True
  | (_, j) :: rest => Finite j ∧ FiniteMembers rest

end

@[simp] theorem finite_array {items : List Json} :
    Finite (.array items) ↔ ∀ j ∈ items, Finite j := by
  change FiniteItems items ↔ _
  induction items with
  | nil => simp [FiniteItems]
  | cons j items ih => rw [FiniteItems, ih, List.forall_mem_cons]

@[simp] theorem finite_object {members : List (String × Json)} :
    Finite (.object members) ↔ ∀ m ∈ members, Finite m.2 := by
  change FiniteMembers members ↔ _
  induction members with
  | nil => simp [FiniteMembers]
  | cons m members ih => rw [FiniteMembers, ih, List.forall_mem_cons]

@[simp] theorem finite_text (s : String) : Finite (.text s) := trivial

@[simp] theorem finite_bool (b : Bool) : Finite (.bool b) := trivial

@[simp] theorem finite_count (n : Nat) : Finite (.count n) := trivial

@[simp] theorem finite_real {x : Float} : Finite (.real x) ↔ isFiniteNumber x = true := Iff.rfl

theorem finite_map {α : Type} {f : α → Json} {entries : List (String × α)}
    (h : ∀ e ∈ entries, Finite (f e.2)) :
    Finite (.object (entries.map fun e => (e.1, f e.2))) := by
  rw [finite_object]
  intro m hm
  obtain ⟨e, he, rfl⟩ := List.mem_map.1 hm
  exact h e he

@[simp] theorem finite_optional {α : Type} {name : String} {f : α → Json} {value : Option α} :
    (∀ n j, (n, j) ∈ optional name (value.map f) → Finite j) ↔
      ∀ a, value = some a → Finite (f a) := by
  cases value <;> simp [optional]

end Json

end EntityFormulas
