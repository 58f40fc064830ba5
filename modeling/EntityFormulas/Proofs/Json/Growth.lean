/-
  EntityFormulas/Proofs/Json/Growth.lean
  ======================================
  **Members that nothing declares.**

  A growth relates a tree to the trees that it becomes when members are added that
  the data it describes does not declare, at any depth.  What may be added depends
  on what a tree is read as: a structure declares its members (`StructGrows`), a
  choice those of the alternative that its tag names (`ChoiceGrows`), and lists and
  maps declare nothing, so that only the trees inside them grow.

  The lemmas say that the functions that take trees apart find the same after a
  tree has grown (`fieldsAgree_struct`, `tagged?_grow`).  They also bound the
  heights of what is found, since decoders of types that contain themselves are
  given the height of the tree.
-/
import EntityFormulas.Proofs.Json.Members

namespace EntityFormulas.Json

/-! ### Growths -/

/-- What trees that are read in one way may become. -/
abbrev Growth := Json → Json → Prop

/-- The members of a structure with declared names grow, and members of other names come in. -/
inductive MembersGrow (declared : List (String × Growth)) :
    List (String × Json) → List (String × Json) → Prop
  | nil : MembersGrow declared [] []
  | added {name : String} {j : Json} {ms ms' : List (String × Json)}
      (unknown : name ∉ declared.map Prod.fst) (rest : MembersGrow declared ms ms') :
      MembersGrow declared ms ((name, j) :: ms')
  | kept {name : String} {j : Json} {ms ms' : List (String × Json)}
      (unknown : name ∉ declared.map Prod.fst) (rest : MembersGrow declared ms ms') :
      MembersGrow declared ((name, j) :: ms) ((name, j) :: ms')
  | grown {name : String} {R : Growth} {j j' : Json} {ms ms' : List (String × Json)}
      (known : (name, R) ∈ declared) (inner : R j j') (rest : MembersGrow declared ms ms') :
      MembersGrow declared ((name, j) :: ms) ((name, j') :: ms')

/-- The items of a structure that is written as an array grow as the members that they stand for. -/
inductive ItemsGrow : List Growth → List Json → List Json → Prop
  | beyond {Rs : List Growth} {items : List Json} : ItemsGrow Rs items items
  | next {R : Growth} {Rs : List Growth} {j j' : Json} {items items' : List Json} (inner : R j j')
      (rest : ItemsGrow Rs items items') : ItemsGrow (R :: Rs) (j :: items) (j' :: items')

/-- Growth of a structure. -/
inductive StructGrows (declared : List (String × Growth)) : Growth
  | same {j : Json} : StructGrows declared j j
  | object {ms ms' : List (String × Json)} (members : MembersGrow declared ms ms') :
      StructGrows declared (.object ms) (.object ms')
  | array {items items' : List Json} (members : ItemsGrow (declared.map Prod.snd) items items') :
      StructGrows declared (.array items) (.array items')

/-- Growth of a choice with a tag, whose alternatives are structures. -/
inductive ChoiceGrows (tag : String) (alternatives : List (String × List (String × Growth))) : Growth
  | same {j : Json} : ChoiceGrows tag alternatives j j
  | object {name : String} {declared : List (String × Growth)} {t : Json}
      {ms ms' : List (String × Json)} (chosen : (name, declared) ∈ alternatives)
      (tagged : once? tag ms = some (some t))
      (named : tagName? (alternatives.map Prod.fst) .tagged t = some name)
      (members : MembersGrow ((tag, Eq) :: declared) ms ms') :
      ChoiceGrows tag alternatives (.object ms) (.object ms')
  | array {name : String} {declared : List (String × Growth)} {t : Json} {items items' : List Json}
      (chosen : (name, declared) ∈ alternatives)
      (named : tagName? (alternatives.map Prod.fst) .tagged t = some name)
      (members : ItemsGrow (declared.map Prod.snd) items items') :
      ChoiceGrows tag alternatives (.array (t :: items)) (.array (t :: items'))

/-- Growth of the items of a list. -/
inductive ListGrows (R : Growth) : Growth
  | same {j : Json} : ListGrows R j j
  | array {items items' : List Json} (inner : List.Forall₂ R items items') :
      ListGrows R (.array items) (.array items')

/-- Growth of the second part of a pair. -/
inductive PairGrows (R : Growth) : Growth
  | same {j : Json} : PairGrows R j j
  | pair {first j j' : Json} (inner : R j j') : PairGrows R (.array [first, j]) (.array [first, j'])

/-- Growth of the values of a map, whose names are data. -/
inductive MapGrows (R : Growth) : Growth
  | same {j : Json} : MapGrows R j j
  | object {ms ms' : List (String × Json)}
      (inner : List.Forall₂ (fun m m' => m.1 = m'.1 ∧ R m.2 m'.2) ms ms') :
      MapGrows R (.object ms) (.object ms')

@[simp] theorem structGrows_refl (declared : List (String × Growth)) (j : Json) :
    StructGrows declared j j := .same

@[simp] theorem choiceGrows_refl (tag : String)
    (alternatives : List (String × List (String × Growth))) (j : Json) :
    ChoiceGrows tag alternatives j j := .same

@[simp] theorem listGrows_refl (R : Growth) (j : Json) : ListGrows R j j := .same

@[simp] theorem pairGrows_refl (R : Growth) (j : Json) : PairGrows R j j := .same

@[simp] theorem mapGrows_refl (R : Growth) (j : Json) : MapGrows R j j := .same

/-! ### Members -/

/-- Of entries with distinct names, the name of an entry decides the rest. -/
theorem eq_of_mem_of_nodup {β : Type} {entries : List (String × β)}
    (hnodup : (entries.map Prod.fst).Nodup) {name : String} {b b' : β} (hb : (name, b) ∈ entries)
    (hb' : (name, b') ∈ entries) : b = b' := by
  induction entries with
  | nil => exact nomatch hb
  | cons d entries ih =>
    rw [List.map_cons, List.nodup_cons] at hnodup
    have hnew {b : β} (hb : (name, b) ∈ entries) : d.1 ≠ name := by
      rintro rfl
      exact hnodup.1 (List.mem_map.2 ⟨_, hb, rfl⟩)
    rcases List.mem_cons.1 hb with rfl | hb <;> rcases List.mem_cons.1 hb' with heq | hb'
    · exact (Prod.mk.inj heq).2.symm
    · exact absurd rfl (hnew hb')
    · exact absurd (Prod.mk.inj heq).1.symm (hnew hb)
    · exact ih hnodup.2 hb hb'

/-- What stands for a member in a tree and in the grown tree, with bounds for the heights. -/
inductive FieldGrows (h k : Nat) (R : Growth) : Option Json → Option Json → Prop
  | absent : FieldGrows h k R none none
  | present {j j' : Json} (inner : R j j') (height : j.height ≤ h) (height' : j'.height ≤ k) :
      FieldGrows h k R (some j) (some j')

inductive FieldsGrow (h k : Nat) : List Growth → List (Option Json) → List (Option Json) → Prop
  | nil : FieldsGrow h k [] [] []
  | cons {R : Growth} {Rs : List Growth} {x y : Option Json} {xs ys : List (Option Json)}
      (field : FieldGrows h k R x y) (rest : FieldsGrow h k Rs xs ys) :
      FieldsGrow h k (R :: Rs) (x :: xs) (y :: ys)

/-- Both trees have the members of a structure, or neither has. -/
inductive FieldsAgree (h k : Nat) (Rs : List Growth) :
    Option (List (Option Json)) → Option (List (Option Json)) → Prop
  | none : FieldsAgree h k Rs none none
  | some {xs ys : List (Option Json)} (fields : FieldsGrow h k Rs xs ys) :
      FieldsAgree h k Rs (some xs) (some ys)

section Members

variable {declared : List (String × Growth)} {h k : Nat}

theorem MembersGrow.refl (hrefl : ∀ d ∈ declared, ∀ j, d.2 j j) (ms : List (String × Json)) :
    MembersGrow declared ms ms := by
  induction ms with
  | nil => exact .nil
  | cons m ms ih =>
    by_cases hm : m.1 ∈ declared.map Prod.fst
    · obtain ⟨d, hd, heq⟩ := List.mem_map.1 hm
      exact .grown (R := d.2) (heq ▸ hd) (hrefl d hd _) ih
    · exact .kept hm ih

/-- The members of one declared name grow one by one. -/
theorem MembersGrow.filter (hnodup : (declared.map Prod.fst).Nodup) {ms ms' : List (String × Json)}
    (hms : MembersGrow declared ms ms') {name : String} {R : Growth} (hR : (name, R) ∈ declared) :
    List.Forall₂ (fun m m' => R m.2 m'.2) (ms.filter fun m => m.1 = name)
      (ms'.filter fun m => m.1 = name) := by
  have hne {name' : String} (unknown : name' ∉ declared.map Prod.fst) : name' ≠ name := by
    rintro rfl
    exact unknown (List.mem_map.2 ⟨_, hR, rfl⟩)
  induction hms with
  | nil => exact .nil
  | added unknown rest ih => rwa [List.filter_cons_of_neg (by simpa using hne unknown)]
  | kept unknown rest ih =>
    rwa [List.filter_cons_of_neg (by simpa using hne unknown),
      List.filter_cons_of_neg (by simpa using hne unknown)]
  | grown known inner rest ih =>
    rename_i name' R' j j' ms ms'
    by_cases hname : name' = name
    · subst hname
      rw [List.filter_cons_of_pos (by simp), List.filter_cons_of_pos (by simp)]
      exact .cons (eq_of_mem_of_nodup hnodup known hR ▸ inner) ih
    · rwa [List.filter_cons_of_neg (by simpa using hname),
        List.filter_cons_of_neg (by simpa using hname)]

theorem height_le_of_once? {name : String} {ms : List (String × Json)} {j : Json}
    (hj : once? name ms = some (some j)) (hms : (Json.object ms).height ≤ h + 1) : j.height ≤ h := by
  unfold once? at hj
  split at hj
  · exact nomatch hj
  · rename_i m hm
    cases hj
    exact height_le_of_mem_members (List.mem_of_mem_filter (hm ▸ List.mem_singleton.2 rfl)) hms
  · exact nomatch hj

/-- A member occurs once before a structure grows if and only if it does so afterwards. -/
theorem once?_grow (hnodup : (declared.map Prod.fst).Nodup) {ms ms' : List (String × Json)}
    (hms : MembersGrow declared ms ms') {name : String} {R : Growth} (hR : (name, R) ∈ declared) :
    (once? name ms = none ∧ once? name ms' = none) ∨
      (once? name ms = some none ∧ once? name ms' = some none) ∨
      ∃ j j', once? name ms = some (some j) ∧ once? name ms' = some (some j') ∧ R j j' := by
  have hfilter := hms.filter hnodup hR
  unfold once?
  generalize ms.filter (fun m => m.1 = name) = l at hfilter ⊢
  generalize ms'.filter (fun m => m.1 = name) = l' at hfilter ⊢
  cases hfilter with
  | nil => exact .inr (.inl ⟨rfl, rfl⟩)
  | cons hj rest =>
    cases rest with
    | nil => exact .inr (.inr ⟨_, _, rfl, rfl, hj⟩)
    | cons _ _ => exact .inl ⟨rfl, rfl⟩

/-- The members of some declared names are the same, but for their own growth. -/
theorem fieldsAgree_mapM (hnodup : (declared.map Prod.fst).Nodup) {ms ms' : List (String × Json)}
    (hms : MembersGrow declared ms ms') (hh : (Json.object ms).height ≤ h + 1)
    (hk : (Json.object ms').height ≤ k + 1) {wanted : List (String × Growth)}
    (hwanted : ∀ w ∈ wanted, w ∈ declared) :
    FieldsAgree h k (wanted.map Prod.snd) ((wanted.map Prod.fst).mapM fun name => once? name ms)
      ((wanted.map Prod.fst).mapM fun name => once? name ms') := by
  induction wanted with
  | nil => exact .some .nil
  | cons w wanted ih =>
    have hrest := ih fun v hv => hwanted v (List.mem_cons_of_mem _ hv)
    rw [List.map_cons, List.map_cons, List.mapM_cons, List.mapM_cons]
    rcases once?_grow hnodup hms (hwanted w List.mem_cons_self) with
      ⟨hx, hy⟩ | ⟨hx, hy⟩ | ⟨j, j', hx, hy, hj⟩ <;> rw [hx, hy]
    · exact .none
    · generalize (wanted.map Prod.fst).mapM (fun name => once? name ms) = x at hrest ⊢
      generalize (wanted.map Prod.fst).mapM (fun name => once? name ms') = y at hrest ⊢
      cases hrest with
      | none => exact .none
      | some fields => exact .some (.cons .absent fields)
    · have hfield := FieldGrows.present hj (height_le_of_once? hx hh) (height_le_of_once? hy hk)
      generalize (wanted.map Prod.fst).mapM (fun name => once? name ms) = x at hrest ⊢
      generalize (wanted.map Prod.fst).mapM (fun name => once? name ms') = y at hrest ⊢
      cases hrest with
      | none => exact .none
      | some fields => exact .some (.cons hfield fields)

theorem ItemsGrow.length_eq {Rs : List Growth} {items items' : List Json}
    (h : ItemsGrow Rs items items') : items'.length = items.length := by
  induction h with
  | beyond => rfl
  | next inner rest ih => rw [List.length_cons, List.length_cons, ih]

theorem ItemsGrow.fieldsGrow {Rs : List Growth} (hrefl : ∀ R ∈ Rs, ∀ j, R j j)
    {items items' : List Json} (hitems : ItemsGrow Rs items items') (hle : items.length ≤ Rs.length)
    (hh : ∀ j ∈ items, j.height ≤ h) (hk : ∀ j ∈ items', j.height ≤ k) :
    FieldsGrow h k Rs (items.map some ++ List.replicate (Rs.length - items.length) none)
      (items'.map some ++ List.replicate (Rs.length - items.length) none) := by
  induction Rs generalizing items items' with
  | nil =>
    obtain rfl : items = [] := List.eq_nil_of_length_eq_zero (Nat.le_zero.1 hle)
    cases hitems
    exact .nil
  | cons R Rs ih =>
    have hrefl' : ∀ R ∈ Rs, ∀ j, R j j := fun R' hR' => hrefl R' (List.mem_cons_of_mem _ hR')
    cases items with
    | nil =>
      cases hitems
      have hitems : ItemsGrow Rs [] [] := .beyond
      exact .cons .absent (ih hrefl' hitems (Nat.zero_le _) hh hk)
    | cons j items =>
      rw [List.length_cons, List.length_cons, Nat.add_le_add_iff_right] at hle
      rw [List.length_cons, List.length_cons, Nat.add_sub_add_right]
      have hh' : ∀ i ∈ items, i.height ≤ h := fun i hi => hh i (List.mem_cons_of_mem _ hi)
      cases hitems with
      | beyond =>
        have hk' : ∀ i ∈ items, i.height ≤ k := fun i hi => hk i (List.mem_cons_of_mem _ hi)
        exact .cons (.present (hrefl R List.mem_cons_self j) (hh j List.mem_cons_self)
          (hk j List.mem_cons_self)) (ih hrefl' .beyond hle hh' hk')
      | next inner rest =>
        rename_i j' items'
        have hk' : ∀ i ∈ items', i.height ≤ k := fun i hi => hk i (List.mem_cons_of_mem _ hi)
        exact .cons (.present inner (hh j List.mem_cons_self) (hk j' List.mem_cons_self))
          (ih hrefl' rest hle hh' hk')

/-- A grown structure has the same members, but for their own growth. -/
theorem fieldsAgree_struct {data data' : Json} (hgrow : StructGrows declared data data')
    (hnodup : (declared.map Prod.fst).Nodup) (hrefl : ∀ d ∈ declared, ∀ j, d.2 j j)
    (hh : data.height ≤ h + 1) (hk : data'.height ≤ k + 1) :
    FieldsAgree h k (declared.map Prod.snd) (data.fields? (declared.map Prod.fst))
      (data'.fields? (declared.map Prod.fst)) := by
  have hobject {ms ms' : List (String × Json)} (members : MembersGrow declared ms ms')
      (hh : (Json.object ms).height ≤ h + 1) (hk : (Json.object ms').height ≤ k + 1) :
      FieldsAgree h k (declared.map Prod.snd) ((Json.object ms).fields? (declared.map Prod.fst))
        ((Json.object ms').fields? (declared.map Prod.fst)) :=
    fieldsAgree_mapM hnodup members hh hk fun _ hw => hw
  have harray {items items' : List Json} (members : ItemsGrow (declared.map Prod.snd) items items')
      (hh : (Json.array items).height ≤ h + 1) (hk : (Json.array items').height ≤ k + 1) :
      FieldsAgree h k (declared.map Prod.snd) ((Json.array items).fields? (declared.map Prod.fst))
        ((Json.array items').fields? (declared.map Prod.fst)) := by
    have hlen : (declared.map Prod.fst).length = (declared.map Prod.snd).length := by simp
    have hrefl' : ∀ R ∈ declared.map Prod.snd, ∀ j, R j j := by
      intro R hR
      obtain ⟨d, hd, rfl⟩ := List.mem_map.1 hR
      exact hrefl d hd
    unfold fields?
    dsimp only
    rw [hlen, members.length_eq]
    split
    · rename_i hle
      refine .some (members.fieldsGrow hrefl' hle (fun j hj => ?_) fun j hj => ?_)
      · exact Nat.le_of_lt_succ (Nat.lt_of_lt_of_le (height_lt_of_mem_items hj) hh)
      · exact Nat.le_of_lt_succ (Nat.lt_of_lt_of_le (height_lt_of_mem_items hj) hk)
    · exact .none
  cases hgrow with
  | same =>
    cases data with
    | object ms => exact hobject (.refl hrefl ms) hh hk
    | array items => exact harray .beyond hh hk
    | _ => exact .none
  | object members => exact hobject members hh hk
  | array members => exact harray members hh hk

theorem FieldsAgree.bind {β : Type} {Rs : List Growth} {x y : Option (List (Option Json))}
    (hagree : FieldsAgree h k Rs x y) {f f' : List (Option Json) → Option β}
    (hf : ∀ xs ys, FieldsGrow h k Rs xs ys → f xs = f' ys) : x.bind f = y.bind f' := by
  cases hagree with
  | none => rfl
  | some fields => exact hf _ _ fields

/-- What cannot grow is the same. -/
theorem FieldGrows.eq {x y : Option Json} (h : FieldGrows h k Eq x y) : x = y := by
  cases h with
  | absent => rfl
  | present inner hh hk => rw [inner]

theorem FieldsAgree.eq {Rs : List Growth} (hfixed : ∀ R ∈ Rs, R = Eq)
    {x y : Option (List (Option Json))} (hagree : FieldsAgree h k Rs x y) : x = y := by
  cases hagree with
  | none => rfl
  | some fields =>
    congr 1
    induction fields with
    | nil => rfl
    | cons field rest ih =>
      rename_i R Rs x y xs ys
      obtain rfl := hfixed R List.mem_cons_self
      rw [field.eq, ih fun R hR => hfixed R (List.mem_cons_of_mem _ hR)]

theorem once?_eq (hnodup : (declared.map Prod.fst).Nodup) {ms ms' : List (String × Json)}
    (hms : MembersGrow declared ms ms') {name : String} (hname : (name, Eq) ∈ declared) :
    once? name ms = once? name ms' := by
  rcases once?_grow hnodup hms hname with ⟨hx, hy⟩ | ⟨hx, hy⟩ | ⟨j, j', hx, hy, rfl⟩
  · rw [hx, hy]
  · rw [hx, hy]
  · rw [hx, hy]

theorem ItemsGrow.eq {Rs : List Growth} (hfixed : ∀ R ∈ Rs, R = Eq) {items items' : List Json}
    (h : ItemsGrow Rs items items') : items = items' := by
  induction h with
  | beyond => rfl
  | next inner rest ih =>
    rename_i R Rs j j' items items'
    obtain rfl := hfixed R List.mem_cons_self
    rw [show j = j' from inner, ih fun R hR => hfixed R (List.mem_cons_of_mem _ hR)]

theorem isUnit_grow {data data' : Json} (hgrow : StructGrows declared data data') :
    data.isUnit = data'.isUnit := by
  cases hgrow with
  | same => rfl
  | object members => rfl
  | array members =>
    rename_i items items'
    change items.isEmpty = items'.isEmpty
    rw [Bool.eq_iff_iff, List.isEmpty_iff_length_eq_zero, List.isEmpty_iff_length_eq_zero,
      members.length_eq]

end Members

/-! ### Choices -/

section Choices

variable {tag : String} {alternatives : List (String × List (String × Growth))}

theorem tagName?_mem {names : List String} {place : Place} {t : Json} {name : String}
    (h : tagName? names place t = some name) :
    name ∈ names ∧ tagName? names .tagged t = some name := by
  unfold tagName? at h ⊢
  split at h
  · split at h
    · cases h
      rename_i hmem
      exact ⟨hmem, if_pos hmem⟩
    · exact nomatch h
  · split at h
    · rename_i hplace
      refine ⟨List.mem_of_getElem? h, ?_⟩
      rwa [if_pos ⟨rfl, hplace.2⟩]
    · exact nomatch h
  · exact nomatch h

/-- Without its tag, the members of a choice grow as those of the alternative. -/
theorem MembersGrow.untagged {declared : List (String × Growth)} {ms ms' : List (String × Json)}
    (h : MembersGrow ((tag, Eq) :: declared) ms ms') :
    MembersGrow declared (ms.filter fun m => m.1 ≠ tag) (ms'.filter fun m => m.1 ≠ tag) := by
  induction h with
  | nil => exact .nil
  | added unknown rest ih =>
    rw [List.map_cons, List.mem_cons, not_or] at unknown
    rw [List.filter_cons_of_pos (by simpa using unknown.1)]
    exact .added unknown.2 ih
  | kept unknown rest ih =>
    rw [List.map_cons, List.mem_cons, not_or] at unknown
    rw [List.filter_cons_of_pos (by simpa using unknown.1),
      List.filter_cons_of_pos (by simpa using unknown.1)]
    exact .kept unknown.2 ih
  | grown known inner rest ih =>
    rename_i name R j j' ms ms'
    by_cases hname : name = tag
    · rwa [List.filter_cons_of_neg (by simpa using hname),
        List.filter_cons_of_neg (by simpa using hname)]
    · rw [List.filter_cons_of_pos (by simpa using hname),
        List.filter_cons_of_pos (by simpa using hname)]
      refine .grown ((List.mem_cons.1 known).resolve_left fun heq => ?_) inner ih
      exact hname (Prod.mk.inj heq).1

theorem height_filter_le (p : String × Json → Bool) (ms : List (String × Json)) :
    (Json.object (ms.filter p)).height ≤ (Json.object ms).height := by
  change heightMembers (ms.filter p) + 1 ≤ heightMembers ms + 1
  refine Nat.succ_le_succ ?_
  induction ms with
  | nil => exact Nat.le_refl _
  | cons m ms ih =>
    rw [List.filter_cons]
    obtain ⟨name, j⟩ := m
    split
    · exact Nat.max_le.2 ⟨Nat.le_max_left _ _, Nat.le_trans ih (Nat.le_max_right _ _)⟩
    · exact Nat.le_trans ih (Nat.le_max_right _ _)

theorem tagged?_object {ms : List (String × Json)} {t : Json} (h : once? tag ms = some (some t)) :
    (Json.object ms).tagged? tag = some (t, .object (ms.filter fun m => m.1 ≠ tag)) := by
  unfold tagged?
  dsimp only
  rw [h]
  rfl

theorem tagged?_height {j t data : Json} (h : j.tagged? tag = some (t, data)) :
    data.height ≤ j.height := by
  unfold tagged? at h
  split at h
  · rename_i ms
    cases ht : once? tag ms with
    | none =>
      rw [ht] at h
      exact nomatch h
    | some t' =>
      rw [ht] at h
      cases t' with
      | none => exact nomatch h
      | some t' =>
        cases h
        exact height_filter_le _ ms
  · cases h
    change heightItems _ + 1 ≤ heightItems (_ :: _) + 1
    exact Nat.succ_le_succ (Nat.le_max_right _ _)
  · exact nomatch h

/-- A grown choice has the same tag, and its data grows as the alternative of that name does. -/
theorem tagged?_grow {j j' : Json} (hgrow : ChoiceGrows tag alternatives j j')
    (hnames : (alternatives.map Prod.fst).Nodup)
    (hnodup : ∀ a ∈ alternatives, (tag :: a.2.map Prod.fst).Nodup) :
    (j.tagged? tag = none ∧ j'.tagged? tag = none) ∨
      ∃ t data data', j.tagged? tag = some (t, data) ∧ j'.tagged? tag = some (t, data') ∧
        ∀ a ∈ alternatives, tagName? (alternatives.map Prod.fst) .tagged t = some a.1 →
          StructGrows a.2 data data' := by
  have hunique {name : String} {declared : List (String × Growth)}
      (chosen : (name, declared) ∈ alternatives) {a : String × List (String × Growth)}
      (ha : a ∈ alternatives) (heq : some name = some a.1) : a.2 = declared := by
    obtain rfl : name = a.1 := Option.some.inj heq
    exact eq_of_mem_of_nodup hnames ha chosen
  cases hgrow with
  | same =>
    cases ht : j.tagged? tag with
    | none => exact .inl ⟨rfl, rfl⟩
    | some x => exact .inr ⟨x.1, x.2, x.2, rfl, rfl, fun _ _ _ => .same⟩
  | object chosen tagged named members =>
    rename_i name declared t ms ms'
    have hdeclared : (((tag, Eq) :: declared).map Prod.fst).Nodup := hnodup _ chosen
    have htag := once?_grow hdeclared members List.mem_cons_self
    rw [tagged] at htag
    rcases htag with ⟨hj, -⟩ | ⟨hj, -⟩ | ⟨j, j', hj, tagged', rfl⟩
    · exact nomatch hj
    · exact nomatch hj
    · cases hj
      refine .inr ⟨t, _, _, tagged?_object tagged, tagged?_object tagged', fun a ha hname => ?_⟩
      rw [named] at hname
      rw [hunique chosen ha hname]
      exact .object members.untagged
  | array chosen named members =>
    refine .inr ⟨_, _, _, rfl, rfl, fun a ha hname => ?_⟩
    rw [named] at hname
    rw [hunique chosen ha hname]
    exact .array members

/-- Decoders of the alternatives that agree on grown data make decoders of choices that do. -/
theorem choice_grow {α : Type} {dec dec' : String → Json → Option α} {j j' : Json}
    (hgrow : ChoiceGrows tag alternatives j j') (hnames : (alternatives.map Prod.fst).Nodup)
    (hnodup : ∀ a ∈ alternatives, (tag :: a.2.map Prod.fst).Nodup)
    (hinner : ∀ a ∈ alternatives, ∀ data data', StructGrows a.2 data data' →
      data.height ≤ j.height → data'.height ≤ j'.height → dec a.1 data = dec' a.1 data')
    (place : Place) :
    (do let (t, data) ← j.tagged? tag
        dec (← tagName? (alternatives.map Prod.fst) place t) data) =
      (do let (t, data) ← j'.tagged? tag
          dec' (← tagName? (alternatives.map Prod.fst) place t) data) := by
  rcases tagged?_grow hgrow hnames hnodup with ⟨hj, hj'⟩ | ⟨t, data, data', hj, hj', hdata⟩
  · rw [hj, hj']
    rfl
  · rw [hj, hj']
    cases hname : tagName? (alternatives.map Prod.fst) place t with
    | none => simp [hname]
    | some name =>
      obtain ⟨hmem, htagged⟩ := tagName?_mem hname
      obtain ⟨a, ha, rfl⟩ := List.mem_map.1 hmem
      simp only [Option.bind_eq_bind, Option.bind_some, hname]
      exact hinner a ha data data' (hdata a ha htagged) (tagged?_height hj) (tagged?_height hj')

theorem choiceGrows_null {j j' : Json} (hgrow : ChoiceGrows tag alternatives j j') :
    j = .null ↔ j' = .null := by
  cases hgrow with
  | same => exact Iff.rfl
  | object chosen tagged named members => exact iff_of_false nofun nofun
  | array chosen named members => exact iff_of_false nofun nofun

end Choices

/-! ### Choices that contain themselves -/

/-- Growth of a choice in which choices of the same type nest less than `n` deep; the growth of
    these is what its alternatives depend on. -/
def NestedGrows (tag : String) (alternatives : Growth → List (String × List (String × Growth))) :
    Nat → Growth
  | 0 => Eq
  | n + 1 => ChoiceGrows tag (alternatives (NestedGrows tag alternatives n))

section Nested

variable {tag : String} {alternatives : Growth → List (String × List (String × Growth))}

theorem nestedGrows_refl (n : Nat) (j : Json) : NestedGrows tag alternatives n j j := by
  cases n with
  | zero => rfl
  | succ n => exact .same

theorem nestedGrows_null {n : Nat} {j j' : Json} (hgrow : NestedGrows tag alternatives n j j') :
    j = .null ↔ j' = .null := by
  cases n with
  | zero => rw [show j = j' from hgrow]
  | succ n => exact choiceGrows_null hgrow

variable {α : Type} {read : Place → Nat → Json → Option α}

/-- Reading with a bound for the height depends neither on the bound nor on members that are not
    declared, if reading the data of one choice depends on neither. -/
theorem nested_grow (names : List String) (dec : (Json → Option α) → String → Json → Option α)
    (hread : ∀ place h j, read place (h + 1) j = (do
      let (t, data) ← j.tagged? tag
      dec (read .tagged h) (← tagName? names place t) data))
    (hnames : names.Nodup) (halternatives : ∀ R, (alternatives R).map Prod.fst = names)
    (hnodup : ∀ R, ∀ a ∈ alternatives R, (tag :: a.2.map Prod.fst).Nodup)
    (hdec : ∀ (R : Growth) (h k : Nat) (item? item?' : Json → Option α), (∀ j, R j j) →
      (∀ j j', R j j' → j.height ≤ h → j'.height ≤ k → item? j = item?' j') →
        ∀ a ∈ alternatives R, ∀ data data', StructGrows a.2 data data' → data.height ≤ h + 1 →
          data'.height ≤ k + 1 → dec item? a.1 data = dec item?' a.1 data')
    {n h k : Nat} {j j' : Json} (hgrow : NestedGrows tag alternatives n j j') (hh : j.height ≤ h)
    (hk : j'.height ≤ k) (place : Place) : read place h j = read place k j' := by
  have hstep {R : Growth} {h k : Nat} {j j' : Json} (hgrow : ChoiceGrows tag (alternatives R) j j')
      (hrefl : ∀ j, R j j) (hh : j.height ≤ h + 1) (hk : j'.height ≤ k + 1)
      (hitem : ∀ j j', R j j' → j.height ≤ h → j'.height ≤ k →
        read .tagged h j = read .tagged k j') (place : Place) :
      read place (h + 1) j = read place (k + 1) j' := by
    rw [hread, hread, ← halternatives R]
    refine choice_grow hgrow (halternatives R ▸ hnames) (hnodup R) ?_ place
    intro a ha data data' hdata hd hd'
    exact hdec R h k _ _ hrefl hitem a ha data data' hdata (Nat.le_trans hd hh)
      (Nat.le_trans hd' hk)
  induction n generalizing h k j j' place with
  | zero =>
    -- The same tree under two bounds: the growth of what is inside is equality.
    obtain rfl : j = j' := hgrow
    induction h generalizing k j place with
    | zero => exact absurd hh (Nat.not_le_of_lt j.height_pos)
    | succ h ih =>
      cases k with
      | zero => exact absurd hk (Nat.not_le_of_lt j.height_pos)
      | succ k =>
        refine hstep (R := Eq) .same (fun _ => rfl) hh hk ?_ place
        rintro i _ rfl hi hi'
        exact ih hi .tagged hi'
  | succ n ih =>
    cases h with
    | zero => exact absurd hh (Nat.not_le_of_lt j.height_pos)
    | succ h =>
      cases k with
      | zero => exact absurd hk (Nat.not_le_of_lt j'.height_pos)
      | succ k =>
        exact hstep hgrow (nestedGrows_refl n) hh hk
          (fun i i' hi hh hk => ih hi hh hk .tagged) place

end Nested

/-! ### Decoders -/

section Decoders

variable {α : Type} {item? item?' : Json → Option α} {R : Growth} {h k : Nat} {x y : Option Json}

theorem required_grow (hfield : FieldGrows h k R x y)
    (hitem : ∀ j j', R j j' → j.height ≤ h → j'.height ≤ k → item? j = item?' j') :
    required item? x = required item?' y := by
  cases hfield with
  | absent => rfl
  | present inner hh hk => exact hitem _ _ inner hh hk

theorem defaulted_grow (hfield : FieldGrows h k R x y)
    (hitem : ∀ j j', R j j' → j.height ≤ h → j'.height ≤ k → item? j = item?' j') (default : α) :
    defaulted item? default x = defaulted item?' default y := by
  cases hfield with
  | absent => rfl
  | present inner hh hk => exact hitem _ _ inner hh hk

theorem nullable_of_ne {j : Json} (hj : j ≠ .null) :
    nullable item? (some j) = (item? j).map some := by
  cases j with
  | null => exact absurd rfl hj
  | _ => rfl

theorem nullable_grow (hfield : FieldGrows h k R x y)
    (hnull : ∀ j j', R j j' → (j = .null ↔ j' = .null))
    (hitem : ∀ j j', R j j' → j.height ≤ h → j'.height ≤ k → item? j = item?' j') :
    nullable item? x = nullable item?' y := by
  cases hfield with
  | absent => rfl
  | present inner hh hk =>
    rename_i j j'
    have hj := hitem _ _ inner hh hk
    have hiff := hnull _ _ inner
    by_cases hn : j = .null
    · rw [hn, hiff.1 hn]
      rfl
    · rw [nullable_of_ne hn, nullable_of_ne fun hn' => hn (hiff.2 hn'), hj]

theorem mapM_grow {β γ : Type} {f f' : β → Option γ} {S : β → β → Prop} {l l' : List β}
    (hl : List.Forall₂ S l l') (hf : ∀ a b, a ∈ l → b ∈ l' → S a b → f a = f' b) :
    l.mapM f = l'.mapM f' := by
  induction hl with
  | nil => rfl
  | cons hab hrest ih =>
    rw [List.mapM_cons, List.mapM_cons, hf _ _ List.mem_cons_self List.mem_cons_self hab,
      ih fun a b ha hb => hf a b (List.mem_cons_of_mem _ ha) (List.mem_cons_of_mem _ hb)]

theorem forall₂_refl {β : Type} {S : β → β → Prop} (hrefl : ∀ a, S a a) (l : List β) :
    List.Forall₂ S l l := List.forall₂_same.2 fun a _ => hrefl a

theorem asList?_grow {j j' : Json} (hgrow : ListGrows R j j') (hrefl : ∀ j, R j j)
    (hitem : ∀ i i', R i i' → i.height < j.height → i'.height < j'.height → item? i = item?' i') :
    asList? item? j = asList? item?' j' := by
  have harray {items items' : List Json} (inner : List.Forall₂ R items items')
      (hitem : ∀ i i', R i i' → i.height < (Json.array items).height →
        i'.height < (Json.array items').height → item? i = item?' i') :
      asList? item? (.array items) = asList? item?' (.array items') :=
    mapM_grow inner fun i i' hi hi' hR =>
      hitem i i' hR (height_lt_of_mem_items hi) (height_lt_of_mem_items hi')
  cases hgrow with
  | same =>
    cases j with
    | array items => exact harray (forall₂_refl hrefl items) hitem
    | _ => rfl
  | array inner => exact harray inner hitem

theorem entries_grow {ms ms' : List (String × Json)}
    (inner : List.Forall₂ (fun m m' => m.1 = m'.1 ∧ R m.2 m'.2) ms ms')
    (hitem : ∀ i i', R i i' → i.height < (Json.object ms).height →
      i'.height < (Json.object ms').height → item? i = item?' i') :
    ms.mapM (fun m => (item? m.2).map (m.1, ·)) = ms'.mapM (fun m => (item?' m.2).map (m.1, ·)) :=
  mapM_grow inner fun m m' hm hm' hR => by
    rw [hR.1, hitem _ _ hR.2 (height_lt_of_mem_members hm) (height_lt_of_mem_members hm')]

/-- The values of a map grow, or there is no map. -/
theorem MapGrows.values {j j' : Json} (hgrow : MapGrows R j j') (hrefl : ∀ j, R j j) :
    (∃ ms ms', j = .object ms ∧ j' = .object ms' ∧
      List.Forall₂ (fun m m' => m.1 = m'.1 ∧ R m.2 m'.2) ms ms') ∨
      j = j' ∧ ∀ ms, j ≠ .object ms := by
  cases hgrow with
  | same =>
    cases j with
    | object ms =>
      have hinner := forall₂_refl (S := fun m m' : String × Json => m.1 = m'.1 ∧ R m.2 m'.2)
        (fun m => ⟨rfl, hrefl m.2⟩) ms
      exact .inl ⟨ms, ms, rfl, rfl, hinner⟩
    | _ => exact .inr ⟨rfl, nofun⟩
  | object inner => exact .inl ⟨_, _, rfl, rfl, inner⟩

theorem asEntries?_grow {j j' : Json} (hgrow : MapGrows R j j') (hrefl : ∀ j, R j j)
    (hitem : ∀ i i', R i i' → i.height < j.height → i'.height < j'.height → item? i = item?' i') :
    asEntries? item? j = asEntries? item?' j' := by
  rcases hgrow.values hrefl with ⟨ms, ms', rfl, rfl, inner⟩ | ⟨rfl, hne⟩
  · unfold asEntries?
    dsimp only
    rw [entries_grow inner hitem]
  · cases j with
    | object ms => exact absurd rfl (hne ms)
    | _ => rfl

theorem asDict?_grow {j j' : Json} (hgrow : MapGrows R j j') (hrefl : ∀ j, R j j)
    (hitem : ∀ i i', R i i' → i.height < j.height → i'.height < j'.height → item? i = item?' i') :
    asDict? item? j = asDict? item?' j' := by
  rcases hgrow.values hrefl with ⟨ms, ms', rfl, rfl, inner⟩ | ⟨rfl, hne⟩
  · unfold asDict?
    dsimp only
    rw [entries_grow inner hitem]
  · cases j with
    | object ms => exact absurd rfl (hne ms)
    | _ => rfl

end Decoders

end EntityFormulas.Json
