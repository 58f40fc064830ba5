/-
  EntityFormulas/Proofs/Computation/Chains.lean
  =============================================
  **Dotted chains over plain data.**

  Gathering reads dotted chains off the formulas and follows them over stored
  values; evaluation follows them over the values it computes.  Where the
  chains start at entities or own properties, the data keep references in the
  open and own properties that are computed lead nowhere new, both come to the
  same entities (`references_subset_walk`), so gathering tracks the formulas
  (`tracked_of_chains`).
-/
import EntityFormulas.Proofs.Computation.FullContext

namespace EntityFormulas

/-! ### Values with references in the open -/

namespace Value

mutual

/-- All entities that a value refers to, at whatever depth. -/
def mentions : Value → List String
  | .reference id _ => [id]
  | .list _ items => mentionsOfItems items
  | .record fields => mentionsOfFields fields
  | _ => []

def mentionsOfItems : List Value → List String
  | [] => []
  | v :: rest => mentions v ++ mentionsOfItems rest

def mentionsOfFields : List (String × Value) → List String
  | [] => []
  | (_, v) :: rest => mentions v ++ mentionsOfFields rest

end

mutual

/-- No record in the value holds a reference. -/
def Plain : Value → Prop
  | .list _ items => PlainItems items
  | .record fields => mentionsOfFields fields = []
  | _ => True

def PlainItems : List Value → Prop
  | [] => True
  | v :: rest => Plain v ∧ PlainItems rest

end

/-- A plain value all of whose references a step of a traversal finds. -/
def Flat (v : Value) : Prop := v.Plain ∧ v.references ⊆ v.targets

mutual

theorem plain_of_mentions_eq_nil : (v : Value) → v.mentions = [] → v.Plain ∧ v.references = []
  | .reference _ _, h => nomatch h
  | .list _ items, h => plainItems_of_mentions_eq_nil items h
  | .record _, h => ⟨h, rfl⟩
  | .text _, _ | .number _, _ | .boolean _, _ | .dateTime _, _ | .duration _, _ => ⟨trivial, rfl⟩

theorem plainItems_of_mentions_eq_nil : (items : List Value) → mentionsOfItems items = [] →
    PlainItems items ∧ referencesOfItems items = []
  | [], _ => ⟨trivial, rfl⟩
  | v :: rest, h => by
    obtain ⟨hv, hrest⟩ := List.append_eq_nil_iff.1 h
    obtain ⟨hpv, hrv⟩ := plain_of_mentions_eq_nil v hv
    obtain ⟨hpr, hrr⟩ := plainItems_of_mentions_eq_nil rest hrest
    refine ⟨⟨hpv, hpr⟩, ?_⟩
    rw [referencesOfItems, hrv, hrr]
    rfl

end

theorem mentions_of_find? {name : String} {v : Value} {fields : List (String × Value)}
    (h : Entries.find? name fields = some v) : v.mentions ⊆ mentionsOfFields fields := by
  induction fields with
  | nil => exact nomatch h
  | cons f rest ih =>
    obtain ⟨k, w⟩ := f
    unfold Entries.find? at h
    split at h
    · cases h
      exact List.subset_append_left _ _
    · exact List.Subset.trans (ih h) (List.subset_append_right _ _)

theorem referencesOfItems_toEntity (ids : List String) :
    referencesOfItems (ids.map toEntity) = ids := by
  induction ids with
  | nil => rfl
  | cons id rest ih =>
    rw [List.map_cons, referencesOfItems, ih]
    rfl

theorem plainItems_toEntity (ids : List String) : PlainItems (ids.map toEntity) := by
  induction ids with
  | nil => trivial
  | cons id rest ih => exact ⟨trivial, ih⟩

end Value

/-! ### Members of plain values -/

namespace Evaluation

theorem relationshipValue_plain (ids : List String) :
    (relationshipValue ids).Plain ∧ (relationshipValue ids).references = ids := by
  unfold relationshipValue
  split
  · exact ⟨trivial, rfl⟩
  · exact ⟨Value.plainItems_toEntity ids, Value.referencesOfItems_toEntity ids⟩

theorem eq_none_of_missing {ctx : EvaluationContext} {e : EvalError} {r : Option Value}
    (h : (missing ctx e : EvalResult) = .ok r) : r = none := by
  unfold missing at h
  split at h
  · exact nomatch h
  · cases h
    rfl

section Members

variable {member : String → String → EvalResult} {ctx : EvaluationContext} {name : String}
  {reach : List String}

mutual

/-- Members of a plain value are plain and refer to what the members of its entities refer to. -/
theorem memberOf_plain : (v : Value) → v.Plain →
    (∀ id ∈ v.references, ∀ w, member id name = .ok (some w) → w.Plain ∧ w.references ⊆ reach) →
    ∀ w, memberOf member ctx name v = .ok (some w) → w.Plain ∧ w.references ⊆ reach
  | .reference id _, _, hm, w, hw => hm id List.mem_cons_self w hw
  | .list _ items, hp, hm, w, hw => by
    unfold memberOf at hw
    cases hs : membersOf member ctx name items with
    | error e =>
      rw [hs] at hw
      exact nomatch hw
    | ok ws =>
      rw [hs] at hw
      cases hw
      exact membersOf_plain items hp hm ws hs
  | .record fields, hp, _, w, hw => by
    unfold memberOf at hw
    split at hw
    · rename_i v hv
      cases hw
      have hnil : w.mentions = [] := by
        have hsub := Value.mentions_of_find? hv
        rw [show Value.mentionsOfFields fields = [] from hp] at hsub
        exact List.subset_nil.1 hsub
      obtain ⟨hplain, href⟩ := Value.plain_of_mentions_eq_nil w hnil
      refine ⟨hplain, ?_⟩
      rw [href]
      exact List.nil_subset _
    · exact nomatch eq_none_of_missing hw
  | .text _, _, _, w, hw | .number _, _, _, w, hw | .boolean _, _, _, w, hw
  | .dateTime _, _, _, w, hw | .duration _, _, _, w, hw => nomatch eq_none_of_missing hw

theorem membersOf_plain : (items : List Value) → Value.PlainItems items →
    (∀ id ∈ Value.referencesOfItems items, ∀ w, member id name = .ok (some w) →
      w.Plain ∧ w.references ⊆ reach) →
    ∀ ws, membersOf member ctx name items = .ok ws →
      Value.PlainItems ws ∧ Value.referencesOfItems ws ⊆ reach
  | [], _, _, ws, hws => by
    cases hws
    exact ⟨trivial, List.nil_subset _⟩
  | v :: rest, hp, hm, ws, hws => by
    unfold membersOf at hws
    cases hv : memberOf member ctx name v with
    | error e =>
      rw [hv] at hws
      exact nomatch hws
    | ok a =>
      cases hr : membersOf member ctx name rest with
      | error e =>
        rw [hv, hr] at hws
        exact nomatch hws
      | ok as =>
        rw [hv, hr] at hws
        cases hws
        obtain ⟨hpr, hrr⟩ := membersOf_plain rest hp.2
          (fun id hid => hm id (List.mem_append_right _ hid)) as hr
        cases a with
        | none => exact ⟨hpr, hrr⟩
        | some w =>
          obtain ⟨hpw, hrw⟩ := memberOf_plain v hp.1
            (fun id hid => hm id (List.mem_append_left _ hid)) w hv
          refine ⟨⟨hpw, hpr⟩, ?_⟩
          exact List.append_subset.2 ⟨hrw, hrr⟩

end

end Members

end Evaluation

/-! ### Where chains lead -/

namespace TenantTable

theorem walk_concat (t : TenantTable) (own : Entity) (nodes hops : List String) (name : String) :
    t.walk own nodes (hops ++ [name]) = (t.walk own nodes hops).flatMap (t.step own name) := by
  induction hops generalizing nodes with
  | nil => rfl
  | cons hop rest ih => exact ih _

end TenantTable

namespace EvaluationContext

open Evaluation

theorem meaning_member_eq {ctx : EvaluationContext} {o : Expression} {name : String} {w : Value}
    (h : ctx.meaning (.member o name) = .ok (some w)) :
    ∃ v, ctx.meaning o = .ok (some v) ∧
      memberOf (entityMember ctx.ownMeaning ctx) ctx name v = .ok (some w) := by
  have hsettled : Settled (ctx.meaning (.member o name)) := by
    rw [h]
    trivial
  have hl := level_of_settled_meaning hsettled
  rw [h] at hl
  unfold Evaluation.level at hl
  dsimp only at hl
  cases ho : ctx.meaning o with
  | error e =>
    rw [ho] at hl
    cases hl
  | ok a =>
    rw [ho] at hl
    cases a with
    | none => cases hl
    | some v => exact ⟨v, rfl, hl⟩

end EvaluationContext

namespace Gathering

open EvaluationContext Evaluation

/-- The values that chains run over are plain: what is stored shows its references, and own
    properties, new values included, refer only to what the entity's own copy of them does. -/
structure PlainData (g : Gathering) (pending : Dict Expression) (properties : Dict Property) :
    Prop where
  stored : ∀ id e name p v, g.table.entities.get? id = some e → e.property? name = some p →
    p.current = some v → v.Flat
  own : ∀ name v, (g.full pending properties).ownMeaning name = .ok (some v) →
    v.Plain ∧ v.references ⊆ (((g.own.property? name).bind Property.current).map Value.targets).getD []

section Chains

variable {g : Gathering} {pending : Dict Expression} {properties : Dict Property}
  (hk : g.table.Keyed) (hd : g.PlainData pending properties)
include hk hd

/-- A chain without steps refers to where its traversal starts. -/
theorem references_subset_starts {e : Expression} {root : TraversalRoot}
    (hr : e.traversalRoot? = some root) (hops : List String) {v : Value}
    (hv : (g.full pending properties).meaning e = .ok (some v)) :
    v.Plain ∧ v.references ⊆ Traversal.starts g.own ⟨root, hops⟩ := by
  have hsettled : Settled ((g.full pending properties).meaning e) := by
    rw [hv]
    trivial
  have hl := level_of_settled_meaning hsettled
  rw [hv] at hl
  cases e with
  | selfEntity =>
    cases hr
    cases hl
    refine ⟨trivial, ?_⟩
    rw [g.full_entity]
    exact List.Subset.refl _
  | selfProperty name =>
    cases hr
    exact hd.own name v hl
  | entityRef id =>
    cases hr
    have hl : (entityRef (g.full pending properties) id : EvalResult) = .ok (some v) := hl
    unfold entityRef at hl
    rw [g.full_entity? pending properties hk] at hl
    cases he : g.table.known g.own id with
    | some e =>
      rw [he] at hl
      cases hl
      refine ⟨trivial, ?_⟩
      have hid : e.id = id := by
        unfold TenantTable.known at he
        split at he
        · rename_i heq
          cases he
          exact heq.symm
        · exact hk id e he
      rw [← hid]
      exact List.Subset.refl _
    | none =>
      rw [he] at hl
      dsimp only at hl
      split at hl
      · cases hl
        exact ⟨trivial, List.Subset.refl _⟩
      · exact nomatch eq_none_of_missing hl
  | _ => exact nomatch hr

omit hk hd in
/-- A relationship that no property hides refers to its targets. -/
theorem relationship_subset_step {id name : String} {w : Value}
    (hlacks : g.table.Lacks g.own id name)
    (hw : (relationship (g.full pending properties) id name : EvalResult) = .ok (some w)) :
    w.Plain ∧ w.references ⊆ g.table.step g.own name id := by
  unfold relationship at hw
  rw [g.full_targets?] at hw
  cases hr : g.table.related id with
  | none =>
    rw [hr] at hw
    exact nomatch eq_none_of_missing hw
  | some r =>
    rw [hr] at hw
    dsimp only [Option.bind_some] at hw
    rw [TenantTable.get?_of_related hr] at hw
    unfold TenantTable.step
    rw [show (g.table.known g.own id).bind (·.property? name) = none from hlacks]
    cases ht : (g.table.relationshipsOf id).get? name with
    | none =>
      rw [ht] at hw
      exact nomatch eq_none_of_missing hw
    | some ids =>
      rw [ht] at hw
      cases hw
      obtain ⟨hplain, href⟩ := relationshipValue_plain ids
      refine ⟨hplain, ?_⟩
      rw [href]
      exact List.Subset.refl _

omit hk in
/-- An own property refers to what its stored value refers to. -/
theorem own_subset_step {id name : String} {w : Value}
    (hknown : g.table.known g.own id = some g.own)
    (hw : (g.full pending properties).ownMeaning name = .ok (some w)) :
    w.Plain ∧ w.references ⊆ g.table.step g.own name id := by
  obtain ⟨hplain, href⟩ := hd.own name w hw
  refine ⟨hplain, ?_⟩
  unfold TenantTable.step
  rw [hknown]
  dsimp only [Option.bind_some]
  cases hprop : g.own.property? name with
  | some p =>
    rw [hprop] at href
    exact href
  | none =>
    rw [hprop] at href
    rw [List.subset_nil.1 href]
    exact List.nil_subset _

variable (hp : ∀ name, g.own.properties.contains name = true → properties.contains name = true)
include hp

/-- A member of an entity refers to where a step of a traversal leads. -/
theorem member_subset_step {id name : String} {w : Value}
    (hw : entityMember (g.full pending properties).ownMeaning (g.full pending properties) id name =
      .ok (some w)) : w.Plain ∧ w.references ⊆ g.table.step g.own name id := by
  unfold entityMember at hw
  rw [g.full_entity] at hw
  split at hw
  · rename_i heq
    have hknown : g.table.known g.own id = some g.own := if_pos heq
    split at hw
    · exact own_subset_step hd hknown hw
    · rename_i hno
      refine relationship_subset_step ?_ hw
      unfold TenantTable.Lacks
      rw [hknown]
      show g.own.properties.get? name = none
      cases hprop : g.own.properties.get? name with
      | none => rfl
      | some p =>
        refine absurd ?_ hno
        unfold EvaluationContext.hasOwnProperty
        rw [g.full_properties, hp name (by unfold Dict.contains; rw [hprop]; rfl), Bool.or_true]
  · rename_i hne
    have hknown : g.table.known g.own id = g.table.entities.get? id := if_neg hne
    rw [g.full_entities pending properties hk] at hw
    cases hprop : (g.table.entities.get? id).bind (·.property? name) with
    | none =>
      rw [hprop] at hw
      refine relationship_subset_step ?_ hw
      unfold TenantTable.Lacks
      rw [hknown, hprop]
    | some p =>
      rw [hprop] at hw
      have hw : p.current = some w := Except.ok.inj hw
      obtain ⟨e, he, hpe⟩ := Option.bind_eq_some_iff.1 hprop
      obtain ⟨hplain, href⟩ := hd.stored id e name p w he hpe hw
      refine ⟨hplain, ?_⟩
      unfold TenantTable.step
      rw [hknown, hprop]
      dsimp only
      rw [hw]
      exact href

/-- The value of a dotted chain refers to entities that its traversal comes to. -/
theorem references_subset_walk {e : Expression} {root : TraversalRoot}
    (hr : e.unwind.1.traversalRoot? = some root) (hops : List String) {v : Value}
    (hv : (g.full pending properties).meaning e = .ok (some v)) :
    v.Plain ∧ v.references ⊆
      g.table.walk g.own (Traversal.starts g.own ⟨root, hops⟩) e.unwind.2 := by
  induction e using Expression.induct generalizing v with
  | h e ih =>
    cases e with
    | member o name =>
      obtain ⟨v', hv', hw⟩ := meaning_member_eq hv
      obtain ⟨hplain, href⟩ := ih o List.mem_cons_self hr hv'
      rw [Expression.unwind_member, TenantTable.walk_concat]
      refine memberOf_plain v' hplain (fun id hid w hw => ?_) v hw
      obtain ⟨hplain', href'⟩ := member_subset_step hk hd hp hw
      refine ⟨hplain', fun id' hid' => ?_⟩
      exact List.mem_flatMap.2 ⟨id, href hid, href' hid'⟩
    | _ => exact references_subset_starts hk hd hr hops hv

/-- Formulas whose chains start at entities or own properties are tracked over plain data. -/
theorem tracked_of_chains
    (hroots : ∀ f ∈ g.formulas, ∀ o name, .member o name ∈ f.parts →
      o.unwind.1.traversalRoot?.isSome)
    (hdepth : ∀ f ∈ g.formulas, ∀ tr ∈ f.traversals, tr.hops.length ≤ g.settings.maxDepth)
    (hentities : ∀ f ∈ g.formulas, ∀ id, .entityRef id ∈ f.parts →
      (g.table.known g.own id).isSome ∨ g.table.related id = none ∨ g.Related id) :
    g.Tracked pending properties := by
  refine ⟨fun f hf o name hpart v hv id hid => .inr ?_, hentities⟩
  obtain ⟨root, hroot⟩ := Option.isSome_iff_exists.1 (hroots f hf o name hpart)
  obtain ⟨tr, htr, hrooteq, after, hhops⟩ := Expression.exists_traversal hpart hroot
  have hwalk := (references_subset_walk hk hd hp hroot tr.hops hv).2 hid
  have htreq : (⟨root, tr.hops⟩ : Traversal) = tr := by rw [← hrooteq]
  rw [htreq] at hwalk
  have hlen : o.unwind.2.length < g.settings.maxDepth := by
    have := hdepth f hf tr htr
    rw [hhops, List.length_append, List.length_cons] at this
    omega
  have hvisited : g.VisitedAt id name := ⟨f, hf, tr, htr, _, after, hhops, hlen, hwalk⟩
  by_cases hlacks : g.table.Lacks g.own id name
  · exact .inr ⟨hlacks, .inr ⟨name, hvisited, hlacks⟩⟩
  · refine .inl ⟨hlacks, .inr (.inr (.inr ?_))⟩
    exact ⟨f, hf, tr, htr, _, name :: after, hhops, Nat.le_of_lt hlen, hwalk⟩

end Chains

/-! ### Evaluation in gathered contexts -/

/-- An available store yields a context in which the formulas that gathering tracks, with whatever
    own properties are pending or have new values, evaluate as in the context that has everything
    the tenant has. -/
theorem evaluate_gathered {s : MemoryStore} (hs : s.available = true) {settings : Settings}
    {own : Entity} (hk : (s.table own.tenant).Keyed) {formulas : List Expression}
    {pending : Dict Expression} {properties : Dict Property}
    (hpending : ∀ name f, pending.get? name = some f → f ∈ formulas)
    (hproperties : ∀ name, own.properties.contains name = true → properties.contains name = true)
    (ht : Tracked ⟨settings, s.table own.tenant, own, formulas⟩ pending properties) :
    ∃ ctx, ((gather settings own formulas).run.run MemoryStore.store s).1 = .ok ctx ∧
      ∀ f ∈ formulas, f.evaluate { ctx with pending, properties } =
        f.evaluate ({ ctx with pending, properties }.withTable (s.table own.tenant)) := by
  obtain ⟨ctx, hans, hg, hf, hc⟩ := exists_gathered hs settings own hk formulas
  refine ⟨ctx, hans, fun f hff => ?_⟩
  have hserves := serves (g := ⟨settings, s.table own.tenant, own, formulas⟩) hk hf hg hc hpending
    hproperties ht
  rw [withTable_eq_full (g := ⟨settings, s.table own.tenant, own, formulas⟩) hk hf hg]
  exact hserves.evaluate ⟨f, hff, f.mem_parts_self⟩

/-- A thing whose family has a category. -/
def familyStore : MemoryStore :=
  (((({} : MemoryStore).insert { id := "thing", typePath := "thing" }).insert
    { id := "family", typePath := "family" }).relate "" "thing" "parent" "family").relate
      "" "family" "category" "category"

/-- The category of the family, along a chain. -/
def categoryOfChain : Expression := .member (.member .selfEntity "parent") "category"

theorem evaluate_gathered_categoryOfChain :
    ∃ ctx, ((gather {} { id := "thing", typePath := "thing" } [categoryOfChain]).run.run
        MemoryStore.store familyStore).1 = .ok ctx ∧
      ∀ f ∈ [categoryOfChain], f.evaluate { ctx with pending := .empty, properties := .empty } =
        f.evaluate ({ ctx with pending := .empty, properties := .empty }.withTable
          (familyStore.table "")) := by
  have hkeyed : (familyStore.table "").Keyed := by
    intro id e he
    have hall : ∀ x ∈ (familyStore.table "").entities.entries, x.2.id = x.1 := by decide +kernel
    exact hall (id, e) (Dict.mem_entries_iff.2 he)
  refine evaluate_gathered rfl hkeyed (fun _ _ h => (nomatch h)) (fun _ h => h)
    (tracked_of_chains hkeyed ⟨?_, ?_⟩ (fun _ h => h) ?_ ?_ ?_)
  · intro id e name p v he hp
    have hall : ∀ x ∈ (familyStore.table "").entities.entries, x.2.properties.isEmpty = true := by
      decide +kernel
    have hnone : e.properties.get? name = none :=
      Dict.get?_of_isEmpty (hall (id, e) (Dict.mem_entries_iff.2 he)) name
    rw [show e.properties.get? name = some p from hp] at hnone
    exact nomatch hnone
  · intro name v hv
    rw [ownMeaning_stored (by rw [full_pending]; rfl)] at hv
    unfold storedProperty at hv
    rw [full_properties] at hv
    exact nomatch eq_none_of_missing hv
  · intro f hf o name hpart
    cases List.mem_singleton.1 hf
    rcases List.mem_cons.1 hpart with heq | hpart
    · cases heq
      rfl
    · rcases List.mem_cons.1 hpart with heq | hpart
      · cases heq
        rfl
      · exact nomatch List.mem_singleton.1 hpart
  · decide +kernel
  · intro f hf id hpart
    cases List.mem_singleton.1 hf
    rcases List.mem_cons.1 hpart with heq | hpart
    · exact nomatch heq
    · rcases List.mem_cons.1 hpart with heq | hpart
      · exact nomatch heq
      · exact nomatch List.mem_singleton.1 hpart

/-- The category of the family, read off a list with the family in it. -/
def categoryOfList : Expression := .member (.list [.member .selfEntity "parent"]) "category"

/-- The context that is gathered for the formula. -/
def categoryContext : EvaluationContext :=
  (((gather {} { id := "thing", typePath := "thing" } [categoryOfList]).run.run
    MemoryStore.store familyStore).1.toOption).getD (ofEntity {} { id := "", typePath := "" })

/-- The gathered context misses the category, which the full one has. -/
theorem categoryContext_incomplete :
    ((gather {} { id := "thing", typePath := "thing" } [categoryOfList]).run.run
      MemoryStore.store familyStore).1 = .ok categoryContext ∧
    categoryOfList.evaluate categoryContext ≠
      categoryOfList.evaluate (categoryContext.withTable (familyStore.table "")) := by
  refine ⟨rfl, fun h => ?_⟩
  have htext := congrArg (fun r : EvalResult => r.toOption.map fun v => v.map Value.displayText) h
  revert htext
  decide +kernel

end Gathering

end EntityFormulas
