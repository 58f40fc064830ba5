/-
  EntityFormulas/Proofs/Computation/FullContext.lean
  ==================================================
  **Gathered contexts and full ones.**

  A gathered context leaves out most of what a tenant has.  Formulas evaluate in
  it as in the context that has everything exactly as far as gathering came to
  the entities whose members they read.  Gathering sees only dotted chains that
  start at an entity or an own property, and only values that are stored;
  formulas also read members of what a call, a list or a record gives, and of
  what another formula gives in the same pass.

  `Tracked` says that no read of a formula goes beyond what gathering comes to;
  a gathered context serves the formulas that are tracked (`serves`).
-/
import EntityFormulas.Proofs.Computation.Reach
import EntityFormulas.Proofs.Evaluation.Agreement
import EntityFormulas.Proofs.Formula.Traversals

namespace EntityFormulas

/-! ### Where traversals start -/

/-- The entities that a traversal starts at. -/
def Traversal.starts (own : Entity) (tr : Traversal) : List String :=
  match tr.root with
  | .selfEntity => [own.id]
  | .entity id => [id]
  | .selfProperty name => (((own.property? name).bind Property.current).map Value.targets).getD []

theorem Trail.start?_eq (own : Entity) (tr : Traversal) : Trail.start? own tr =
    match tr.starts own, tr.hops with
    | id :: ids, step :: rest => some ⟨id :: ids, step, rest⟩
    | _, _ => none := rfl

/-! ### What gathering comes to -/

/-- What gathering for some formulas of an entity starts from. -/
structure Gathering where
  settings : Settings
  table : TenantTable
  own : Entity
  formulas : List Expression

namespace Gathering

variable (g : Gathering)

/-- A traversal comes to the entity and makes a step of that name there. -/
def VisitedAt (id name : String) : Prop :=
  ∃ f ∈ g.formulas, ∃ tr ∈ f.traversals, ∃ before after, tr.hops = before ++ name :: after ∧
    before.length < g.settings.maxDepth ∧ id ∈ g.table.walk g.own (tr.starts g.own) before

/-- A traversal comes to the entity. -/
def Visited (id : String) : Prop :=
  ∃ f ∈ g.formulas, ∃ tr ∈ f.traversals, ∃ before after, tr.hops = before ++ after ∧
    before.length ≤ g.settings.maxDepth ∧ id ∈ g.table.walk g.own (tr.starts g.own) before

/-- The relationships of the entity are fetched, for a step along a property that it lacks. -/
def Related (id : String) : Prop := ∃ name, g.VisitedAt id name ∧ g.table.Lacks g.own id name

/-- The entity is fetched, or there is nothing to fetch. -/
def Fetched (id : String) : Prop :=
  id = g.own.id ∨ g.table.entities.get? id = none ∨ id ∈ g.own.directIds g.formulas ∨ g.Visited id

/-- Gathering comes to a member: to the entity that has the property, and to the relationships of
    one that lacks it, unless they hold nothing of that name. -/
def Reaches (id name : String) : Prop :=
  (¬ g.table.Lacks g.own id name ∧ g.Fetched id) ∨
    (g.table.Lacks g.own id name ∧
      (((g.table.relationshipsOf id).get? name).isNone ∨ g.Related id))

variable {g}

open EvaluationContext

/-- The start of a traversal that comes to some entity. -/
theorem exists_start {f : Expression} {tr : Traversal} (htr : tr ∈ f.traversals)
    {before : List String} {id : String} (hid : id ∈ g.table.walk g.own (tr.starts g.own) before) :
    ∃ start, Trail.start? g.own tr = some start ∧ start.nodes = tr.starts g.own ∧
      start.step :: start.rest = tr.hops := by
  rw [Trail.start?_eq]
  cases hs : tr.starts g.own with
  | nil =>
    rw [hs, TenantTable.walk_nil] at hid
    exact absurd hid List.not_mem_nil
  | cons node nodes =>
    cases hh : tr.hops with
    | nil => exact absurd hh (Expression.hops_ne_nil htr)
    | cons step rest => exact ⟨⟨node :: nodes, step, rest⟩, rfl, rfl, rfl⟩

section Contexts

variable {ctx : EvaluationContext} (hf : Faithful g.table g.own ctx)
  (hc : CoversTraversals g.table g.own g.settings.maxDepth g.formulas ctx)
include hc

theorem knows_of_visited {id : String} (h : g.Visited id) : Knows g.table g.own ctx id := by
  obtain ⟨f, hf, tr, htr, before, after, hsplit, hlen, hid⟩ := h
  obtain ⟨start, hstart, hnodes, hhops⟩ := exists_start htr hid
  exact (hc.trails f hf tr htr start hstart).knows before after id (hhops.trans hsplit) hlen
    (hnodes ▸ hid)

theorem relates_of_related {id : String} (h : g.Related id) : Relates g.table ctx id := by
  obtain ⟨name, ⟨f, hf, tr, htr, before, after, hsplit, hlen, hid⟩, hlacks⟩ := h
  obtain ⟨start, hstart, hnodes, hhops⟩ := exists_start htr hid
  exact (hc.trails f hf tr htr start hstart).relates before name after id (hhops.trans hsplit) hlen
    (hnodes ▸ hid) hlacks

include hf

theorem knows_of_fetched {id : String} (h : g.Fetched id) : Knows g.table g.own ctx id := by
  rcases h with heq | hnone | hdirect | hvisited
  · exact hf.knows_iff.2 (.inl heq)
  · exact hf.knows_iff.2 (.inr (.inl hnone))
  · exact hc.direct id hdirect
  · exact knows_of_visited hc hvisited

/-- The context knows a relationship that gathering comes to as the table does. -/
theorem targets?_eq {id name : String}
    (h : ((g.table.relationshipsOf id).get? name).isNone ∨ g.Related id) :
    ctx.targets? id name = (g.table.related id).bind (·.get? name) := by
  unfold targets?
  rcases h with hnone | hrel
  · have hnone : (g.table.relationshipsOf id).get? name = none := Option.isNone_iff_eq_none.1 hnone
    have htable : (g.table.related id).bind (·.get? name) = none := by
      cases hr : g.table.related id with
      | none => rfl
      | some r =>
        show r.get? name = none
        rw [TenantTable.get?_of_related hr, hnone]
    rw [htable]
    cases hr : ctx.relationships.get? id with
    | none => rfl
    | some r =>
      show r.get? name = none
      rw [TenantTable.get?_of_related (hf.relationships id r hr), hnone]
  · have hr : ctx.relationships.get? id = g.table.related id := relates_of_related hc hrel
    rw [hr]

end Contexts

end Gathering

/-! ### Full contexts -/

namespace EvaluationContext

/-- The context with every entity and all relationships of a tenant added. -/
def withTable (ctx : EvaluationContext) (t : TenantTable) : EvaluationContext :=
  t.relationships.entries.foldl (fun ctx r => ctx.withRelationships r.1 r.2)
    (t.entities.values.foldl withEntity ctx)

theorem foldl_withRelationships_grows (rs : List (String × Relationships))
    (ctx : EvaluationContext) :
    ctx.Grows (rs.foldl (fun ctx r => ctx.withRelationships r.1 r.2) ctx) := by
  induction rs generalizing ctx with
  | nil => exact .refl ctx
  | cons r rest ih => exact (withRelationships_grows ctx r.1 r.2).trans (ih _)

theorem withTable_grows (ctx : EvaluationContext) (t : TenantTable) :
    ctx.Grows (ctx.withTable t) :=
  (foldl_withEntity_grows _ ctx).trans (foldl_withRelationships_grows _ _)

theorem entities_foldl_withRelationships (rs : List (String × Relationships))
    (ctx : EvaluationContext) :
    (rs.foldl (fun ctx r => ctx.withRelationships r.1 r.2) ctx).entities = ctx.entities := by
  induction rs generalizing ctx with
  | nil => rfl
  | cons r rest ih =>
    refine (ih (ctx.withRelationships r.1 r.2)).trans ?_
    unfold withRelationships
    split <;> rfl

theorem mem_relationships_of_foldl {rs : List (String × Relationships)} {ctx : EvaluationContext}
    {id : String} {r : Relationships}
    (h : (rs.foldl (fun ctx r => ctx.withRelationships r.1 r.2) ctx).relationships.get? id = some r) :
    ((id, r) ∈ rs ∧ r.isEmpty = false) ∨ ctx.relationships.get? id = some r := by
  induction rs generalizing ctx with
  | nil => exact .inr h
  | cons x rest ih =>
    rcases ih h with ⟨hmem, hne⟩ | h
    · exact .inl ⟨List.mem_cons_of_mem _ hmem, hne⟩
    · rcases relationshipsOf_eq_of_withRelationships h with ⟨rfl, rfl, hne⟩ | h
      · exact .inl ⟨List.mem_cons_self, hne⟩
      · exact .inr h

theorem isSome_relationships_of_mem {rs : List (String × Relationships)} {id : String}
    {r : Relationships} (h : (id, r) ∈ rs) (hne : r.isEmpty = false) (ctx : EvaluationContext) :
    ((rs.foldl (fun ctx r => ctx.withRelationships r.1 r.2) ctx).relationships.get? id).isSome := by
  induction rs generalizing ctx with
  | nil => exact absurd h List.not_mem_nil
  | cons x rest ih =>
    rcases List.mem_cons.1 h with rfl | h
    · refine (foldl_withRelationships_grows rest (ctx.withRelationships id r)).relationships id ?_
      unfold withRelationships
      rw [hne]
      show ((ctx.relationships.insert id r).get? id).isSome
      rw [Dict.get?_insert_self]
      rfl
    · exact ih h _

section Full

variable {t : TenantTable} {own : Entity} {ctx : EvaluationContext}

theorem related_eq_some_iff {id : String} {r : Relationships} :
    t.related id = some r ↔ t.relationships.get? id = some r ∧ r.isEmpty = false := by
  unfold TenantTable.related TenantTable.relationshipsOf
  cases t.relationships.get? id with
  | none =>
    constructor
    · exact fun h => nomatch h
    · exact fun h => nomatch h.1
  | some x =>
    cases hx : x.isEmpty with
    | true =>
      constructor
      · intro h
        rw [Option.getD_some, hx] at h
        exact nomatch h
      · rintro ⟨h, hne⟩
        cases h
        rw [hx] at hne
        exact nomatch hne
    | false =>
      rw [Option.getD_some, hx]
      constructor
      · intro h
        cases h
        exact ⟨rfl, hx⟩
      · exact fun h => h.1

theorem withTable_entities (hk : t.Keyed) (hf : Faithful t own ctx) (id : String) :
    (ctx.withTable t).entities.get? id = t.entities.get? id := by
  unfold withTable
  rw [entities_foldl_withRelationships]
  apply Option.ext
  intro e
  constructor
  · intro h
    rcases mem_entities_of_foldl h with ⟨hmem, hid⟩ | h
    · obtain ⟨key, hkey⟩ := Dict.mem_values_iff.1 hmem
      rw [← hid, hk key e hkey]
      exact hkey
    · exact hf.entities id e h
  · intro h
    have hmem : e ∈ t.entities.values := Dict.mem_values_iff.2 ⟨id, h⟩
    have hsome := isSome_entities_of_mem hmem ctx
    rw [hk id e h] at hsome
    obtain ⟨e', he'⟩ := Option.isSome_iff_exists.1 hsome
    rw [he']
    rcases mem_entities_of_foldl he' with ⟨hmem', hid'⟩ | hold
    · obtain ⟨key, hkey⟩ := Dict.mem_values_iff.1 hmem'
      rw [← hk key e' hkey, hid', h] at hkey
      exact hkey.symm
    · rw [← h, hf.entities id e' hold]

theorem relationships_foldl_entities (es : List Entity) (rs : List (String × Relationships))
    (ctx : EvaluationContext) {id : String} {r : Relationships}
    (h : (rs.foldl (fun ctx r => ctx.withRelationships r.1 r.2)
      (es.foldl withEntity ctx)).relationships.get? id = some r) :
    ((id, r) ∈ rs ∧ r.isEmpty = false) ∨ ctx.relationships.get? id = some r := by
  rcases mem_relationships_of_foldl h with h | h
  · exact .inl h
  · rw [relationships_foldl_withEntity] at h
    exact .inr h

theorem withTable_relationships (hf : Faithful t own ctx) (id : String) :
    (ctx.withTable t).relationships.get? id = t.related id := by
  have hsound (r : Relationships) (h : (ctx.withTable t).relationships.get? id = some r) :
      t.related id = some r := by
    rcases relationships_foldl_entities _ _ ctx h with ⟨hmem, hne⟩ | h
    · exact related_eq_some_iff.2 ⟨Dict.mem_entries_iff.1 hmem, hne⟩
    · exact hf.relationships id r h
  cases hr : t.related id with
  | none =>
    cases hg : (ctx.withTable t).relationships.get? id with
    | none => rfl
    | some r => exact absurd (hsound r hg) (by rw [hr]; exact nofun)
  | some r =>
    obtain ⟨hget, hne⟩ := related_eq_some_iff.1 hr
    have hsome := isSome_relationships_of_mem (Dict.mem_entries_iff.2 hget) hne
      (t.entities.values.foldl withEntity ctx)
    obtain ⟨r', hr'⟩ := Option.isSome_iff_exists.1 hsome
    rw [show (ctx.withTable t).relationships.get? id = some r' from hr', ← hsound r' hr', hr]

end Full

end EvaluationContext

/-! ### Formulas that gathering serves -/

/-- Whether a formula is no read of a member or of a named entity. -/
def Expression.readsOwn : Expression → Bool
  | .member .. | .entityRef _ => false
  | _ => true

namespace Gathering

open EvaluationContext

/-- The context that has everything, for formulas that are evaluated with these own properties. -/
def full (g : Gathering) (pending : Dict Expression) (properties : Dict Property) :
    EvaluationContext :=
  { ofEntity g.settings g.own with pending, properties }.withTable g.table

section Full

variable (g : Gathering) (pending : Dict Expression) (properties : Dict Property)

theorem ofEntity_with_faithful :
    Faithful g.table g.own { ofEntity g.settings g.own with pending, properties } :=
  ⟨rfl, fun _ _ h => (nomatch h), fun _ _ h => (nomatch h)⟩

theorem full_grows :
    Grows { ofEntity g.settings g.own with pending, properties } (g.full pending properties) :=
  withTable_grows _ g.table

theorem full_entity : (g.full pending properties).entity = g.own :=
  (g.full_grows pending properties).entity

theorem full_pending : (g.full pending properties).pending = pending :=
  (g.full_grows pending properties).pending

theorem full_properties : (g.full pending properties).properties = properties :=
  (g.full_grows pending properties).properties

theorem full_entities (hk : g.table.Keyed) (id : String) :
    (g.full pending properties).entities.get? id = g.table.entities.get? id :=
  withTable_entities hk (g.ofEntity_with_faithful pending properties) id

theorem full_relationships (id : String) :
    (g.full pending properties).relationships.get? id = g.table.related id :=
  withTable_relationships (g.ofEntity_with_faithful pending properties) id

theorem full_entity? (hk : g.table.Keyed) (id : String) :
    (g.full pending properties).entity? id = g.table.known g.own id := by
  unfold entity? TenantTable.known
  rw [g.full_entities pending properties hk, g.full_entity]

theorem full_targets? (id name : String) : (g.full pending properties).targets? id name =
    (g.table.related id).bind (·.get? name) := by
  unfold targets?
  rw [g.full_relationships]

end Full

/-- No read goes beyond what gathering comes to: members of entities that the objects of member
    accesses refer to, unless they are own properties, and named entities that exist only as the
    source of relationships. -/
structure Tracked (g : Gathering) (pending : Dict Expression) (properties : Dict Property) :
    Prop where
  members : ∀ f ∈ g.formulas, ∀ o name, .member o name ∈ f.parts → ∀ v,
    (g.full pending properties).meaning o = .ok (some v) → ∀ id ∈ v.references,
    (id = g.own.id ∧ (pending.contains name || properties.contains name) = true) ∨ g.Reaches id name
  entities : ∀ f ∈ g.formulas, ∀ id, .entityRef id ∈ f.parts →
    (g.table.known g.own id).isSome ∨ g.table.related id = none ∨ g.Related id

/-- Formulas that read nothing but own properties are tracked. -/
theorem tracked_of_readsOwn {settings : Settings} {table : TenantTable} {own : Entity}
    {formulas : List Expression} (h : ∀ f ∈ formulas, ∀ d ∈ f.parts, d.readsOwn = true)
    (pending : Dict Expression) (properties : Dict Property) :
    Tracked ⟨settings, table, own, formulas⟩ pending properties :=
  ⟨fun f hf _ _ hpart => absurd (h f hf _ hpart) nofun,
    fun f hf _ hpart => absurd (h f hf _ hpart) nofun⟩

section Serving

variable {g : Gathering} {pending : Dict Expression} {properties : Dict Property}
  {ctx : EvaluationContext} (hk : g.table.Keyed) (hf : Faithful g.table g.own ctx)
include hk hf

omit hk hf in
theorem eq_of_fields {c d : EvaluationContext} (h₁ : c.entity = d.entity)
    (h₂ : c.properties = d.properties) (h₃ : c.entities = d.entities)
    (h₄ : c.relationships = d.relationships) (h₅ : c.pending = d.pending)
    (h₆ : c.strict = d.strict) (h₇ : c.recursionLimit = d.recursionLimit) : c = d := by
  cases c
  cases d
  cases h₁
  cases h₂
  cases h₃
  cases h₄
  cases h₅
  cases h₆
  cases h₇
  rfl

/-- The same entities and relationships are added to whatever has been gathered. -/
theorem withTable_eq_full (hg : (ofEntity g.settings g.own).Grows ctx) :
    { ctx with pending, properties }.withTable g.table = g.full pending properties := by
  have hf' : Faithful g.table g.own { ctx with pending, properties } := ⟨hf.1, hf.2, hf.3⟩
  have hleft := withTable_grows { ctx with pending, properties } g.table
  have hright := g.full_grows pending properties
  have hentities : ({ ctx with pending, properties }.withTable g.table).entities =
      (g.full pending properties).entities :=
    Dict.ext_get? fun id =>
      (withTable_entities hk hf' id).trans (g.full_entities pending properties hk id).symm
  have hrelationships : ({ ctx with pending, properties }.withTable g.table).relationships =
      (g.full pending properties).relationships :=
    Dict.ext_get? fun id =>
      (withTable_relationships hf' id).trans (g.full_relationships pending properties id).symm
  exact eq_of_fields (hleft.entity.trans (hg.entity.trans hright.entity.symm))
    (hleft.properties.trans hright.properties.symm) hentities hrelationships
    (hleft.pending.trans hright.pending.symm)
    (hleft.strict.trans (hg.strict.trans hright.strict.symm))
    (hleft.limit.trans (hg.limit.trans hright.limit.symm))

/-- It knows the entities that the formulas name as they are. -/
theorem serves_reference (hc : CoversTraversals g.table g.own g.settings.maxDepth g.formulas ctx)
    (ht : g.Tracked pending properties) {f : Expression} (hff : f ∈ g.formulas) {id : String}
    (hpart : .entityRef id ∈ f.parts) :
    ServesEntity { ctx with pending, properties } (g.full pending properties) id := by
  have hdirect : id ∈ g.own.directIds g.formulas := by
    refine List.mem_append_left _ (List.mem_flatMap.2 ⟨f, hff, mem_ascending.2 ?_⟩)
    exact List.mem_filterMap.2 ⟨_, hpart, rfl⟩
  have hctx : ctx.entity? id = g.table.known g.own id := hc.direct id hdirect
  have hfull := g.full_entity? pending properties hk id
  refine ⟨hctx.trans hfull.symm, fun hnone => ?_⟩
  show (ctx.relationships.get? id).isSome = ((g.full pending properties).relationships.get? id).isSome
  rw [g.full_relationships]
  rcases ht.entities f hff id hpart with hknown | hnorel | hrel
  · rw [← hfull, hnone] at hknown
    exact nomatch hknown
  · rw [(hf.relates_iff).2 (.inl hnorel)]
  · rw [relates_of_related hc hrel]

/-- It has the members that the formulas ask for. -/
theorem serves_member (hc : CoversTraversals g.table g.own g.settings.maxDepth g.formulas ctx)
    (hproperties : ∀ name, g.own.properties.contains name = true → properties.contains name = true)
    (ht : g.Tracked pending properties) {f : Expression} (hff : f ∈ g.formulas) {o : Expression}
    {name : String} (hpart : .member o name ∈ f.parts) {v : Value}
    (hv : (g.full pending properties).meaning o = .ok (some v)) {id : String}
    (hmem : id ∈ v.references) :
    ServesMember { ctx with pending, properties } (g.full pending properties) id name := by
  have hpend := g.full_pending pending properties
  have hprops := g.full_properties pending properties
  unfold ServesMember
  rw [g.full_entity pending properties]
  split
  · rename_i heq
    unfold EvaluationContext.hasOwnProperty
    rw [hpend, hprops, g.full_targets?]
    rcases ht.members f hff o name hpart v hv id hmem with ⟨_, hown⟩ | hreach
    · exact .inl hown
    · by_cases hlacks : g.table.Lacks g.own id name
      · rcases hreach with ⟨hnot, _⟩ | ⟨_, hrel⟩
        · exact absurd hlacks hnot
        · exact .inr (targets?_eq hf hc hrel)
      · refine .inl ?_
        have hown : g.own.properties.contains name = true := by
          unfold TenantTable.Lacks TenantTable.known at hlacks
          rw [if_pos heq] at hlacks
          exact Option.isSome_iff_ne_none.2 hlacks
        rw [hproperties name hown, Bool.or_true]
  · rename_i hne
    have hknown : g.table.known g.own id = g.table.entities.get? id := if_neg hne
    rw [g.full_entities pending properties hk, g.full_targets?]
    rcases ht.members f hff o name hpart v hv id hmem with ⟨heq, _⟩ | hreach
    · exact absurd heq hne
    · rcases hreach with ⟨hnot, hfetched⟩ | ⟨hlacks, hrel⟩
      · have hknows' : ctx.entity? id = g.table.known g.own id := knows_of_fetched hf hc hfetched
        rw [hf.entity?_eq, if_neg hne, hknown] at hknows'
        refine ⟨by rw [hknows'], fun hnone => ?_⟩
        unfold TenantTable.Lacks at hnot
        rw [hknown] at hnot
        exact absurd hnone hnot
      · have hfull : (g.table.entities.get? id).bind (·.property? name) = none := by
          unfold TenantTable.Lacks at hlacks
          rw [hknown] at hlacks
          exact hlacks
        refine ⟨?_, fun _ => targets?_eq hf hc hrel⟩
        rw [hfull]
        cases he : ctx.entities.get? id with
        | none => rfl
        | some e =>
          rw [hf.entities id e he] at hfull
          exact hfull

/-- A gathered context serves the formulas that it was gathered for. -/
theorem serves (hg : (ofEntity g.settings g.own).Grows ctx)
    (hc : CoversTraversals g.table g.own g.settings.maxDepth g.formulas ctx)
    (hpending : ∀ name f, pending.get? name = some f → f ∈ g.formulas)
    (hproperties : ∀ name, g.own.properties.contains name = true → properties.contains name = true)
    (ht : g.Tracked pending properties) :
    Serves (fun e => ∃ f ∈ g.formulas, e ∈ f.parts) { ctx with pending, properties }
      (g.full pending properties) := by
  have hentity := g.full_entity pending properties
  have hpend := g.full_pending pending properties
  have hgrow := g.full_grows pending properties
  refine ⟨⟨hg.strict.trans hgrow.strict.symm, ?_, ?_⟩, (g.full_properties pending properties).symm,
    hpend.symm, hg.limit.trans hgrow.limit.symm, ?_, ?_, ?_, ?_⟩
  · exact congrArg Entity.id (hf.entity.trans hentity.symm)
  · exact congrArg Entity.typePath (hf.entity.trans hentity.symm)
  · rintro e ⟨f, hff, he⟩ c hchild
    exact ⟨f, hff, Expression.parts_subset he (Expression.mem_parts_of_child hchild)⟩
  · intro name f hp
    rw [hpend] at hp
    exact ⟨f, hpending name f hp, f.mem_parts_self⟩
  · rintro id ⟨f, hff, hpart⟩
    exact serves_reference hk hf hc ht hff hpart
  · rintro o name ⟨f, hff, hpart⟩ v hv id hmem
    exact serves_member hk hf hc hproperties ht hff hpart hv hmem

end Serving

end Gathering

end EntityFormulas
