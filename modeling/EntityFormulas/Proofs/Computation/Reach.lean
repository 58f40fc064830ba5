/-
  EntityFormulas/Proofs/Computation/Reach.lean
  ============================================
  **What gathering fetches.**

  `TenantTable.walk` says, without any fetching, where the steps of a traversal
  lead.  A gathered context agrees with the table it was fetched from wherever
  it knows something (`Faithful`), and it knows at least the entities named by
  the formulas, the sources of inherited properties and every entity that a
  traversal comes to within the depth; where a traversal finds that an entity
  lacks a property, it knows the relationships of the entity as well
  (`gather_covers`).
-/
import EntityFormulas.Computation.Gathering
import EntityFormulas.Proofs.Store.Answers

namespace EntityFormulas

/-! ### Tables as gathering sees them -/

namespace TenantTable

/-- Every entity stands under its own id. -/
def Keyed (t : TenantTable) : Prop := ∀ id e, t.entities.get? id = some e → e.id = id

variable (t : TenantTable) (own : Entity)

/-- The entity with that id; `own` takes the place of the one in the table. -/
def known (id : String) : Option Entity := if id = own.id then some own else t.entities.get? id

/-- The relationships of an entity, if it has any. -/
def related (id : String) : Option Relationships :=
  if (t.relationshipsOf id).isEmpty then none else some (t.relationshipsOf id)

/-- Whether an entity has no property of that name, so that only a relationship can lead on. -/
def Lacks (id name : String) : Prop := (t.known own id).bind (·.property? name) = none

/-- The entities that a step leads to: along the property if the entity has it, and along the
    relationship if not. -/
def step (name id : String) : List String :=
  match (t.known own id).bind (·.property? name) with
  | some p => (p.current.map Value.targets).getD []
  | none => ((t.relationshipsOf id).get? name).getD []

/-- The entities that steps one after another lead to. -/
def walk : (nodes hops : List String) → List String
  | nodes, [] => nodes
  | nodes, hop :: rest => walk (nodes.flatMap (t.step own hop)) rest

variable {t own}

theorem walk_mono {nodes nodes' : List String} (h : nodes ⊆ nodes') (hops : List String) :
    t.walk own nodes hops ⊆ t.walk own nodes' hops := by
  induction hops generalizing nodes nodes' with
  | nil => exact h
  | cons hop rest ih =>
    refine ih fun id hid => ?_
    obtain ⟨node, hnode, hstep⟩ := List.mem_flatMap.1 hid
    exact List.mem_flatMap.2 ⟨node, h hnode, hstep⟩

theorem walk_nil (hops : List String) : t.walk own [] hops = [] := by
  induction hops with
  | nil => rfl
  | cons hop rest ih => exact ih

theorem get?_of_related {id : String} {r : Relationships} (h : t.related id = some r)
    (name : String) : r.get? name = (t.relationshipsOf id).get? name := by
  unfold related at h
  split at h
  · exact nomatch h
  · cases h
    rfl

theorem get?_of_not_related {id : String} (h : t.related id = none) (name : String) :
    (t.relationshipsOf id).get? name = none := by
  unfold related at h
  split at h
  · rename_i he
    exact Dict.get?_of_isEmpty he name
  · exact nomatch h

end TenantTable

/-! ### Contexts that agree with a table -/

namespace EvaluationContext

/-- What the context knows is in the table. -/
structure Faithful (t : TenantTable) (own : Entity) (ctx : EvaluationContext) : Prop where
  entity : ctx.entity = own
  entities : ∀ id e, ctx.entities.get? id = some e → t.entities.get? id = some e
  relationships : ∀ id r, ctx.relationships.get? id = some r → t.related id = some r

/-- The second context differs from the first by more entities and relationships only. -/
structure Grows (ctx ctx' : EvaluationContext) : Prop where
  entity : ctx'.entity = ctx.entity
  properties : ctx'.properties = ctx.properties
  pending : ctx'.pending = ctx.pending
  strict : ctx'.strict = ctx.strict
  limit : ctx'.recursionLimit = ctx.recursionLimit
  entities : ∀ id, (ctx.entities.get? id).isSome → (ctx'.entities.get? id).isSome
  relationships : ∀ id, (ctx.relationships.get? id).isSome → (ctx'.relationships.get? id).isSome

/-- The context knows of the entity what the table does. -/
def Knows (t : TenantTable) (own : Entity) (ctx : EvaluationContext) (id : String) : Prop :=
  ctx.entity? id = t.known own id

/-- The context knows the relationships of the entity. -/
def Relates (t : TenantTable) (ctx : EvaluationContext) (id : String) : Prop :=
  ctx.relationships.get? id = t.related id

theorem Grows.refl (ctx : EvaluationContext) : ctx.Grows ctx :=
  ⟨rfl, rfl, rfl, rfl, rfl, fun _ h => h, fun _ h => h⟩

theorem Grows.trans {a b c : EvaluationContext} (h : a.Grows b) (h' : b.Grows c) : a.Grows c where
  entity := h'.entity.trans h.entity
  properties := h'.properties.trans h.properties
  pending := h'.pending.trans h.pending
  strict := h'.strict.trans h.strict
  limit := h'.limit.trans h.limit
  entities id hid := h'.entities id (h.entities id hid)
  relationships id hid := h'.relationships id (h.relationships id hid)

section Agreement

variable {t : TenantTable} {own : Entity} {ctx ctx' : EvaluationContext}

theorem Faithful.entity?_eq (h : Faithful t own ctx) (id : String) :
    ctx.entity? id = if id = own.id then some own else ctx.entities.get? id := by
  unfold entity?
  rw [h.entity]

theorem Faithful.knows_iff (h : Faithful t own ctx) {id : String} :
    Knows t own ctx id ↔
      id = own.id ∨ t.entities.get? id = none ∨ (ctx.entities.get? id).isSome := by
  unfold Knows TenantTable.known
  rw [h.entity?_eq]
  by_cases hid : id = own.id
  · rw [if_pos hid, if_pos hid]
    exact ⟨fun _ => .inl hid, fun _ => rfl⟩
  · rw [if_neg hid, if_neg hid]
    constructor
    · intro heq
      rw [heq]
      cases t.entities.get? id with
      | none => exact .inr (.inl rfl)
      | some e => exact .inr (.inr rfl)
    · rintro (heq | hnone | hsome)
      · exact absurd heq hid
      · rw [hnone]
        cases hctx : ctx.entities.get? id with
        | none => rfl
        | some e => exact absurd (h.entities id e hctx) (by rw [hnone]; exact nofun)
      · obtain ⟨e, he⟩ := Option.isSome_iff_exists.1 hsome
        rw [he, h.entities id e he]

theorem Faithful.relates_iff (h : Faithful t own ctx) {id : String} :
    Relates t ctx id ↔ t.related id = none ∨ (ctx.relationships.get? id).isSome := by
  unfold Relates
  constructor
  · intro heq
    rw [heq]
    cases t.related id with
    | none => exact .inl rfl
    | some r => exact .inr rfl
  · rintro (hnone | hsome)
    · rw [hnone]
      cases hctx : ctx.relationships.get? id with
      | none => rfl
      | some r => exact absurd (h.relationships id r hctx) (by rw [hnone]; exact nofun)
    · obtain ⟨r, hr⟩ := Option.isSome_iff_exists.1 hsome
      rw [hr, h.relationships id r hr]

theorem Knows.grow {id : String} (h : Faithful t own ctx) (h' : Faithful t own ctx')
    (hg : ctx.Grows ctx') (hk : Knows t own ctx id) : Knows t own ctx' id := by
  rcases h.knows_iff.1 hk with heq | hnone | hsome
  · exact h'.knows_iff.2 (.inl heq)
  · exact h'.knows_iff.2 (.inr (.inl hnone))
  · exact h'.knows_iff.2 (.inr (.inr (hg.entities id hsome)))

theorem Relates.grow {id : String} (h : Faithful t own ctx) (h' : Faithful t own ctx')
    (hg : ctx.Grows ctx') (hr : Relates t ctx id) : Relates t ctx' id := by
  rcases h.relates_iff.1 hr with hnone | hsome
  · exact h'.relates_iff.2 (.inl hnone)
  · exact h'.relates_iff.2 (.inr (hg.relationships id hsome))

end Agreement

/-! ### Fetching -/

section Fetching

variable {acceptable : {γ : Type} → Except StoreError γ → Prop}

theorem withEntity_grows (ctx : EvaluationContext) (e : Entity) : ctx.Grows (ctx.withEntity e) where
  entity := rfl
  properties := rfl
  pending := rfl
  strict := rfl
  limit := rfl
  entities id h := by
    show ((ctx.entities.insert e.id e).get? id).isSome
    rw [Dict.get?_insert]
    split
    · rfl
    · exact h
  relationships _ h := h

theorem foldl_withEntity_grows (found : List Entity) (ctx : EvaluationContext) :
    ctx.Grows (found.foldl withEntity ctx) := by
  induction found generalizing ctx with
  | nil => exact .refl ctx
  | cons e rest ih => exact (withEntity_grows ctx e).trans (ih _)

theorem withRelationships_grows (ctx : EvaluationContext) (id : String) (r : Relationships) :
    ctx.Grows (ctx.withRelationships id r) := by
  unfold withRelationships
  split
  · exact .refl ctx
  · refine ⟨rfl, rfl, rfl, rfl, rfl, fun _ h => h, fun id' h => ?_⟩
    show ((ctx.relationships.insert id r).get? id').isSome
    rw [Dict.get?_insert]
    split
    · rfl
    · exact h

theorem fetchMissing_grows (ctx : EvaluationContext) (ids : List String) :
    Fetch.Always acceptable ctx.Grows (ctx.fetchMissing ids) := by
  unfold fetchMissing
  split
  · exact Fetch.always_pure (.refl ctx)
  · refine Fetch.always_bind (Fetch.always_entities _ _ fun found _ => ?_)
    exact Fetch.always_pure (foldl_withEntity_grows found ctx)

theorem fetchRelationships_grows (ctx : EvaluationContext) (ids : List String) :
    Fetch.Always acceptable ctx.Grows (ctx.fetchRelationships ids) := by
  induction ids generalizing ctx with
  | nil => exact Fetch.always_pure (.refl ctx)
  | cons id rest ih =>
    refine Fetch.always_bind (Fetch.always_relationships _ _ fun r _ => ?_)
    refine Lookup.Always.mono (fun x hx ctx' hctx' => ?_) (ih (ctx.withRelationships id r))
    exact (withRelationships_grows ctx id r).trans (hx ctx' hctx')

theorem follow_grows (depth : Nat) (asked tail : List String) (trails : List Trail)
    (ctx : EvaluationContext) :
    Fetch.Always acceptable ctx.Grows (Trail.follow depth asked tail trails ctx) := by
  induction depth generalizing asked tail trails ctx with
  | zero => exact fetchMissing_grows ctx _
  | succ depth ih =>
    cases trails with
    | nil => exact fetchMissing_grows ctx _
    | cons tr rest =>
      refine Fetch.always_bind (Lookup.Always.mono (fun x hx ctx₁ h₁ => ?_) (fetchMissing_grows ctx _))
      have hg₁ := hx ctx₁ h₁
      refine Fetch.always_bind (Lookup.Always.mono (fun y hy ctx₂ h₂ => ?_)
        (fetchRelationships_grows ctx₁ _))
      have hg₂ := hy ctx₂ h₂
      refine Lookup.Always.mono (fun z hz ctx₃ h₃ => ?_) (ih _ _ _ ctx₂)
      exact hg₁.trans (hg₂.trans (hz ctx₃ h₃))

/-- Whatever the store answers, a gathered context is the entity's own one with more entities and
    relationships. -/
theorem gather_grows (settings : Settings) (e : Entity) (formulas : List Expression) :
    Fetch.Always acceptable (ofEntity settings e).Grows (gather settings e formulas) := by
  refine Fetch.always_bind (Lookup.Always.mono (fun x hx ctx₁ h₁ => ?_) (fetchMissing_grows _ _))
  have hg₁ := hx ctx₁ h₁
  refine Lookup.Always.mono (fun y hy ctx₂ h₂ => ?_) (follow_grows _ _ _ _ ctx₁)
  exact hg₁.trans (hy ctx₂ h₂)

end Fetching

/-! ### Contexts from a store that answers -/

theorem fetchMissing_yields (ctx : EvaluationContext) (ids : List String) :
    (ctx.fetchMissing ids).Yields fun _ => True := by
  unfold fetchMissing
  split
  · exact Fetch.yields_pure trivial
  · apply (Fetch.yields_entities _ _).bind
    intro found _
    exact Fetch.yields_pure trivial

theorem fetchRelationships_yields (ctx : EvaluationContext) (ids : List String) :
    (ctx.fetchRelationships ids).Yields fun _ => True := by
  induction ids generalizing ctx with
  | nil => exact Fetch.yields_pure trivial
  | cons id rest ih =>
    apply (Fetch.yields_relationships _ _).bind
    intro r _
    exact ih _

theorem follow_yields (depth : Nat) (asked tail : List String) (trails : List Trail)
    (ctx : EvaluationContext) :
    (Trail.follow depth asked tail trails ctx).Yields fun _ => True := by
  induction depth generalizing asked tail trails ctx with
  | zero => exact fetchMissing_yields ctx _
  | succ depth ih =>
    cases trails with
    | nil => exact fetchMissing_yields ctx _
    | cons tr rest =>
      apply (fetchMissing_yields ctx _).bind
      intro ctx₁ _
      apply (fetchRelationships_yields ctx₁ _).bind
      intro ctx₂ _
      exact ih _ _ _ _

/-- A store that answers yields a context that is the entity's own one with more in it. -/
theorem gather_yields (settings : Settings) (e : Entity) (formulas : List Expression) :
    (gather settings e formulas).Yields (ofEntity settings e).Grows := by
  have hyields : (gather settings e formulas).Yields fun _ => True := by
    apply (fetchMissing_yields _ _).bind
    intro ctx _
    exact follow_yields _ _ _ _ _
  apply Lookup.Always.mono _ (hyields.and (gather_grows settings e formulas))
  rintro r ⟨⟨ctx, rfl, _⟩, hgrows⟩
  exact ⟨ctx, rfl, hgrows ctx rfl⟩

/-! ### Fetching from a table -/

section Table

variable {tables : String → TenantTable} {t : TenantTable} {own : Entity}
  {ctx : EvaluationContext}

theorem mem_entities_of_foldl {found : List Entity} {ctx : EvaluationContext} {id : String}
    {e : Entity} (h : (found.foldl withEntity ctx).entities.get? id = some e) :
    (e ∈ found ∧ e.id = id) ∨ ctx.entities.get? id = some e := by
  induction found generalizing ctx with
  | nil => exact .inr h
  | cons x rest ih =>
    rcases ih h with ⟨he, hid⟩ | he
    · exact .inl ⟨List.mem_cons_of_mem _ he, hid⟩
    · have he : (ctx.entities.insert x.id x).get? id = some e := he
      rw [Dict.get?_insert] at he
      split at he
      · rename_i hx
        cases he
        exact .inl ⟨List.mem_cons_self, hx⟩
      · exact .inr he

theorem isSome_entities_of_mem {found : List Entity} {e : Entity} (h : e ∈ found)
    (ctx : EvaluationContext) : ((found.foldl withEntity ctx).entities.get? e.id).isSome := by
  induction found generalizing ctx with
  | nil => exact absurd h List.not_mem_nil
  | cons x rest ih =>
    rcases List.mem_cons.1 h with rfl | h
    · refine (foldl_withEntity_grows rest (ctx.withEntity e)).entities e.id ?_
      show ((ctx.entities.insert e.id e).get? e.id).isSome
      rw [Dict.get?_insert_self]
      rfl
    · exact ih h _

theorem relationships_foldl_withEntity (found : List Entity) (ctx : EvaluationContext) :
    (found.foldl withEntity ctx).relationships = ctx.relationships := by
  induction found generalizing ctx with
  | nil => rfl
  | cons x rest ih => exact ih _

/-- Fetching makes entities known, and what it adds is in the table. -/
theorem fetchMissing_answer (ht : tables own.tenant = t) (hk : t.Keyed)
    (hf : Faithful t own ctx) (ids : List String) :
    ∃ ctx', (ctx.fetchMissing ids).answer tables = .ok ctx' ∧ ctx.Grows ctx' ∧
      Faithful t own ctx' ∧ ∀ id ∈ ids, Knows t own ctx' id := by
  have hmissing (id : String) (hid : id ∈ ids) (hno : id ∉ ctx.missing ids) :
      Knows t own ctx id := by
    rw [hf.knows_iff]
    have hsome : (ctx.entity? id).isSome := by
      cases he : ctx.entity? id with
      | some e => rfl
      | none =>
        refine absurd (List.mem_filter.2 ⟨mem_ascending.2 hid, ?_⟩) hno
        rw [he]
        rfl
    rw [hf.entity?_eq] at hsome
    split at hsome
    · rename_i heq
      exact .inl heq
    · exact .inr (.inr hsome)
  unfold fetchMissing
  split
  · rename_i hnil
    exact ⟨ctx, rfl, .refl ctx, hf, fun id hid => hmissing id hid (by rw [hnil]; exact List.not_mem_nil)⟩
  · have hgrow := foldl_withEntity_grows (t.fetch (ctx.missing ids)) ctx
    have hf' : Faithful t own ((t.fetch (ctx.missing ids)).foldl withEntity ctx) := by
      refine ⟨hgrow.entity.trans hf.entity, fun id e he => ?_, fun id r hr => ?_⟩
      · rcases mem_entities_of_foldl he with ⟨hmem, heid⟩ | he
        · obtain ⟨id', _, hget⟩ := List.mem_filterMap.1 hmem
          rw [← heid, hk id' e hget]
          exact hget
        · exact hf.entities id e he
      · rw [relationships_foldl_withEntity] at hr
        exact hf.relationships id r hr
    refine ⟨(t.fetch (ctx.missing ids)).foldl withEntity ctx, ?_, hgrow, hf', fun id hid => ?_⟩
    · rw [← ht, ← hf.entity]
      rfl
    · by_cases hmem : id ∈ ctx.missing ids
      · rw [hf'.knows_iff]
        cases hget : t.entities.get? id with
        | none => exact .inr (.inl rfl)
        | some e =>
          have hfetched : e ∈ t.fetch (ctx.missing ids) := List.mem_filterMap.2 ⟨id, hmem, hget⟩
          have hsome := isSome_entities_of_mem hfetched ctx
          rw [hk id e hget] at hsome
          exact .inr (.inr hsome)
      · exact (hmissing id hid hmem).grow hf hf' hgrow

theorem relationshipsOf_eq_of_withRelationships {id id' : String} {r r' : Relationships}
    (h : (ctx.withRelationships id r).relationships.get? id' = some r') :
    (id = id' ∧ r = r' ∧ r.isEmpty = false) ∨ ctx.relationships.get? id' = some r' := by
  unfold withRelationships at h
  split at h
  · exact .inr h
  · rename_i hne
    have h : (ctx.relationships.insert id r).get? id' = some r' := h
    rw [Dict.get?_insert] at h
    split at h
    · rename_i heq
      cases h
      exact .inl ⟨heq, rfl, Bool.eq_false_iff.2 hne⟩
    · exact .inr h

theorem withRelationships_faithful (hf : Faithful t own ctx) (id : String) :
    Faithful t own (ctx.withRelationships id (t.relationshipsOf id)) := by
  have hgrow := withRelationships_grows ctx id (t.relationshipsOf id)
  refine ⟨hgrow.entity.trans hf.entity, fun id' e he => ?_, fun id' r hr => ?_⟩
  · unfold withRelationships at he
    split at he
    · exact hf.entities id' e he
    · exact hf.entities id' e he
  · rcases relationshipsOf_eq_of_withRelationships hr with ⟨rfl, rfl, hne⟩ | hr
    · unfold TenantTable.related
      rw [hne]
      rfl
    · exact hf.relationships id' r hr

theorem withRelationships_relates (hf : Faithful t own ctx) (id : String) :
    Relates t (ctx.withRelationships id (t.relationshipsOf id)) id := by
  rw [(withRelationships_faithful hf id).relates_iff]
  unfold withRelationships TenantTable.related
  split
  · exact .inl rfl
  · refine .inr ?_
    show ((ctx.relationships.insert id _).get? id).isSome
    rw [Dict.get?_insert_self]
    rfl

theorem fetchRelationships_answer (ht : tables own.tenant = t) (hf : Faithful t own ctx)
    (ids : List String) :
    ∃ ctx', (ctx.fetchRelationships ids).answer tables = .ok ctx' ∧ ctx.Grows ctx' ∧
      Faithful t own ctx' ∧ ∀ id ∈ ids, Relates t ctx' id := by
  induction ids generalizing ctx with
  | nil => exact ⟨ctx, rfl, .refl ctx, hf, fun id hid => absurd hid List.not_mem_nil⟩
  | cons id rest ih =>
    have hf₁ := withRelationships_faithful hf id
    obtain ⟨ctx', hans, hgrow, hf', hrel⟩ := ih hf₁
    refine ⟨ctx', ?_, (withRelationships_grows ctx id _).trans hgrow, hf', fun id' hid => ?_⟩
    · rw [← hans, fetchRelationships, Fetch.answer_bind_ok (a := t.relationshipsOf id)]
      rw [← ht, ← hf.entity]
      rfl
    · rcases List.mem_cons.1 hid with rfl | hid
      · exact (withRelationships_relates hf id').grow hf₁ hf' hgrow
      · exact hrel id' hid

/-! ### Trails -/

theorem hasProperty_eq_false_of_lacks {id name : String} (hknown : Knows t own ctx id)
    (hlacks : t.Lacks own id name) : ctx.hasProperty id name = false := by
  have hentity : ctx.entity? id = t.known own id := hknown
  unfold hasProperty
  rw [hentity]
  unfold TenantTable.Lacks at hlacks
  cases hk : t.known own id with
  | none => rfl
  | some e =>
    rw [hk] at hlacks
    show (e.properties.get? name).isSome = false
    have hnone : e.properties.get? name = none := hlacks
    rw [hnone]
    rfl

/-- The next step of a trail whose entities are known, and their relationships where needed, leads
    at least as far as in the table. -/
theorem step_subset_reached {tr : Trail}
    (hnodes : ∀ id ∈ tr.nodes, Knows t own ctx id)
    (hrel : ∀ id ∈ tr.nodes, t.Lacks own id tr.step → Relates t ctx id) :
    tr.nodes.flatMap (t.step own tr.step) ⊆ tr.reached ctx := by
  intro id hid
  obtain ⟨node, hnode, hstep⟩ := List.mem_flatMap.1 hid
  refine mem_ascending.2 (List.mem_flatMap.2 ⟨node, hnode, ?_⟩)
  have hknown : ctx.entity? node = t.known own node := hnodes node hnode
  unfold TenantTable.step at hstep
  unfold stepTargets
  rw [hknown]
  cases hp : (t.known own node).bind (·.property? tr.step) with
  | some p =>
    rw [hp] at hstep
    dsimp only at hstep
    cases hv : p.current with
    | none =>
      rw [hv] at hstep
      exact absurd hstep List.not_mem_nil
    | some v =>
      rw [hv] at hstep
      dsimp only [Option.bind_some]
      rw [hv]
      exact hstep
  | none =>
    rw [hp] at hstep
    have hr : ctx.relationships.get? node = t.related node := hrel node hnode hp
    rw [Option.bind_none]
    unfold targets?
    rw [hr]
    cases hrelated : t.related node with
    | none =>
      rw [TenantTable.get?_of_not_related hrelated] at hstep
      exact absurd hstep List.not_mem_nil
    | some r =>
      rw [Option.bind_some, TenantTable.get?_of_related hrelated]
      exact hstep

/-- What following trails makes known: every entity on the way, and its relationships where it
    lacks the property of a step that is made. -/
structure Covers (t : TenantTable) (own : Entity) (depth : Nat) (tr : Trail)
    (ctx : EvaluationContext) : Prop where
  knows : ∀ before after id, tr.step :: tr.rest = before ++ after → before.length ≤ depth →
    id ∈ t.walk own tr.nodes before → Knows t own ctx id
  relates : ∀ before name after id, tr.step :: tr.rest = before ++ name :: after →
    before.length < depth → id ∈ t.walk own tr.nodes before → t.Lacks own id name →
    Relates t ctx id

/-- The first step of a trail, and then what the advanced trail covers. -/
theorem Covers.of_advance {depth : Nat} {tr : Trail} {ctx' : EvaluationContext}
    (hnodes : ∀ id ∈ tr.nodes, Knows t own ctx' id)
    (hrel : ∀ id ∈ tr.nodes, t.Lacks own id tr.step → Relates t ctx' id)
    (hreached : tr.nodes.flatMap (t.step own tr.step) ⊆ tr.reached ctx)
    (hends : ∀ id ∈ tr.ends ctx, Knows t own ctx' id)
    (hadv : ∀ tr', tr.advance? ctx = some tr' → Covers t own depth tr' ctx') :
    Covers t own (depth + 1) tr ctx' := by
  have hnext {before after : List String} {id : String} (hrest : tr.rest = before ++ after)
      (hid : id ∈ t.walk own (tr.nodes.flatMap (t.step own tr.step)) before) :
      (before = [] ∧ after = [] ∧ id ∈ tr.ends ctx) ∨
        ∃ tr', tr.advance? ctx = some tr' ∧ tr'.step :: tr'.rest = before ++ after ∧
          id ∈ t.walk own tr'.nodes before := by
    have hid' := TenantTable.walk_mono hreached before hid
    cases hr : tr.rest with
    | nil =>
      obtain ⟨hb, ha⟩ := List.append_eq_nil_iff.1 (hrest.symm.trans hr)
      subst hb
      refine .inl ⟨rfl, ha, ?_⟩
      unfold Trail.ends
      rw [hr]
      exact hid'
    | cons step rest =>
      cases hn : tr.reached ctx with
      | nil =>
        rw [hn, TenantTable.walk_nil] at hid'
        exact absurd hid' List.not_mem_nil
      | cons node nodes =>
        rw [hn] at hid'
        refine .inr ⟨⟨node :: nodes, step, rest⟩, ?_, hr.symm.trans hrest, hid'⟩
        unfold Trail.advance?
        rw [hr, hn]
  constructor
  · intro before after id hsplit hlen hid
    cases before with
    | nil => exact hnodes id hid
    | cons hop before =>
      obtain ⟨hhop, hrest⟩ := List.cons.inj hsplit
      subst hhop
      rcases hnext hrest hid with ⟨_, _, hend⟩ | ⟨tr', htr', hsplit', hid'⟩
      · exact hends id hend
      · exact (hadv tr' htr').knows before after id hsplit' (Nat.le_of_succ_le_succ hlen) hid'
  · intro before name after id hsplit hlen hid hlacks
    cases before with
    | nil =>
      obtain ⟨hname, _⟩ := List.cons.inj hsplit
      subst hname
      exact hrel id hid hlacks
    | cons hop before =>
      obtain ⟨hhop, hrest⟩ := List.cons.inj hsplit
      subst hhop
      rcases hnext hrest hid with ⟨_, hnil, _⟩ | ⟨tr', htr', hsplit', hid'⟩
      · exact nomatch hnil
      · exact (hadv tr' htr').relates before name after id hsplit' (Nat.lt_of_succ_lt_succ hlen) hid'
          hlacks

theorem follow_answer (ht : tables own.tenant = t) (hk : t.Keyed) (hf : Faithful t own ctx)
    (depth : Nat) {asked : List String} (tail : List String) (trails : List Trail)
    (hasked : ∀ id ∈ asked, Relates t ctx id) :
    ∃ ctx', (Trail.follow depth asked tail trails ctx).answer tables = .ok ctx' ∧ ctx.Grows ctx' ∧
      Faithful t own ctx' ∧ (∀ id ∈ tail, Knows t own ctx' id) ∧
      ∀ tr ∈ trails, Covers t own depth tr ctx' := by
  induction depth generalizing asked tail trails ctx with
  | zero =>
    obtain ⟨ctx', hans, hgrow, hf', hknows⟩ :=
      fetchMissing_answer ht hk hf (tail ++ trails.flatMap Trail.nodes)
    refine ⟨ctx', hans, hgrow, hf', fun id hid => hknows id (List.mem_append_left _ hid), ?_⟩
    intro tr htr
    refine ⟨fun before after id _ hlen hid => ?_, fun _ _ _ _ _ hlen => absurd hlen (Nat.not_lt_zero _)⟩
    rw [List.length_eq_zero_iff.1 (Nat.le_zero.1 hlen)] at hid
    exact hknows id (List.mem_append_right _ (List.mem_flatMap.2 ⟨tr, htr, hid⟩))
  | succ depth ih =>
    cases trails with
    | nil =>
      obtain ⟨ctx', hans, hgrow, hf', hknows⟩ := fetchMissing_answer ht hk hf tail
      exact ⟨ctx', hans, hgrow, hf', hknows, fun tr htr => absurd htr List.not_mem_nil⟩
    | cons tr₀ rest =>
      generalize htrails : tr₀ :: rest = trails
      obtain ⟨ctx₁, hans₁, hgrow₁, hf₁, hknows₁⟩ :=
        fetchMissing_answer ht hk hf (trails.flatMap Trail.nodes)
      let ids := (ascending (trails.flatMap (Trail.unowned ctx₁))).filter fun id => id ∉ asked
      obtain ⟨ctx₂, hans₂, hgrow₂, hf₂, hrel₂⟩ := fetchRelationships_answer ht hf₁ ids
      have hasked₂ : ∀ id ∈ asked ++ ids, Relates t ctx₂ id := by
        intro id hid
        rcases List.mem_append.1 hid with hid | hid
        · exact (hasked id hid).grow hf hf₂ (hgrow₁.trans hgrow₂)
        · exact hrel₂ id hid
      obtain ⟨ctx', hans, hgrow, hf', htail, hcovers⟩ :=
        ih hf₂ (tail ++ trails.flatMap (Trail.ends ctx₂)) (trails.filterMap (Trail.advance? ctx₂))
          hasked₂
      have hgrow₂' := hgrow₂.trans hgrow
      refine ⟨ctx', ?_, hgrow₁.trans hgrow₂', hf', fun id hid => htail id (List.mem_append_left _ hid),
        fun tr htr => ?_⟩
      · subst htrails
        rw [← hans, Trail.follow, Fetch.answer_bind_ok hans₁, Fetch.answer_bind_ok hans₂]
        exact nofun
      · have hnodes₁ : ∀ id ∈ tr.nodes, Knows t own ctx₁ id := fun id hid =>
          hknows₁ id (List.mem_flatMap.2 ⟨tr, htr, hid⟩)
        -- an entity without the property is among those whose relationships are fetched
        have hrel : ∀ id ∈ tr.nodes, t.Lacks own id tr.step → Relates t ctx₂ id := by
          intro id hid hlacks
          refine hasked₂ id ?_
          by_cases hold : id ∈ asked
          · exact List.mem_append_left _ hold
          · refine List.mem_append_right _ (List.mem_filter.2 ⟨?_, decide_eq_true hold⟩)
            refine mem_ascending.2 (List.mem_flatMap.2 ⟨tr, htr, List.mem_filter.2 ⟨hid, ?_⟩⟩)
            rw [hasProperty_eq_false_of_lacks (hnodes₁ id hid) hlacks]
            rfl
        have hnodes₂ : ∀ id ∈ tr.nodes, Knows t own ctx₂ id := fun id hid =>
          (hnodes₁ id hid).grow hf₁ hf₂ hgrow₂
        refine Covers.of_advance (fun id hid => (hnodes₂ id hid).grow hf₂ hf' hgrow)
          (fun id hid hlacks => (hrel id hid hlacks).grow hf₂ hf' hgrow)
          (step_subset_reached hnodes₂ hrel) (fun id hid => ?_) (fun tr' htr' => ?_)
        · exact htail id (List.mem_append_right _ (List.mem_flatMap.2 ⟨tr, htr, hid⟩))
        · exact hcovers tr' (List.mem_filterMap.2 ⟨tr, htr, htr'⟩)

/-! ### Gathered contexts -/

/-- What the traversals of formulas come to within the depth. -/
structure CoversTraversals (t : TenantTable) (own : Entity) (depth : Nat)
    (formulas : List Expression) (ctx : EvaluationContext) : Prop where
  direct : ∀ id ∈ own.directIds formulas, Knows t own ctx id
  trails : ∀ f ∈ formulas, ∀ tr ∈ f.traversals, ∀ start, Trail.start? own tr = some start →
    Covers t own depth start ctx

/-- What gathering from a table gives: the entity's own context with more in it, which agrees with
    the table and covers all traversals. -/
structure Gathered (t : TenantTable) (settings : Settings) (own : Entity)
    (formulas : List Expression) (ctx : EvaluationContext) : Prop where
  grows : (ofEntity settings own).Grows ctx
  faithful : Faithful t own ctx
  covers : CoversTraversals t own settings.maxDepth formulas ctx

theorem ofEntity_faithful (t : TenantTable) (own : Entity) (settings : Settings) :
    Faithful t own (ofEntity settings own) := ⟨rfl, fun _ _ h => (nomatch h), fun _ _ h => (nomatch h)⟩

theorem gather_covers (tables : String → TenantTable) (ht : tables own.tenant = t) (hk : t.Keyed)
    (settings : Settings) (formulas : List Expression) :
    ∃ ctx, (gather settings own formulas).answer tables = .ok ctx ∧
      Gathered t settings own formulas ctx := by
  obtain ⟨ctx₁, hans₁, hgrow₁, hf₁, hdirect⟩ :=
    fetchMissing_answer ht hk (ofEntity_faithful t own settings) (own.directIds formulas)
  obtain ⟨ctx₂, hans₂, hgrow₂, hf₂, _, hcovers⟩ :=
    follow_answer ht hk hf₁ settings.maxDepth []
      ((formulas.flatMap Expression.traversals).filterMap (Trail.start? own))
      fun id hid => absurd hid List.not_mem_nil
  refine ⟨ctx₂, ?_, hgrow₁.trans hgrow₂, hf₂, fun id hid => (hdirect id hid).grow hf₁ hf₂ hgrow₂,
    fun f hf tr htr start hstart => ?_⟩
  · rw [← hans₂, gather, Fetch.answer_bind_ok hans₁]
  · exact hcovers start (List.mem_filterMap.2 ⟨tr, List.mem_flatMap.2 ⟨f, hf, htr⟩, hstart⟩)

/-- An available store yields a context. -/
theorem exists_gathered {s : MemoryStore} (hs : s.available = true) (settings : Settings) (e : Entity)
    (hk : (s.table e.tenant).Keyed) (formulas : List Expression) :
    ∃ ctx, ((gather settings e formulas).run.run MemoryStore.store s).1 = .ok ctx ∧
      Gathered (s.table e.tenant) settings e formulas ctx := by
  obtain ⟨ctx, hans, hg⟩ := gather_covers s.table rfl hk settings formulas
  exact ⟨ctx, (Lookup.run_memory hs _).1.trans hans, hg⟩

end Table

end EvaluationContext

end EntityFormulas
