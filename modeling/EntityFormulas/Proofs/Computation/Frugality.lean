/-
  EntityFormulas/Proofs/Computation/Frugality.lean
  ================================================
  **What gathering asks a store for.**

  All traversals of an entity's formulas advance together and share one context.
  What a part of gathering asks for is told by its calls (`Fetch.tableReads`):
  they name only entities that the context did not know before and knows
  afterwards (`Asks`), so parts that follow one another never ask twice.

  `TenantTable.trace` says how far a traversal may lead.  It follows more
  relationships than `TenantTable.walk`: also those of an entity whose property
  has no value.  Gathering asks for nothing outside of it, and knows at the end
  whatever is on a walk (`gather_frugal`).
-/
import EntityFormulas.Proofs.Computation.Chains
import EntityFormulas.Proofs.Store.Operations
import EntityFormulas.Proofs.Store.Reads

namespace EntityFormulas

theorem ascending_nodup (ids : List String) : (ascending ids).Nodup :=
  (ascending_pairwise ids).imp fun h heq => absurd (heq ▸ h) (String.lt_irrefl _)

/-! ### How far traversals may lead -/

namespace TenantTable

variable (t : TenantTable) (own : Entity)

/-- The entities that a step may lead to: along the property if it has a value, and along the
    relationship if not. -/
def lead (name id : String) : List String :=
  match ((t.known own id).bind (·.property? name)).bind Property.current with
  | some v => v.targets
  | none => ((t.relationshipsOf id).get? name).getD []

/-- The entities that steps one after another may lead to. -/
def trace (nodes hops : List String) : List String :=
  hops.foldl (fun nodes hop => nodes.flatMap (t.lead own hop)) nodes

variable {t own}

theorem trace_mono {nodes nodes' : List String} (h : nodes ⊆ nodes') (hops : List String) :
    t.trace own nodes hops ⊆ t.trace own nodes' hops := by
  induction hops generalizing nodes nodes' with
  | nil => exact h
  | cons hop rest ih =>
    refine ih fun id hid => ?_
    obtain ⟨node, hnode, hlead⟩ := List.mem_flatMap.1 hid
    exact List.mem_flatMap.2 ⟨node, h hnode, hlead⟩

end TenantTable

/-- The trail may come to the entity by some of its steps, with others still to make. -/
def Trail.Meets (t : TenantTable) (own : Entity) (tr : Trail) (before after : List String)
    (id : String) : Prop :=
  tr.step :: tr.rest = before ++ after ∧ id ∈ t.trace own tr.nodes before

namespace EvaluationContext

variable {tables : String → TenantTable} {t : TenantTable} {own : Entity}
  {ctx ctx' ctx'' : EvaluationContext} {log log' : List ReadCall}

/-- A trail leads no further than the table says. -/
theorem reached_subset (hf : Faithful t own ctx) {tr : Trail}
    (hnodes : ∀ id ∈ tr.nodes, Knows t own ctx id) :
    tr.reached ctx ⊆ tr.nodes.flatMap (t.lead own tr.step) := by
  intro id hid
  obtain ⟨node, hnode, htarget⟩ := List.mem_flatMap.1 (mem_ascending.1 hid)
  refine List.mem_flatMap.2 ⟨node, hnode, ?_⟩
  have hknown : ctx.entity? node = t.known own node := hnodes node hnode
  unfold stepTargets at htarget
  unfold TenantTable.lead
  rw [hknown] at htarget
  cases hv : ((t.known own node).bind (·.property? tr.step)).bind Property.current with
  | some v =>
    rw [hv] at htarget
    exact htarget
  | none =>
    rw [hv] at htarget
    dsimp only at htarget ⊢
    unfold targets? at htarget
    cases hr : ctx.relationships.get? node with
    | none =>
      rw [hr] at htarget
      exact nomatch htarget
    | some r =>
      rw [hr, Option.bind_some, TenantTable.get?_of_related (hf.relationships node r hr)] at htarget
      exact htarget

/-- What an advanced trail may come to, the trail may come to with one more step. -/
theorem meets_of_advance {tr tr' : Trail} (hadvance : tr.advance? ctx = some tr')
    (hreached : tr.reached ctx ⊆ tr.nodes.flatMap (t.lead own tr.step)) {before after : List String}
    {id : String} (h : tr'.Meets t own before after id) :
    tr.Meets t own (tr.step :: before) after id := by
  obtain ⟨hsplit, hid⟩ := h
  unfold Trail.advance? at hadvance
  split at hadvance
  · rename_i step rest node nodes hrest hnodes
    cases hadvance
    rw [hnodes] at hreached
    refine ⟨?_, TenantTable.trace_mono hreached before hid⟩
    rw [hrest, hsplit]
    rfl
  · exact nomatch hadvance

theorem meets_of_ends {tr : Trail}
    (hreached : tr.reached ctx ⊆ tr.nodes.flatMap (t.lead own tr.step)) {id : String}
    (h : id ∈ tr.ends ctx) : tr.Meets t own [tr.step] [] id := by
  unfold Trail.ends at h
  split at h
  · rename_i hrest
    exact ⟨by rw [List.isEmpty_iff.1 hrest]; rfl, hreached h⟩
  · exact nomatch h

/-! ### Asking for what is unknown -/

/-- What is asked for while one context becomes another one: entities that the first one does not
    know and the second one does, none of them twice, and nothing else is in the second one. -/
structure Asks (t : TenantTable) (own : Entity) (ctx : EvaluationContext) (log : List ReadCall)
    (ctx' : EvaluationContext) : Prop where
  grows : ctx.Grows ctx'
  faithful : Faithful t own ctx'
  tenant : ∀ c ∈ log, c.tenant = own.tenant
  unknown : ∀ id ∈ log.flatMap ReadCall.entityIds, ctx.entity? id = none
  known : ∀ id ∈ log.flatMap ReadCall.entityIds, Knows t own ctx' id
  once : ((log.flatMap ReadCall.entityIds).filter fun id => t.entities.contains id).Nodup
  only : ∀ id, (ctx'.entities.get? id).isSome →
    (ctx.entities.get? id).isSome ∨ id ∈ log.flatMap ReadCall.entityIds

theorem Grows.entity?_eq_none (h : ctx.Grows ctx') {id : String} (hid : ctx'.entity? id = none) :
    ctx.entity? id = none := by
  unfold entity? at hid ⊢
  rw [h.entity] at hid
  split at hid
  · exact nomatch hid
  · rename_i hne
    rw [if_neg hne]
    cases hget : ctx.entities.get? id with
    | none => rfl
    | some e =>
      have hsome := h.entities id (hget ▸ rfl)
      rw [hid] at hsome
      exact nomatch hsome

theorem Knows.isSome_of_contains {id : String} (h : Knows t own ctx id)
    (hid : t.entities.contains id = true) : (ctx.entity? id).isSome := by
  rw [show ctx.entity? id = t.known own id from h]
  unfold TenantTable.known
  split
  · rfl
  · exact hid

theorem Asks.trans (h : Asks t own ctx log ctx') (h' : Asks t own ctx' log' ctx'') :
    Asks t own ctx (log ++ log') ctx'' := by
  refine ⟨h.grows.trans h'.grows, h'.faithful,
    fun c hc => (List.mem_append.1 hc).elim (h.tenant c) (h'.tenant c), ?_, ?_, ?_, ?_⟩
  · intro id hid
    rw [List.flatMap_append] at hid
    rcases List.mem_append.1 hid with hid | hid
    · exact h.unknown id hid
    · exact h.grows.entity?_eq_none (h'.unknown id hid)
  · intro id hid
    rw [List.flatMap_append] at hid
    rcases List.mem_append.1 hid with hid | hid
    · exact (h.known id hid).grow h.faithful h'.faithful h'.grows
    · exact h'.known id hid
  · -- What was asked for first is known by then, and is not asked for again.
    rw [List.flatMap_append, List.filter_append]
    refine List.nodup_append.2 ⟨h.once, h'.once, ?_⟩
    rintro id hid _ hid' rfl
    obtain ⟨hmem, hcontains⟩ := List.mem_filter.1 hid
    have hsome := (h.known id hmem).isSome_of_contains hcontains
    rw [h'.unknown id (List.mem_filter.1 hid').1] at hsome
    exact nomatch hsome
  · intro id hid
    rw [List.flatMap_append, List.mem_append]
    rcases h'.only id hid with hid | hid
    · exact (h.only id hid).imp_right .inl
    · exact .inr (.inr hid)

/-- The calls that fetch entities: one for those that are not known, and none if all are. -/
theorem fetchMissing_reads (ids : List String) : (ctx.fetchMissing ids).tableReads tables =
    if ctx.missing ids = [] then [] else [.entities ctx.entity.tenant (ctx.missing ids)] := by
  unfold fetchMissing
  split
  · rename_i hnil
    rw [if_pos hnil]
    rfl
  · rename_i hne
    rw [if_neg hne]
    rfl

theorem entityIds_fetchMissing (ids : List String) :
    ((ctx.fetchMissing ids).tableReads tables).flatMap ReadCall.entityIds = ctx.missing ids := by
  rw [fetchMissing_reads]
  split
  · rename_i hnil
    rw [hnil]
    rfl
  · exact List.append_nil _

theorem relationshipIds_fetchMissing (ids : List String) :
    ((ctx.fetchMissing ids).tableReads tables).flatMap ReadCall.relationshipIds = [] := by
  rw [fetchMissing_reads]
  split <;> rfl

variable (tables ctx) in
theorem fetches_fetchMissing (ids : List String) :
    ((ctx.fetchMissing ids).tableReads tables).countP ReadCall.fetchesEntities ≤ 1 := by
  rw [fetchMissing_reads]
  split
  · exact Nat.zero_le 1
  · exact Nat.le_refl 1

theorem mem_of_mem_missing {ids : List String} {id : String} (h : id ∈ ctx.missing ids) :
    id ∈ ids := mem_ascending.1 (List.mem_filter.1 h).1

theorem fetchRelationships_reads (ids : List String) :
    (ctx.fetchRelationships ids).tableReads tables =
      ids.map (ReadCall.relationships ctx.entity.tenant) := by
  induction ids generalizing ctx with
  | nil => rfl
  | cons id rest ih =>
    have hrest := @ih (ctx.withRelationships id ((tables ctx.entity.tenant).relationshipsOf id))
    rw [(withRelationships_grows ctx id _).entity] at hrest
    exact congrArg (ReadCall.relationships ctx.entity.tenant id :: ·) hrest

theorem entities_fetchRelationships {ids : List String}
    (h : (ctx.fetchRelationships ids).answer tables = .ok ctx') : ctx'.entities = ctx.entities := by
  induction ids generalizing ctx with
  | nil =>
    cases h
    rfl
  | cons id rest ih =>
    refine (ih h).trans ?_
    unfold withRelationships
    split <;> rfl

section Parts

variable (ht : tables own.tenant = t) (hk : t.Keyed) (hf : Faithful t own ctx)
include ht hf

include hk

theorem fetchMissing_knows {ids : List String}
    (h : (ctx.fetchMissing ids).answer tables = .ok ctx') {id : String} (hid : id ∈ ids) :
    Knows t own ctx' id := by
  obtain ⟨ctx₁, hans, -, -, hknows⟩ := fetchMissing_answer ht hk hf ids
  cases hans.symm.trans h
  exact hknows id hid

theorem fetchMissing_asks {ids : List String}
    (h : (ctx.fetchMissing ids).answer tables = .ok ctx') :
    Asks t own ctx ((ctx.fetchMissing ids).tableReads tables) ctx' := by
  obtain ⟨ctx₁, hans, hgrows, hf', -⟩ := fetchMissing_answer ht hk hf ids
  cases hans.symm.trans h
  refine ⟨hgrows, hf', ?_, fun id hid => ?_, fun id hid => ?_, ?_, fun id hid => ?_⟩
  · rw [fetchMissing_reads]
    split
    · exact nofun
    · intro c hc
      rw [List.mem_singleton.1 hc, ← hf.entity]
      rfl
  · rw [entityIds_fetchMissing] at hid
    exact Option.isNone_iff_eq_none.1 (List.mem_filter.1 hid).2
  · rw [entityIds_fetchMissing] at hid
    exact fetchMissing_knows ht hk hf h (mem_of_mem_missing hid)
  · rw [entityIds_fetchMissing]
    exact ((ascending_nodup ids).filter _).filter _
  · rw [entityIds_fetchMissing]
    unfold fetchMissing at hans
    split at hans
    · cases hans
      exact .inl hid
    · cases hans
      obtain ⟨e, he⟩ := Option.isSome_iff_exists.1 hid
      rcases mem_entities_of_foldl he with ⟨hmem, rfl⟩ | he
      · rw [hf.entity, ht] at hmem
        obtain ⟨id', hid', hget⟩ := List.mem_filterMap.1 hmem
        rw [hk id' e hget]
        exact .inr hid'
      · exact .inl (Option.isSome_iff_exists.2 ⟨e, he⟩)

omit hk in
theorem fetchRelationships_asks {ids : List String}
    (h : (ctx.fetchRelationships ids).answer tables = .ok ctx') :
    Asks t own ctx ((ctx.fetchRelationships ids).tableReads tables) ctx' := by
  have hnone :
      ((ctx.fetchRelationships ids).tableReads tables).flatMap ReadCall.entityIds = [] := by
    rw [fetchRelationships_reads, List.flatMap_map]
    exact List.flatMap_eq_nil_iff.2 fun _ _ => rfl
  obtain ⟨ctx₁, hans, hgrows, hf', -⟩ := fetchRelationships_answer ht hf ids
  cases hans.symm.trans h
  refine ⟨hgrows, hf', fun c hc => ?_, ?_, ?_, ?_, fun id hid => .inl ?_⟩
  · rw [fetchRelationships_reads] at hc
    obtain ⟨id, -, rfl⟩ := List.mem_map.1 hc
    exact congrArg Entity.tenant hf.entity
  · rw [hnone]
    exact nofun
  · rw [hnone]
    exact nofun
  · rw [hnone]
    exact List.nodup_nil
  · rwa [entities_fetchRelationships h] at hid

end Parts

/-! ### Following trails -/

/-- What following trails asks for: entities that they come to within the depth, and the
    relationships of those that they go on from, if they have not been asked for. -/
structure Pursues (t : TenantTable) (own : Entity) (depth : Nat) (asked tail : List String)
    (trails : List Trail) (log : List ReadCall) : Prop where
  fetches : log.countP ReadCall.fetchesEntities ≤ depth + 1
  entities : ∀ id ∈ log.flatMap ReadCall.entityIds, id ∈ tail ∨
    ∃ tr ∈ trails, ∃ before after, tr.Meets t own before after id ∧ before.length ≤ depth
  relationships : ∀ id ∈ log.flatMap ReadCall.relationshipIds, id ∉ asked ∧
    ∃ tr ∈ trails, ∃ before name after,
      tr.Meets t own before (name :: after) id ∧ before.length < depth
  once : (log.flatMap ReadCall.relationshipIds).Nodup

/-- Fetching the ends of trails, after which there is nothing left to follow. -/
theorem pursues_fetchMissing {depth : Nat} {asked tail ids : List String} {trails : List Trail}
    (hids : ∀ id ∈ ids, id ∈ tail ∨
      ∃ tr ∈ trails, ∃ before after, tr.Meets t own before after id ∧ before.length ≤ depth) :
    Pursues t own depth asked tail trails ((ctx.fetchMissing ids).tableReads tables) := by
  refine ⟨?_, fun id hid => ?_, ?_, ?_⟩
  · have := fetches_fetchMissing tables ctx ids
    omega
  · rw [entityIds_fetchMissing] at hid
    exact hids id (mem_of_mem_missing hid)
  · rw [relationshipIds_fetchMissing]
    exact nofun
  · rw [relationshipIds_fetchMissing]
    exact List.nodup_nil

theorem meets_nodes {tr : Trail} {id : String} (h : id ∈ tr.nodes) :
    tr.Meets t own [] (tr.step :: tr.rest) id := ⟨rfl, h⟩

/-- The calls of one step of all trails, and then those of the advanced trails. -/
theorem Pursues.of_advance {depth : Nat} {asked tail ids : List String} {trails : List Trail}
    (hreached : ∀ tr ∈ trails, tr.reached ctx' ⊆ tr.nodes.flatMap (t.lead own tr.step))
    (hids : ∀ id ∈ ids, id ∉ asked ∧ ∃ tr ∈ trails, id ∈ tr.nodes) (honce : ids.Nodup)
    (h : Pursues t own depth (asked ++ ids) (tail ++ trails.flatMap (Trail.ends ctx'))
      (trails.filterMap (Trail.advance? ctx')) log) :
    Pursues t own (depth + 1) asked tail trails
      ((ctx.fetchMissing (trails.flatMap Trail.nodes)).tableReads tables ++
        (ids.map (ReadCall.relationships own.tenant) ++ log)) := by
  have hrel :
      (ids.map (ReadCall.relationships own.tenant)).flatMap ReadCall.relationshipIds = ids := by
    rw [List.flatMap_map]
    exact List.flatMap_singleton' ids
  have hnone : (ids.map (ReadCall.relationships own.tenant)).flatMap ReadCall.entityIds = [] := by
    rw [List.flatMap_map]
    exact List.flatMap_eq_nil_iff.2 fun _ _ => rfl
  have hcount :
      (ids.map (ReadCall.relationships own.tenant)).countP ReadCall.fetchesEntities = 0 := by
    rw [List.countP_map]
    exact List.countP_eq_zero.2 fun _ _ => nofun
  refine ⟨?_, fun id hid => ?_, fun id hid => ?_, ?_⟩
  · have := fetches_fetchMissing tables ctx (trails.flatMap Trail.nodes)
    have := h.fetches
    rw [List.countP_append, List.countP_append, hcount]
    omega
  · rw [List.flatMap_append, List.flatMap_append, hnone, List.nil_append, List.mem_append] at hid
    rcases hid with hid | hid
    · rw [entityIds_fetchMissing] at hid
      obtain ⟨tr, htr, hnode⟩ := List.mem_flatMap.1 (mem_of_mem_missing hid)
      exact .inr ⟨tr, htr, [], _, meets_nodes hnode, Nat.zero_le _⟩
    · rcases h.entities id hid with hid | ⟨tr', htr', before, after, hmeets, hlen⟩
      · rcases List.mem_append.1 hid with hid | hid
        · exact .inl hid
        · obtain ⟨tr, htr, hend⟩ := List.mem_flatMap.1 hid
          exact .inr ⟨tr, htr, [tr.step], [], meets_of_ends (hreached tr htr) hend,
            Nat.le_add_left 1 depth⟩
      · obtain ⟨tr, htr, hadvance⟩ := List.mem_filterMap.1 htr'
        exact .inr ⟨tr, htr, tr.step :: before, after,
          meets_of_advance hadvance (hreached tr htr) hmeets, Nat.succ_le_succ hlen⟩
  · rw [List.flatMap_append, List.flatMap_append, hrel, relationshipIds_fetchMissing,
      List.nil_append, List.mem_append] at hid
    rcases hid with hid | hid
    · obtain ⟨hasked, tr, htr, hnode⟩ := hids id hid
      exact ⟨hasked, tr, htr, [], _, _, meets_nodes hnode, Nat.succ_pos depth⟩
    · obtain ⟨hasked, tr', htr', before, name, after, hmeets, hlen⟩ := h.relationships id hid
      obtain ⟨tr, htr, hadvance⟩ := List.mem_filterMap.1 htr'
      exact ⟨fun hold => hasked (List.mem_append_left _ hold), tr, htr, tr.step :: before, name,
        after, meets_of_advance hadvance (hreached tr htr) hmeets, Nat.succ_lt_succ hlen⟩
  · rw [List.flatMap_append, List.flatMap_append, hrel, relationshipIds_fetchMissing,
      List.nil_append]
    refine List.nodup_append.2 ⟨honce, h.once, ?_⟩
    rintro id hid _ hid' rfl
    exact (h.relationships id hid').1 (List.mem_append_right _ hid)

section Trails

variable (ht : tables own.tenant = t) (hk : t.Keyed) (hf : Faithful t own ctx)
include ht hk hf

/-- Following trails asks only for what is unknown, and only for what they come to. -/
theorem follow_asks {depth : Nat} {asked tail : List String} {trails : List Trail}
    (h : (Trail.follow depth asked tail trails ctx).answer tables = .ok ctx') :
    Asks t own ctx ((Trail.follow depth asked tail trails ctx).tableReads tables) ctx' ∧
      Pursues t own depth asked tail trails
        ((Trail.follow depth asked tail trails ctx).tableReads tables) := by
  induction depth generalizing asked tail trails ctx with
  | zero =>
    refine ⟨fetchMissing_asks ht hk hf h, pursues_fetchMissing fun id hid => ?_⟩
    refine (List.mem_append.1 hid).imp_right fun hid => ?_
    obtain ⟨tr, htr, hnode⟩ := List.mem_flatMap.1 hid
    exact ⟨tr, htr, [], _, meets_nodes hnode, Nat.le_refl 0⟩
  | succ depth ih =>
    cases trails with
    | nil => exact ⟨fetchMissing_asks ht hk hf h, pursues_fetchMissing fun id hid => .inl hid⟩
    | cons tr₀ rest =>
      unfold Trail.follow at h ⊢
      generalize tr₀ :: rest = trails at h ⊢
      obtain ⟨ctx₁, hans₁, h⟩ := Fetch.exists_answer_bind h
      obtain ⟨ctx₂, hans₂, h⟩ := Fetch.exists_answer_bind h
      rw [Fetch.tableReads_bind_ok hans₁, Fetch.tableReads_bind_ok hans₂]
      have hasks₁ := fetchMissing_asks ht hk hf hans₁
      have hasks₂ := fetchRelationships_asks ht hasks₁.faithful hans₂
      obtain ⟨hasks, hpursues⟩ := ih hasks₂.faithful h
      refine ⟨hasks₁.trans (hasks₂.trans hasks), ?_⟩
      rw [fetchRelationships_reads, hasks₁.faithful.entity]
      refine Pursues.of_advance (fun tr htr => reached_subset hasks₂.faithful fun id hid => ?_)
        (fun id hid => ?_) (((ascending_nodup _).filter _)) hpursues
      · have hknown := fetchMissing_knows ht hk hf hans₁ (List.mem_flatMap.2 ⟨tr, htr, hid⟩)
        exact hknown.grow hasks₁.faithful hasks₂.faithful hasks₂.grows
      · obtain ⟨hmem, hasked⟩ := List.mem_filter.1 hid
        obtain ⟨tr, htr, hnode⟩ := List.mem_flatMap.1 (mem_ascending.1 hmem)
        exact ⟨of_decide_eq_true hasked, tr, htr, (List.mem_filter.1 hnode).1⟩

end Trails

end EvaluationContext

/-! ### Gathering -/

theorem Trail.start_eq {own : Entity} {tr : Traversal} {start : Trail}
    (h : Trail.start? own tr = some start) :
    start.nodes = tr.starts own ∧ start.step :: start.rest = tr.hops := by
  rw [Trail.start?_eq] at h
  split at h
  · rename_i hstarts hhops
    cases h
    exact ⟨hstarts.symm, hhops.symm⟩
  · exact nomatch h

namespace Gathering

variable (g : Gathering)

/-- Steps of a traversal, with others still to make, may lead to the entity. -/
def Traces (before after : List String) (id : String) : Prop :=
  ∃ f ∈ g.formulas, ∃ tr ∈ f.traversals, tr.hops = before ++ after ∧
    id ∈ g.table.trace g.own (tr.starts g.own) before

/-- What gathering asks for and what it gets.  No entity is asked for twice, and none without
    need; what is on the way of a traversal within the depth is known in the end. -/
structure Frugal (log : List ReadCall) (ctx : EvaluationContext) : Prop where
  tenant : ∀ c ∈ log, c.tenant = g.own.tenant
  own : g.own.id ∉ log.flatMap ReadCall.entityIds
  /-- No entity that exists is asked for twice. -/
  entities_once : ((log.flatMap ReadCall.entityIds).filter
    fun id => g.table.entities.contains id).Nodup
  relationships_once : (log.flatMap ReadCall.relationshipIds).Nodup
  fetches : log.countP ReadCall.fetchesEntities ≤ g.settings.maxDepth + 2
  /-- What is asked for is named by the formulas, inherited from, or on a traversal. -/
  entities : ∀ id ∈ log.flatMap ReadCall.entityIds, id ∈ g.own.directIds g.formulas ∨
    ∃ before after, g.Traces before after id ∧ before.length ≤ g.settings.maxDepth
  relationships : ∀ id ∈ log.flatMap ReadCall.relationshipIds,
    ∃ before name after, g.Traces before (name :: after) id ∧ before.length < g.settings.maxDepth
  loaded : ∀ id, (ctx.entities.get? id).isSome → id ∈ log.flatMap ReadCall.entityIds
  visited : ∀ id e, g.Visited id → g.table.known g.own id = some e → ctx.entity? id = some e

variable {g} {log log' : List ReadCall} {ctx : EvaluationContext}

open EvaluationContext

theorem traces_of_meets {before after : List String} {id : String}
    (h : ∃ start ∈ (g.formulas.flatMap Expression.traversals).filterMap (Trail.start? g.own),
      start.Meets g.table g.own before after id) : g.Traces before after id := by
  obtain ⟨start, hstart, hsplit, hid⟩ := h
  obtain ⟨tr, htr, hstart⟩ := List.mem_filterMap.1 hstart
  obtain ⟨f, hf, htr⟩ := List.mem_flatMap.1 htr
  obtain ⟨hnodes, hhops⟩ := Trail.start_eq hstart
  exact ⟨f, hf, tr, htr, hhops.symm.trans hsplit, hnodes ▸ hid⟩

/-- Gathering from a table. -/
theorem frugal_answer {tables : String → TenantTable} (ht : tables g.own.tenant = g.table)
    (hk : g.table.Keyed) (h : (gather g.settings g.own g.formulas).answer tables = .ok ctx)
    (hc : CoversTraversals g.table g.own g.settings.maxDepth g.formulas ctx) :
    g.Frugal ((gather g.settings g.own g.formulas).tableReads tables) ctx := by
  unfold gather at h ⊢
  dsimp only at h ⊢
  obtain ⟨ctx₁, hans₁, h⟩ := Fetch.exists_answer_bind h
  rw [Fetch.tableReads_bind_ok hans₁]
  have hasks₁ := fetchMissing_asks ht hk (ofEntity_faithful g.table g.own g.settings) hans₁
  obtain ⟨hasks₂, hpursues⟩ := follow_asks ht hk hasks₁.faithful h
  have hasks := hasks₁.trans hasks₂
  refine ⟨hasks.tenant, fun hown => ?_, hasks.once, ?_, ?_, fun id hid => ?_, fun id hid => ?_,
    fun id hid => ?_, fun id e hid he => ?_⟩
  · have hnone := hasks.unknown g.own.id hown
    exact nomatch (if_pos rfl).symm.trans hnone
  · rw [List.flatMap_append, relationshipIds_fetchMissing]
    exact hpursues.once
  · have := fetches_fetchMissing tables (ofEntity g.settings g.own)
      (g.own.directIds g.formulas)
    have := hpursues.fetches
    rw [List.countP_append]
    omega
  · rw [List.flatMap_append, entityIds_fetchMissing, List.mem_append] at hid
    rcases hid with hid | hid
    · exact .inl (mem_of_mem_missing hid)
    · rcases hpursues.entities id hid with hid | ⟨start, hstart, before, after, hmeets, hlen⟩
      · exact nomatch hid
      · exact .inr ⟨before, after, traces_of_meets ⟨start, hstart, hmeets⟩, hlen⟩
  · rw [List.flatMap_append, relationshipIds_fetchMissing] at hid
    obtain ⟨-, start, hstart, before, name, after, hmeets, hlen⟩ := hpursues.relationships id hid
    exact ⟨before, name, after, traces_of_meets ⟨start, hstart, hmeets⟩, hlen⟩
  · exact (hasks.only id hid).resolve_left nofun
  · rw [show ctx.entity? id = g.table.known g.own id from knows_of_visited hc hid]
    exact he

end Gathering

namespace EvaluationContext

open Gathering

/-- Gathering from an available store gives a context and wastes no call.  It asks for no entity
    and no relationships twice, and never for the entity itself; two calls more than there are steps
    are enough to fetch all entities.  All that it asks for is named or on a traversal within the
    depth, and what is there is known in the end. -/
theorem gather_frugal {s : MemoryStore} (hs : s.available = true) (settings : Settings)
    (own : Entity) (hk : (s.table own.tenant).Keyed) (formulas : List Expression) :
    ∃ ctx, ((gather settings own formulas).run.run MemoryStore.store s).1 = .ok ctx ∧
      Frugal ⟨settings, s.table own.tenant, own, formulas⟩
        ((gather settings own formulas).run.reads MemoryStore.store s) ctx ∧
      ((gather settings own formulas).run.run MemoryStore.store s).2.traffic.entityFetches ≤
        s.traffic.entityFetches + settings.maxDepth + 2 := by
  obtain ⟨ctx, hans, hg⟩ := gather_covers s.table rfl hk settings formulas
  have hfrugal := frugal_answer (g := ⟨settings, s.table own.tenant, own, formulas⟩) rfl hk hans
    hg.covers
  refine ⟨ctx, (Lookup.run_memory hs _).1.trans hans, ?_, ?_⟩
  · rw [Lookup.reads_memory hs]
    exact hfrugal
  · rw [Lookup.traffic_memory hs, Traffic.entityFetches_foldl, Nat.add_assoc]
    exact Nat.add_le_add_left hfrugal.fetches _

/-- The family is fetched in the second step and its category, which does not exist, at the end. -/
theorem categoryOfChain_frugal :
    (gather {} { id := "thing", typePath := "thing" } [categoryOfChain]).run.reads
        MemoryStore.store familyStore = [.relationships "" "thing", .entities "" ["family"],
          .relationships "" "family", .entities "" ["category"]] ∧
      ∃ ctx, Frugal ⟨{}, familyStore.table "", { id := "thing", typePath := "thing" },
        [categoryOfChain]⟩ [.relationships "" "thing", .entities "" ["family"],
          .relationships "" "family", .entities "" ["category"]] ctx := by
  have hreads : (gather {} { id := "thing", typePath := "thing" } [categoryOfChain]).run.reads
      MemoryStore.store familyStore = [.relationships "" "thing", .entities "" ["family"],
        .relationships "" "family", .entities "" ["category"]] := by decide +kernel
  have hkeyed : (familyStore.table "").Keyed :=
    keyed_after [.insert { id := "thing", typePath := "thing" },
      .insert { id := "family", typePath := "family" }, .relate "" "thing" "parent" "family",
      .relate "" "family" "category" "category"] ""
  obtain ⟨ctx, -, hfrugal, -⟩ := gather_frugal rfl {} { id := "thing", typePath := "thing" } hkeyed
    [categoryOfChain]
  rw [hreads] at hfrugal
  exact ⟨hreads, ctx, hfrugal⟩

end EvaluationContext

end EntityFormulas
