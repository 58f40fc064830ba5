/-
  EntityFormulas/Proofs/Recalculation/Loading.lean
  ================================================
  **What a task depends on.**

  `Lookup.loads` lists the entities that a lookup gets to see; ids that no entity
  has show nothing.  What the task of a drain loads is its own entity and what
  the context of its pass holds (`loads_drain`), so of all entities those in the
  context are the ones that it depends on.
-/
import EntityFormulas.Proofs.Computation.Reach
import EntityFormulas.Proofs.Recalculation.Plans

namespace EntityFormulas

/-! ### Loads -/

namespace Lookup

variable {α β : Type}

/-- The entities that a lookup gets to see when every call is answered from tables. -/
def loads (tables : String → TenantTable) : Lookup α → List EntityKey
  | .done _ => []
  | .entities tenant ids next =>
    (ids.filter fun id => (tables tenant).entities.contains id).map (EntityKey.mk tenant) ++
      (next (.ok ((tables tenant).fetch ids))).loads tables
  | .relationships tenant id next => (next (.ok ((tables tenant).relationshipsOf id))).loads tables

theorem loads_bind (tables : String → TenantTable) (m : Lookup α) (f : α → Lookup β) :
    (m.bind f).loads tables = m.loads tables ++ (f (m.answer tables)).loads tables := by
  induction m with
  | done a => rfl
  | entities tenant ids next ih => exact (congrArg _ (ih _)).trans (List.append_assoc ..).symm
  | relationships tenant id next ih => exact ih _

end Lookup

namespace Fetch

variable {α β : Type} {tables : String → TenantTable}

/-- The entities that a lookup gets to see. -/
def loads (tables : String → TenantTable) (m : Fetch α) : List EntityKey := m.run.loads tables

theorem mem_loads_bind {m : Fetch α} {f : α → Fetch β} {key : EntityKey}
    (h : key ∈ (m >>= f).loads tables) : key ∈ m.loads tables ∨
      ∃ a, m.answer tables = .ok a ∧ key ∈ (f a).loads tables := by
  have hb : (m >>= f).loads tables = m.loads tables ++
      (ExceptT.bindCont f (m.answer tables)).loads tables :=
    Lookup.loads_bind tables m.run (ExceptT.bindCont f)
  rw [hb, List.mem_append] at h
  refine h.imp id fun h => ?_
  cases ha : m.answer tables with
  | error e =>
    rw [ha] at h
    exact nomatch h
  | ok a =>
    rw [ha] at h
    exact ⟨a, rfl, h⟩

end Fetch

/-! ### What contexts hold -/

namespace EvaluationContext

variable {tables : String → TenantTable} {ctx ctx' ctx'' : EvaluationContext}
  {keys : List EntityKey}

/-- The context holds these entities, and all of them are of its own tenant. -/
def Holds (ctx : EvaluationContext) (keys : List EntityKey) : Prop :=
  ∀ key ∈ keys, key.tenant = ctx.entity.tenant ∧ (ctx.entities.get? key.entity).isSome

theorem Holds.grows (h : ctx.Holds keys) (hgrows : ctx.Grows ctx') : ctx'.Holds keys := by
  intro key hkey
  obtain ⟨htenant, hsome⟩ := h key hkey
  rw [hgrows.entity]
  exact ⟨htenant, hgrows.entities _ hsome⟩

/-- A step of gathering: the context grows and holds what was loaded. -/
def Gathers (tables : String → TenantTable) (ctx : EvaluationContext)
    (m : Fetch EvaluationContext) : Prop :=
  ∀ ctx', m.answer tables = .ok ctx' → ctx.Grows ctx' ∧ ctx'.Holds (m.loads tables)

theorem Gathers.bind {m : Fetch EvaluationContext}
    {f : EvaluationContext → Fetch EvaluationContext} (hm : ctx.Gathers tables m)
    (hf : ∀ ctx', ctx.Grows ctx' → ctx'.Gathers tables (f ctx')) : ctx.Gathers tables (m >>= f) := by
  intro ctx'' h
  obtain ⟨ctx', h', h⟩ := Fetch.exists_answer_bind h
  obtain ⟨hgrows, hholds⟩ := hm ctx' h'
  obtain ⟨hgrows', hholds'⟩ := hf ctx' hgrows ctx'' h
  refine ⟨hgrows.trans hgrows', fun key hkey => ?_⟩
  rcases Fetch.mem_loads_bind hkey with hkey | ⟨a, ha, hkey⟩
  · exact hholds.grows hgrows' key hkey
  · rw [h'] at ha
    cases ha
    exact hholds' key hkey

theorem gathers_fetchMissing (hk : (tables ctx.entity.tenant).Keyed) (ids : List String) :
    ctx.Gathers tables (ctx.fetchMissing ids) := by
  unfold fetchMissing
  split
  · intro ctx' h
    cases h
    exact ⟨.refl ctx, nofun⟩
  · intro ctx' h
    cases h
    have hgrows := foldl_withEntity_grows ((tables ctx.entity.tenant).fetch (ctx.missing ids)) ctx
    refine ⟨hgrows, fun key hkey => ?_⟩
    change key ∈ _ ++ [] at hkey
    rw [List.append_nil] at hkey
    obtain ⟨id, hid, rfl⟩ := List.mem_map.1 hkey
    obtain ⟨hmem, hsome⟩ := List.mem_filter.1 hid
    obtain ⟨e, he⟩ := Option.isSome_iff_exists.1 hsome
    have hfetched : e ∈ (tables ctx.entity.tenant).fetch (ctx.missing ids) :=
      List.mem_filterMap.2 ⟨id, hmem, he⟩
    have hin := isSome_entities_of_mem hfetched ctx
    rw [hk id e he] at hin
    exact ⟨congrArg Entity.tenant hgrows.entity.symm, hin⟩

theorem gathers_fetchRelationships (ids : List String) :
    ctx.Gathers tables (ctx.fetchRelationships ids) := by
  induction ids generalizing ctx with
  | nil =>
    intro ctx' h
    cases h
    exact ⟨.refl ctx, nofun⟩
  | cons id rest ih =>
    intro ctx' h
    obtain ⟨hgrows, hholds⟩ := ih ctx' h
    exact ⟨(withRelationships_grows ctx id _).trans hgrows, hholds⟩

theorem gathers_follow (hk : (tables ctx.entity.tenant).Keyed) (depth : Nat)
    (asked tail : List String) (trails : List Trail) :
    ctx.Gathers tables (Trail.follow depth asked tail trails ctx) := by
  induction depth generalizing asked tail trails ctx with
  | zero => exact gathers_fetchMissing hk _
  | succ depth ih =>
    cases trails with
    | nil => exact gathers_fetchMissing hk _
    | cons tr rest =>
      unfold Trail.follow
      refine (gathers_fetchMissing hk _).bind fun ctx₁ hgrows => ?_
      refine (gathers_fetchRelationships _).bind fun ctx₂ hgrows' => ih ?_ _ _ _
      rw [hgrows'.entity, hgrows.entity]
      exact hk

/-- A gathered context holds all that was loaded for it. -/
theorem gathers_gather {e : Entity} (hk : (tables e.tenant).Keyed) (settings : Settings)
    (formulas : List Expression) :
    (ofEntity settings e).Gathers tables (gather settings e formulas) := by
  refine (gathers_fetchMissing hk _).bind fun ctx hgrows => gathers_follow ?_ _ _ _ _
  rw [hgrows.entity]
  exact hk

end EvaluationContext

/-! ### Tasks -/

namespace Task

variable {tables : String → TenantTable} {t : Task} {other : EntityKey} {settings : Settings}
  {now : String}

/-- A task loads its entity, and then what it needs to decide over it. -/
theorem mem_loads_plan (h : other ∈ (t.plan settings now).loads tables) :
    other = t.key ∨ ∃ e, (tables t.key.tenant).entities.get? t.key.entity = some e ∧
      other ∈ (t.decide settings now e).loads tables := by
  unfold Fetch.loads at h
  rw [plan_run, Lookup.loads, List.mem_append] at h
  rcases h with hown | hrest
  · obtain ⟨id, hid, rfl⟩ := List.mem_map.1 hown
    obtain rfl := List.mem_singleton.1 (List.mem_of_mem_filter hid)
    exact .inl rfl
  · refine .inr ?_
    have hfetch : (tables t.key.tenant).fetch [t.key.entity] =
        ((tables t.key.tenant).entities.get? t.key.entity).toList := by
      unfold TenantTable.fetch
      rw [List.filterMap_cons, List.filterMap_nil]
      cases (tables t.key.tenant).entities.get? t.key.entity <;> rfl
    rw [hfetch] at hrest
    cases he : (tables t.key.tenant).entities.get? t.key.entity with
    | none =>
      rw [he] at hrest
      exact nomatch hrest
    | some e =>
      refine ⟨e, rfl, ?_⟩
      rw [he] at hrest
      dsimp only [Option.toList, Except.bind] at hrest
      cases hpick : StoreError.pickEntity t.key.tenant t.key.entity [e] with
      | error err =>
        rw [hpick] at hrest
        exact nomatch hrest
      | ok e' =>
        have hsame : e' = e := by
          unfold StoreError.pickEntity at hpick
          split at hpick
          · rename_i hfind
            cases hpick
            exact List.mem_singleton.1 (List.mem_of_find?_eq_some hfind)
          · exact nomatch hpick
        rw [hpick] at hrest
        exact hsame ▸ hrest

/-- The context of a pass over marked properties of a stored entity. -/
def contextOf? (tables : String → TenantTable) (settings : Settings) (key : EntityKey)
    (names : List String) : Option EvaluationContext :=
  ((tables key.tenant).entities.get? key.entity).bind fun e =>
    ((EvaluationContext.gather settings (e.markStale names)
      (Selection.ofEntity .stale (e.markStale names)).pending.values).answer tables).toOption

/-- What the task of a drain loads is its entity and what the context of its pass holds. -/
theorem loads_drain {names : List String} {actor : String} {batch : Nat}
    (hk : ∀ tenant, (tables tenant).Keyed) (hj : t.job = .drain names actor batch)
    (h : other ∈ (t.plan settings now).loads tables) :
    other = t.key ∨ ∃ ctx, contextOf? tables settings t.key names = some ctx ∧
      other.tenant = ctx.entity.tenant ∧ (ctx.entities.get? other.entity).isSome := by
  refine (mem_loads_plan h).imp id ?_
  rintro ⟨e, he, hdecide⟩
  have hgather : other ∈ (EvaluationContext.gather settings (e.markStale names)
      (Selection.ofEntity .stale (e.markStale names)).pending.values).loads tables := by
    unfold decide at hdecide
    rw [hj] at hdecide
    rcases Fetch.mem_loads_bind hdecide with hpass | ⟨o, -, hpass⟩
    · change other ∈ (((e.markStale names).recompute settings now .stale).bind
        fun o => .done (Except.ok o)).loads tables at hpass
      rw [Lookup.loads_bind, Lookup.loads, List.append_nil] at hpass
      unfold Entity.recompute at hpass
      dsimp only at hpass
      split at hpass
      · exact nomatch hpass
      · change other ∈ (Lookup.bind _ _).loads tables at hpass
        rw [Lookup.loads_bind] at hpass
        exact (List.mem_append.1 hpass).resolve_right nofun
    · exact nomatch hpass
  have hyields := EvaluationContext.gather_yields settings (e.markStale names)
    (Selection.ofEntity .stale (e.markStale names)).pending.values
  obtain ⟨ctx, hctx, -⟩ := Lookup.Always.answer hyields (fun a => ⟨a, rfl⟩) tables
  obtain ⟨-, hholds⟩ := EvaluationContext.gathers_gather (hk _) settings _ ctx hctx
  refine ⟨ctx, ?_, hholds other hgather⟩
  unfold contextOf?
  rw [he, Option.bind_some, Fetch.answer, hctx]
  rfl

end Task

end EntityFormulas
