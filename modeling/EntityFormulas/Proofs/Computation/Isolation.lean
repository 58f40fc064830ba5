/-
  EntityFormulas/Proofs/Computation/Isolation.lean
  ================================================
  **Tenants do not see each other.**

  A tenant's operations are answered from the tenant's table, and operations
  for others leave that table alone.  Loading an entity asks for the tenant of
  the caller, but what its formulas need is fetched for the tenant that the
  loaded entity carries.  So the argument rests on an invariant of the whole
  store, `Homed`: every entity carries the tenant in whose table it is.

  The result compares two runs.  In one of them the operations of other tenants
  do not take place, and the clock may show other times; what the tenant is
  answered and what is stored for it is the same up to timestamps
  (`tenant_isolated`).
-/
import EntityFormulas.Proofs.Computation.ParseCache
import EntityFormulas.Proofs.Computation.Timestamps

namespace EntityFormulas

/-! ### Operations -/

/-- An operation of somebody who uses a service or its store. -/
inductive ServiceOperation where
  | store (op : StoreOperation)
  /-- Recomputes an entity at a time on the clock. -/
  | recompute (now tenant entity actor : String) (request : Request)

inductive ServiceAnswer where
  | store (answer : StoreAnswer)
  | pass (result : Except PassError PassOutcome)

namespace ServiceOperation

/-- The tenant that the operation is for; what switches or counts for the whole store is for
    none. -/
def tenant? : ServiceOperation → Option String
  | store op => op.tenant?
  | recompute _ tenant _ _ _ => some tenant

/-- Whether the operation is for no other tenant. -/
def concerns (tenant : String) (op : ServiceOperation) : Bool :=
  op.tenant?.all fun t => t = tenant

/-- Carries out the operation. -/
def serve (settings : Settings) (v : ComputationService) :
    ServiceOperation → ServiceAnswer × ComputationService
  | store op => let (answer, s) := op.serve v.store; (.store answer, { v with store := s })
  | recompute now tenant entity actor request =>
    let (result, v) := v.recompute settings now tenant entity actor request
    (.pass result, v)

end ServiceOperation

/-- Carries out operations, one after another, and gives every one with its answer. -/
def ComputationService.serveAll (settings : Settings) :
    List ServiceOperation → ComputationService →
      List (ServiceOperation × ServiceAnswer) × ComputationService
  | [], v => ([], v)
  | op :: rest, v =>
    let (answer, v) := op.serve settings v
    let (answers, v) := v.serveAll settings rest
    ((op, answer) :: answers, v)

/-- The entities that an answer shows. -/
def StoreAnswer.shown : StoreAnswer → List Entity
  | entity found => found.toList
  | entities (.ok found) => found
  | _ => []

def ServiceAnswer.shown : ServiceAnswer → List Entity
  | store answer => answer.shown
  | pass _ => []

/-! ### Timestamps -/

section Timestamps

variable (f : String → String)

def StoreOperation.restamp : StoreOperation → StoreOperation
  | insert e => insert (e.restamp f)
  | persist tenant r => persist tenant (r.restamp f)
  | op => op

def StoreAnswer.restamp : StoreAnswer → StoreAnswer
  | entity found => entity (found.map (Entity.restamp f))
  | records past => records (past.map (StateRecord.restamp f))
  | entities found => entities (found.map (List.map (Entity.restamp f)))
  | answer => answer

def ServiceOperation.restamp : ServiceOperation → ServiceOperation
  | store op => store (op.restamp f)
  | recompute now tenant entity actor request => recompute (f now) tenant entity actor request

def ServiceAnswer.restamp : ServiceAnswer → ServiceAnswer
  | store answer => store (answer.restamp f)
  | pass result => pass (result.map (PassOutcome.restamp f))

theorem StoreOperation.serve_restamp (op : StoreOperation) (s : MemoryStore) :
    (op.restamp f).serve (s.restamp f) =
      ((op.serve s).1.restamp f, (op.serve s).2.restamp f) := by
  cases op with
  | insert e => exact congrArg (StoreAnswer.done, ·) (s.insert_restamp f e)
  | relate tenant source type target =>
    exact congrArg (StoreAnswer.done, ·) (s.relate_restamp f tenant source type target)
  | get tenant id =>
    exact congrArg (fun found => (StoreAnswer.entity found, s.restamp f))
      (s.get?_restamp f tenant id)
  | history tenant =>
    exact congrArg (fun past => (StoreAnswer.records past, s.restamp f))
      (s.history_restamp f tenant)
  | fetch tenant ids =>
    exact congrArg (fun x => (StoreAnswer.entities x.1, x.2)) (s.fetch_restamp f tenant ids)
  | relationships tenant id =>
    exact congrArg (fun x => (StoreAnswer.relationships x.1, x.2))
      (s.fetchRelationships_restamp f tenant id)
  | persist tenant r =>
    exact congrArg (fun x => (StoreAnswer.persisted x.1, x.2)) (s.persist_restamp f tenant r)
  | setAvailable available => rfl
  | setFetchDelay delay => rfl
  | resetTraffic => rfl

theorem ServiceOperation.tenant?_restamp (op : ServiceOperation) :
    (op.restamp f).tenant? = op.tenant? := by
  cases op with
  | store op => cases op <;> rfl
  | recompute now tenant entity actor request => rfl

end Timestamps

/-! ### Without the cache -/

/-- What an operation does to the store, whatever formulas have been read. -/
def ServiceOperation.act (settings : Settings) (s : MemoryStore) :
    ServiceOperation → ServiceAnswer × MemoryStore
  | store op => let (answer, s) := op.serve s; (.store answer, s)
  | recompute now tenant entity actor request =>
    let (result, s) := MemoryStore.store.recompute settings now tenant entity actor request s
    (.pass result, s)

namespace ServiceOperation

variable (settings : Settings)

theorem serve_eq (v : ComputationService) (op : ServiceOperation) :
    (op.serve settings v).1 = (op.act settings v.store).1 ∧
      (op.serve settings v).2.store = (op.act settings v.store).2 := by
  cases op with
  | store op => exact ⟨rfl, rfl⟩
  | recompute now tenant entity actor request =>
    obtain ⟨hanswer, hstore⟩ := v.recompute_eq settings now tenant entity actor request
    exact ⟨congrArg ServiceAnswer.pass hanswer, hstore⟩

theorem act_restamp (f : String → String) (op : ServiceOperation) (s : MemoryStore) :
    (op.restamp f).act settings (s.restamp f) =
      ((op.act settings s).1.restamp f, (op.act settings s).2.restamp f) := by
  cases op with
  | store op =>
    exact congrArg (fun x => (ServiceAnswer.store x.1, x.2)) (op.serve_restamp f s)
  | recompute now tenant entity actor request =>
    exact congrArg (fun x => (ServiceAnswer.pass x.1, x.2))
      (s.recompute_restamp f tenant settings now entity actor request)

end ServiceOperation

/-! ### Lookups for one tenant -/

/-- Every call is for the tenant, and the result has the property, as long as the entities that
    arrive carry the tenant. -/
def Lookup.Within (tenant : String) {α : Type} (p : α → Prop) : Lookup α → Prop
  | done a => p a
  | entities t _ next => t = tenant ∧ ∀ r : Except StoreError (List Entity),
    (∀ found, r = .ok found → ∀ e ∈ found, e.tenant = tenant) → (next r).Within tenant p
  | relationships t _ next => t = tenant ∧ ∀ r, (next r).Within tenant p

theorem Lookup.Within.bind {tenant : String} {α β : Type} {p : α → Prop} {q : β → Prop}
    {m : Lookup α} (hm : m.Within tenant p) {k : α → Lookup β}
    (hk : ∀ a, p a → (k a).Within tenant q) : (m.bind k).Within tenant q := by
  induction m with
  | done a => exact hk a hm
  | entities t ids next ih => exact ⟨hm.1, fun r hr => ih r (hm.2 r hr)⟩
  | relationships t id next ih => exact ⟨hm.1, fun r => ih r (hm.2 r)⟩

namespace Fetch

variable {tenant : String} {α β : Type} {p : α → Prop} {q : β → Prop}

/-- Every call is for the tenant, and a result has the property. -/
def Within (tenant : String) (p : α → Prop) (m : Fetch α) : Prop :=
  m.run.Within tenant fun r => ∀ a, r = .ok a → p a

theorem within_pure {a : α} (h : p a) : Within tenant p (pure a : Fetch α) := by
  intro b hb
  cases hb
  exact h

theorem Within.bind {m : Fetch α} (hm : m.Within tenant p) {k : α → Fetch β}
    (hk : ∀ a, p a → (k a).Within tenant q) : (m >>= k).Within tenant q := by
  refine Lookup.Within.bind hm fun r hr => ?_
  cases r with
  | ok a => exact hk a (hr a rfl)
  | error err => exact fun b hb => nomatch hb

theorem within_lift {m : Lookup α} (h : m.Within tenant p) :
    Within tenant p (ExceptT.lift m : Fetch α) := by
  refine Lookup.Within.bind h fun a ha => ?_
  rintro b hb
  cases hb
  exact ha

theorem within_entities (ids : List String) :
    (Fetch.entities tenant ids).Within tenant fun found => ∀ e ∈ found, e.tenant = tenant :=
  ⟨rfl, fun _ h => h⟩

theorem within_relationships (id : String) :
    (Fetch.relationships tenant id).Within tenant fun _ => True :=
  ⟨rfl, fun _ _ _ => trivial⟩

theorem within_entity (id : String) :
    (Fetch.entity tenant id).Within tenant fun e => e.tenant = tenant := by
  refine (within_entities [id]).bind fun found hfound => ?_
  unfold StoreError.pickEntity
  cases h : found.find? fun e => e.id = id with
  | none => exact fun b hb => nomatch hb
  | some e => exact within_pure (hfound e (List.mem_of_find?_eq_some h))

end Fetch

/-! ### Passes -/

namespace EvaluationContext

variable {tenant : String} {ctx : EvaluationContext}

theorem entity_foldl_withEntity (found : List Entity) (ctx : EvaluationContext) :
    (found.foldl withEntity ctx).entity = ctx.entity := by
  induction found generalizing ctx with
  | nil => rfl
  | cons e rest ih => exact ih (ctx.withEntity e)

theorem within_fetchMissing (h : ctx.entity.tenant = tenant) (ids : List String) :
    (ctx.fetchMissing ids).Within tenant fun ctx' => ctx'.entity.tenant = tenant := by
  unfold fetchMissing
  cases ctx.missing ids with
  | nil => exact Fetch.within_pure h
  | cons id rest =>
    rw [h]
    refine (Fetch.within_entities _).bind fun found _ => Fetch.within_pure ?_
    rw [entity_foldl_withEntity]
    exact h

theorem within_fetchRelationships (h : ctx.entity.tenant = tenant) (ids : List String) :
    (ctx.fetchRelationships ids).Within tenant fun ctx' => ctx'.entity.tenant = tenant := by
  induction ids generalizing ctx with
  | nil => exact Fetch.within_pure h
  | cons id rest ih =>
    unfold fetchRelationships
    rw [h]
    refine (Fetch.within_relationships id).bind fun r _ => ih ?_
    unfold withRelationships
    split
    · exact h
    · exact h

theorem within_follow (h : ctx.entity.tenant = tenant) (depth : Nat) (asked tail : List String)
    (trails : List Trail) : (Trail.follow depth asked tail trails ctx).Within tenant
      fun ctx' => ctx'.entity.tenant = tenant := by
  induction depth generalizing asked tail trails ctx with
  | zero => exact within_fetchMissing h _
  | succ depth ih =>
    cases trails with
    | nil => exact within_fetchMissing h _
    | cons t rest =>
      exact (within_fetchMissing h _).bind fun ctx h =>
        (within_fetchRelationships h _).bind fun ctx h => ih h _ _ _

theorem within_gather {e : Entity} (h : e.tenant = tenant) (settings : Settings)
    (formulas : List Expression) :
    (gather settings e formulas).Within tenant fun ctx => ctx.entity.tenant = tenant := by
  have hstart : (ofEntity settings e).entity.tenant = tenant := h
  exact (within_fetchMissing hstart _).bind fun ctx h => within_follow h _ _ _ _

end EvaluationContext

theorem Entity.within_recompute {tenant : String} {e : Entity} (h : e.tenant = tenant)
    (settings : Settings) (now : String) (scope : Scope) :
    (e.recompute settings now scope).Within tenant fun _ => True := by
  unfold recompute
  dsimp only
  split
  · trivial
  · -- What was gathered is all that is read; the rest of the pass asks for nothing.
    have hgather := EvaluationContext.within_gather h settings
      (Selection.ofEntity scope e).pending.values
    generalize EvaluationContext.gather settings e _ = gathering at hgather ⊢
    exact Lookup.Within.bind hgather fun _ _ => trivial

theorem Request.within_compute (settings : Settings) (now tenant entity : String)
    (request : Request) :
    (request.compute settings now tenant entity).Within tenant fun _ => True := by
  refine (Fetch.within_entity entity).bind fun e he => ?_
  cases request with
  | asStored scope => exact Fetch.within_lift (Entity.within_recompute he settings now scope)
  | marked names =>
    have hmarked : (e.markStale names).tenant = tenant := he
    exact Fetch.within_lift (Entity.within_recompute hmarked settings now .stale)

/-! ### Two stores -/

namespace MemoryStore

/-- Every entity carries the tenant in whose table it is. -/
def Homed (s : MemoryStore) : Prop := ∀ tenant id e, s.get? tenant id = some e → e.tenant = tenant

/-- A tenant sees no difference between two stores. -/
structure Alike (tenant : String) (s s' : MemoryStore) : Prop where
  available : s.available = s'.available
  table : s.table tenant = s'.table tenant

variable {tenant : String} {s s' : MemoryStore}

theorem Alike.trans {s'' : MemoryStore} (h : Alike tenant s s') (h' : Alike tenant s' s'') :
    Alike tenant s s'' :=
  ⟨h.available.trans h'.available, h.table.trans h'.table⟩

theorem Alike.of_tenants (ht : s'.tenants = s.tenants) (ha : s'.available = s.available) :
    Alike tenant s' s := by
  refine ⟨ha, ?_⟩
  unfold MemoryStore.table
  rw [ht]

/-- Writing the same into the table of the tenant is seen alike. -/
theorem Alike.insert {s₁ s₁' : MemoryStore} {t t' : TenantTable}
    (h : s₁.tenants = s.tenants.insert tenant t) (h' : s₁'.tenants = s'.tenants.insert tenant t')
    (ha : s₁.available = s₁'.available) (ht : t = t') : Alike tenant s₁ s₁' := by
  refine ⟨ha, ?_⟩
  rw [table_of_insert h, table_of_insert h', if_pos rfl, if_pos rfl, ht]

/-- Writing to the table of another tenant is not seen. -/
theorem Alike.of_insert {t : TenantTable} {other : String} (hne : other ≠ tenant)
    (h : s'.tenants = s.tenants.insert other t) (ha : s'.available = s.available) :
    Alike tenant s' s := by
  refine ⟨ha, ?_⟩
  rw [table_of_insert h, if_neg hne]

theorem Homed.of_tenants (h : s.Homed) (ht : s'.tenants = s.tenants) : s'.Homed := by
  intro tenant id e he
  rw [get?_of_tenants ht] at he
  exact h tenant id e he

/-! #### Reading -/

theorem Alike.fetch (h : Alike tenant s s') (ids : List String) :
    (s.fetch tenant ids).1 = (s'.fetch tenant ids).1 ∧
      Alike tenant (s.fetch tenant ids).2 (s'.fetch tenant ids).2 := by
  unfold MemoryStore.fetch
  rw [h.available, h.table]
  split
  · exact ⟨rfl, rfl, h.table⟩
  · exact ⟨rfl, h⟩

theorem Alike.fetchRelationships (h : Alike tenant s s') (id : String) :
    (s.fetchRelationships tenant id).1 = (s'.fetchRelationships tenant id).1 ∧
      Alike tenant (s.fetchRelationships tenant id).2 (s'.fetchRelationships tenant id).2 := by
  unfold MemoryStore.fetchRelationships
  rw [h.available, h.table]
  split
  · exact ⟨rfl, rfl, h.table⟩
  · exact ⟨rfl, h⟩

theorem fetch_reads (s : MemoryStore) (tenant : String) (ids : List String) :
    (s.fetch tenant ids).2.tenants = s.tenants ∧
      (s.fetch tenant ids).2.available = s.available := by
  unfold MemoryStore.fetch
  split
  · exact ⟨rfl, rfl⟩
  · exact ⟨rfl, rfl⟩

theorem fetchRelationships_reads (s : MemoryStore) (tenant id : String) :
    (s.fetchRelationships tenant id).2.tenants = s.tenants ∧
      (s.fetchRelationships tenant id).2.available = s.available := by
  unfold MemoryStore.fetchRelationships
  split
  · exact ⟨rfl, rfl⟩
  · exact ⟨rfl, rfl⟩

theorem run_reads {α : Type} (m : Lookup α) (s : MemoryStore) :
    (m.run store s).2.tenants = s.tenants ∧ (m.run store s).2.available = s.available := by
  induction m generalizing s with
  | done a => exact ⟨rfl, rfl⟩
  | entities tenant ids next ih =>
    obtain ⟨ht, ha⟩ := s.fetch_reads tenant ids
    exact (ih _ _).imp (·.trans ht) (·.trans ha)
  | relationships tenant id next ih =>
    obtain ⟨ht, ha⟩ := s.fetchRelationships_reads tenant id
    exact (ih _ _).imp (·.trans ht) (·.trans ha)

/-- A fetch for a tenant shows the tenant's own entities. -/
theorem Homed.fetch (hs : s.Homed) {ids : List String} {found : List Entity}
    (h : (s.fetch tenant ids).1 = .ok found) : ∀ e ∈ found, e.tenant = tenant := by
  rw [(fetch_found s tenant ids).2 found h]
  intro e he
  obtain ⟨id, -, hid⟩ := List.mem_filterMap.1 he
  exact hs tenant id e hid

/-- A lookup for a tenant has one result in stores that look alike to the tenant. -/
theorem Alike.run {α : Type} {p : α → Prop} {m : Lookup α} (hm : m.Within tenant p)
    (hs : s.Homed) (h : Alike tenant s s') : (m.run store s).1 = (m.run store s').1 ∧
      Alike tenant (m.run store s).2 (m.run store s').2 := by
  induction m generalizing s s' with
  | done a => exact ⟨rfl, h⟩
  | entities t ids next ih =>
    obtain ⟨rfl, hnext⟩ := hm
    obtain ⟨hanswer, hafter⟩ := h.fetch ids
    have hhomed := hs.of_tenants (s.fetch_reads t ids).1
    have hfound (found : List Entity) (hok : (s.fetch t ids).1 = .ok found) :
        ∀ e ∈ found, e.tenant = t := hs.fetch hok
    have hrun := ih (s.fetch t ids).1 (hnext _ hfound) hhomed hafter
    rw [hanswer] at hrun
    unfold Lookup.run
    show ((next (s.fetch t ids).1).run store (s.fetch t ids).2).1 = _ ∧
      Alike t ((next (s.fetch t ids).1).run store (s.fetch t ids).2).2 _
    rw [hanswer]
    exact hrun
  | relationships t id next ih =>
    obtain ⟨rfl, hnext⟩ := hm
    obtain ⟨hanswer, hafter⟩ := h.fetchRelationships id
    have hhomed := hs.of_tenants (s.fetchRelationships_reads t id).1
    have hrun := ih (s.fetchRelationships t id).1 (hnext _) hhomed hafter
    rw [hanswer] at hrun
    unfold Lookup.run
    show ((next (s.fetchRelationships t id).1).run store (s.fetchRelationships t id).2).1 = _ ∧
      Alike t ((next (s.fetchRelationships t id).1).run store (s.fetchRelationships t id).2).2 _
    rw [hanswer]
    exact hrun

/-! #### Writing -/

theorem Alike.persist (h : Alike tenant s s') (r : StateRecord) :
    (s.persist tenant r).1 = (s'.persist tenant r).1 ∧
      Alike tenant (s.persist tenant r).2 (s'.persist tenant r).2 := by
  unfold MemoryStore.persist
  rw [h.available, h.table]
  split
  · cases (s'.table tenant).persist tenant r with
    | ok t => exact ⟨rfl, .insert rfl rfl rfl rfl⟩
    | error err => exact ⟨rfl, h⟩
  · exact ⟨rfl, h⟩

theorem Alike.persist_other {other : String} (hne : other ≠ tenant) (s : MemoryStore)
    (r : StateRecord) : Alike tenant (s.persist other r).2 s := by
  unfold MemoryStore.persist
  split
  · cases (s.table other).persist other r with
    | ok t => exact .of_insert hne rfl rfl
    | error err => exact ⟨rfl, rfl⟩
  · exact ⟨rfl, rfl⟩

theorem Homed.persist (hs : s.Homed) (r : StateRecord) : (s.persist tenant r).2.Homed := by
  rcases record_cases s tenant r with ⟨err, -, heq⟩ | ⟨s', heq, hwritten⟩
  · rw [heq]
    exact hs
  · rw [heq]
    obtain ⟨e, p, p', he, -, -, hwrote⟩ := hwritten.entity
    intro tenant' id x hx
    by_cases hkey : (tenant', id) = (tenant, r.entity)
    · cases hkey
      rw [hwrote.entity] at hx
      cases hx
      exact hs tenant r.entity e he
    · rw [hwrote.others tenant' id hkey] at hx
      exact hs tenant' id x hx

theorem Homed.insert (hs : s.Homed) (e : Entity) : (s.insert e).Homed := by
  intro tenant id x hx
  rw [get?_insert] at hx
  split at hx
  next hkey =>
    cases hx
    exact hkey.1
  next => exact hs tenant id x hx

theorem Homed.relate (hs : s.Homed) (source type target : String) :
    (s.relate tenant source type target).Homed := by
  intro tenant' id x hx
  rw [get?_of_insert (s := s) rfl] at hx
  split at hx
  next heq =>
    subst heq
    exact hs tenant id x hx
  next => exact hs tenant' id x hx

/-! #### Passes -/

section Recompute

variable (settings : Settings) (now entity actor : String) (request : Request)

/-- What reading and writing records for a tenant keep, a pass keeps. -/
theorem recompute_keeps {P : MemoryStore → Prop}
    (hreads : ∀ s s', s'.tenants = s.tenants → s'.available = s.available → P s → P s')
    (hpersist : ∀ s r, P s → P (s.persist tenant r).2) (hs : P s) :
    P (store.recompute settings now tenant entity actor request s).2 := by
  have hwrites (rs : List StateRecord) (s : MemoryStore) (hs : P s) :
      P (store.writeAll tenant rs s).2 := by
    induction rs generalizing s with
    | nil => exact hs
    | cons r rest ih =>
      have hs' := hpersist s r hs
      unfold EntityStore.writeAll
      rw [write_eq]
      cases (s.persist tenant r).1 with
      | ok _ => exact ih _ hs'
      | error err => exact hs'
  obtain ⟨ht, ha⟩ := run_reads (request.compute settings now tenant entity).run s
  have hs' := hreads _ _ ht ha hs
  unfold EntityStore.recompute
  generalize (request.compute settings now tenant entity).run.run store s = computed at hs' ⊢
  obtain ⟨answer, s'⟩ := computed
  cases answer with
  | error err => exact hs'
  | ok o => exact hwrites _ _ hs'

theorem Alike.writeAll (h : Alike tenant s s') (rs : List StateRecord) :
    (store.writeAll tenant rs s).1 = (store.writeAll tenant rs s').1 ∧
      Alike tenant (store.writeAll tenant rs s).2 (store.writeAll tenant rs s').2 := by
  induction rs generalizing s s' with
  | nil => exact ⟨rfl, h⟩
  | cons r rest ih =>
    obtain ⟨hanswer, hafter⟩ := h.persist r
    unfold EntityStore.writeAll
    rw [write_eq, write_eq, hanswer]
    cases (s'.persist tenant r).1 with
    | ok _ => exact ih hafter
    | error err => exact ⟨rfl, hafter⟩

theorem Alike.recompute (hs : s.Homed) (h : Alike tenant s s') :
    (store.recompute settings now tenant entity actor request s).1 =
        (store.recompute settings now tenant entity actor request s').1 ∧
      Alike tenant (store.recompute settings now tenant entity actor request s).2
        (store.recompute settings now tenant entity actor request s').2 := by
  obtain ⟨hanswer, hafter⟩ := h.run (request.within_compute settings now tenant entity) hs
  unfold EntityStore.recompute
  generalize (request.compute settings now tenant entity).run.run store s = computed
    at hanswer hafter ⊢
  generalize (request.compute settings now tenant entity).run.run store s' = computed'
    at hanswer hafter ⊢
  obtain ⟨answer, s₁⟩ := computed
  obtain ⟨answer', s₁'⟩ := computed'
  obtain rfl : answer = answer' := hanswer
  cases answer with
  | error err => exact ⟨rfl, hafter⟩
  | ok o =>
    obtain ⟨hwritten, hend⟩ := hafter.writeAll (o.records entity actor)
    exact ⟨congrArg (Except.map fun _ => o) hwritten, hend⟩

end Recompute

end MemoryStore

/-! ### One operation -/

namespace StoreOperation

variable {tenant : String} {s s' : MemoryStore} (op : StoreOperation)

/-- An operation that is for no other tenant. -/
theorem serve_alike (hop : op.tenant?.all (fun t => t = tenant) = true) (h : s.Alike tenant s') :
    (op.serve s).1 = (op.serve s').1 ∧ (op.serve s).2.Alike tenant (op.serve s').2 := by
  have hof {t : String} (ht : op.tenant? = some t) : t = tenant := by
    rw [ht] at hop
    exact of_decide_eq_true hop
  cases op with
  | insert e =>
    cases hof rfl
    exact ⟨rfl, .insert rfl rfl h.available (congrArg (·.insert e) h.table)⟩
  | relate t source type target =>
    cases hof rfl
    exact ⟨rfl, .insert rfl rfl h.available (congrArg (·.relate source type target) h.table)⟩
  | get t id =>
    cases hof rfl
    have hfound : s.get? tenant id = s'.get? tenant id := congrArg (·.entities.get? id) h.table
    exact ⟨congrArg StoreAnswer.entity hfound, h⟩
  | history t =>
    cases hof rfl
    have hpast : s.history tenant = s'.history tenant := congrArg TenantTable.history h.table
    exact ⟨congrArg StoreAnswer.records hpast, h⟩
  | fetch t ids =>
    cases hof rfl
    exact (h.fetch ids).imp (congrArg StoreAnswer.entities) id
  | relationships t id =>
    cases hof rfl
    exact (h.fetchRelationships id).imp (congrArg StoreAnswer.relationships) fun h => h
  | persist t r =>
    cases hof rfl
    exact (h.persist r).imp (congrArg StoreAnswer.persisted) id
  | setAvailable available => exact ⟨rfl, rfl, h.table⟩
  | setFetchDelay delay => exact ⟨rfl, h.available, h.table⟩
  | resetTraffic => exact ⟨rfl, h.available, h.table⟩

/-- An operation for another tenant. -/
theorem serve_other {other : String} (hop : op.tenant? = some other) (hne : other ≠ tenant)
    (s : MemoryStore) : (op.serve s).2.Alike tenant s := by
  cases op with
  | insert e =>
    cases hop
    exact .of_insert hne rfl rfl
  | relate t source type target =>
    cases hop
    exact .of_insert hne rfl rfl
  | get t id => exact ⟨rfl, rfl⟩
  | history t => exact ⟨rfl, rfl⟩
  | fetch t ids => exact .of_tenants (s.fetch_reads t ids).1 (s.fetch_reads t ids).2
  | relationships t id =>
    exact .of_tenants (s.fetchRelationships_reads t id).1 (s.fetchRelationships_reads t id).2
  | persist t r =>
    cases hop
    exact .persist_other hne s r
  | setAvailable available => exact nomatch hop
  | setFetchDelay delay => exact nomatch hop
  | resetTraffic => exact nomatch hop

theorem serve_homed (hs : s.Homed) : (op.serve s).2.Homed := by
  cases op with
  | insert e => exact hs.insert e
  | relate t source type target => exact hs.relate source type target
  | get t id => exact hs
  | history t => exact hs
  | fetch t ids => exact hs.of_tenants (s.fetch_reads t ids).1
  | relationships t id => exact hs.of_tenants (s.fetchRelationships_reads t id).1
  | persist t r => exact hs.persist r
  | setAvailable available => exact hs
  | setFetchDelay delay => exact hs
  | resetTraffic => exact hs

/-- What is shown to a tenant carries the tenant. -/
theorem serve_shown (hs : s.Homed) (hop : op.tenant? = some tenant) :
    ∀ e ∈ (op.serve s).1.shown, e.tenant = tenant := by
  intro e he
  cases op with
  | get t id =>
    cases hop
    exact hs tenant id e (Option.mem_toList.1 he)
  | fetch t ids =>
    cases hop
    have hfound {found : List Entity} (hok : (s.fetch tenant ids).1 = .ok found) :
        ∀ e ∈ found, e.tenant = tenant := hs.fetch hok
    change e ∈ (StoreAnswer.entities (s.fetch tenant ids).1).shown at he
    cases hanswer : (s.fetch tenant ids).1 with
    | ok found =>
      rw [hanswer] at he
      exact hfound hanswer e he
    | error err =>
      rw [hanswer] at he
      exact nomatch he
  | _ => exact nomatch he

end StoreOperation

namespace ServiceOperation

variable (settings : Settings) {tenant : String} {s s' : MemoryStore} (op : ServiceOperation)

theorem act_alike (hop : op.concerns tenant = true) (hs : s.Homed) (h : s.Alike tenant s') :
    (op.act settings s).1 = (op.act settings s').1 ∧
      (op.act settings s).2.Alike tenant (op.act settings s').2 := by
  cases op with
  | store op => exact (op.serve_alike hop h).imp (congrArg ServiceAnswer.store) id
  | recompute now t entity actor request =>
    obtain rfl : t = tenant := of_decide_eq_true hop
    exact (h.recompute settings now entity actor request hs).imp (congrArg ServiceAnswer.pass) id

theorem act_other (hop : op.concerns tenant = false) (s : MemoryStore) :
    (op.act settings s).2.Alike tenant s := by
  obtain ⟨other, hother, hne⟩ : ∃ other, op.tenant? = some other ∧ other ≠ tenant := by
    unfold concerns at hop
    cases htenant : op.tenant? with
    | none =>
      rw [htenant] at hop
      exact nomatch hop
    | some other =>
      rw [htenant] at hop
      exact ⟨other, rfl, of_decide_eq_false hop⟩
  cases op with
  | store op => exact op.serve_other hother hne s
  | recompute now t entity actor request =>
    cases hother
    refine MemoryStore.recompute_keeps settings now entity actor request
      (P := fun s₁ => s₁.Alike tenant s) (fun s₁ s₂ ht ha h => ?_) (fun s₁ r h => ?_) ⟨rfl, rfl⟩
    · exact (MemoryStore.Alike.of_tenants ht ha).trans h
    · exact (MemoryStore.Alike.persist_other hne s₁ r).trans h

theorem act_homed (hs : s.Homed) : (op.act settings s).2.Homed := by
  cases op with
  | store op => exact op.serve_homed hs
  | recompute now t entity actor request =>
    exact MemoryStore.recompute_keeps settings now entity actor request
      (P := MemoryStore.Homed) (fun s₁ s₂ ht _ h => h.of_tenants ht) (fun s₁ r h => h.persist r) hs

theorem act_shown (hs : s.Homed) (hop : op.tenant? = some tenant) :
    ∀ e ∈ (op.act settings s).1.shown, e.tenant = tenant := by
  cases op with
  | store op => exact op.serve_shown hs hop
  | recompute now t entity actor request => exact fun e he => nomatch he

end ServiceOperation

/-! ### Runs -/

/-- Every entity of a fixture belongs to the tenant that it stands under. -/
theorem Fixture.homed (fixture : Fixture) : fixture.store.Homed := by
  intro tenant id e he
  unfold MemoryStore.get? MemoryStore.table store at he
  rw [Dict.get?_map] at he
  cases ht : fixture.tenants.get? tenant with
  | none =>
    rw [ht] at he
    exact nomatch he
  | some t =>
    rw [ht] at he
    obtain ⟨e₀, -, heq⟩ := List.mem_map.1 (Dict.mem_of_get?_ofList he)
    cases heq
    rfl

theorem MemoryStore.Homed.restamp {s : MemoryStore} (hs : s.Homed) (f : String → String) :
    (s.restamp f).Homed := by
  intro tenant id e he
  rw [get?_restamp] at he
  obtain ⟨e₀, he₀, rfl⟩ := Option.map_eq_some_iff.1 he
  exact hs tenant id e₀ he₀

namespace ServiceOperation

variable (settings : Settings) {f : String → String} {tenant : String} {v v' : ComputationService}
  (op : ServiceOperation)

theorem concerns_restamp : (op.restamp f).concerns tenant = op.concerns tenant := by
  unfold concerns
  rw [tenant?_restamp]

theorem serve_homed (hv : v.store.Homed) : (op.serve settings v).2.store.Homed := by
  rw [(op.serve_eq settings v).2]
  exact op.act_homed settings hv

theorem serve_shown (hv : v.store.Homed) (hop : op.tenant? = some tenant) :
    ∀ e ∈ (op.serve settings v).1.shown, e.tenant = tenant := by
  rw [(op.serve_eq settings v).1]
  exact op.act_shown settings hv hop

/-- One operation for a tenant at two times. -/
theorem serve_alike {op' : ServiceOperation} (hsame : op'.restamp f = op.restamp f)
    (hop : op.concerns tenant = true) (hv : v.store.Homed)
    (h : (v.store.restamp f).Alike tenant (v'.store.restamp f)) :
    (op.serve settings v).1.restamp f = (op'.serve settings v').1.restamp f ∧
      ((op.serve settings v).2.store.restamp f).Alike tenant
        ((op'.serve settings v').2.store.restamp f) := by
  have hconcerns : (op.restamp f).concerns tenant = true := op.concerns_restamp.trans hop
  have hact := (op.restamp f).act_alike settings hconcerns (hv.restamp f) h
  have hact' := op'.act_restamp settings f v'.store
  rw [hsame] at hact'
  rw [op.act_restamp, hact'] at hact
  obtain ⟨hanswer, hstore⟩ := op.serve_eq settings v
  obtain ⟨hanswer', hstore'⟩ := op'.serve_eq settings v'
  rw [hanswer, hanswer', hstore, hstore']
  exact hact

theorem serve_other (hop : op.concerns tenant = false) :
    ((op.serve settings v).2.store.restamp f).Alike tenant (v.store.restamp f) := by
  have hconcerns : (op.restamp f).concerns tenant = false := op.concerns_restamp.trans hop
  have hact := (op.restamp f).act_other settings hconcerns (v.store.restamp f)
  rw [op.act_restamp] at hact
  rw [(op.serve_eq settings v).2]
  exact hact

end ServiceOperation

namespace ComputationService

variable (settings : Settings)

theorem serveAll_cons (op : ServiceOperation) (rest : List ServiceOperation)
    (v : ComputationService) : v.serveAll settings (op :: rest) =
      ((op, (op.serve settings v).1) :: ((op.serve settings v).2.serveAll settings rest).1,
        ((op.serve settings v).2.serveAll settings rest).2) := rfl

/-- The invariant of a run: entities carry their tenants, and so do those that are shown. -/
theorem serveAll_homed (ops : List ServiceOperation) {v : ComputationService}
    (hv : v.store.Homed) : (v.serveAll settings ops).2.store.Homed ∧
      ∀ x ∈ (v.serveAll settings ops).1, ∀ tenant, x.1.tenant? = some tenant →
        ∀ e ∈ x.2.shown, e.tenant = tenant := by
  induction ops generalizing v with
  | nil => exact ⟨hv, fun x hx => nomatch hx⟩
  | cons op rest ih =>
    obtain ⟨hend, hrest⟩ := ih (op.serve_homed settings hv)
    rw [serveAll_cons]
    refine ⟨hend, fun x hx tenant hop => ?_⟩
    rcases List.mem_cons.1 hx with rfl | hx
    · exact op.serve_shown settings hv hop
    · exact hrest x hx tenant hop

variable {f : String → String} {tenant : String}

/-- Two runs whose operations for a tenant are the same up to timestamps, from stores that look
    alike to the tenant up to timestamps. -/
theorem serveAll_alike {ops alone : List ServiceOperation}
    (halone : alone.map (·.restamp f) = (ops.filter (·.concerns tenant)).map (·.restamp f))
    (v v' : ComputationService) (hv : v.store.Homed)
    (h : (v.store.restamp f).Alike tenant (v'.store.restamp f)) :
    ((v.serveAll settings ops).1.filter fun x => x.1.concerns tenant).map (fun x =>
        x.2.restamp f) = (v'.serveAll settings alone).1.map (fun x => x.2.restamp f) ∧
      ((v.serveAll settings ops).2.store.restamp f).Alike tenant
        ((v'.serveAll settings alone).2.store.restamp f) := by
  induction ops generalizing alone v v' with
  | nil =>
    cases List.map_eq_nil_iff.1 halone
    exact ⟨rfl, h⟩
  | cons op rest ih =>
    have hnext := op.serve_homed settings hv
    rw [serveAll_cons]
    cases hop : op.concerns tenant with
    | false =>
      -- The operation takes place in the first run only.
      have hnot : ¬ op.concerns tenant = true := Bool.eq_false_iff.1 hop
      rw [List.filter_cons_of_neg hnot] at halone
      rw [List.filter_cons, if_neg hnot]
      exact ih halone _ v' hnext ((op.serve_other settings hop).trans h)
    | true =>
      -- It takes place in both, at two times.
      rw [List.filter_cons_of_pos hop, List.map_cons] at halone
      obtain ⟨op', rest', rfl, hsame, hrest'⟩ := List.map_eq_cons_iff.1 halone
      obtain ⟨hanswer, hafter⟩ := op.serve_alike settings hsame hop hv h
      obtain ⟨hanswers, hend⟩ := ih hrest' _ _ hnext hafter
      rw [serveAll_cons, List.filter_cons, if_pos hop, List.map_cons, List.map_cons]
      exact ⟨congrArg₂ List.cons hanswer hanswers, hend⟩

/-- Operations of other tenants and the time on the clock change nothing for a tenant but
    timestamps, and entities that are stored or shown carry the tenant.  `f` says which timestamps
    are taken for the same: with the identity only equal ones are, with a constant all are.  What
    formulas passes have read before does not matter. -/
theorem tenant_isolated (fixture : Fixture) (settings : Settings) (f : String → String)
    (tenant : String) (ops alone : List ServiceOperation)
    (halone : alone.map (·.restamp f) = (ops.filter (·.concerns tenant)).map (·.restamp f))
    (cache cache' : ParseCache) :
    let run := serveAll settings ops ⟨fixture.store, cache⟩
    let run' := serveAll settings alone ⟨fixture.store, cache'⟩
    (run.1.filter fun x => x.1.concerns tenant).map (fun x => x.2.restamp f) =
        run'.1.map (fun x => x.2.restamp f) ∧
      (run.2.store.table tenant).restamp f = (run'.2.store.table tenant).restamp f ∧
      (∀ t id e, run.2.store.get? t id = some e → e.tenant = t) ∧
      ∀ x ∈ run.1, ∀ t, x.1.tenant? = some t → ∀ e ∈ x.2.shown, e.tenant = t := by
  intro run run'
  have hhomed : (⟨fixture.store, cache⟩ : ComputationService).store.Homed := fixture.homed
  obtain ⟨hend, hshown⟩ := serveAll_homed settings ops hhomed
  obtain ⟨hanswers, hafter⟩ := serveAll_alike settings halone ⟨fixture.store, cache⟩
    ⟨fixture.store, cache'⟩ hhomed ⟨rfl, rfl⟩
  refine ⟨hanswers, ?_, hend, hshown⟩
  rw [← MemoryStore.table_restamp, ← MemoryStore.table_restamp]
  exact hafter.table

/-! ### Two tenants with one service -/

/-- A tenant's entity.  Tenants may use the same ids. -/
def desk (tenant : String) : Entity :=
  Entity.withProperty { id := "desk", tenant, typePath := "thing" }
    (.computed { name := "label", expression := "\"oak\"" })

def relabelling (now tenant : String) : ServiceOperation :=
  .recompute now tenant "desk" "clerk" (.asStored .stale)

/-- Both tenants put a desk and recompute it; the second one can then ask for its own desk only. -/
def sharing : List ServiceOperation := [
  .store (.insert (desk "north")), .store (.insert (desk "south")), relabelling "noon" "south",
  relabelling "dusk" "north", .store (.fetch "north" ["desk"])]

/-- What one of them does, at another time. -/
def lonely : List ServiceOperation := [
  .store (.insert (desk "north")), relabelling "dawn" "north", .store (.fetch "north" ["desk"])]

/-- A tenant with and without the other one: the records differ in their times and in nothing
    else. -/
theorem sharing_isolated :
    let run := serveAll {} sharing {}
    let run' := serveAll {} lonely {}
    (run.2.store.history "north").map (·.evaluatedAt) = [some "dusk"] ∧
      (run'.2.store.history "north").map (·.evaluatedAt) = [some "dawn"] ∧
      (run.2.store.history "north").map (StateRecord.restamp fun _ => "") =
        (run'.2.store.history "north").map (StateRecord.restamp fun _ => "") := by
  refine ⟨by decide +kernel, by decide +kernel, ?_⟩
  obtain ⟨-, htable, -⟩ := tenant_isolated {} {} (fun _ => "") "north" sharing lonely rfl {} {}
  rw [show ({} : Fixture).store = {} from rfl, ← MemoryStore.table_restamp,
    ← MemoryStore.table_restamp] at htable
  rw [← MemoryStore.history_restamp, ← MemoryStore.history_restamp]
  exact congrArg TenantTable.history htable

end ComputationService

end EntityFormulas
