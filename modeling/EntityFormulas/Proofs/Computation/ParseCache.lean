/-
  EntityFormulas/Proofs/Computation/ParseCache.lean
  =================================================
  **Formulas that have been read before.**

  Passes over any entities of any tenants may share a cache of the formulas that
  they have read, by their text.  Reading a formula needs nothing but its text,
  and a `ParseCache` carries that every entry is what its text reads as.  So a
  pass that reads through a cache does what one without it does
  (`ComputationService.recompute_eq`): the cache is seen by nobody.
-/
import EntityFormulas.Computation.Service
import EntityFormulas.Store.Memory

namespace EntityFormulas

/-! ### The cache -/

/-- What formulas read as, or why they cannot be read, by their text. -/
structure ParseCache where
  read : Dict (Except ParseError Expression) := .empty
  /-- An entry is what its text reads as. -/
  faithful : ∀ text r, read.get? text = some r → r = Expression.parse text := by
    intro _ _ h
    cases h

namespace ParseCache

/-- What a text reads as: its entry, and without one the text is read and entered. -/
def parse (c : ParseCache) (text : String) : Except ParseError Expression × ParseCache :=
  match c.read.get? text with
  | some r => (r, c)
  | none => (Expression.parse text, {
      read := c.read.insert text (Expression.parse text)
      faithful := fun t r h => by
        rw [Dict.get?_insert] at h
        split at h
        next heq => cases h; rw [heq]
        next => exact c.faithful t r h })

/-- The formulas of properties, one after another. -/
def formulas : List ComputedProperty → ParseCache →
    List (String × Except ParseError Expression) × ParseCache
  | [], c => ([], c)
  | p :: rest, c =>
    let (r, c) := c.parse p.expression
    let (rs, c) := c.formulas rest
    ((p.name, r) :: rs, c)

theorem parse_fst (c : ParseCache) (text : String) :
    (c.parse text).1 = Expression.parse text := by
  unfold parse
  cases h : c.read.get? text with
  | none => rfl
  | some r => exact c.faithful text r h

theorem formulas_fst (ps : List ComputedProperty) (c : ParseCache) :
    (c.formulas ps).1 = ps.map fun p => (p.name, Expression.parse p.expression) := by
  induction ps generalizing c with
  | nil => rfl
  | cons p rest ih =>
    show (p.name, (c.parse p.expression).1) :: ((c.parse p.expression).2.formulas rest).1 = _
    rw [parse_fst, ih]
    rfl

end ParseCache

/-! ### Passes through the cache -/

/-- Recomputes the selected properties, reading their formulas through the cache. -/
def Entity.recomputeCached (settings : Settings) (now : String) (scope : Scope) (e : Entity)
    (cache : ParseCache) : Lookup (PassOutcome × ParseCache) :=
  let selection := Selection.ofEntity scope e
  let start : PassOutcome := ⟨e.properties, []⟩
  if selection.isEmpty then return (start, cache)
  else do
    let (read, cache) := cache.formulas selection.computed
    let formulas := Dict.ofList read
    let pending := Dict.ofList (formulas.entries.filterMap fun (name, f) =>
      f.toOption.map (name, ·))
    let gathered ← (EvaluationContext.gather settings e pending.values).run
    return ((match gathered with
      | .ok ctx =>
        let (ctx, o) := Selection.resolve now selection.inherited { ctx with pending } start
        Selection.evaluate now ctx formulas.entries {} o
      | .error err => selection.failed err.message start).inOrder, cache)

/-- Loads an entity and recomputes it, reading its formulas through the cache. -/
def Request.computeCached (settings : Settings) (now tenant entity : String) (request : Request)
    (cache : ParseCache) : Fetch (PassOutcome × ParseCache) := do
  let e ← Fetch.entity tenant entity
  match request with
  | .asStored scope => ExceptT.lift (e.recomputeCached settings now scope cache)
  | .marked names => ExceptT.lift ((e.markStale names).recomputeCached settings now .stale cache)

/-- What serves the passes over a store: the store, and the formulas that passes have read. -/
structure ComputationService where
  store : MemoryStore := {}
  cache : ParseCache := {}

/-- Loads, recomputes and writes back one entity.  A pass that cannot load its entity reads no
    formula. -/
def ComputationService.recompute (settings : Settings) (now tenant entity actor : String)
    (request : Request) (v : ComputationService) :
    Except PassError PassOutcome × ComputationService :=
  match (request.computeCached settings now tenant entity v.cache).run.run MemoryStore.store
      v.store with
  | (.error e, store) => (.error (.load e), { v with store })
  | (.ok (o, cache), store) =>
    let (written, store) := MemoryStore.store.writeAll tenant (o.records entity actor) store
    (written.map fun _ => o, ⟨store, cache⟩)

/-! ### The cache is not seen -/

theorem Entity.recomputeCached_eq (settings : Settings) (now : String) (scope : Scope) (e : Entity)
    (cache : ParseCache) : ∃ cache', e.recomputeCached settings now scope cache =
      (e.recompute settings now scope).bind fun o => .done (o, cache') := by
  unfold recomputeCached recompute
  dsimp only
  rw [ParseCache.formulas_fst]
  split
  · exact ⟨cache, rfl⟩
  · refine ⟨(cache.formulas (Selection.ofEntity scope e).computed).2,
      Eq.trans ?_ (Lookup.bind_assoc ..).symm⟩
    refine congrArg (Lookup.bind _) (funext fun gathered => ?_)
    cases gathered with
    | ok ctx => rfl
    | error err => rfl

theorem Request.run_computeCached {σ : Type} (settings : Settings) (now tenant entity : String)
    (request : Request) (cache : ParseCache) (store : EntityStore σ) (s : σ) : ∃ cache',
      (request.computeCached settings now tenant entity cache).run.run store s =
        (((request.compute settings now tenant entity).run.run store s).1.map (·, cache'),
          ((request.compute settings now tenant entity).run.run store s).2) := by
  have hrun {α : Type} (k : Entity → Fetch α) : (Fetch.entity tenant entity >>= k).run.run store s =
      (ExceptT.bindCont k ((Fetch.entity tenant entity).run.run store s).1).run store
        ((Fetch.entity tenant entity).run.run store s).2 := Lookup.run_bind ..
  have hlift {α : Type} (m : Lookup α) (s : σ) : (ExceptT.lift m : Fetch α).run.run store s =
      (.ok (m.run store s).1, (m.run store s).2) := Lookup.run_bind store m _ s
  unfold computeCached compute
  rw [hrun, hrun]
  obtain ⟨loaded, s'⟩ := (Fetch.entity tenant entity).run.run store s
  cases loaded with
  | error err => exact ⟨cache, rfl⟩
  | ok e =>
    have hpass (scope : Scope) (e : Entity) : ∃ cache',
        (ExceptT.lift (e.recomputeCached settings now scope cache) : Fetch _).run.run store s' =
          (((ExceptT.lift (e.recompute settings now scope) : Fetch _).run.run store s').1.map
            (·, cache'),
          ((ExceptT.lift (e.recompute settings now scope) : Fetch _).run.run store s').2) := by
      obtain ⟨cache', heq⟩ := e.recomputeCached_eq settings now scope cache
      refine ⟨cache', ?_⟩
      rw [heq, hlift, hlift, Lookup.run_bind]
      rfl
    cases request with
    | asStored scope => exact hpass scope e
    | marked names => exact hpass .stale (e.markStale names)

/-- A pass through the cache answers as one without it does and leaves the same store. -/
theorem ComputationService.recompute_eq (settings : Settings) (now tenant entity actor : String)
    (request : Request) (v : ComputationService) :
    (v.recompute settings now tenant entity actor request).1 =
        (MemoryStore.store.recompute settings now tenant entity actor request v.store).1 ∧
      (v.recompute settings now tenant entity actor request).2.store =
        (MemoryStore.store.recompute settings now tenant entity actor request v.store).2 := by
  obtain ⟨cache', heq⟩ := request.run_computeCached settings now tenant entity v.cache
    MemoryStore.store v.store
  unfold recompute EntityStore.recompute
  rw [heq]
  obtain ⟨answer, s⟩ :=
    (request.compute settings now tenant entity).run.run MemoryStore.store v.store
  cases answer with
  | error err => exact ⟨rfl, rfl⟩
  | ok o => exact ⟨rfl, rfl⟩

end EntityFormulas
