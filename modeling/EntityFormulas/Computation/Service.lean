/-
  EntityFormulas/Computation/Service.lean
  =======================================
  **Passes over stored entities.**

  An entity is loaded, recomputed and written back, one record for each result
  in their order.  Only loading and writing can fail as a whole; the first
  record that the store refuses ends the writing, and what is written stays.
-/
import EntityFormulas.Computation.Pass
import EntityFormulas.Store.Record

namespace EntityFormulas

/-- Why a pass over a stored entity failed as a whole. -/
inductive PassError where
  | load (cause : StoreError)
  | persist (entity property : String) (cause : StoreError)
deriving DecidableEq, Repr

def PassError.message : PassError → String
  | .load cause => cause.message
  | .persist entity property cause =>
    "failed to persist " ++ entity ++ "." ++ property ++ ": " ++ cause.message

/-! ### Preparing -/

/-- Marks the properties under these names stale; names without a property do not matter. -/
def Entity.markStale (e : Entity) (names : List String) : Entity :=
  let marked := names.foldl (fun ps name => ps.modify name Property.markStale) e.properties
  { e with properties := marked }

/-- How a pass prepares the entity it has loaded. -/
inductive Request where
  /-- Recomputes the entity as it is stored. -/
  | asStored (scope : Scope)
  /-- Marks these properties stale first, then recomputes all that are. -/
  | marked (names : List String)

/-- Loads an entity and recomputes it. -/
def Request.compute (settings : Settings) (now tenant entity : String) (request : Request) :
    Fetch PassOutcome := do
  let e ← Fetch.entity tenant entity
  match request with
  | .asStored scope => ExceptT.lift (e.recompute settings now scope)
  | .marked names => ExceptT.lift ((e.markStale names).recompute settings now .stale)

/-! ### Writing -/

/-- The records that write an outcome back. -/
def PassOutcome.records (entity actor : String) (o : PassOutcome) : List StateRecord :=
  o.results.map fun r =>
    { entity
      property := r.name
      status := r.status
      value := (o.properties.get? r.name).bind Property.current
      evaluatedAt := r.evaluatedAt
      error := r.error
      actor }

namespace EntityStore

variable {σ : Type}

/-- Writes one record. -/
def write (store : EntityStore σ) (tenant : String) (r : StateRecord) (s : σ) :
    Except PassError Unit × σ :=
  let (answer, s) := store.persist tenant r s
  (answer.mapError (.persist r.entity r.property), s)

/-- Writes records until the store refuses one. -/
def writeAll (store : EntityStore σ) (tenant : String) : List StateRecord → σ →
    Except PassError Unit × σ
  | [], s => (.ok (), s)
  | r :: rest, s =>
    match store.write tenant r s with
    | (.ok _, s) => store.writeAll tenant rest s
    | (.error e, s) => (.error e, s)

/-- Loads, recomputes and writes back one entity, without anything in between. -/
def recompute (store : EntityStore σ) (settings : Settings) (now tenant entity actor : String)
    (request : Request) (s : σ) : Except PassError PassOutcome × σ :=
  match (request.compute settings now tenant entity).run.run store s with
  | (.error e, s) => (.error (.load e), s)
  | (.ok o, s) =>
    let (written, s) := store.writeAll tenant (o.records entity actor) s
    (written.map fun _ => o, s)

end EntityStore

/-! ### Definitions -/

/-- A new computed property.  What its formula reads is recorded with it. -/
def ComputedProperty.define (name expression : String) : Except ParseError ComputedProperty :=
  (Expression.parse expression).map fun e => { name, expression, dependencies := e.dependencyPaths }

end EntityFormulas
