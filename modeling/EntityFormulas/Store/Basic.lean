/-
  EntityFormulas/Store/Basic.lean
  ===============================
  **What a store of entities is.**

  A store keeps the entities and relationships of every tenant.  The engine
  reads entities by id, reads the relationships of one entity, and writes the
  computed state of one property; nothing else.  Each call may fail, and each
  may change the store.

  Every call is scoped to one tenant, whose data alone it may show.
-/
import EntityFormulas.Entity.Basic

namespace EntityFormulas

/-! ### Failures -/

/-- Why a call on a store failed. -/
inductive StoreError where
  | entityNotFound (tenant entity : String)
  | propertyNotFound (entity property : String)
  /-- The property has no computed state: it is literal or measured. -/
  | notComputed (entity property : String)
  /-- A failure of the store's own. -/
  | backend (message : String)
deriving DecidableEq, Repr

namespace StoreError

def message : StoreError → String
  | .entityNotFound tenant entity => "entity not found: " ++ tenant ++ "/" ++ entity
  | .propertyNotFound entity property => "property not found: " ++ entity ++ "." ++ property
  | .notComputed entity property => "property " ++ entity ++ "." ++ property ++ " is not computed"
  | .backend message => "storage backend error: " ++ message

end StoreError

/-! ### Records -/

/-- The computed state of one property, as it is written to a store. -/
structure StateRecord where
  entity : String
  property : String
  status : Status
  /-- The value from now on; `none` means that there is none, not that the old one stays. -/
  value : Option Value := none
  /-- When the value was computed; only successful computations have it. -/
  evaluatedAt : Option String := none
  error : Option String := none
  /-- Who asked for the computation. -/
  actor : String

/-! ### Stores -/

/-- The calls on a store whose states are `σ`. -/
structure EntityStore (σ : Type) where
  /-- The entities with these ids.  Ids without an entity are left out. -/
  fetch : (tenant : String) → (ids : List String) → σ → Except StoreError (List Entity) × σ
  /-- The relationships of an entity; an unknown entity has none. -/
  relationships : (tenant id : String) → σ → Except StoreError Relationships × σ
  /-- Writes the computed state of a property and makes the version of its entity one larger. -/
  persist : (tenant : String) → StateRecord → σ → Except StoreError Unit × σ
  /-- How many milliseconds pass before entities that were fetched arrive. -/
  latency : σ → Nat := fun _ => 0

/-! ### Single entities -/

/-- The entity with that id among those fetched. -/
def StoreError.pickEntity (tenant id : String) (found : List Entity) : Except StoreError Entity :=
  match found.find? fun e => e.id = id with
  | some e => .ok e
  | none => .error (.entityNotFound tenant id)

/-- Fetches one entity, which must exist. -/
def EntityStore.fetchOne {σ : Type} (store : EntityStore σ) (tenant id : String) (s : σ) :
    Except StoreError Entity × σ :=
  let (found, s) := store.fetch tenant [id] s
  (found.bind (StoreError.pickEntity tenant id), s)

end EntityFormulas
