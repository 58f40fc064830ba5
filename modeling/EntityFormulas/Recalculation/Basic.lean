/-
  EntityFormulas/Recalculation/Basic.lean
  =======================================
  **Notifications, events and reports.**

  Others notify that a property has become stale.  Recalculation publishes an
  event for every property it has recomputed and written, counts what it does,
  and reports what came of a drain.
-/
import EntityFormulas.Computation.Service

namespace EntityFormulas

/-- An entity of a tenant. -/
structure EntityKey where
  tenant : String
  entity : String
deriving DecidableEq, Repr

/-- A property whose value is no longer up to date. -/
structure Notification where
  key : EntityKey
  property : String
deriving DecidableEq, Repr

/-! ### Events -/

/-- A property was recomputed and written. -/
structure RecomputedEvent where
  key : EntityKey
  property : String
  status : Status
  value : Option Value

namespace RecomputedEvent

/-- The event for a result of a pass. -/
def ofResult (key : EntityKey) (r : PropertyResult) : RecomputedEvent :=
  { key, property := r.name, status := r.status, value := r.value }

def toJson (e : RecomputedEvent) : Json :=
  .object ([("tenant_id", .text e.key.tenant), ("entity_id", .text e.key.entity),
    ("property_name", .text e.property), ("status", e.status.toJson)] ++
    Json.optional "value" (e.value.map Value.toJson))

end RecomputedEvent

/-! ### Counts -/

/-- What a handler has done so far. -/
structure HandlerStats where
  notifications : Nat := 0
  /-- Notifications of properties on a cycle, which are left alone. -/
  skippedCircular : Nat := 0
  passes : Nat := 0
  failures : Nat := 0
deriving DecidableEq, Repr

def HandlerStats.toJson (s : HandlerStats) : Json :=
  .object [("notifications", .count s.notifications),
    ("skipped_circular", .count s.skippedCircular), ("passes", .count s.passes),
    ("failures", .count s.failures)]

/-- What came of a drain. -/
structure DrainReport where
  /-- The entities taken off the queue. -/
  entities : Nat := 0
  /-- The results written back. -/
  recomputed : Nat := 0
  /-- The results that are not valid. -/
  propertyErrors : Nat := 0
  /-- The entities whose pass failed as a whole. -/
  failedEntities : Nat := 0
deriving DecidableEq, Repr

namespace DrainReport

/-- Adds the pass over one entity. -/
def add (result : Except PassError PassOutcome) (d : DrainReport) : DrainReport :=
  match result with
  | .ok o =>
    { d with
      entities := d.entities + 1
      recomputed := d.recomputed + o.results.length
      propertyErrors := d.propertyErrors + o.results.countP fun r => r.error.isSome }
  | .error _ => { d with entities := d.entities + 1, failedEntities := d.failedEntities + 1 }

def toJson (d : DrainReport) : Json :=
  .object [("entities", .count d.entities), ("recomputed", .count d.recomputed),
    ("property_errors", .count d.propertyErrors), ("failed_entities", .count d.failedEntities)]

end DrainReport

/-! ### The cycle of an entity -/

/-- Where an entity is in the cycle of recalculation. -/
inductive BatchState where
  | idle
  /-- Waiting in the queue. -/
  | pendingBatch
  /-- Taken off the queue by a drain that has not finished with it. -/
  | flushing
deriving DecidableEq, Repr

def BatchState.name : BatchState → String
  | .idle => "idle"
  | .pendingBatch => "pending_batch"
  | .flushing => "flushing"

end EntityFormulas
