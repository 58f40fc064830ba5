/-
  EntityFormulas/Store/Record.lean
  ================================
  **The effect of a state record on a property, and its JSON form.**

  A record replaces the value and the error of a derived property even where
  the record has none.  The time of a computed value stays when the record has
  no time.
-/
import EntityFormulas.Entity.Json
import EntityFormulas.Store.Basic

namespace EntityFormulas

/-- The property with the state of the record; literal and measured ones have no state. -/
def Property.withState (r : StateRecord) : Property → Option Property
  | .computed p =>
    some (.computed { p with
      status := r.status, cached := r.value, cachedAt := r.evaluatedAt.or p.cachedAt,
      error := r.error })
  | .inherited p =>
    some (.inherited { p with status := r.status, resolved := r.value, error := r.error })
  | .literal _ | .measured _ => none

namespace Entity

/-- The number of versions before counting starts anew: as many as 64 bits tell apart. -/
def versionCount : Nat := 18446744073709551616

/-- The version after the next write. -/
def nextVersion (e : Entity) : Nat := (e.version + 1) % versionCount

/-- The entity after a record has been written to it. -/
def withState (r : StateRecord) (e : Entity) : Except StoreError Entity :=
  match e.property? r.property with
  | none => .error (.propertyNotFound r.entity r.property)
  | some p =>
    match p.withState r with
    | none => .error (.notComputed r.entity r.property)
    | some p =>
      .ok { e with properties := e.properties.insert r.property p, version := e.nextVersion }

end Entity

namespace StateRecord

/-- A record that only moves the status. -/
def statusOnly (entity property : String) (status : Status) (value : Option Value)
    (actor : String) : StateRecord :=
  { entity, property, status, value, actor }

/-- Absent parts are written as null. -/
def toJson (r : StateRecord) : Json :=
  .object [("entity_id", .text r.entity), ("property_name", .text r.property),
    ("status", r.status.toJson), ("cached_value", Json.orNull (r.value.map Value.toJson)),
    ("evaluated_at", Json.orNull (r.evaluatedAt.map .text)),
    ("error", Json.orNull (r.error.map .text)), ("actor", .text r.actor)]

def ofJson? (j : Json) : Option StateRecord := do
  let [entity, property, status, value, evaluatedAt, error, actor] ← j.fields?
    ["entity_id", "property_name", "status", "cached_value", "evaluated_at", "error", "actor"]
    | none
  some {
    entity := ← Json.required Json.asText? entity
    property := ← Json.required Json.asText? property
    status := ← Json.required (Status.ofJson? .document) status
    value := ← Json.nullable (Value.ofJson? .document) value
    evaluatedAt := ← Json.nullable Json.asText? evaluatedAt
    error := ← Json.nullable Json.asText? error
    actor := ← Json.required Json.asText? actor }

end StateRecord

end EntityFormulas
