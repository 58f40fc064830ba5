/-
  EntityFormulas/Entity/Json.lean
  ===============================
  **Values, properties and entities as JSON.**

  Absent options are left out.  A value is an object with its type as tag, a
  property one with its source as tag.
-/
import EntityFormulas.Entity.Basic
import EntityFormulas.Json.Decoder
import EntityFormulas.Json.Outline

namespace EntityFormulas

namespace ValueType

def all : List ValueType :=
  [text, number, boolean, dateTime, duration, reference, list, record, any]

def ofName? (s : String) : Option ValueType := all.find? fun t => t.name = s

/-- Reads the type of the items of a list, which is always part of a value. -/
def ofJson? (j : Json) : Option ValueType := (j.asName? .tagged).bind ofName?

end ValueType

namespace Status

def toJson (s : Status) : Json := .text s.name

def ofName? (s : String) : Option Status := all.find? fun t => t.name = s

def ofJson? (place : Json.Place) (j : Json) : Option Status := (j.asName? place).bind ofName?

end Status

namespace Value

mutual

def toJson : Value → Json
  | .text s => .object [("type", .text "text"), ("value", .text s)]
  | .number q =>
    .object ([("type", .text "number"), ("value", .real q.value)] ++
      Json.optional "dimension" (q.dimension.map .text) ++ Json.optional "unit" (q.unit.map .text))
  | .boolean b => .object [("type", .text "boolean"), ("value", .bool b)]
  | .dateTime s => .object [("type", .text "datetime"), ("value", .text s)]
  | .duration s => .object [("type", .text "duration"), ("value", .text s)]
  | .reference id type =>
    .object ([("type", .text "reference"), ("entity_id", .text id)] ++
      Json.optional "entity_type" (type.map .text))
  | .list elementType items =>
    .object [("type", .text "list"), ("element_type", .text elementType.name),
      ("items", .array (itemsToJson items))]
  | .record fields => .object [("type", .text "record"), ("fields", .object (fieldsToJson fields))]

def itemsToJson : List Value → List Json
  | [] => []
  | v :: rest => toJson v :: itemsToJson rest

def fieldsToJson : List (String × Value) → List (String × Json)
  | [] => []
  | (name, v) :: rest => (name, toJson v) :: fieldsToJson rest

end

/-- The tags of values, in the order of their declaration. -/
def tags : List String :=
  ["text", "number", "boolean", "datetime", "duration", "reference", "list", "record"]

/-- Reads the one member of a value whose data is a single text. -/
def content? (data : Json) : Option String := do
  let [value] ← data.fields? ["value"] | none
  Json.required Json.asText? value

/-- Reads the data of a value with the given tag; `item?` reads the values inside it. -/
def ofTag? (item? : Json → Option Value) (tag : String) (data : Json) : Option Value :=
  match tag with
  | "text" => (content? data).map .text
  | "number" => do
    let [value, dimension, unit] ← data.fields? ["value", "dimension", "unit"] | none
    some (.number ⟨← Json.required Json.asReal? value, ← Json.nullable Json.asText? dimension,
      ← Json.nullable Json.asText? unit⟩)
  | "boolean" => do
    let [value] ← data.fields? ["value"] | none
    (Json.required Json.asBool? value).map .boolean
  | "datetime" => (content? data).map .dateTime
  | "duration" => (content? data).map .duration
  | "reference" => do
    let [id, type] ← data.fields? ["entity_id", "entity_type"] | none
    some (.reference (← Json.required Json.asText? id) (← Json.nullable Json.asText? type))
  | "list" => do
    let [elementType, items] ← data.fields? ["element_type", "items"] | none
    some (.list (← Json.required ValueType.ofJson? elementType)
      (← Json.required (Json.asList? item?) items))
  | "record" => do
    let [fields] ← data.fields? ["fields"] | none
    (Json.required (Json.asEntries? item?) fields).map .record
  | _ => none

/-- Reads a value from a tree of at most the given height. -/
def ofJsonWithin? (place : Json.Place) : (height : Nat) → Json → Option Value
  | 0, _ => none
  | height + 1, j => do
    let (tag, data) ← j.tagged? "type"
    ofTag? (ofJsonWithin? .tagged height) (← Json.tagName? tags place tag) data

/-- Reads a value. -/
def ofJson? (place : Json.Place) (j : Json) : Option Value := ofJsonWithin? place j.height j

end Value

namespace Property

def toJson : Property → Json
  | .literal p =>
    .object [("source", .text "literal"), ("name", .text p.name), ("value", p.value.toJson)]
  | .inherited p =>
    .object ([("source", .text "inherited"), ("name", .text p.name),
        ("from_entity", .text p.source)] ++
      Json.optional "from_property" (p.sourceName.map .text) ++
      Json.optional "override" (p.override.map Value.toJson) ++
      Json.optional "resolved_value" (p.resolved.map Value.toJson) ++
      [("status", p.status.toJson)] ++ Json.optional "error" (p.error.map .text))
  | .computed p =>
    .object ([("source", .text "computed"), ("name", .text p.name),
        ("expression", .text p.expression), ("dependencies", .texts p.dependencies)] ++
      Json.optional "cached_value" (p.cached.map Value.toJson) ++
      Json.optional "cached_at" (p.cachedAt.map .text) ++
      [("status", p.status.toJson)] ++ Json.optional "error" (p.error.map .text))
  | .measured p =>
    .object ([("source", .text "measured"), ("name", .text p.name), ("value", p.value.toJson)] ++
      Json.optional "uncertainty" (p.uncertainty.map .real) ++
      Json.optional "measurement_record" (p.record.map .text) ++
      Json.optional "measured_at" (p.measuredAt.map .text))

/-- The tags of properties, in the order of their declaration. -/
def tags : List String := ["literal", "inherited", "computed", "measured"]

/-- Reads a value that a property holds. -/
def heldValue? : Json → Option Value := Value.ofJson? .tagged

/-- Reads the status that a property holds. -/
def heldStatus? : Json → Option Status := Status.ofJson? .tagged

/-- Reads the data of a property with the given tag. -/
def ofTag? (tag : String) (data : Json) : Option Property :=
  match tag with
  | "literal" => do
    let [name, value] ← data.fields? ["name", "value"] | none
    some (.literal ⟨← Json.required Json.asText? name, ← Json.required heldValue? value⟩)
  | "inherited" => do
    let [name, source, sourceName, override, resolved, status, error] ←
      data.fields? ["name", "from_entity", "from_property", "override", "resolved_value", "status",
        "error"] | none
    some (.inherited ⟨← Json.required Json.asText? name, ← Json.required Json.asText? source,
      ← Json.nullable Json.asText? sourceName, ← Json.nullable heldValue? override,
      ← Json.nullable heldValue? resolved, ← Json.defaulted heldStatus? .pending status,
      ← Json.nullable Json.asText? error⟩)
  | "computed" => do
    let [name, expression, dependencies, cached, cachedAt, status, error] ←
      data.fields? ["name", "expression", "dependencies", "cached_value", "cached_at", "status",
        "error"] | none
    some (.computed ⟨← Json.required Json.asText? name, ← Json.required Json.asText? expression,
      ← Json.defaulted (Json.asList? Json.asText?) [] dependencies,
      ← Json.nullable heldValue? cached, ← Json.nullable Json.asText? cachedAt,
      ← Json.defaulted heldStatus? .pending status, ← Json.nullable Json.asText? error⟩)
  | "measured" => do
    let [name, value, uncertainty, record, measuredAt] ←
      data.fields? ["name", "value", "uncertainty", "measurement_record", "measured_at"] | none
    some (.measured ⟨← Json.required Json.asText? name, ← Json.required heldValue? value,
      ← Json.nullable Json.asReal? uncertainty, ← Json.nullable Json.asText? record,
      ← Json.nullable Json.asText? measuredAt⟩)
  | _ => none

/-- Reads a property. -/
def ofJson? (j : Json) : Option Property := do
  let (tag, data) ← j.tagged? "source"
  ofTag? (← Json.tagName? tags .document tag) data

end Property

namespace Relationships

def toJson (r : Relationships) : Json := .object (r.entries.map fun e => (e.1, .texts e.2))

def ofJson? (j : Json) : Option Relationships := j.asDict? (Json.asList? Json.asText?)

end Relationships

namespace Entity

def toJson (e : Entity) : Json :=
  .object [("id", .text e.id), ("tenant_id", .text e.tenant), ("type_path", .text e.typePath),
    ("properties", .object (e.properties.entries.map fun p => (p.1, p.2.toJson))),
    ("version", .count e.version)]

/-- The names of the members, in the order of their declaration. -/
def memberNames : List String := ["id", "tenant_id", "type_path", "properties", "version"]

/-- Properties are wanted whole, because a tagged choice is read before it is understood. -/
def outline : Json.Outline := .plain memberNames

def ofJson? (j : Json) : Option Entity := do
  let [id, tenant, typePath, properties, version] ← j.fields? memberNames | none
  some ⟨← Json.required Json.asText? id, ← Json.defaulted Json.asText? "" tenant,
    ← Json.required Json.asText? typePath,
    ← Json.defaulted (Json.asDict? Property.ofJson?) .empty properties,
    ← Json.defaulted Json.asCount? 0 version⟩

end Entity

end EntityFormulas
