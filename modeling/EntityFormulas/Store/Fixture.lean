/-
  EntityFormulas/Store/Fixture.lean
  =================================
  **Stores written as JSON documents.**

  A fixture gives the entities and relationships of every tenant.  Loading it
  makes every entity belong to the tenant that it stands under; of entities
  with one id the last counts.
-/
import EntityFormulas.Json.Reader
import EntityFormulas.Store.Memory

namespace EntityFormulas

/-- The entities and relationships of one tenant. -/
structure TenantFixture where
  entities : List Entity := []
  relationships : Dict Relationships := .empty

/-- The contents of a store. -/
structure Fixture where
  tenants : Dict TenantFixture := .empty

namespace TenantFixture

def toJson (t : TenantFixture) : Json :=
  .object [("entities", .array (t.entities.map Entity.toJson)),
    ("relationships", .object ((t.relationships.map fun _ r => r.toJson).entries))]

def outline : Json.Outline :=
  .members [("entities", .each Entity.outline), ("relationships", .whole)]

def ofJson? (j : Json) : Option TenantFixture := do
  let [entities, relationships] ← j.fields? ["entities", "relationships"] | none
  some ⟨← Json.defaulted (Json.asList? Entity.ofJson?) [] entities,
    ← Json.defaulted (Json.asDict? Relationships.ofJson?) .empty relationships⟩

/-- The table that the fixture describes. -/
def table (tenant : String) (t : TenantFixture) : TenantTable where
  entities := Dict.ofList (t.entities.map fun e => (e.id, { e with tenant }))
  relationships := t.relationships

end TenantFixture

namespace Fixture

def toJson (f : Fixture) : Json :=
  .object [("tenants", .object ((f.tenants.map fun _ t => t.toJson).entries))]

def outline : Json.Outline := .members [("tenants", .each TenantFixture.outline)]

def ofJson? (j : Json) : Option Fixture := do
  let [tenants] ← j.fields? ["tenants"] | none
  (Json.defaulted (Json.asDict? TenantFixture.ofJson?) .empty tenants).map Fixture.mk

/-- The store that the fixture describes. -/
def store (f : Fixture) : MemoryStore where
  tenants := f.tenants.map TenantFixture.table

/-- The failure to read a document that is no fixture. -/
def invalid : StoreError := .backend "invalid store fixture: the document does not describe a store"

/-- Reads a fixture. -/
def read (document : String) : Except StoreError Fixture :=
  match (outline.read? document).bind ofJson? with
  | some f => .ok f
  | none => .error invalid

end Fixture

end EntityFormulas
