/-
  EntityFormulas/Entity/Basic.lean
  ================================
  **Entities.**

  An entity belongs to a tenant and has properties under their names.  Every
  write of a computed state makes its version one larger.
-/
import EntityFormulas.Entity.Property

namespace EntityFormulas

/-- The targets of an entity's relationships, by the type of relationship. -/
abbrev Relationships := Dict (List String)

/-- An entity. -/
structure Entity where
  id : String
  tenant : String := ""
  typePath : String
  properties : Dict Property := .empty
  version : Nat := 0

namespace Entity

/-- The property under a name. -/
def property? (e : Entity) (name : String) : Option Property := e.properties.get? name

/-- The computed properties, in the order of the names they are under. -/
def computed (e : Entity) : List ComputedProperty := e.properties.values.filterMap Property.asComputed?

/-- The inherited properties, in the order of the names they are under. -/
def inherited (e : Entity) : List InheritedProperty :=
  e.properties.values.filterMap Property.asInherited?

/-- Puts a property under its own name. -/
def withProperty (e : Entity) (p : Property) : Entity :=
  { e with properties := e.properties.insert p.name p }

/-- Every property is under its own name. -/
def NamesAgree (e : Entity) : Prop := ∀ name p, e.properties.get? name = some p → p.name = name

end Entity

end EntityFormulas
