/-
  EntityFormulas/Evaluation/Context.lean
  ======================================
  **Everything that one evaluation may read.**

  A context is fixed before evaluation starts.  Own properties in `pending` are
  about to be computed: reading one of them evaluates its formula.
-/
import EntityFormulas.Entity.Basic
import EntityFormulas.Formula.Expression
import EntityFormulas.Settings

namespace EntityFormulas

/-- Everything that one evaluation may read. -/
structure EvaluationContext where
  /-- The entity whose formulas are evaluated. -/
  entity : Entity
  /-- The entity's properties as formulas see them. -/
  properties : Dict Property
  /-- The other entities within reach, by id. -/
  entities : Dict Entity := .empty
  /-- The relationships of entities within reach, by entity id. -/
  relationships : Dict Relationships := .empty
  /-- The formulas of own properties that are about to be computed. -/
  pending : Dict Expression := .empty
  strict : Bool
  recursionLimit : Nat

namespace EvaluationContext

/-- The context that knows only the entity. -/
def ofEntity (settings : Settings) (entity : Entity) : EvaluationContext where
  entity
  properties := entity.properties
  strict := settings.strict
  recursionLimit := settings.recursionLimit

/-- An entity the context knows, its own one included. -/
def entity? (ctx : EvaluationContext) (id : String) : Option Entity :=
  if id = ctx.entity.id then some ctx.entity else ctx.entities.get? id

/-- The targets of a relationship. -/
def targets? (ctx : EvaluationContext) (id type : String) : Option (List String) :=
  (ctx.relationships.get? id).bind fun r => r.get? type

/-- Whether the entity has, or is about to have, a property of that name. -/
def hasOwnProperty (ctx : EvaluationContext) (name : String) : Bool :=
  ctx.pending.contains name || ctx.properties.contains name

end EvaluationContext

end EntityFormulas
