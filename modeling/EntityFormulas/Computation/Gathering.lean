/-
  EntityFormulas/Computation/Gathering.lean
  =========================================
  **Fetching what formulas may read.**

  The entities that formulas name and the sources of inherited properties come
  first.  Then all traversals advance together, one step at a time: the
  entities they have reached are fetched, a step leads along a property that
  holds references, and only where an entity lacks the property its
  relationships are fetched and followed instead.  At most `maxDepth` steps are
  made; what the last step of a traversal reaches, or where it was cut off, is
  fetched at the end.

  Nothing that the context knows is fetched again.
-/
import EntityFormulas.Evaluation.Context
import EntityFormulas.Formula.Reference
import EntityFormulas.Store.Lookup

namespace EntityFormulas

/-- A traversal on its way: the entities it has reached and the steps still to make. -/
structure Trail where
  nodes : List String
  step : String
  rest : List String
deriving DecidableEq, Repr

namespace EvaluationContext

/-! ### What one entity leads to -/

/-- Whether a known entity has the property. -/
def hasProperty (ctx : EvaluationContext) (id name : String) : Bool :=
  ((ctx.entity? id).map fun e => e.properties.contains name).getD false

/-- The entities that a step from an entity leads to: the references that its property holds, and
    without a value there the targets of its relationship. -/
def stepTargets (ctx : EvaluationContext) (id step : String) : List String :=
  match ((ctx.entity? id).bind (·.property? step)).bind Property.current with
  | some v => v.targets
  | none => (ctx.targets? id step).getD []

/-! ### Fetching -/

/-- Adds an entity to those within reach. -/
def withEntity (ctx : EvaluationContext) (e : Entity) : EvaluationContext :=
  { ctx with entities := ctx.entities.insert e.id e }

/-- Adds the relationships of an entity, if it has any. -/
def withRelationships (ctx : EvaluationContext) (id : String) (r : Relationships) :
    EvaluationContext :=
  if r.isEmpty then ctx else { ctx with relationships := ctx.relationships.insert id r }

/-- The ids that the context does not know, ascending. -/
def missing (ctx : EvaluationContext) (ids : List String) : List String :=
  (ascending ids).filter fun id => (ctx.entity? id).isNone

/-- Fetches the entities that the context does not know yet. -/
def fetchMissing (ctx : EvaluationContext) (ids : List String) : Fetch EvaluationContext :=
  match ctx.missing ids with
  | [] => return ctx
  | ids => do return (← Fetch.entities ctx.entity.tenant ids).foldl withEntity ctx

/-- Fetches the relationships of entities. -/
def fetchRelationships (ctx : EvaluationContext) : List String → Fetch EvaluationContext
  | [] => return ctx
  | id :: rest => do
    let r ← Fetch.relationships ctx.entity.tenant id
    fetchRelationships (ctx.withRelationships id r) rest

end EvaluationContext

/-! ### Trails -/

namespace Trail

/-- The reached entities without the property that the next step names, where only a relationship
    can lead on. -/
def unowned (ctx : EvaluationContext) (t : Trail) : List String :=
  t.nodes.filter fun id => !ctx.hasProperty id t.step

/-- The entities that the next step reaches. -/
def reached (ctx : EvaluationContext) (t : Trail) : List String :=
  ascending (t.nodes.flatMap fun id => ctx.stepTargets id t.step)

/-- The trail after its next step, unless that was the last one or reached nothing. -/
def advance? (ctx : EvaluationContext) (t : Trail) : Option Trail :=
  match t.rest, t.reached ctx with
  | step :: rest, id :: ids => some ⟨id :: ids, step, rest⟩
  | _, _ => none

/-- The entities that the trail ends at, if the next step is its last one. -/
def ends (ctx : EvaluationContext) (t : Trail) : List String :=
  if t.rest.isEmpty then t.reached ctx else []

/-- The start of a traversal of the entity's formulas. -/
def start? (entity : Entity) (t : Traversal) : Option Trail :=
  let nodes := match t.root with
    | .selfEntity => [entity.id]
    | .entity id => [id]
    | .selfProperty name =>
      (((entity.property? name).bind Property.current).map Value.targets).getD []
  match nodes, t.hops with
  | id :: ids, step :: rest => some ⟨id :: ids, step, rest⟩
  | _, _ => none

/-- Makes at most `depth` steps on all trails and fetches what they reach.  `asked` are the
    entities whose relationships have been fetched, `tail` those at the ends of trails. -/
def follow : (depth : Nat) → (asked tail : List String) → List Trail → EvaluationContext →
    Fetch EvaluationContext
  | 0, _, tail, trails, ctx => ctx.fetchMissing (tail ++ trails.flatMap nodes)
  | _ + 1, _, tail, [], ctx => ctx.fetchMissing tail
  | depth + 1, asked, tail, trails, ctx => do
    let ctx ← ctx.fetchMissing (trails.flatMap nodes)
    let ids := (ascending (trails.flatMap (unowned ctx))).filter fun id => id ∉ asked
    let ctx ← ctx.fetchRelationships ids
    follow depth (asked ++ ids) (tail ++ trails.flatMap (ends ctx)) (trails.filterMap (advance? ctx))
      ctx

end Trail

/-! ### Contexts -/

/-- The entities that are fetched before any traversal. -/
def Entity.directIds (entity : Entity) (formulas : List Expression) : List String :=
  formulas.flatMap Expression.entityIds ++ entity.inherited.map InheritedProperty.source

namespace EvaluationContext

/-- Fetches a context that serves all the formulas of an entity. -/
def gather (settings : Settings) (entity : Entity) (formulas : List Expression) :
    Fetch EvaluationContext := do
  let ctx ← (ofEntity settings entity).fetchMissing (entity.directIds formulas)
  let trails := (formulas.flatMap Expression.traversals).filterMap (Trail.start? entity)
  Trail.follow settings.maxDepth [] [] trails ctx

end EvaluationContext

end EntityFormulas
