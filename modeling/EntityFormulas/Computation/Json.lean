/-
  EntityFormulas/Computation/Json.lean
  ====================================
  **Outcomes of passes as JSON.**
-/
import EntityFormulas.Computation.Pass
import EntityFormulas.Entity.Json

namespace EntityFormulas

/-- Absent parts are left out. -/
def PropertyResult.toJson (r : PropertyResult) : Json :=
  .object ([("name", .text r.name), ("status", r.status.toJson)] ++
    Json.optional "value" (r.value.map Value.toJson) ++
    Json.optional "error" (r.error.map .text) ++
    Json.optional "evaluated_at" (r.evaluatedAt.map .text))

def PassOutcome.toJson (o : PassOutcome) : Json :=
  .object [("properties", .object (o.properties.map fun _ p => p.toJson).entries),
    ("results", .array (o.results.map PropertyResult.toJson)),
    ("all_succeeded", .bool o.allSucceeded)]

end EntityFormulas
