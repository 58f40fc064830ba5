/-
  EntityFormulas/Store/Conformance.lean
  =====================================
  **Checking that a store keeps its contract.**

  The suite consists of named checks.  Each runs on a fresh store with the
  contents of `Conformance.seed` and ends with the reason why the contract is
  broken, if it is.  The report gives a count and a line for each broken rule.
-/
import EntityFormulas.Entity.Json
import EntityFormulas.Json.Printer
import EntityFormulas.Store.Fixture
import EntityFormulas.Text.Quoted

namespace EntityFormulas.Conformance

/-! ### Contents -/

/-- The tenant that owns all contents. -/
def owner : String := "tenant-a"

/-- A tenant that owns nothing. -/
def stranger : String := "tenant-b"

/-- The order that most checks are about. -/
def order : Entity :=
  let total : ComputedProperty :=
    { name := "total", expression := "#qty * #price", dependencies := ["price", "qty"] }
  let taxRate : InheritedProperty :=
    { name := "tax_rate", source := "cust-1", sourceName := some "rate" }
  [Property.literal ⟨"qty", .plain 10.0⟩, .literal ⟨"price", .plain 5.0⟩, .computed total,
    .inherited taxRate].foldl Entity.withProperty
      { id := "order-1", tenant := owner, typePath := "order.sales" }

def customer : Entity :=
  Entity.withProperty { id := "cust-1", tenant := owner, typePath := "customer" }
    (.literal ⟨"rate", .plain 0.2⟩)

def line (id : String) (amount : Float) : Entity :=
  Entity.withProperty { id, tenant := owner, typePath := "order.line" }
    (.literal ⟨"amount", .plain amount⟩)

/-- The contents of the store at the start of every check. -/
def seed : Fixture where
  tenants := Dict.ofList [
    (owner, {
      entities := [order, customer, line "line-1" 1.0, line "line-2" 2.0, line "line-3" 3.0]
      relationships := Dict.ofList [("order-1", Dict.ofList [
        ("lines", ["line-1", "line-2", "line-3"]), ("customer", ["cust-1"])])] }),
    (stranger, {})]

/-! ### Probing -/

section Checks

variable {σ : Type} (store : EntityStore σ)

/-- A check: calls on a store that end early with the reason for a failure. -/
abbrev Probe (σ : Type) := StateT σ (Except String)

/-- Ends a check. -/
def fail {α : Type} (reason : String) : Probe σ α := throw reason

/-- Makes a call that must succeed. -/
def must {α : Type} (reason : String) (call : σ → Except StoreError α × σ) : Probe σ α := fun s =>
  match call s with
  | (.ok a, s) => .ok (a, s)
  | (.error e, _) => .error (reason ++ e.message)

/-- Makes a call and takes its answer as it is. -/
def attempt {α : Type} (call : σ → Except StoreError α × σ) : Probe σ (Except StoreError α) :=
  fun s => .ok (call s)

/-- Why a call failed, or that it did not. -/
def describe {α : Type} : Except StoreError α → String
  | .ok _ => "success"
  | .error e => e.message

/-- A value, or that there is none. -/
def describeValue (v : Option Value) : String := ((v.map Value.toJson).getD .null).compact

/-- A number without a unit. -/
def isPlain (x : Float) : Option Value → Bool
  | some (.number q) => q.value == x && q.dimension.isNone && q.unit.isNone
  | _ => false

def fetched (tenant : String) (ids : List String) : Probe σ (List Entity) :=
  must "fetch failed: " (store.fetch tenant ids)

def fetchedOne (tenant id : String) : Probe σ Entity :=
  must "fetch failed: " (store.fetchOne tenant id)

def related (tenant id : String) : Probe σ Relationships :=
  must "fetch failed: " (store.relationships tenant id)

def persisted (tenant : String) (r : StateRecord) : Probe σ Unit :=
  must "persist failed: " (store.persist tenant r)

/-! ### Fetching -/

def fetchFindsAll : Probe σ Unit := do
  let found ← fetched store owner ["order-1", "cust-1"]
  let ids := (found.map Entity.id).mergeSort fun a b => a ≤ b
  if ids ≠ ["cust-1", "order-1"] then
    fail ("expected [cust-1, order-1], got [" ++ String.intercalate ", " (ids.map Text.quoted) ++ "]")

def fetchOmitsMissing : Probe σ Unit := do
  let found ← must "missing id must not be an error, got " (store.fetch owner ["order-1", "ghost"])
  if found.map Entity.id ≠ ["order-1"] then
    fail ("expected only order-1, got " ++ toString found.length ++ " entities")

def fetchOfNothing : Probe σ Unit := do
  let found ← fetched store owner []
  if !found.isEmpty then fail ("expected no entities, got " ++ toString found.length)

def fetchByStranger : Probe σ Unit := do
  let found ← fetched store stranger ["order-1"]
  if !found.isEmpty then fail "entity leaked across tenants"

def missingIsReported : Probe σ Unit := do
  match ← attempt (store.fetchOne owner "ghost") with
  | .error (.entityNotFound tenant entity) =>
    if tenant ≠ owner ∨ entity ≠ "ghost" then
      fail ("expected " ++ owner ++ "/ghost, got " ++ tenant ++ "/" ++ entity)
  | other => fail ("expected EntityNotFound, got " ++ describe other)

/-! ### Relationships -/

/-- Targets, or that there are none. -/
def describeTargets (targets : Option (List String)) : String :=
  ((targets.map Json.texts).getD .null).compact

def targetsKeepOrder : Probe σ Unit := do
  let r ← related store owner "order-1"
  if r.get? "lines" ≠ some ["line-1", "line-2", "line-3"] then
    fail ("expected ordered lines, got " ++ describeTargets (r.get? "lines"))
  if r.get? "customer" ≠ some ["cust-1"] then
    fail ("expected customer [cust-1], got " ++ describeTargets (r.get? "customer"))

def unknownHasNoRelationships : Probe σ Unit := do
  let r ← must "unknown entity must not be an error, got " (store.relationships owner "ghost")
  if !r.isEmpty then fail ("expected no relationships, got " ++ r.toJson.compact)

def relationshipsByStranger : Probe σ Unit := do
  let r ← related store stranger "order-1"
  if !r.isEmpty then fail "relationships leaked across tenants"

/-! ### Writing -/

/-- The time that checks put on record. -/
def time : String := "2025-01-01T00:00:00Z"

/-- A record of a valid total. -/
def validTotal (x : Float) : StateRecord where
  entity := "order-1"
  property := "total"
  status := .valid
  value := some (.plain x)
  evaluatedAt := some time
  actor := "conformance"

/-- The total of the order. -/
def storedTotal : Probe σ ComputedProperty := do
  match (← fetchedOne store owner "order-1").property? "total" with
  | some (.computed p) => return p
  | _ => fail "total is no longer a computed property"

def stateIsReadable : Probe σ Unit := do
  persisted store owner (validTotal 50.0)
  let p ← storedTotal store
  if p.status ≠ .valid then fail ("expected valid, got " ++ p.status.name)
  if !isPlain 50.0 p.cached then fail ("expected 50, got " ++ describeValue p.cached)
  if p.cachedAt ≠ some time then
    fail ("expected cached_at to be set, got " ++ (p.cachedAt.map Text.quoted).getD "nothing")

def versionGrows : Probe σ Unit := do
  let before := (← fetchedOne store owner "order-1").version
  persisted store owner (validTotal 1.0)
  let mid := (← fetchedOne store owner "order-1").version
  persisted store owner (validTotal 2.0)
  let after := (← fetchedOne store owner "order-1").version
  if ¬(before < mid ∧ mid < after) then
    fail ("versions must increase: " ++
      String.intercalate " -> " ([before, mid, after].map toString))

def errorKeepsValue : Probe σ Unit := do
  persisted store owner (validTotal 50.0)
  let failure := "division by zero"
  let r := { validTotal 50.0 with status := .error, evaluatedAt := none, error := some failure }
  persisted store owner r
  let p ← storedTotal store
  if p.status ≠ .error ∨ p.error ≠ some failure then
    fail ("expected error state, got " ++ p.status.name ++ " / " ++
      (p.error.map Text.quoted).getD "nothing")
  if !isPlain 50.0 p.cached then fail ("last value lost: " ++ describeValue p.cached)

def inheritedIsReadable : Probe σ Unit := do
  persisted store owner { validTotal 0.2 with property := "tax_rate" }
  let p := (← fetchedOne store owner "order-1").property? "tax_rate"
  if !isPlain 0.2 (p.bind Property.current) then
    fail ("expected resolved 0.2, got " ++ describeValue (p.bind Property.current))

def literalIsRefused : Probe σ Unit := do
  match ← attempt (store.persist owner { validTotal 0.0 with property := "qty" }) with
  | .error (.notComputed _ "qty") => return
  | other => fail ("expected NotComputed, got " ++ describe other)

def missingEntityIsRefused : Probe σ Unit := do
  match ← attempt (store.persist owner { validTotal 0.0 with entity := "ghost" }) with
  | .error (.entityNotFound _ "ghost") => return
  | other => fail ("expected EntityNotFound, got " ++ describe other)

def missingPropertyIsRefused : Probe σ Unit := do
  match ← attempt (store.persist owner { validTotal 0.0 with property := "nope" }) with
  | .error (.propertyNotFound _ "nope") => return
  | other => fail ("expected PropertyNotFound, got " ++ describe other)

def strangerIsRefused : Probe σ Unit := do
  match ← attempt (store.persist stranger (validTotal 99.0)) with
  | .ok _ => fail "persist succeeded for an entity the tenant does not own"
  | .error _ =>
    let p := (← fetchedOne store owner "order-1").property? "total"
    if p.isNone ∨ (p.bind Property.current).isSome then
      fail ("seeded total was modified: " ++ describeValue (p.bind Property.current))

end Checks

/-! ### The suite -/

/-- A named check. -/
structure Rule (σ : Type) where
  group : String
  name : String
  probe : Probe σ Unit

/-- All checks in the order in which they run. -/
def rules {σ : Type} (store : EntityStore σ) : List (Rule σ) := [
  ⟨"fetch", "fetch_by_ids_returns_requested_entities", fetchFindsAll store⟩,
  ⟨"fetch", "missing_ids_are_omitted", fetchOmitsMissing store⟩,
  ⟨"fetch", "empty_id_list_returns_nothing", fetchOfNothing store⟩,
  ⟨"fetch", "other_tenant_sees_nothing", fetchByStranger store⟩,
  ⟨"fetch", "fetch_entity_not_found_has_correct_fields", missingIsReported store⟩,
  ⟨"relationships", "targets_keep_insertion_order", targetsKeepOrder store⟩,
  ⟨"relationships", "unknown_entity_has_no_relationships", unknownHasNoRelationships store⟩,
  ⟨"relationships", "relationships_are_tenant_scoped", relationshipsByStranger store⟩,
  ⟨"persist", "computed_state_is_readable_after_persist", stateIsReadable store⟩,
  ⟨"persist", "persist_bumps_version", versionGrows store⟩,
  ⟨"persist", "error_state_keeps_supplied_value", errorKeepsValue store⟩,
  ⟨"persist", "inherited_resolution_is_persisted", inheritedIsReadable store⟩,
  ⟨"persist", "literal_target_is_not_computed", literalIsRefused store⟩,
  ⟨"persist", "missing_entity_is_not_found", missingEntityIsRefused store⟩,
  ⟨"persist", "missing_property_is_not_found", missingPropertyIsRefused store⟩,
  ⟨"persist", "persist_is_tenant_scoped", strangerIsRefused store⟩]

/-- What came of a check: the reason for its failure, if it failed. -/
structure Finding where
  group : String
  name : String
  failure : Option String
deriving DecidableEq, Repr

/-- Runs the suite; `fresh` makes the state of a store with the given contents. -/
def run {σ : Type} (store : EntityStore σ) (fresh : Fixture → σ) : List Finding :=
  (rules store).map fun r =>
    { group := r.group, name := r.name
      failure := match (r.probe.run (fresh seed)) with
        | .ok _ => none
        | .error reason => some reason }

/-! ### Reports -/

/-- The findings of checks that failed. -/
def failures (findings : List Finding) : List Finding := findings.filter (·.failure.isSome)

/-- How many checks there are and how many of them failed. -/
def header (findings : List Finding) : String :=
  toString findings.length ++ " store checks, " ++ toString (failures findings).length ++ " failing"

/-- The lines of the report: the header and a line for each failure. -/
def report (findings : List Finding) : List String :=
  header findings :: (failures findings).map fun f =>
    "  " ++ f.group ++ "::" ++ f.name ++ " -> " ++ f.failure.getD ""

end EntityFormulas.Conformance
