/-
  EntityFormulas/Store/Fault.lean
  ===============================
  **Stores that break their contract in one way.**

  Every fault is a store in memory with one deviation.  They show which checks
  of the conformance suite notice which deviation.
-/
import EntityFormulas.Store.Memory

namespace EntityFormulas

/-- A way in which a store may break its contract. -/
inductive Fault where
  /-- Fetches find nothing. -/
  | fetchNothing
  /-- Fetches find everything twice. -/
  | fetchTwice
  /-- Fetches fail when an id has no entity. -/
  | missingIsError
  /-- Fetches that find nothing make up an entity. -/
  | alwaysOne
  /-- Every call goes to one tenant, whichever one it asks for. -/
  | ignoreTenant (tenant : String)
  | reverseTargets
  /-- The relationship of that type is missing. -/
  | hide (type : String)
  /-- Every entity has a relationship that nobody stored. -/
  | inventRelationship
  /-- Nothing is written. -/
  | dropPersist
  | loseValue
  | loseTime
  | loseError
  /-- Writing leaves the version of the entity as it is. -/
  | keepVersion
  /-- Writing fails with an error of another kind. -/
  | wrongError
  /-- Writing never fails. -/
  | swallowError
deriving DecidableEq, Repr

namespace Fault

/-- What is left of a fetch. -/
def fetched (tenant : String) (ids : List String) (found : List Entity) :
    Fault → Except StoreError (List Entity)
  | fetchNothing => .ok []
  | fetchTwice => .ok (found ++ found)
  | missingIsError =>
    if found.length < ids.length then .error (.backend "missing") else .ok found
  | alwaysOne => .ok (if found.isEmpty then [{ id := "x", tenant, typePath := "x" }] else found)
  | _ => .ok found

/-- What is left of the relationships of an entity. -/
def related (r : Relationships) : Fault → Relationships
  | reverseTargets => r.map fun _ targets => targets.reverse
  | hide type => r.erase type
  | inventRelationship => r.insert "x" ["y"]
  | _ => r

/-- What is left of a record. -/
def record (r : StateRecord) : Fault → StateRecord
  | loseValue => { r with value := none }
  | loseTime => { r with evaluatedAt := none }
  | loseError => { r with error := none }
  | _ => r

/-- What is left of the answer to a record. -/
def persisted (answer : Except StoreError Unit) : Fault → Except StoreError Unit
  | wrongError => answer.mapError fun _ => .backend "other"
  | swallowError => .ok ()
  | _ => answer

/-- The tenant whose data a call goes to. -/
def tenant (asked : String) : Fault → String
  | ignoreTenant tenant => tenant
  | _ => asked

/-- Puts the version of an entity back to what it was in another state of the store. -/
def restoreVersion (tenant entity : String) (old new : MemoryStore) : MemoryStore :=
  match old.get? tenant entity, new.get? tenant entity with
  | some before, some after =>
    let t := new.table tenant
    let e := { after with version := before.version }
    { new with
      tenants := new.tenants.insert tenant { t with entities := t.entities.insert entity e } }
  | _, _ => new

/-- Writes a record with the deviation. -/
def persist (f : Fault) (asked : String) (r : StateRecord) (s : MemoryStore) :
    Except StoreError Unit × MemoryStore :=
  match f with
  | dropPersist => (.ok (), s)
  | keepVersion =>
    let (answer, after) := s.persist asked r
    (answer, restoreVersion asked r.entity s after)
  | f =>
    let (answer, s) := s.persist (f.tenant asked) (f.record r)
    (f.persisted answer, s)

/-- The store with the deviation. -/
def store (f : Fault) : EntityStore MemoryStore where
  fetch asked ids s :=
    let (found, s) := s.fetch (f.tenant asked) ids
    (found.bind fun found => f.fetched asked ids found, s)
  relationships asked id s :=
    let (r, s) := s.fetchRelationships (f.tenant asked) id
    (r.map fun r => f.related r, s)
  persist asked r s := f.persist asked r s
  latency s := s.fetchDelay

end Fault

end EntityFormulas
