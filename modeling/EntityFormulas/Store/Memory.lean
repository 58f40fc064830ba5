/-
  EntityFormulas/Store/Memory.lean
  ================================
  **A store in memory.**

  Tenants have tables of their own.  The store counts the calls that read from
  it and the records that were written, keeps every record that was written,
  and can be made unavailable: then every call fails and nothing is counted.
-/
import EntityFormulas.Store.Record

namespace EntityFormulas

/-- What a store keeps for one tenant. -/
structure TenantTable where
  entities : Dict Entity := .empty
  /-- Relationships by the entity that they start from. -/
  relationships : Dict Relationships := .empty
  /-- Every record written, the oldest first. -/
  history : List StateRecord := []

/-- The calls that a store has served. -/
structure Traffic where
  entityFetches : Nat := 0
  /-- How many ids were asked for in all fetches of entities. -/
  idsRequested : Nat := 0
  relationshipFetches : Nat := 0
  persists : Nat := 0
deriving DecidableEq, Repr

/-- A store in memory. -/
structure MemoryStore where
  tenants : Dict TenantTable := .empty
  traffic : Traffic := {}
  available : Bool := true
  /-- How many milliseconds fetched entities take to arrive. -/
  fetchDelay : Nat := 0

/-! ### Tables -/

namespace TenantTable

/-- The entities with these ids, in the order of the ids. -/
def fetch (t : TenantTable) (ids : List String) : List Entity := ids.filterMap t.entities.get?

/-- The relationships of an entity. -/
def relationshipsOf (t : TenantTable) (id : String) : Relationships :=
  (t.relationships.get? id).getD .empty

/-- Puts an entity in place of any other one with its id. -/
def insert (t : TenantTable) (e : Entity) : TenantTable :=
  { t with entities := t.entities.insert e.id e }

/-- Adds a target at the end of a relationship. -/
def relate (t : TenantTable) (source type target : String) : TenantTable :=
  let rels := t.relationshipsOf source
  let targets := (rels.get? type).getD []
  { t with relationships := t.relationships.insert source (rels.insert type (targets ++ [target])) }

/-- Writes a record to the entity that it names. -/
def persist (tenant : String) (r : StateRecord) (t : TenantTable) :
    Except StoreError TenantTable :=
  match t.entities.get? r.entity with
  | none => .error (.entityNotFound tenant r.entity)
  | some e => (e.withState r).map fun e =>
    { t with entities := t.entities.insert r.entity e, history := t.history ++ [r] }

end TenantTable

/-! ### Calls -/

namespace MemoryStore

/-- The failure of every call on an unavailable store. -/
def unavailable : StoreError := .backend "store unavailable"

/-- What the store keeps for a tenant. -/
def table (s : MemoryStore) (tenant : String) : TenantTable := (s.tenants.get? tenant).getD {}

/-- The entities with these ids. -/
def fetch (tenant : String) (ids : List String) (s : MemoryStore) :
    Except StoreError (List Entity) × MemoryStore :=
  if s.available then
    (.ok ((s.table tenant).fetch ids),
      { s with traffic := { s.traffic with
          entityFetches := s.traffic.entityFetches + 1
          idsRequested := s.traffic.idsRequested + ids.length } })
  else (.error unavailable, s)

/-- The relationships of an entity. -/
def fetchRelationships (tenant id : String) (s : MemoryStore) :
    Except StoreError Relationships × MemoryStore :=
  if s.available then
    (.ok ((s.table tenant).relationshipsOf id),
      { s with traffic := { s.traffic with
          relationshipFetches := s.traffic.relationshipFetches + 1 } })
  else (.error unavailable, s)

/-- Writes a record; a failure changes nothing. -/
def persist (tenant : String) (r : StateRecord) (s : MemoryStore) :
    Except StoreError Unit × MemoryStore :=
  if s.available then
    match (s.table tenant).persist tenant r with
    | .ok t =>
      (.ok (), { s with
        tenants := s.tenants.insert tenant t
        traffic := { s.traffic with persists := s.traffic.persists + 1 } })
    | .error e => (.error e, s)
  else (.error unavailable, s)

/-- The store in memory as a store. -/
def store : EntityStore MemoryStore where
  fetch
  relationships := fetchRelationships
  persist
  latency s := s.fetchDelay

/-! ### Direct access -/

/-- An entity; looking at it is not counted and never fails. -/
def get? (s : MemoryStore) (tenant id : String) : Option Entity := (s.table tenant).entities.get? id

/-- The records written for a tenant, the oldest first. -/
def history (s : MemoryStore) (tenant : String) : List StateRecord := (s.table tenant).history

/-- Puts an entity into the table of its own tenant. -/
def insert (s : MemoryStore) (e : Entity) : MemoryStore :=
  { s with tenants := s.tenants.insert e.tenant ((s.table e.tenant).insert e) }

/-- Adds a target at the end of a relationship. -/
def relate (s : MemoryStore) (tenant source type target : String) : MemoryStore :=
  { s with tenants := s.tenants.insert tenant ((s.table tenant).relate source type target) }

end MemoryStore

end EntityFormulas
