/-
  EntityFormulas/Proofs/Store/Reads.lean
  ======================================
  **Which calls a lookup makes.**

  `Lookup.reads` lists the calls that a lookup makes on a store, in order.  On an
  available store in memory they are the calls that the tables of its tenants
  lead to (`reads_memory`), and the counts of the store grow by just these calls
  (`traffic_memory`).
-/
import EntityFormulas.Proofs.Store.Answers

namespace EntityFormulas

/-! ### Calls -/

/-- A call that reads from a store. -/
inductive ReadCall where
  | entities (tenant : String) (ids : List String)
  | relationships (tenant id : String)
deriving DecidableEq, Repr

namespace ReadCall

def tenant : ReadCall → String
  | entities tenant _ | relationships tenant _ => tenant

/-- The entities that are asked for. -/
def entityIds : ReadCall → List String
  | entities _ ids => ids
  | relationships _ _ => []

/-- The entities whose relationships are asked for. -/
def relationshipIds : ReadCall → List String
  | entities _ _ => []
  | relationships _ id => [id]

def fetchesEntities : ReadCall → Bool
  | entities _ _ => true
  | relationships _ _ => false

end ReadCall

/-- The counts after a call. -/
def Traffic.count (t : Traffic) : ReadCall → Traffic
  | .entities _ ids =>
    { t with entityFetches := t.entityFetches + 1, idsRequested := t.idsRequested + ids.length }
  | .relationships _ _ => { t with relationshipFetches := t.relationshipFetches + 1 }

theorem Traffic.entityFetches_foldl (calls : List ReadCall) (t : Traffic) :
    (calls.foldl count t).entityFetches =
      t.entityFetches + calls.countP ReadCall.fetchesEntities := by
  induction calls generalizing t with
  | nil => rfl
  | cons c rest ih =>
    rw [List.foldl_cons, ih, List.countP_cons]
    cases c with
    | entities tenant ids => exact (Nat.add_assoc ..).trans (congrArg _ (Nat.add_comm ..))
    | relationships tenant id => rfl

namespace Lookup

variable {α β σ : Type}

/-- The calls that a lookup makes on a store. -/
def reads (store : EntityStore σ) : Lookup α → σ → List ReadCall
  | .done _, _ => []
  | .entities tenant ids next, s =>
    let (r, s) := store.fetch tenant ids s
    .entities tenant ids :: (next r).reads store s
  | .relationships tenant id next, s =>
    let (r, s) := store.relationships tenant id s
    .relationships tenant id :: (next r).reads store s

/-- The calls that a lookup makes when they are answered from tables. -/
def tableReads (tables : String → TenantTable) : Lookup α → List ReadCall
  | .done _ => []
  | .entities tenant ids next =>
    .entities tenant ids :: (next (.ok ((tables tenant).fetch ids))).tableReads tables
  | .relationships tenant id next =>
    .relationships tenant id :: (next (.ok ((tables tenant).relationshipsOf id))).tableReads tables

theorem tableReads_bind (tables : String → TenantTable) (m : Lookup α) (f : α → Lookup β) :
    (m.bind f).tableReads tables =
      m.tableReads tables ++ (f (m.answer tables)).tableReads tables := by
  induction m with
  | done a => rfl
  | entities tenant ids next ih => exact congrArg _ (ih _)
  | relationships tenant id next ih => exact congrArg _ (ih _)

/-! ### Stores in memory -/

section Memory

variable {s : MemoryStore} (hs : s.available = true)
include hs

theorem reads_memory (m : Lookup α) : m.reads MemoryStore.store s = m.tableReads s.table := by
  induction m generalizing s with
  | done a => rfl
  | entities tenant ids next ih =>
    rw [reads, MemoryStore.store_fetch hs]
    refine congrArg (ReadCall.entities tenant ids :: ·) (ih _ ?_)
    exact hs
  | relationships tenant id next ih =>
    rw [reads, MemoryStore.store_relationships hs]
    refine congrArg (ReadCall.relationships tenant id :: ·) (ih _ ?_)
    exact hs

/-- An available store counts the calls that are made on it. -/
theorem traffic_memory (m : Lookup α) :
    (m.run MemoryStore.store s).2.traffic =
      (m.tableReads s.table).foldl Traffic.count s.traffic := by
  induction m generalizing s with
  | done a => rfl
  | entities tenant ids next ih =>
    rw [run, MemoryStore.store_fetch hs]
    refine ih _ ?_
    exact hs
  | relationships tenant id next ih =>
    rw [run, MemoryStore.store_relationships hs]
    refine ih _ ?_
    exact hs

end Memory

end Lookup

/-! ### Lookups that a failed call ends -/

namespace Fetch

variable {α β : Type} {tables : String → TenantTable}

/-- The calls of a lookup that are answered from tables. -/
def tableReads (tables : String → TenantTable) (m : Fetch α) : List ReadCall :=
  m.run.tableReads tables

theorem tableReads_bind_ok {m : Fetch α} {f : α → Fetch β} {a : α} (h : m.answer tables = .ok a) :
    (m >>= f).tableReads tables = m.tableReads tables ++ (f a).tableReads tables := by
  have hb : (m >>= f).tableReads tables = m.tableReads tables ++
      (ExceptT.bindCont f (m.answer tables)).tableReads tables :=
    Lookup.tableReads_bind tables m.run (ExceptT.bindCont f)
  rw [hb, h]
  rfl

end Fetch

end EntityFormulas
