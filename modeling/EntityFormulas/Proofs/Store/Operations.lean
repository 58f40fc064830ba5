/-
  EntityFormulas/Proofs/Store/Operations.lean
  ===========================================
  **Sequences of operations on a store in memory.**

  A store in memory is used by many clients, one operation after another.  Most
  operations are for one tenant; the others switch the whole store or its
  counts.  `StoreOperation.serve` answers one operation, and `record_cases` says
  all that writing a record can do: it is refused for one of the reasons in
  `Refused`, and nothing changes, or it is written, and `Written` says what has
  changed.
-/
import EntityFormulas.Proofs.Store.Writing
import EntityFormulas.Store.Fixture

namespace EntityFormulas

/-! ### Operations -/

/-- An operation on a store in memory. -/
inductive StoreOperation where
  /-- Puts an entity into the table of its own tenant. -/
  | insert (e : Entity)
  | relate (tenant source type target : String)
  /-- Looks at an entity, which is not counted and never fails. -/
  | get (tenant id : String)
  | history (tenant : String)
  | fetch (tenant : String) (ids : List String)
  | relationships (tenant id : String)
  | persist (tenant : String) (r : StateRecord)
  | setAvailable (available : Bool)
  | setFetchDelay (delay : Nat)
  | resetTraffic

/-- What a store answers. -/
inductive StoreAnswer where
  | done
  | entity (found : Option Entity)
  | records (past : List StateRecord)
  | entities (found : Except StoreError (List Entity))
  | relationships (found : Except StoreError Relationships)
  | persisted (result : Except StoreError Unit)

namespace StoreOperation

/-- The tenant that the operation is for, if it is for one. -/
def tenant? : StoreOperation → Option String
  | insert e => some e.tenant
  | relate tenant _ _ _ | get tenant _ | history tenant | fetch tenant _
  | relationships tenant _ | persist tenant _ => some tenant
  | setAvailable _ | setFetchDelay _ | resetTraffic => none

/-- Carries out the operation. -/
def serve (s : MemoryStore) : StoreOperation → StoreAnswer × MemoryStore
  | insert e => (.done, s.insert e)
  | relate tenant source type target => (.done, s.relate tenant source type target)
  | get tenant id => (.entity (s.get? tenant id), s)
  | history tenant => (.records (s.history tenant), s)
  | fetch tenant ids => let (found, s) := s.fetch tenant ids; (.entities found, s)
  | relationships tenant id =>
    let (found, s) := s.fetchRelationships tenant id; (.relationships found, s)
  | persist tenant r => let (result, s) := s.persist tenant r; (.persisted result, s)
  | setAvailable available => (.done, { s with available })
  | setFetchDelay fetchDelay => (.done, { s with fetchDelay })
  | resetTraffic => (.done, { s with traffic := {} })

end StoreOperation

namespace MemoryStore

/-- The store after operations, one after another. -/
def after (s : MemoryStore) (ops : List StoreOperation) : MemoryStore :=
  ops.foldl (fun s op => (op.serve s).2) s

/-! ### Writing a record -/

/-- Why a store refuses a record, and the failure that it answers. -/
inductive Refused (tenant : String) (r : StateRecord) (s : MemoryStore) : StoreError → Prop where
  | unavailable (hs : s.available = false) : Refused tenant r s MemoryStore.unavailable
  | noTenant (hs : s.available = true) (ht : s.tenants.get? tenant = none) :
    Refused tenant r s (.entityNotFound tenant r.entity)
  | noEntity {t : TenantTable} (hs : s.available = true) (ht : s.tenants.get? tenant = some t)
    (he : t.entities.get? r.entity = none) : Refused tenant r s (.entityNotFound tenant r.entity)
  | noProperty {e : Entity} (hs : s.available = true) (he : s.get? tenant r.entity = some e)
    (hp : e.property? r.property = none) :
    Refused tenant r s (.propertyNotFound r.entity r.property)
  | literal {e : Entity} {p : LiteralProperty} (hs : s.available = true)
    (he : s.get? tenant r.entity = some e) (hp : e.property? r.property = some (.literal p)) :
    Refused tenant r s (.notComputed r.entity r.property)
  | measured {e : Entity} {p : MeasuredProperty} (hs : s.available = true)
    (he : s.get? tenant r.entity = some e) (hp : e.property? r.property = some (.measured p)) :
    Refused tenant r s (.notComputed r.entity r.property)

/-- A record is written: it is in the history of its tenant, one property of its entity has its
    state, the version of the entity is one larger, and nothing else has changed but the count of
    records written. -/
structure Written (tenant : String) (r : StateRecord) (s s' : MemoryStore) : Prop where
  entity : ∃ e p p', s.get? tenant r.entity = some e ∧ e.property? r.property = some p ∧
    p.withState r = some p' ∧ Wrote tenant r.entity
      { e with properties := e.properties.insert r.property p', version := e.nextVersion } [r] s s'
  traffic : s'.traffic = { s.traffic with persists := s.traffic.persists + 1 }
  available : s.available = true ∧ s'.available = true
  fetchDelay : s'.fetchDelay = s.fetchDelay

variable {s : MemoryStore} {tenant : String} {r : StateRecord}

theorem get?_of_no_tenant (h : s.tenants.get? tenant = none) (id : String) :
    s.get? tenant id = none := by
  unfold get? table
  rw [h]
  rfl

theorem get?_of_tenant {t : TenantTable} (h : s.tenants.get? tenant = some t) (id : String) :
    s.get? tenant id = t.entities.get? id := by
  unfold get? table
  rw [h]
  rfl

/-- What can come of a record. -/
theorem record_cases (s : MemoryStore) (tenant : String) (r : StateRecord) :
    (∃ err, s.Refused tenant r err ∧ s.persist tenant r = (.error err, s)) ∨
      ∃ s', s.persist tenant r = (.ok (), s') ∧ Written tenant r s s' := by
  cases hs : s.available with
  | false =>
    refine .inl ⟨_, .unavailable hs, ?_⟩
    unfold persist
    rw [hs]
    rfl
  | true =>
    unfold persist TenantTable.persist
    rw [if_pos hs]
    cases he : (s.table tenant).entities.get? r.entity with
    | none =>
      refine .inl ⟨_, ?_, rfl⟩
      cases ht : s.tenants.get? tenant with
      | none => exact .noTenant hs ht
      | some t => exact .noEntity hs ht ((get?_of_tenant ht r.entity).symm.trans he)
    | some e =>
      dsimp only
      unfold Entity.withState
      cases hp : e.property? r.property with
      | none => exact .inl ⟨_, .noProperty hs he hp, rfl⟩
      | some p =>
        cases p with
        | literal p => exact .inl ⟨_, .literal hs he hp, rfl⟩
        | measured p => exact .inl ⟨_, .measured hs he hp, rfl⟩
        | inherited p =>
          exact .inr ⟨_, rfl, ⟨e, _, _, he, hp, rfl, wrote_of_insert rfl⟩, rfl, ⟨hs, hs⟩, rfl⟩
        | computed p =>
          exact .inr ⟨_, rfl, ⟨e, _, _, he, hp, rfl, wrote_of_insert rfl⟩, rfl, ⟨hs, hs⟩, rfl⟩

/-- Nothing speaks against a record that is written. -/
theorem Written.not_refused {s' : MemoryStore} (h : Written tenant r s s') (err : StoreError) :
    ¬ s.Refused tenant r err := by
  obtain ⟨e, p, p', he, hp, hp', -⟩ := h.entity
  intro hrefused
  cases hrefused with
  | unavailable hs => exact absurd (hs.symm.trans h.available.1) Bool.false_ne_true
  | noTenant hs ht => exact nomatch (get?_of_no_tenant ht r.entity).symm.trans he
  | noEntity hs ht hnone => exact nomatch ((get?_of_tenant ht r.entity).trans hnone).symm.trans he
  | noProperty hs he' hnone =>
    rw [he] at he'
    cases he'
    exact nomatch hnone.symm.trans hp
  | literal hs he' hq =>
    rw [he] at he'
    cases he'
    rw [hp] at hq
    cases hq
    exact nomatch hp'
  | measured hs he' hq =>
    rw [he] at he'
    cases he'
    rw [hp] at hq
    cases hq
    exact nomatch hp'

end MemoryStore

/-! ### Ids -/

theorem keyed_of_tenants {s s' : MemoryStore} (h : s'.tenants = s.tenants)
    (hk : ∀ tenant, (s.table tenant).Keyed) (tenant : String) : (s'.table tenant).Keyed :=
  fun id e he => hk tenant id e ((MemoryStore.get?_of_tenants h tenant id).symm.trans he)

/-- No operation puts an entity under another id. -/
theorem keyed_serve {s : MemoryStore} (hk : ∀ tenant, (s.table tenant).Keyed) (op : StoreOperation)
    (tenant : String) : ((op.serve s).2.table tenant).Keyed := by
  cases op with
  | insert e => exact keyed_insert hk e tenant
  | relate tenant' source type target =>
    intro id e he
    change (s.relate tenant' source type target).get? tenant id = some e at he
    rw [MemoryStore.get?_of_insert (s := s) rfl] at he
    split at he
    · exact hk tenant' id e he
    · exact hk tenant id e he
  | fetch tenant' ids => exact keyed_of_tenants (MemoryStore.fetch_found s tenant' ids).1 hk tenant
  | relationships tenant' id =>
    exact keyed_of_tenants (MemoryStore.relationships_tenants s tenant' id) hk tenant
  | persist tenant' r =>
    intro id e he
    rcases MemoryStore.record_cases s tenant' r with ⟨err, -, hpersist⟩ | ⟨s', hpersist, hwritten⟩
    · rw [StoreOperation.serve, hpersist] at he
      exact hk tenant id e he
    · rw [StoreOperation.serve, hpersist] at he
      change s'.get? tenant id = some e at he
      obtain ⟨old, p, p', hold, -, -, hwrote⟩ := hwritten.entity
      by_cases hid : (tenant, id) = (tenant', r.entity)
      · cases hid
        rw [hwrote.entity] at he
        cases he
        exact hk tenant r.entity old hold
      · rw [hwrote.others tenant id hid] at he
        exact hk tenant id e he
  | get _ _ | history _ | setAvailable _ | setFetchDelay _ | resetTraffic => exact hk tenant

/-- Every store that operations lead to has its entities under their own ids. -/
theorem keyed_after (ops : List StoreOperation) (tenant : String) :
    ((MemoryStore.after {} ops).table tenant).Keyed := by
  suffices ∀ s : MemoryStore, (∀ tenant, (s.table tenant).Keyed) →
      ((s.after ops).table tenant).Keyed from this {} fun _ _ _ he => nomatch he
  induction ops with
  | nil => exact fun s hk => hk tenant
  | cons op rest ih => exact fun s hk => ih _ fun tenant => keyed_serve hk op tenant

end EntityFormulas
