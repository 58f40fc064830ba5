/-
  EntityFormulas/Proofs/Store/Writing.lean
  ========================================
  **What calls on a store in memory do.**

  Reading changes no table.  Writing a record either fails and changes nothing
  or changes one entity and the history of its tenant (`Wrote`).  Records that
  an entity can take are all written, one after another (`writeAll_wrote`).
-/
import EntityFormulas.Proofs.Computation.Records

namespace EntityFormulas

/-! ### Calls on a store in memory -/

namespace MemoryStore

variable {s : MemoryStore}

theorem get?_of_tenants {s' : MemoryStore} (h : s'.tenants = s.tenants) (tenant id : String) :
    s'.get? tenant id = s.get? tenant id := by
  unfold get? table
  rw [h]

/-- Writing the table of a tenant changes nothing of other tenants. -/
theorem table_of_insert {s' : MemoryStore} {tenant : String} {t : TenantTable}
    (h : s'.tenants = s.tenants.insert tenant t) (tenant' : String) :
    s'.table tenant' = if tenant = tenant' then t else s.table tenant' := by
  unfold table
  rw [h, Dict.get?_insert]
  split
  · rfl
  · rfl

theorem get?_of_insert {s' : MemoryStore} {tenant : String} {t : TenantTable}
    (h : s'.tenants = s.tenants.insert tenant t) (tenant' id : String) :
    s'.get? tenant' id = if tenant = tenant' then t.entities.get? id else s.get? tenant' id := by
  unfold get?
  rw [table_of_insert h]
  split
  · rfl
  · rfl

theorem get?_insert (s : MemoryStore) (e : Entity) (tenant id : String) :
    (s.insert e).get? tenant id =
      if e.tenant = tenant ∧ e.id = id then some e else s.get? tenant id := by
  rw [get?_of_insert (s := s) rfl]
  by_cases ht : e.tenant = tenant
  · subst ht
    rw [if_pos rfl]
    show ((s.table e.tenant).entities.insert e.id e).get? id = _
    rw [Dict.get?_insert]
    by_cases hid : e.id = id
    · rw [if_pos hid, if_pos ⟨rfl, hid⟩]
    · rw [if_neg hid, if_neg fun h => hid h.2]
      rfl
  · rw [if_neg ht, if_neg fun h => ht h.1]

theorem fetch_eq (hs : s.available = true) (tenant : String) (ids : List String) :
    (store.fetch tenant ids s).1 = .ok (ids.filterMap (s.get? tenant)) ∧
      (store.fetch tenant ids s).2.tenants = s.tenants ∧
      (store.fetch tenant ids s).2.available = true := by
  rw [store_fetch hs]
  exact ⟨rfl, rfl, hs⟩

theorem relationships_eq (hs : s.available = true) (tenant id : String) :
    Answered (store.relationships tenant id s).1 ∧
      (store.relationships tenant id s).2.tenants = s.tenants ∧
      (store.relationships tenant id s).2.available = true := by
  rw [store_relationships hs]
  exact ⟨⟨_, rfl⟩, rfl, hs⟩

/-- Whether the store is available or not, reading changes no table and shows what is stored. -/
theorem fetch_found (s : MemoryStore) (tenant : String) (ids : List String) :
    (store.fetch tenant ids s).2.tenants = s.tenants ∧ ∀ found,
      (store.fetch tenant ids s).1 = .ok found → found = ids.filterMap (s.get? tenant) := by
  by_cases hs : s.available = true
  · obtain ⟨hanswer, htenants, _⟩ := fetch_eq hs tenant ids
    refine ⟨htenants, fun found hfound => ?_⟩
    rw [hanswer] at hfound
    exact (Except.ok.inj hfound).symm
  · have hfetch : store.fetch tenant ids s = (.error unavailable, s) := if_neg hs
    rw [hfetch]
    exact ⟨rfl, fun found hfound => (nomatch hfound)⟩

theorem relationships_tenants (s : MemoryStore) (tenant id : String) :
    (store.relationships tenant id s).2.tenants = s.tenants := by
  by_cases hs : s.available = true
  · exact (relationships_eq hs tenant id).2.1
  · have hfetch : store.relationships tenant id s = (.error unavailable, s) := if_neg hs
    rw [hfetch]

/-! ### Writing -/

/-- Nothing has changed but an entity, which is this one now, and the history of its tenant, which
    has these records more. -/
structure Wrote (tenant id : String) (e : Entity) (rs : List StateRecord) (s s' : MemoryStore) :
    Prop where
  entity : s'.get? tenant id = some e
  others : ∀ tenant' id', (tenant', id') ≠ (tenant, id) → s'.get? tenant' id' = s.get? tenant' id'
  relationships : ∀ tenant', (s'.table tenant').relationships = (s.table tenant').relationships
  history : s'.history tenant = s.history tenant ++ rs
  histories : ∀ tenant', tenant' ≠ tenant → s'.history tenant' = s.history tenant'

namespace Wrote

variable {s' s'' : MemoryStore} {tenant id : String} {e e' : Entity} {rs rs' : List StateRecord}

theorem refl (h : s.get? tenant id = some e) : Wrote tenant id e [] s s :=
  ⟨h, fun _ _ _ => rfl, fun _ => rfl, (List.append_nil _).symm, fun _ _ => rfl⟩

theorem trans (h : Wrote tenant id e rs s s') (h' : Wrote tenant id e' rs' s' s'') :
    Wrote tenant id e' (rs ++ rs') s s'' where
  entity := h'.entity
  others tenant' id' hne := (h'.others tenant' id' hne).trans (h.others tenant' id' hne)
  relationships tenant' := (h'.relationships tenant').trans (h.relationships tenant')
  history := by rw [h'.history, h.history, List.append_assoc]
  histories tenant' hne := (h'.histories tenant' hne).trans (h.histories tenant' hne)

/-- Only the tables matter. -/
theorem of_tenants (h : Wrote tenant id e rs s s') (ht : s.tenants = s''.tenants) :
    Wrote tenant id e rs s'' s' := by
  have htable : s.table = s''.table := by
    unfold table
    rw [ht]
  obtain ⟨hentity, hothers, hrelationships, hhistory, hhistories⟩ := h
  unfold get? MemoryStore.history at *
  rw [htable] at hothers hrelationships hhistory hhistories
  exact ⟨hentity, hothers, hrelationships, hhistory, hhistories⟩

end Wrote

variable {s' : MemoryStore} {tenant : String} {r : StateRecord}

theorem write_eq : store.write tenant r s =
    ((persist tenant r s).1.mapError (.persist r.entity r.property), (persist tenant r s).2) := rfl

/-- The table that a record is written to. -/
theorem wrote_of_insert {e' : Entity} (h : s'.tenants = s.tenants.insert tenant { s.table tenant with
      entities := (s.table tenant).entities.insert r.entity e'
      history := (s.table tenant).history ++ [r] }) :
    Wrote tenant r.entity e' [r] s s' where
  entity := by rw [get?_of_insert h, if_pos rfl, Dict.get?_insert_self]
  others tenant' id' hne := by
    rw [get?_of_insert h]
    split
    · rename_i htenant
      subst htenant
      rw [Dict.get?_insert, if_neg fun hid => hne (by rw [hid])]
      rfl
    · rfl
  relationships tenant' := by
    rw [table_of_insert h]
    split
    · rename_i htenant
      rw [htenant]
    · rfl
  history := by
    unfold MemoryStore.history
    rw [table_of_insert h, if_pos rfl]
  histories tenant' hne := by
    unfold MemoryStore.history
    rw [table_of_insert h, if_neg hne.symm]

/-- A record that is written is written to its entity. -/
theorem write_ok (h : store.write tenant r s = (.ok (), s')) :
    s'.available = s.available ∧ ∃ e e', s.get? tenant r.entity = some e ∧ e.withState r = .ok e' ∧
      Wrote tenant r.entity e' [r] s s' := by
  rw [write_eq] at h
  unfold persist TenantTable.persist at h
  split at h
  · cases he : (s.table tenant).entities.get? r.entity with
    | none =>
      rw [he] at h
      exact nomatch h
    | some e =>
      rw [he] at h
      dsimp only at h
      cases hw : e.withState r with
      | error err =>
        rw [hw] at h
        exact nomatch h
      | ok e' =>
        rw [hw] at h
        cases h
        exact ⟨rfl, e, e', he, hw, wrote_of_insert rfl⟩
  · exact nomatch h

/-- A record that is refused changes nothing, and an available store refuses only what its entity
    cannot take. -/
theorem write_error {err : PassError} (h : store.write tenant r s = (.error err, s')) :
    s' = s ∧ (s.available = true →
      ∀ e, s.get? tenant r.entity = some e → ∀ e', e.withState r ≠ .ok e') := by
  rw [write_eq] at h
  unfold persist TenantTable.persist at h
  split at h
  · cases he : (s.table tenant).entities.get? r.entity with
    | none =>
      rw [he] at h
      cases h
      refine ⟨rfl, fun _ e hget => ?_⟩
      rw [show s.get? tenant r.entity = none from he] at hget
      exact nomatch hget
    | some e =>
      rw [he] at h
      dsimp only at h
      cases hw : e.withState r with
      | error err =>
        rw [hw] at h
        cases h
        refine ⟨rfl, fun _ x hget e' hx => ?_⟩
        rw [show s.get? tenant r.entity = some e from he] at hget
        cases hget
        rw [hw] at hx
        exact nomatch hx
      | ok e' =>
        rw [hw] at h
        exact nomatch h
  · rename_i ha
    cases h
    exact ⟨rfl, fun hs => absurd hs ha⟩

/-- Records that an entity can take are all written. -/
theorem writeAll_wrote (hs : s.available = true) {id : String} {e : Entity}
    (he : s.get? tenant id = some e) {rs : List StateRecord} (hw : e.Writable rs)
    (hrs : ∀ r ∈ rs, r.entity = id) :
    ∃ s', store.writeAll tenant rs s = (.ok (), s') ∧ Wrote tenant id (e.written rs) rs s s' := by
  induction rs generalizing s e with
  | nil => exact ⟨s, rfl, .refl he⟩
  | cons r rest ih =>
    obtain ⟨e', he', hrest, hwritten⟩ := hw.exists_next
    have hid := hrs r List.mem_cons_self
    rcases hwrite : store.write tenant r s with ⟨_ | ⟨⟩, s₁⟩
    · exact absurd he' ((write_error hwrite).2 hs e (hid ▸ he) e')
    · obtain ⟨havailable, x, x', hx, hx', hwrote⟩ := write_ok hwrite
      rw [hid, he] at hx
      cases hx
      rw [he'] at hx'
      cases hx'
      rw [hid] at hwrote
      obtain ⟨s₂, hwrites, hwrote'⟩ := ih (havailable.trans hs) hwrote.entity hrest
        fun r hr => hrs r (List.mem_cons_of_mem _ hr)
      refine ⟨s₂, ?_, ?_⟩
      · rw [EntityStore.writeAll, hwrite]
        exact hwrites
      · rw [hwritten]
        exact hwrote.trans hwrote'

end MemoryStore

/-! ### Ids -/

/-- Entities that are put into a store stand under their own ids. -/
theorem keyed_insert {s : MemoryStore} (hk : ∀ tenant, (s.table tenant).Keyed)
    (e : Entity) (tenant : String) : ((s.insert e).table tenant).Keyed := by
  intro id x hx
  change (s.insert e).get? tenant id = some x at hx
  rw [MemoryStore.get?_insert] at hx
  split at hx
  · rename_i hid
    cases hx
    exact hid.2
  · exact hk tenant id x hx

end EntityFormulas
