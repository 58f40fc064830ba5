/-
  EntityFormulas/Proofs/Store/Merging.lean
  ========================================
  **Stores that are changed apart and together.**

  When several passes work on one store, each on an entity of its own, the store
  can be compared with copies of it, one for each pass, on which that pass works
  alone.  A call that a pass makes on the store and on its copy changes both in
  the same way (`Mimics`), so the store stays a merge of the copies (`Merges`):
  entities and their records are as in the copies, and the calls add up.

  A merge of given copies is determined up to the order in which records of
  different entities were written (`Merges.equivalent`).
-/
import EntityFormulas.Proofs.Computation.Timestamps
import EntityFormulas.Proofs.Store.Writing
import EntityFormulas.Recalculation.Basic

namespace EntityFormulas

/-- The counts of calls. -/
def Traffic.counters : List (Traffic → Nat) :=
  [entityFetches, idsRequested, relationshipFetches, persists]

theorem Traffic.ext_counters {t t' : Traffic} (h : ∀ count ∈ counters, count t = count t') :
    t = t' := by
  simp only [counters, List.forall_mem_cons] at h
  obtain ⟨hentities, hids, hrelationships, hpersists, -⟩ := h
  cases t
  cases t'
  congr

namespace MemoryStore

/-- The records written for an entity, the oldest first. -/
def recordsOf (s : MemoryStore) (key : EntityKey) : List StateRecord :=
  (s.history key.tenant).filter fun r => r.entity = key.entity

/-! ### What every call keeps -/

/-- No entity has come or gone, and nothing but entities, records and counts has changed. -/
structure Keeps (s s' : MemoryStore) : Prop where
  present : ∀ tenant id, (s'.get? tenant id).isSome = (s.get? tenant id).isSome
  tenants : ∀ tenant, s'.tenants.contains tenant = s.tenants.contains tenant
  relationships : ∀ tenant, (s'.table tenant).relationships = (s.table tenant).relationships
  available : s'.available = s.available
  fetchDelay : s'.fetchDelay = s.fetchDelay

variable {s s' s'' x x' : MemoryStore} {key : EntityKey}

theorem Keeps.of_eq (htenants : s'.tenants = s.tenants) (havailable : s'.available = s.available)
    (hdelay : s'.fetchDelay = s.fetchDelay) : s.Keeps s' where
  present := fun tenant id => by rw [get?_of_tenants htenants]
  tenants := fun tenant => by rw [htenants]
  relationships := fun tenant => by
    unfold table
    rw [htenants]
  available := havailable
  fetchDelay := hdelay

theorem Keeps.refl (s : MemoryStore) : s.Keeps s := .of_eq rfl rfl rfl

theorem Keeps.trans (h : s.Keeps s') (h' : s'.Keeps s'') : s.Keeps s'' where
  present tenant id := (h'.present tenant id).trans (h.present tenant id)
  tenants tenant := (h'.tenants tenant).trans (h.tenants tenant)
  relationships tenant := (h'.relationships tenant).trans (h.relationships tenant)
  available := h'.available.trans h.available
  fetchDelay := h'.fetchDelay.trans h.fetchDelay

theorem keeps_fetch (tenant : String) (ids : List String) (s : MemoryStore) :
    s.Keeps (store.fetch tenant ids s).2 := by
  change s.Keeps (fetch tenant ids s).2
  unfold fetch
  split <;> exact .of_eq rfl rfl rfl

theorem keeps_relationships (tenant id : String) (s : MemoryStore) :
    s.Keeps (store.relationships tenant id s).2 := by
  change s.Keeps (fetchRelationships tenant id s).2
  unfold fetchRelationships
  split <;> exact .of_eq rfl rfl rfl

/-- The store after a record was written, which changed an entity to this one. -/
def withRecord (tenant : String) (r : StateRecord) (e : Entity) (s : MemoryStore) : MemoryStore :=
  { s with
    tenants := s.tenants.insert tenant { s.table tenant with
      entities := (s.table tenant).entities.insert r.entity e
      history := (s.table tenant).history ++ [r] }
    traffic := { s.traffic with persists := s.traffic.persists + 1 } }

/-- What comes of a record depends on its entity only. -/
theorem write_available (tenant : String) (r : StateRecord) (hs : s.available = true) :
    store.write tenant r s =
      match s.get? tenant r.entity with
      | none => (.error (.persist r.entity r.property (.entityNotFound tenant r.entity)), s)
      | some e =>
        match e.withState r with
        | .error err => (.error (.persist r.entity r.property err), s)
        | .ok e' => (.ok (), s.withRecord tenant r e') := by
  rw [write_eq]
  unfold persist TenantTable.persist get?
  rw [if_pos hs]
  cases (s.table tenant).entities.get? r.entity with
  | none => rfl
  | some e =>
    dsimp only
    cases e.withState r <;> rfl

theorem wrote_withRecord (tenant : String) (r : StateRecord) (e : Entity) (s : MemoryStore) :
    Wrote tenant r.entity e [r] s (s.withRecord tenant r e) := wrote_of_insert rfl

theorem keeps_withRecord {tenant : String} {r : StateRecord} {e e' : Entity}
    (he : s.get? tenant r.entity = some e) : s.Keeps (s.withRecord tenant r e') where
  present tenant' id := by
    by_cases hid : (tenant', id) = (tenant, r.entity)
    · obtain ⟨rfl, rfl⟩ := Prod.mk.inj hid
      rw [(wrote_withRecord ..).entity, he]
      rfl
    · rw [(wrote_withRecord ..).others _ _ hid]
  tenants tenant' := by
    change (s.tenants.insert tenant _).contains tenant' = _
    unfold Dict.contains
    rw [Dict.get?_insert]
    split
    · rename_i htenant
      subst htenant
      cases ht : s.tenants.get? tenant with
      | some t => rfl
      | none =>
        -- A tenant without a table has no entities.
        have hnone : s.get? tenant r.entity = none := by
          unfold get? table
          rw [ht]
          rfl
        rw [hnone] at he
        exact nomatch he
    · rfl
  relationships tenant' := (wrote_withRecord ..).relationships tenant'
  available := rfl
  fetchDelay := rfl

theorem keeps_write (tenant : String) (r : StateRecord) (hs : s.available = true) :
    s.Keeps (store.write tenant r s).2 := by
  rw [write_available tenant r hs]
  cases he : s.get? tenant r.entity with
  | none => exact .refl s
  | some e =>
    dsimp only
    cases e.withState r with
    | error err => exact .refl s
    | ok e' => exact keeps_withRecord he

theorem recordsOf_of_tenants (h : s'.tenants = s.tenants) (key : EntityKey) :
    s'.recordsOf key = s.recordsOf key := by
  unfold recordsOf history table
  rw [h]

theorem recordsOf_withRecord (tenant : String) (r : StateRecord) (e : Entity) (s : MemoryStore)
    (key : EntityKey) : (s.withRecord tenant r e).recordsOf key =
      s.recordsOf key ++ if (⟨tenant, r.entity⟩ : EntityKey) = key then [r] else [] := by
  have hwrote := wrote_withRecord tenant r e s
  obtain ⟨tenant', id⟩ := key
  unfold recordsOf
  dsimp only
  by_cases ht : tenant' = tenant
  · subst ht
    rw [hwrote.history, List.filter_append]
    congr 1
    by_cases hid : r.entity = id
    · rw [if_pos (by rw [hid]), List.filter_cons_of_pos (by simpa using hid), List.filter_nil]
    · rw [if_neg fun h => hid (EntityKey.mk.inj h).2, List.filter_cons_of_neg (by simpa using hid),
        List.filter_nil]
  · rw [hwrote.histories tenant' ht, if_neg fun h => ht (EntityKey.mk.inj h).1.symm, List.append_nil]

/-! ### Calls on two stores -/

/-- The stores have the same entity and the same records of it. -/
structure Matches (key : EntityKey) (s s' : MemoryStore) : Prop where
  entity : s.get? key.tenant key.entity = s'.get? key.tenant key.entity
  records : s.recordsOf key = s'.recordsOf key

/-- What has happened to the first store has happened to the second one, and it concerns no other
    entity. -/
structure Mimics (key : EntityKey) (x x' s s' : MemoryStore) : Prop where
  own : s'.Matches key x'
  others : ∀ other, other ≠ key → s'.Matches other s
  traffic : ∀ count ∈ Traffic.counters,
    (count s'.traffic : Int) - count s.traffic = count x'.traffic - count x.traffic

theorem Matches.of_tenants (h : s'.tenants = s.tenants) (key : EntityKey) : s'.Matches key s :=
  ⟨get?_of_tenants h _ _, recordsOf_of_tenants h key⟩

theorem Matches.trans (h : s.Matches key s') (h' : s'.Matches key s'') : s.Matches key s'' :=
  ⟨h.entity.trans h'.entity, h.records.trans h'.records⟩

/-- A call that changes no table. -/
theorem Mimics.of_tenants (h : s.Matches key x) (hs : s'.tenants = s.tenants)
    (hx : x'.tenants = x.tenants) (htraffic : ∀ count ∈ Traffic.counters,
      (count s'.traffic : Int) - count s.traffic = count x'.traffic - count x.traffic) :
    Mimics key x x' s s' where
  own := ((Matches.of_tenants hs key).trans h).trans (.of_tenants hx.symm key)
  others other _ := .of_tenants hs other
  traffic := htraffic

theorem Mimics.refl (h : s.Matches key x) : Mimics key x x s s :=
  .of_tenants h rfl rfl fun _ _ => by omega

theorem mimics_fetch (hs : s.available = true) (hx : x.available = true) (h : s.Matches key x)
    (tenant : String) (ids : List String) :
    Mimics key x (store.fetch tenant ids x).2 s (store.fetch tenant ids s).2 := by
  change Mimics key x (fetch tenant ids x).2 s (fetch tenant ids s).2
  unfold fetch
  rw [if_pos hs, if_pos hx]
  refine .of_tenants h rfl rfl ?_
  simp only [Traffic.counters, List.forall_mem_cons]
  exact ⟨by omega, by omega, by omega, by omega, nofun⟩

theorem mimics_relationships (hs : s.available = true) (hx : x.available = true)
    (h : s.Matches key x) (tenant id : String) :
    Mimics key x (store.relationships tenant id x).2 s (store.relationships tenant id s).2 := by
  change Mimics key x (fetchRelationships tenant id x).2 s (fetchRelationships tenant id s).2
  unfold fetchRelationships
  rw [if_pos hs, if_pos hx]
  refine .of_tenants h rfl rfl ?_
  simp only [Traffic.counters, List.forall_mem_cons]
  exact ⟨by omega, by omega, by omega, by omega, nofun⟩

/-- A record is written to both stores, or refused by both for the same reason. -/
theorem mimics_write (hs : s.available = true) (hx : x.available = true) (h : s.Matches key x)
    {r : StateRecord} (hr : r.entity = key.entity) :
    (store.write key.tenant r s).1 = (store.write key.tenant r x).1 ∧
      Mimics key x (store.write key.tenant r x).2 s (store.write key.tenant r s).2 := by
  have hget : s.get? key.tenant r.entity = x.get? key.tenant r.entity := by
    rw [hr]
    exact h.entity
  rw [write_available key.tenant r hs, write_available key.tenant r hx, hget]
  cases x.get? key.tenant r.entity with
  | none => exact ⟨rfl, .refl h⟩
  | some e =>
    dsimp only
    cases e.withState r with
    | error err => exact ⟨rfl, .refl h⟩
    | ok e' =>
      have hkey : (⟨key.tenant, r.entity⟩ : EntityKey) = key := by rw [hr]
      refine ⟨rfl, ⟨?_, ?_⟩, fun other hne => ⟨?_, ?_⟩, ?_⟩
      · rw [← hr, (wrote_withRecord ..).entity, (wrote_withRecord ..).entity]
      · rw [recordsOf_withRecord, recordsOf_withRecord, h.records]
      · refine (wrote_withRecord ..).others _ _ fun heq => hne ?_
        rw [← hkey, ← (Prod.mk.inj heq).1, ← (Prod.mk.inj heq).2]
      · rw [recordsOf_withRecord, hkey, if_neg (Ne.symm hne), List.append_nil]
      · simp only [Traffic.counters, List.forall_mem_cons, withRecord]
        exact ⟨by omega, by omega, by omega, by omega, nofun⟩

/-! ### Merges -/

/-- The calls made on copies of a store, all together. -/
def callsOn (count : Traffic → Nat) (s : MemoryStore) : List (EntityKey × MemoryStore) → Int
  | [] => 0
  | c :: rest => (count c.2.traffic - count s.traffic) + callsOn count s rest

/-- The store has become what the given copies of it have become, each with changes of one entity:
    every such entity and its records are as in its copy, the calls of all copies are counted, and
    nothing else has changed. -/
structure Merges (copies : List (EntityKey × MemoryStore)) (s s' : MemoryStore) : Prop
    extends s.Keeps s' where
  own : ∀ c ∈ copies, s'.Matches c.1 c.2
  others : ∀ key, key ∉ copies.map Prod.fst → s'.Matches key s
  traffic : ∀ count ∈ Traffic.counters,
    (count s'.traffic : Int) - count s.traffic = callsOn count s copies

theorem merges_refl (keys : List EntityKey) (s : MemoryStore) :
    Merges (keys.map fun key => (key, s)) s s where
  toKeeps := .refl s
  own c hc := by
    obtain ⟨key, -, rfl⟩ := List.mem_map.1 hc
    exact ⟨rfl, rfl⟩
  others key _ := ⟨rfl, rfl⟩
  traffic count _ := by
    induction keys with
    | nil => exact Int.sub_self _
    | cons key keys ih =>
      rw [List.map_cons, callsOn, ← ih, Int.sub_self, Int.add_zero]

theorem callsOn_update {keys : List EntityKey} (hn : keys.Nodup) (hkey : key ∈ keys)
    (count : Traffic → Nat) (s : MemoryStore) (copy : EntityKey → MemoryStore) (t : MemoryStore) :
    callsOn count s (keys.map fun k => (k, Function.update copy key t k)) =
      callsOn count s (keys.map fun k => (k, copy k)) +
        (count t.traffic - count (copy key).traffic) := by
  induction keys with
  | nil => exact absurd hkey List.not_mem_nil
  | cons k keys ih =>
    rw [List.nodup_cons] at hn
    rw [List.map_cons, List.map_cons, callsOn, callsOn]
    by_cases hk : k = key
    · subst hk
      have hrest : (keys.map fun k' => (k', Function.update copy k t k')) =
          keys.map fun k' => (k', copy k') := by
        refine List.map_congr_left fun k' hk' => ?_
        have hne : k' ≠ k := by
          rintro rfl
          exact hn.1 hk'
        rw [Function.update_of_ne hne]
      rw [hrest, Function.update_self]
      dsimp only
      omega
    · rw [ih hn.2 ((List.mem_cons.1 hkey).resolve_left (Ne.symm hk)), Function.update_of_ne hk]
      omega

/-- A call that is made on the store and on one of the copies. -/
theorem Merges.step {keys : List EntityKey} {copy : EntityKey → MemoryStore} {t : MemoryStore}
    (h : Merges (keys.map fun k => (k, copy k)) s s') (hn : keys.Nodup) (hkey : key ∈ keys)
    (hkeeps : s'.Keeps s'') (hm : Mimics key (copy key) t s' s'') :
    Merges (keys.map fun k => (k, Function.update copy key t k)) s s'' where
  toKeeps := h.toKeeps.trans hkeeps
  own c hc := by
    obtain ⟨k, hk, rfl⟩ := List.mem_map.1 hc
    by_cases hkk : k = key
    · subst hkk
      rw [Function.update_self]
      exact hm.own
    · rw [Function.update_of_ne hkk]
      exact (hm.others k hkk).trans (h.own _ (List.mem_map.2 ⟨k, hk, rfl⟩))
  others k hk := by
    have hmap : (keys.map fun k => (k, Function.update copy key t k)).map Prod.fst =
        (keys.map fun k => (k, copy k)).map Prod.fst := by simp
    rw [hmap] at hk
    have hne : k ≠ key := by
      rintro rfl
      exact hk (List.mem_map.2 ⟨_, List.mem_map.2 ⟨k, hkey, rfl⟩, rfl⟩)
    exact (hm.others k hne).trans (h.others k hk)
  traffic count hcount := by
    have hbefore := h.traffic count hcount
    have hstep := hm.traffic count hcount
    rw [callsOn_update hn hkey]
    omega

/-! ### Equivalence -/

/-- The stores are the same but for the order in which records of different entities were
    written. -/
structure Equivalent (s s' : MemoryStore) : Prop where
  tenants : ∀ tenant, s.tenants.contains tenant = s'.tenants.contains tenant
  entities : ∀ tenant, (s.table tenant).entities = (s'.table tenant).entities
  relationships : ∀ tenant, (s.table tenant).relationships = (s'.table tenant).relationships
  records : ∀ key, s.recordsOf key = s'.recordsOf key
  traffic : s.traffic = s'.traffic
  available : s.available = s'.available
  fetchDelay : s.fetchDelay = s'.fetchDelay

/-- The copies decide what the store has become. -/
theorem Merges.equivalent {copies : List (EntityKey × MemoryStore)} (h : Merges copies s s')
    (h' : Merges copies s s'') : s'.Equivalent s'' where
  tenants tenant := (h.tenants tenant).trans (h'.tenants tenant).symm
  entities tenant := by
    refine Dict.ext_get? fun id => ?_
    change s'.get? tenant id = s''.get? tenant id
    by_cases hmem : (⟨tenant, id⟩ : EntityKey) ∈ copies.map Prod.fst
    · obtain ⟨c, hc, hkey⟩ := List.mem_map.1 hmem
      have hentity := (h.own c hc).entity.trans (h'.own c hc).entity.symm
      rwa [hkey] at hentity
    · exact (h.others _ hmem).entity.trans (h'.others _ hmem).entity.symm
  relationships tenant := (h.relationships tenant).trans (h'.relationships tenant).symm
  records key := by
    by_cases hmem : key ∈ copies.map Prod.fst
    · obtain ⟨c, hc, rfl⟩ := List.mem_map.1 hmem
      exact (h.own c hc).records.trans (h'.own c hc).records.symm
    · exact (h.others key hmem).records.trans (h'.others key hmem).records.symm
  traffic := by
    refine Traffic.ext_counters fun count hcount => ?_
    have := h.traffic count hcount
    have := h'.traffic count hcount
    omega
  available := h.available.trans h'.available.symm
  fetchDelay := h.fetchDelay.trans h'.fetchDelay.symm

/-! ### Changed timestamps -/

section Restamp

variable (f : String → String)

theorem recordsOf_restamp (s : MemoryStore) (key : EntityKey) :
    (s.restamp f).recordsOf key = (s.recordsOf key).map (StateRecord.restamp f) := by
  unfold recordsOf
  rw [history_restamp, List.filter_map]
  rfl

variable {f}

theorem Matches.restamp (h : s.Matches key s') : (s.restamp f).Matches key (s'.restamp f) := by
  refine ⟨?_, ?_⟩
  · rw [get?_restamp, get?_restamp, h.entity]
  · rw [recordsOf_restamp, recordsOf_restamp, h.records]

theorem Keeps.restamp (h : s.Keeps s') : (s.restamp f).Keeps (s'.restamp f) where
  present tenant id := by
    rw [get?_restamp, get?_restamp, Option.isSome_map, Option.isSome_map, h.present]
  tenants tenant := by
    have hcontains (x : MemoryStore) : (x.restamp f).tenants.contains tenant =
        x.tenants.contains tenant := Dict.contains_map ..
    rw [hcontains, hcontains, h.tenants]
  relationships tenant := by
    rw [table_restamp, table_restamp]
    exact h.relationships tenant
  available := h.available
  fetchDelay := h.fetchDelay

theorem callsOn_restamp (count : Traffic → Nat) (s : MemoryStore)
    (copies : List (EntityKey × MemoryStore)) :
    callsOn count (s.restamp f) (copies.map fun c => (c.1, c.2.restamp f)) =
      callsOn count s copies := by
  induction copies with
  | nil => rfl
  | cons c rest ih =>
    rw [List.map_cons, callsOn, callsOn, ih]
    rfl

theorem Merges.restamp {copies : List (EntityKey × MemoryStore)} (h : Merges copies s s') :
    Merges (copies.map fun c => (c.1, c.2.restamp f)) (s.restamp f) (s'.restamp f) where
  toKeeps := h.toKeeps.restamp
  own c hc := by
    obtain ⟨c', hc', rfl⟩ := List.mem_map.1 hc
    exact (h.own c' hc').restamp
  others key hkey := by
    rw [List.map_map] at hkey
    exact (h.others key hkey).restamp
  traffic count hcount := by
    rw [callsOn_restamp]
    exact h.traffic count hcount

end Restamp

end MemoryStore

end EntityFormulas
