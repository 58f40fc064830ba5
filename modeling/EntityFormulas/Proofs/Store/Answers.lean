/-
  EntityFormulas/Proofs/Store/Answers.lean
  ========================================
  **What lookups find out.**

  `Lookup.Always` follows a lookup through every answer that a store may give;
  what always holds at its end holds on every store.  `Lookup.answer` answers a
  lookup from fixed tables.  That is what an available store in memory does:
  reading from it changes nothing but the counts of calls (`run_memory`).
  `Fetch.Yields` is for stores that answer every call, in whatever way.
-/
import EntityFormulas.Store.Lookup
import EntityFormulas.Store.Memory

namespace EntityFormulas

/-! ### Calls on a store in memory -/

namespace MemoryStore

variable {s : MemoryStore} (hs : s.available = true)
include hs

theorem store_fetch (tenant : String) (ids : List String) :
    store.fetch tenant ids s = (.ok ((s.table tenant).fetch ids),
      { s with traffic := { s.traffic with
          entityFetches := s.traffic.entityFetches + 1
          idsRequested := s.traffic.idsRequested + ids.length } }) := if_pos hs

theorem store_relationships (tenant id : String) :
    store.relationships tenant id s = (.ok ((s.table tenant).relationshipsOf id),
      { s with traffic := { s.traffic with
          relationshipFetches := s.traffic.relationshipFetches + 1 } }) := if_pos hs

end MemoryStore

namespace Lookup

variable {α β : Type}

/-! ### Whatever a store answers -/

/-- The result has a property whatever the store answers, as long as the answers are acceptable. -/
def Always (acceptable : {γ : Type} → Except StoreError γ → Prop) (p : α → Prop) : Lookup α → Prop
  | .done a => p a
  | .entities _ _ next => ∀ r, acceptable r → Always acceptable p (next r)
  | .relationships _ _ next => ∀ r, acceptable r → Always acceptable p (next r)

variable {acceptable : {γ : Type} → Except StoreError γ → Prop}

theorem always_bind {p : β → Prop} {m : Lookup α} {f : α → Lookup β} :
    (m.bind f).Always acceptable p ↔ m.Always acceptable fun a => (f a).Always acceptable p := by
  induction m with
  | done a => exact Iff.rfl
  | entities tenant ids next ih => exact forall_congr' fun r => imp_congr_right fun _ => ih r
  | relationships tenant id next ih => exact forall_congr' fun r => imp_congr_right fun _ => ih r

theorem Always.mono {p q : α → Prop} (h : ∀ a, p a → q a) {m : Lookup α}
    (hm : m.Always acceptable p) : m.Always acceptable q := by
  induction m with
  | done a => exact h a hm
  | entities tenant ids next ih => exact fun r hr => ih r (hm r hr)
  | relationships tenant id next ih => exact fun r hr => ih r (hm r hr)

/-- What holds whatever the store answers holds on every store. -/
theorem Always.run {σ : Type} {p : α → Prop} {m : Lookup α} (hm : m.Always (fun _ => True) p)
    (store : EntityStore σ) (s : σ) : p (m.run store s).1 := by
  induction m generalizing s with
  | done a => exact hm
  | entities tenant ids next ih => exact ih _ (hm _ trivial) _
  | relationships tenant id next ih => exact ih _ (hm _ trivial) _

/-! ### Answers from tables -/

/-- The result when every call is answered from the tables of the tenants. -/
def answer (tables : String → TenantTable) : Lookup α → α
  | .done a => a
  | .entities tenant ids next => (next (.ok ((tables tenant).fetch ids))).answer tables
  | .relationships tenant id next => (next (.ok ((tables tenant).relationshipsOf id))).answer tables

theorem answer_bind (tables : String → TenantTable) (m : Lookup α) (f : α → Lookup β) :
    (m.bind f).answer tables = (f (m.answer tables)).answer tables := by
  induction m with
  | done a => rfl
  | entities tenant ids next ih => exact ih _
  | relationships tenant id next ih => exact ih _

/-- Tables answer every call. -/
theorem Always.answer {p : α → Prop} {m : Lookup α} (hm : m.Always acceptable p)
    (hok : ∀ {γ : Type} (a : γ), acceptable (.ok a)) (tables : String → TenantTable) :
    p (m.answer tables) := by
  induction m with
  | done a => exact hm
  | entities tenant ids next ih => exact ih _ (hm _ (hok _))
  | relationships tenant id next ih => exact ih _ (hm _ (hok _))

theorem run_memory {s : MemoryStore} (hs : s.available = true) (m : Lookup α) :
    (m.run MemoryStore.store s).1 = m.answer s.table ∧
      (m.run MemoryStore.store s).2.tenants = s.tenants ∧
      (m.run MemoryStore.store s).2.available = true := by
  induction m generalizing s with
  | done a => exact ⟨rfl, rfl, hs⟩
  | entities tenant ids next ih =>
    rw [Lookup.run, MemoryStore.store_fetch hs]
    exact ih _ hs
  | relationships tenant id next ih =>
    rw [Lookup.run, MemoryStore.store_relationships hs]
    exact ih _ hs

end Lookup

/-! ### Lookups that a failed call ends -/

namespace Fetch

variable {α β : Type}

/-- The result has a property, if there is one, whatever the store answers. -/
def Always (acceptable : {γ : Type} → Except StoreError γ → Prop) (p : α → Prop) (m : Fetch α) :
    Prop := m.run.Always acceptable fun r => ∀ a, r = .ok a → p a

variable {acceptable : {γ : Type} → Except StoreError γ → Prop}

theorem always_pure {p : α → Prop} {a : α} (h : p a) :
    Always acceptable p (pure a : Fetch α) := by
  intro b hb
  cases hb
  exact h

theorem always_bind {p : β → Prop} {m : Fetch α} {f : α → Fetch β}
    (h : m.Always acceptable fun a => (f a).Always acceptable p) :
    Always acceptable p (m >>= f) := by
  refine Lookup.always_bind.2 (Lookup.Always.mono (fun r hr => ?_) h)
  cases r with
  | ok a => exact hr a rfl
  | error e => exact fun b hb => nomatch hb

theorem always_lift {p : α → Prop} {m : Lookup α} (h : m.Always acceptable p) :
    Always acceptable p (ExceptT.lift m : Fetch α) := by
  refine Lookup.always_bind.2 (Lookup.Always.mono (fun a ha => ?_) h)
  rintro b hb
  cases hb
  exact ha

/-- A lookup that goes on when a call has failed. -/
theorem always_attempt {p : α → Prop} {q : β → Prop} {m : Fetch α} {f : Except StoreError α → β}
    (hm : m.Always acceptable p) (hok : ∀ a, p a → q (f (.ok a))) (herror : ∀ e, q (f (.error e))) :
    Lookup.Always acceptable q (m.run.bind fun r => .done (f r)) := by
  refine Lookup.always_bind.2 (Lookup.Always.mono (fun r hr => ?_) hm)
  cases r with
  | ok a => exact hok a (hr a rfl)
  | error e => exact herror e

theorem always_entities {p : List Entity → Prop} (tenant : String) (ids : List String)
    (h : ∀ found, acceptable (.ok found) → p found) :
    Always acceptable p (Fetch.entities tenant ids) := by
  intro r hr found hfound
  exact h found (hfound ▸ hr)

theorem always_relationships {p : Relationships → Prop} (tenant id : String)
    (h : ∀ found, acceptable (.ok found) → p found) :
    Always acceptable p (Fetch.relationships tenant id) := by
  intro r hr found hfound
  exact h found (hfound ▸ hr)

/-- The result when every call is answered from tables. -/
def answer (tables : String → TenantTable) (m : Fetch α) : Except StoreError α := m.run.answer tables

theorem answer_bind_ok {tables : String → TenantTable} {m : Fetch α} {f : α → Fetch β} {a : α}
    (h : m.answer tables = .ok a) : (m >>= f).answer tables = (f a).answer tables := by
  have hb : (m >>= f).answer tables = (ExceptT.bindCont f (m.answer tables)).answer tables :=
    Lookup.answer_bind tables m.run (ExceptT.bindCont f)
  rw [hb, h]
  rfl

theorem exists_answer_bind {tables : String → TenantTable} {m : Fetch α} {f : α → Fetch β} {b : β}
    (h : (m >>= f).answer tables = .ok b) :
    ∃ a, m.answer tables = .ok a ∧ (f a).answer tables = .ok b := by
  have hb : (m >>= f).answer tables = (ExceptT.bindCont f (m.answer tables)).answer tables :=
    Lookup.answer_bind tables m.run (ExceptT.bindCont f)
  rw [hb] at h
  cases ha : m.answer tables with
  | error e =>
    rw [ha] at h
    exact nomatch h
  | ok a =>
    rw [ha] at h
    exact ⟨a, rfl, h⟩

end Fetch

theorem StoreError.pickEntity_single {e : Entity} {tenant id : String} (h : e.id = id) :
    pickEntity tenant id [e] = .ok e := by
  unfold pickEntity
  rw [List.find?_cons_of_pos (by simpa using h)]

/-! ### Lookups in stores that answer -/

/-- An answer that is no failure. -/
def Answered {α : Type} (r : Except StoreError α) : Prop := ∃ a, r = .ok a

theorem Lookup.always_of_forall {α : Type} {acceptable : {γ : Type} → Except StoreError γ → Prop}
    {p : α → Prop} (h : ∀ a, p a) (m : Lookup α) : m.Always acceptable p := by
  induction m with
  | done a => exact h a
  | entities tenant ids next ih => exact fun r _ => ih r
  | relationships tenant id next ih => exact fun r _ => ih r

theorem Lookup.Always.and {α : Type} {acceptable : {γ : Type} → Except StoreError γ → Prop}
    {p q : α → Prop} {m : Lookup α} (hp : m.Always acceptable p) (hq : m.Always acceptable q) :
    m.Always acceptable fun a => p a ∧ q a := by
  induction m with
  | done a => exact ⟨hp, hq⟩
  | entities tenant ids next ih => exact fun r hr => ih r (hp r hr) (hq r hr)
  | relationships tenant id next ih => exact fun r hr => ih r (hp r hr) (hq r hr)

namespace Fetch

variable {α β : Type}

/-- The lookup ends with a result of a kind as long as the store answers. -/
def Yields (p : α → Prop) (m : Fetch α) : Prop :=
  m.run.Always Answered fun r => ∃ a, r = .ok a ∧ p a

theorem yields_pure {p : α → Prop} {a : α} (h : p a) : Yields p (pure a : Fetch α) := ⟨a, rfl, h⟩

theorem Yields.bind {p : α → Prop} {q : β → Prop} {m : Fetch α} {f : α → Fetch β}
    (hm : m.Yields p) (hf : ∀ a, p a → (f a).Yields q) : Yields q (m >>= f) := by
  apply Lookup.always_bind.2
  apply Lookup.Always.mono _ hm
  rintro r ⟨a, rfl, ha⟩
  exact hf a ha

theorem Yields.mono {p q : α → Prop} {m : Fetch α} (hm : m.Yields p) (h : ∀ a, p a → q a) :
    m.Yields q := by
  apply Lookup.Always.mono _ hm
  rintro r ⟨a, rfl, ha⟩
  exact ⟨a, rfl, h a ha⟩

theorem yields_entities (tenant : String) (ids : List String) :
    (Fetch.entities tenant ids).Yields fun _ => True := by
  rintro r ⟨found, rfl⟩
  exact ⟨found, rfl, trivial⟩

theorem yields_relationships (tenant id : String) :
    (Fetch.relationships tenant id).Yields fun _ => True := by
  rintro r ⟨found, rfl⟩
  exact ⟨found, rfl, trivial⟩

end Fetch

end EntityFormulas
