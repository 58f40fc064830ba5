/-
  EntityFormulas/Proofs/Recalculation/Copies.lean
  ===============================================
  **Every task on a copy of the store.**

  Each of several tasks, all of different entities, is given a copy of the store
  on which it works alone.  As long as no task loads the entity of another one,
  it cannot tell the store from its copy: every call gets the same answer there
  (`fetch_agrees`).  So at any time the store is a merge of the copies, and what
  the task has left to do leads its copy to where its whole work leads
  (`Abreast`).  Every step of a task keeps this (`Abreast.step`).
-/
import EntityFormulas.Proofs.Recalculation.Loading
import EntityFormulas.Proofs.Recalculation.Pending
import EntityFormulas.Proofs.Store.Merging
import Mathlib.Data.List.Nodup

namespace EntityFormulas

/-! ### The work of a task -/

namespace Task

/-- Writes the records that are left of a plan. -/
def writeOut (t : Task) (plan : Plan) (rest : List StateRecord) (s : MemoryStore) :
    TaskResult × MemoryStore :=
  let (written, s) := MemoryStore.store.writeAll t.key.tenant rest s
  (written.map fun _ => plan.outcome?, s)

/-- Writes what was planned, unless the task could not read what it needs. -/
def finish (t : Task) : Except StoreError Plan × MemoryStore → TaskResult × MemoryStore
  | (.error e, s) => (.error (.load e), s)
  | (.ok plan, s) => t.writeOut plan (plan.records t.key.entity) s

/-- The whole work of a task, without anything in between: how it ends, and the store then. -/
def work (settings : Settings) (now : String) (t : Task) (s : MemoryStore) :
    TaskResult × MemoryStore :=
  t.finish ((t.plan settings now).run.run MemoryStore.store s)

/-- The work of a drain is one pass over its marked entity. -/
theorem work_drain {t : Task} {names : List String} {actor : String} {batch : Nat}
    (hj : t.job = .drain names actor batch) (settings : Settings) (now : String) (s : MemoryStore) :
    (Handler.passResult (t.work settings now s).1, (t.work settings now s).2) =
      MemoryStore.store.recompute settings now t.key.tenant t.key.entity actor (.marked names) s := by
  have hplan : (t.plan settings now).run =
      (Request.compute settings now t.key.tenant t.key.entity (.marked names)).run.bind
        (ExceptT.bindCont fun o => (pure (.pass o actor) : Fetch Plan)) := by
    unfold plan
    rw [hj]
    rfl
  unfold work EntityStore.recompute
  rw [hplan, Lookup.run_bind]
  obtain ⟨e | o, s'⟩ := (Request.compute settings now t.key.tenant t.key.entity
    (.marked names)).run.run MemoryStore.store s
  · rfl
  · change (Handler.passResult (t.writeOut (.pass o actor) _ s').1,
      (t.writeOut (.pass o actor) _ s').2) = _
    unfold writeOut Plan.records
    dsimp only
    cases (MemoryStore.store.writeAll t.key.tenant (o.records t.key.entity actor) s').1 <;> rfl

/-- A task that works alone has made the second store of the first one: what is left of its work
    leads from there to where its whole work leads.  As long as it reads it loads no entity of that
    kind. -/
def Follows (settings : Settings) (s : MemoryStore) (away : EntityKey → Prop) (now : String)
    (x : MemoryStore) (t : Task) : Prop :=
  match t.stage with
  | .arriving | .waiting _ => x = s
  | .reading _ _ program => x.tenants = s.tenants ∧ (∀ key ∈ program.loads s.table, ¬ away key) ∧
      t.finish (program.run MemoryStore.store x) = t.work settings now s
  | .writing _ plan rest => t.writeOut plan rest x = t.work settings now s
  | .leaving _ r | .closing _ r | .landing r | .finished r => (r, x) = t.work settings now s

end Task

/-! ### The tasks of a table -/

namespace Table

variable {ts : Table Nat Task}

/-- The entities that tasks work on. -/
def taskKeys (ts : Table Nat Task) : List EntityKey := ts.values.map Task.key

/-- Another task than that of the first entity works on the second one. -/
def Away (ts : Table Nat Task) (own key : EntityKey) : Prop := key ∈ ts.taskKeys ∧ key ≠ own

theorem mem_values {t : Task} : t ∈ ts.values ↔ ∃ id, ts.get? id = some t := by
  unfold values
  rw [List.mem_map]
  constructor
  · rintro ⟨⟨id, t⟩, hmem, rfl⟩
    exact ⟨id, mem_entries_iff.1 hmem⟩
  · rintro ⟨id, ht⟩
    exact ⟨(id, t), mem_entries_iff.2 ht, rfl⟩

theorem mem_taskKeys {key : EntityKey} :
    key ∈ ts.taskKeys ↔ ∃ id t, ts.get? id = some t ∧ t.key = key := by
  unfold taskKeys
  simp only [List.mem_map, mem_values]
  constructor
  · rintro ⟨t, ⟨id, ht⟩, hkey⟩
    exact ⟨id, t, ht, hkey⟩
  · rintro ⟨id, t, ht, hkey⟩
    exact ⟨t, ⟨id, ht⟩, hkey⟩

theorem eq_of_nodup_taskKeys (hn : ts.taskKeys.Nodup) {i j : Nat} {t u : Task}
    (ht : ts.get? i = some t) (hu : ts.get? j = some u) (hkey : t.key = u.key) : i = j := by
  unfold taskKeys values at hn
  rw [List.map_map] at hn
  exact congrArg Prod.fst (List.inj_on_of_nodup_map hn (mem_entries_iff.2 ht) (mem_entries_iff.2 hu)
    hkey)

end Table

/-! ### All tasks -/

/-- The tasks `ts` began when the store was `s`.  They have worked on it together, while each has
    worked alone on a copy, and the store is a merge of the copies. -/
structure Abreast (settings : Settings) (s : MemoryStore) (ts : Table Nat Task)
    (copy : EntityKey → MemoryStore) (now : EntityKey → String) (c : Core MemoryStore) : Prop where
  known : ∀ id t, c.tasks.get? id = some t → ∃ stage, ts.get? id = some { t with stage }
  addressed : ∀ id t, c.tasks.get? id = some t → t.Addressed
  follows : ∀ id t, c.tasks.get? id = some t →
    t.Follows settings s (ts.Away t.key) (now t.key) (copy t.key)
  done : ∀ id t, ts.get? id = some t → c.tasks.get? id = none →
    copy t.key = (t.work settings (now t.key) s).2
  merges : MemoryStore.Merges (ts.taskKeys.map fun key => (key, copy key)) s c.store
  available : ∀ key, (copy key).available = true

/-- No task loads an entity that another one works on. -/
def Table.Apart (settings : Settings) (s : MemoryStore) (ts : Table Nat Task) : Prop :=
  ∀ id t, ts.get? id = some t → ∀ now, ∀ key ∈ (t.plan settings now).loads s.table,
    ¬ ts.Away t.key key

namespace Abreast

variable {settings : Settings} {s : MemoryStore} {ts : Table Nat Task}
  {copy : EntityKey → MemoryStore} {now : EntityKey → String} {c d : Core MemoryStore} {id : Nat}
  {t : Task}

/-- Nobody has done anything yet. -/
theorem start (hs : c.store.available = true)
    (harriving : ∀ id t, c.tasks.get? id = some t → t.stage = .arriving) :
    Abreast settings c.store c.tasks (fun _ => c.store) now c where
  known id t ht := ⟨t.stage, ht⟩
  addressed id t ht := Task.addressed_of_not_holds (by rw [harriving id t ht]; rfl)
  follows id t ht := by
    rw [Task.Follows, harriving id t ht]
  done id t ht hnone := by
    rw [ht] at hnone
    cases hnone
  merges := MemoryStore.merges_refl c.tasks.taskKeys c.store
  available _ := hs

/-- Only tasks and the store matter. -/
theorem congr (h : Abreast settings s ts copy now c) (htasks : d.tasks.get? = c.tasks.get?)
    (hstore : d.store = c.store) : Abreast settings s ts copy now d := by
  refine ⟨?_, ?_, ?_, ?_, ?_, h.available⟩
  · rw [htasks]
    exact h.known
  · rw [htasks]
    exact h.addressed
  · rw [htasks]
    exact h.follows
  · rw [htasks]
    exact h.done
  · rw [hstore]
    exact h.merges

/-- A task goes to another stage after a call that it has made on the store and on its copy. -/
theorem advance (h : Abreast settings s ts copy now c) (hn : ts.taskKeys.Nodup)
    (ht : c.tasks.get? id = some t) (stage : Stage) (time : String) {x : MemoryStore}
    (hkeeps : c.store.Keeps d.store) (hx : x.available = true)
    (hm : MemoryStore.Mimics t.key (copy t.key) x c.store d.store)
    (haddressed : ({ t with stage } : Task).Addressed)
    (hfollows : ({ t with stage } : Task).Follows settings s (ts.Away t.key) time x)
    (htasks : d.tasks = c.tasks.insert id { t with stage }) :
    Abreast settings s ts (Function.update copy t.key x) (Function.update now t.key time) d := by
  obtain ⟨stage₀, hts⟩ := h.known id t ht
  have hother {j : Nat} (u : Task) (hu : ts.get? j = some u) (hj : id ≠ j) : u.key ≠ t.key :=
    fun hkey => hj (Table.eq_of_nodup_taskKeys hn hu hts hkey).symm
  have hget (j : Nat) : d.tasks.get? j = if id = j then some { t with stage } else
      c.tasks.get? j := by
    rw [htasks, Table.get?_insert]
  refine ⟨fun j u hu => ?_, fun j u hu => ?_, fun j u hu => ?_, fun j u hu hnone => ?_, ?_,
    fun key => ?_⟩
  · rw [hget] at hu
    split at hu
    · rename_i hj
      cases hu
      exact ⟨stage₀, hj ▸ hts⟩
    · exact h.known j u hu
  · rw [hget] at hu
    split at hu
    · cases hu
      exact haddressed
    · exact h.addressed j u hu
  · rw [hget] at hu
    split at hu
    · cases hu
      rw [Function.update_self, Function.update_self]
      exact hfollows
    · rename_i hj
      obtain ⟨stage', hu'⟩ := h.known j u hu
      have hne : u.key ≠ t.key := hother { u with stage := stage' } hu' hj
      rw [Function.update_of_ne hne, Function.update_of_ne hne]
      exact h.follows j u hu
  · rw [hget] at hnone
    split at hnone
    · cases hnone
    · rename_i hj
      have hne : u.key ≠ t.key := hother u hu hj
      rw [Function.update_of_ne hne, Function.update_of_ne hne]
      exact h.done j u hu hnone
  · exact h.merges.step hn (Table.mem_taskKeys.2 ⟨id, _, hts, rfl⟩) hkeeps hm
  · by_cases hkey : key = t.key
    · subst hkey
      rw [Function.update_self]
      exact hx
    · rw [Function.update_of_ne hkey]
      exact h.available key

theorem own (h : Abreast settings s ts copy now c) (ht : c.tasks.get? id = some t) :
    c.store.Matches t.key (copy t.key) := by
  obtain ⟨stage, hts⟩ := h.known id t ht
  exact h.merges.own (t.key, copy t.key)
    (List.mem_map.2 ⟨t.key, Table.mem_taskKeys.2 ⟨id, _, hts, rfl⟩, rfl⟩)

theorem follows_at (h : Abreast settings s ts copy now c) (ht : c.tasks.get? id = some t)
    {stage : Stage} (hstage : t.stage = stage) :
    ({ t with stage } : Task).Follows settings s (ts.Away t.key) (now t.key) (copy t.key) := by
  subst hstage
  exact h.follows id t ht

/-- A task goes to another stage without a call. -/
theorem advance_silently (h : Abreast settings s ts copy now c) (hn : ts.taskKeys.Nodup)
    (ht : c.tasks.get? id = some t) (stage : Stage)
    (haddressed : ({ t with stage } : Task).Addressed)
    (hfollows : ({ t with stage } : Task).Follows settings s (ts.Away t.key) (now t.key)
      (copy t.key))
    (htasks : d.tasks = c.tasks.insert id { t with stage }) (hstore : d.store = c.store) :
    Abreast settings s ts copy now d := by
  have hkeeps : c.store.Keeps d.store := by
    rw [hstore]
    exact .refl c.store
  have hm : MemoryStore.Mimics t.key (copy t.key) (copy t.key) c.store d.store := by
    rw [hstore]
    exact .refl (h.own ht)
  have := h.advance hn ht stage (now t.key) hkeeps (h.available t.key) hm haddressed hfollows htasks
  rwa [Function.update_eq_self, Function.update_eq_self] at this

/-- A task that has come to its end is forgotten. -/
theorem forget (h : Abreast settings s ts copy now c) (ht : c.tasks.get? id = some t)
    (hdone : copy t.key = (t.work settings (now t.key) s).2) (htasks : d.tasks = c.tasks.erase id)
    (hstore : d.store = c.store) : Abreast settings s ts copy now d := by
  have hget {j : Nat} {u : Task} (hu : d.tasks.get? j = some u) : c.tasks.get? j = some u := by
    rw [htasks, Table.get?_erase] at hu
    split at hu
    · cases hu
    · exact hu
  refine ⟨fun j u hu => h.known j u (hget hu), fun j u hu => h.addressed j u (hget hu),
    fun j u hu => h.follows j u (hget hu), fun j u hu hnone => ?_, ?_, h.available⟩
  · rw [htasks, Table.get?_erase] at hnone
    split at hnone
    · rename_i hj
      subst hj
      obtain ⟨stage, hts⟩ := h.known id t ht
      rw [hts] at hu
      cases hu
      exact hdone
    · exact h.done j u hu hnone
  · rw [hstore]
    exact h.merges

/-- The store answers a task as its copy does. -/
theorem fetch_agrees (h : Abreast settings s ts copy now c) (ht : c.tasks.get? id = some t)
    (hx : (copy t.key).tenants = s.tenants) (tenant : String) (ids : List String)
    (hloads : ∀ i ∈ ids, (s.table tenant).entities.contains i = true →
      ¬ ts.Away t.key ⟨tenant, i⟩) :
    (c.store.table tenant).fetch ids = (s.table tenant).fetch ids := by
  unfold TenantTable.fetch
  refine List.filterMap_congr fun i hi => ?_
  change c.store.get? tenant i = s.get? tenant i
  cases hentity : s.get? tenant i with
  | none =>
    have hpresent := h.merges.present tenant i
    rw [hentity] at hpresent
    exact Option.isSome_eq_false_iff.1 hpresent |> Option.isNone_iff_eq_none.1
  | some e =>
    have hfar := hloads i hi (Option.isSome_iff_exists.2 ⟨e, hentity⟩)
    rw [← hentity]
    by_cases hkey : (⟨tenant, i⟩ : EntityKey) = t.key
    · have hentity' := (h.own ht).entity
      rw [← hkey] at hentity' hx
      exact hentity'.trans (MemoryStore.get?_of_tenants hx tenant i)
    · have hnot : (⟨tenant, i⟩ : EntityKey) ∉ (ts.taskKeys.map fun k => (k, copy k)).map Prod.fst := by
        rw [List.map_map, List.mem_map]
        rintro ⟨k, hk, rfl⟩
        exact hfar ⟨hk, hkey⟩
      exact (h.merges.others _ hnot).entity

/-! ### Steps -/

section Step

variable {engine : Engine MemoryStore} (h : Abreast engine.settings s ts copy now c)
  (hengine : engine.store = MemoryStore.store) (hs : s.available = true) (hn : ts.taskKeys.Nodup)
  (ht : c.tasks.get? id = some t)
include h hengine hs hn ht

/-- A task asks for entities. -/
theorem fetch {lock resume resume' : Nat} {tenant : String} {ids : List String}
    {next : Except StoreError (List Entity) → Lookup (Except StoreError Plan)}
    (hstage : t.stage = .reading lock resume (.entities tenant ids next)) :
    ∃ copy' now', Abreast engine.settings s ts copy' now'
      ({ c with store := (engine.store.fetch tenant ids c.store).2 }.setStage id t
        (.reading lock resume' (next (engine.store.fetch tenant ids c.store).1))) := by
  rw [hengine]
  have haddressed := (h.addressed id t ht).reading hstage
  obtain ⟨hx, hloads, hwork⟩ := h.follows_at ht hstage
  have hstore : c.store.available = true := h.merges.available.trans hs
  have hagrees := h.fetch_agrees ht hx tenant ids fun i hi hcontains =>
    hloads _ (List.mem_append_left _ (List.mem_map_of_mem (List.mem_filter.2 ⟨hi, hcontains⟩)))
  have hanswer : (MemoryStore.store.fetch tenant ids c.store).1 =
      .ok ((s.table tenant).fetch ids) := by
    rw [← hagrees]
    exact (MemoryStore.fetch_eq hstore tenant ids).1
  obtain ⟨hanswer', htenants, hx'⟩ := MemoryStore.fetch_eq (h.available t.key) tenant ids
  have hsame : (MemoryStore.store.fetch tenant ids (copy t.key)).1 =
      .ok ((s.table tenant).fetch ids) := by
    rw [hanswer']
    refine congrArg Except.ok (congrArg (List.filterMap · ids) (funext fun i => ?_))
    exact MemoryStore.get?_of_tenants hx tenant i
  refine ⟨_, _, h.advance hn ht _ (now t.key) (MemoryStore.keeps_fetch tenant ids c.store) hx'
    (MemoryStore.mimics_fetch hstore (h.available t.key) (h.own ht) tenant ids) ?_ ?_ rfl⟩
  · exact haddressed _ trivial
  refine ⟨htenants.trans hx, ?_, ?_⟩
  · rw [hanswer]
    exact fun key hkey => hloads key (List.mem_append_right _ hkey)
  · rw [hanswer, ← hsame]
    exact hwork

/-- A task asks for relationships. -/
theorem relate {lock resume : Nat} {tenant entity : String}
    {next : Except StoreError Relationships → Lookup (Except StoreError Plan)}
    (hstage : t.stage = .reading lock resume (.relationships tenant entity next)) :
    ∃ copy' now', Abreast engine.settings s ts copy' now'
      ({ c with store := (engine.store.relationships tenant entity c.store).2 }.setStage id t
        (.reading lock resume (next (engine.store.relationships tenant entity c.store).1))) := by
  rw [hengine]
  have haddressed := (h.addressed id t ht).reading hstage
  obtain ⟨hx, hloads, hwork⟩ := h.follows_at ht hstage
  have hstore : c.store.available = true := h.merges.available.trans hs
  have hanswer (x : MemoryStore) (hx : x.available = true)
      (htable : (x.table tenant).relationships = (s.table tenant).relationships) :
      (MemoryStore.store.relationships tenant entity x).1 =
        .ok ((s.table tenant).relationshipsOf entity) := by
    unfold TenantTable.relationshipsOf
    rw [← htable]
    exact congrArg Prod.fst (if_pos hx)
  have hcopy := hanswer (copy t.key) (h.available t.key) (by rw [MemoryStore.table, hx]; rfl)
  rw [hanswer c.store hstore (h.merges.relationships tenant)]
  obtain ⟨-, htenants, hx'⟩ := MemoryStore.relationships_eq (h.available t.key) tenant entity
  refine ⟨_, _, h.advance hn ht _ (now t.key)
    (MemoryStore.keeps_relationships tenant entity c.store) hx'
    (MemoryStore.mimics_relationships hstore (h.available t.key) (h.own ht) tenant entity) ?_ ?_ rfl⟩
  · exact haddressed _ trivial
  refine ⟨htenants.trans hx, hloads, ?_⟩
  rw [← hcopy]
  exact hwork

/-- A task writes a record, or has it refused: then it is the same with the copy. -/
theorem writing {lock : Nat} {plan : Plan} {r : StateRecord} {rest : List StateRecord}
    (hstage : t.stage = .writing lock plan (r :: rest)) (stage : Stage)
    (haddressed : ({ t with stage } : Task).Addressed)
    (hnext : ∀ x, MemoryStore.store.write t.key.tenant r (copy t.key) =
        ((engine.store.write t.key.tenant r c.store).1, x) →
      t.writeOut plan (r :: rest) (copy t.key) = t.work engine.settings (now t.key) s →
      ({ t with stage } : Task).Follows engine.settings s (ts.Away t.key) (now t.key) x) :
    ∃ copy' now', Abreast engine.settings s ts copy' now'
      ({ c with store := (engine.store.write t.key.tenant r c.store).2 }.setStage id t stage) := by
  rw [hengine] at hnext ⊢
  have hstore : c.store.available = true := h.merges.available.trans hs
  have hr : r.entity = t.key.entity := (h.addressed id t ht).writing hstage r List.mem_cons_self
  obtain ⟨hanswer, hm⟩ := MemoryStore.mimics_write hstore (h.available t.key) (h.own ht) hr
  have hkeeps := MemoryStore.keeps_write t.key.tenant r (h.available t.key)
  exact ⟨_, _, h.advance hn ht stage (now t.key) (MemoryStore.keeps_write t.key.tenant r hstore)
    (hkeeps.available.trans (h.available t.key)) hm haddressed
    (hnext _ (Prod.ext hanswer.symm rfl) (h.follows_at ht hstage)) rfl⟩

end Step

/-- Every step of a task keeps it. -/
theorem step {engine : Engine MemoryStore} (h : Abreast engine.settings s ts copy now c)
    (hengine : engine.store = MemoryStore.store) (hs : s.available = true) (hn : ts.taskKeys.Nodup)
    (hapart : ts.Apart engine.settings s) (hstep : c.Step engine d) :
    ∃ copy' now', Abreast engine.settings s ts copy' now' d := by
  cases hstep with
  | @forget id t result ht hstage | @land id t names actor batch result ht hstage =>
    exact ⟨copy, now, h.forget ht (congrArg Prod.snd (h.follows_at ht hstage)) rfl rfl⟩
  | @join id t lock ht hstage | @make id t ht hstage =>
    have hfollows := h.follows_at ht hstage
    refine ⟨copy, now, h.advance_silently hn ht _ ?_ ?_ rfl rfl⟩
    · exact trivial
    · exact hfollows
  | @acquire id t lock handles ht hstage hl resume time =>
    have hcopy : copy t.key = s := h.follows_at ht hstage
    obtain ⟨stage, hts⟩ := h.known id t ht
    refine ⟨_, _, h.advance hn ht _ time (.refl c.store) (h.available t.key) (.refl (h.own ht))
      ?_ ?_ rfl⟩
    · exact t.plan_addressed engine.settings time
    refine ⟨?_, hapart id _ hts time, ?_⟩
    · rw [hcopy]
    · rw [hcopy]
      rfl
  | @fetch id t lock resume tenant ids next ht hstage resume' =>
    exact h.fetch hengine hs hn ht hstage
  | @relate id t lock resume tenant entity next ht hstage => exact h.relate hengine hs hn ht hstage
  | @decide id t lock resume plan ht hstage =>
    have haddressed := (h.addressed id t ht).reading hstage
    exact ⟨copy, now, h.advance_silently hn ht (.writing lock plan (plan.records t.key.entity))
      (haddressed plan rfl) (h.follows_at ht hstage).2.2 rfl rfl⟩
  | @abandon id t lock resume e ht hstage =>
    refine ⟨copy, now, h.advance_silently hn ht _ ?_ ?_ rfl rfl⟩
    · exact trivial
    · exact (h.follows_at ht hstage).2.2
  | @write id t lock plan r rest store ht hstage hw =>
    have haddressed := (h.addressed id t ht).writing hstage
    have hnext := h.writing hengine hs hn ht hstage (.writing lock plan rest)
      fun record hrecord => haddressed record (List.mem_cons_of_mem r hrecord)
    rw [hw] at hnext
    refine hnext fun x hx hwork => ?_
    rw [Task.writeOut, EntityStore.writeAll, hx] at hwork
    exact hwork
  | @refuse id t lock plan r rest e store ht hstage hw =>
    have hnext := h.writing hengine hs hn ht hstage (.leaving lock (.error e)) trivial
    rw [hw] at hnext
    refine hnext fun x hx hwork => ?_
    rw [Task.writeOut, EntityStore.writeAll, hx] at hwork
    exact hwork
  | @enqueue id t lock mark property ht hstage | @settle id t lock plan ht hstage
  | @release id t lock result ht hstage =>
    have hfollows := h.follows_at ht hstage
    refine ⟨copy, now, h.advance_silently hn ht _ ?_ ?_ rfl rfl⟩
    · exact trivial
    · exact hfollows
  | @close id t lock result ht hstage =>
    have hfollows := h.follows_at ht hstage
    obtain ⟨hstore, -, htasks⟩ := Core.closeLock_keeps c t.key lock
    have hclosed : Core.closed t result = .finished result ∨
        Core.closed t result = .landing result := by
      unfold Core.closed
      cases t.job with
      | notification property => exact .inl rfl
      | drain names actor batch => exact .inr rfl
    refine ⟨copy, now, h.advance_silently hn ht (Core.closed t result)
      (Task.addressed_of_not_holds (Core.closed_not_holds t result)) ?_ ?_ hstore⟩
    · rcases hclosed with hclosed | hclosed
      · rw [hclosed]
        exact hfollows
      · rw [hclosed]
        exact hfollows
    · rw [← htasks]
      rfl

end Abreast

end EntityFormulas
