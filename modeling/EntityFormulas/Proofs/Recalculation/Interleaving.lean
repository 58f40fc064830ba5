/-
  EntityFormulas/Proofs/Recalculation/Interleaving.lean
  =====================================================
  **The passes of a drain are independent.**

  A drain starts a task for each entity that it takes off the queue.  These
  tasks go on in any order and may take turns at every call.  Suppose that the
  pass over no entity loads another entity of the batch (`Apart`), and that
  nobody else comes to work (`Interleaves`).  Then, whatever the order, every
  task can come to its end; it ends as its pass alone would on the store as the
  drain found it; and the store is a merge of what these passes make of it.  So
  all orders lead to the same store, up to timestamps and the order in which
  records of different entities were written (`drain_interleaves`).

  None of this asks that passes succeed.  An entity that cannot be loaded, or
  whose properties cannot be computed, has a pass like any other one.
-/
import EntityFormulas.Proofs.Recalculation.Copies
import EntityFormulas.Proofs.Recalculation.Progress
import EntityFormulas.Proofs.Recalculation.QueueLog

namespace EntityFormulas

open Relation (ReflTransGen)

namespace Table

variable {κ α : Type} [DecidableEq κ] {t : Table κ α}

theorem eq_empty (h : ∀ key, t.get? key = none) : t = .empty := by
  obtain ⟨entries, hn⟩ := t
  cases entries with
  | nil => rfl
  | cons e rest =>
    have hfirst : find? e.1 (e :: rest) = none := h e.1
    rw [find?, if_pos rfl] at hfirst
    cases hfirst

theorem put_new {key : κ} (a : α) {entries : List (κ × α)} (h : find? key entries = none) :
    put key a entries = entries ++ [(key, a)] := by
  induction entries with
  | nil => rfl
  | cons e rest ih =>
    rw [find?] at h
    rw [put]
    split at h
    · cases h
    · rename_i hkey
      rw [if_neg hkey, ih h]
      rfl

/-- What comes under a new key comes last. -/
theorem values_insert {key : κ} (h : t.get? key = none) (a : α) :
    (t.insert key a).values = t.values ++ [a] := by
  unfold values insert
  dsimp only
  rw [put_new a h, List.map_append]
  rfl

end Table

/-! ### Steps without new tasks -/

namespace Core

variable {σ : Type} {c d : Core σ}

/-- What does not depend on any task leaves tasks and the store alone. -/
theorem issues_keep (ho : c.Orderly) (hissues : ReflTransGen Issue c d) :
    d.store = c.store ∧ ∀ id t, c.tasks.get? id = some t → d.tasks.get? id = some t := by
  have hall : d.Orderly ∧ d.store = c.store ∧
      ∀ id t, c.tasks.get? id = some t → d.tasks.get? id = some t := by
    induction hissues with
    | refl => exact ⟨ho, rfl, fun _ _ ht => ht⟩
    | @tail d e _ hissue ih =>
      obtain ⟨hd, hstore, hkeep⟩ := ih
      refine ⟨hd.issue hissue, ?_⟩
      cases hissue with
      | number fresh hle => exact ⟨hstore, hkeep⟩
      | launch key actor batch =>
        refine ⟨hstore, fun id t ht => ?_⟩
        have hid : d.fresh ≠ id := by
          rintro rfl
          have hold := hkeep _ t ht
          rw [hd.get?_fresh] at hold
          cases hold
        exact (Table.get?_insert ..).trans ((if_neg hid).trans (hkeep id t ht))
  exact hall.2

/-- No step of a task starts another one. -/
theorem Step.not_new {engine : Engine σ} (hstep : c.Step engine d) {id : Nat}
    (hnone : c.tasks.get? id = none) : d.tasks.get? id = none := by
  have hinsert {i : Nat} {t : Task} (ht : c.tasks.get? i = some t) (u : Task) :
      (c.tasks.insert i u).get? id = none := by
    rw [Table.get?_insert, if_neg, hnone]
    rintro rfl
    rw [hnone] at ht
    cases ht
  have herase (i : Nat) : (c.tasks.erase i).get? id = none := by
    rw [Table.get?_erase, hnone, ite_self]
  cases hstep with
  | forget | land => exact herase _
  | @close i t lock result ht =>
    change ((c.closeLock t.key lock).tasks.insert i _).get? id = none
    rw [(closeLock_keeps c t.key lock).2.2]
    exact hinsert ht _
  | join ht | make ht | acquire ht | fetch ht | relate ht | decide ht | abandon ht | write ht
  | refuse ht | enqueue ht | settle ht | release ht => exact hinsert ht _

end Core

namespace Handler

section Runs

variable {σ : Type} {engine : Engine σ} {s : σ} {h h' h'' : Handler σ} {id : Nat} {t : Task}

/-- Nobody is at work. -/
structure Vacant (h : Handler σ) : Prop where
  tasks : h.tasks = .empty
  passLocks : ∀ key, h.passLocks.get? key = none
  inFlight : ∀ key, (h.inFlight.get? key).getD 0 = 0

theorem Vacant.tended (hv : h.Vacant) : h.core.Orderly ∧ h.core.Ended ∧ h.core.Tended := by
  have hnone (id : Nat) (t : Task) : h.tasks.get? id ≠ some t := by
    rw [hv.tasks]
    intro ht
    cases ht
  have hfree (key : EntityKey) (lock : Nat) : h.passLocks.get? key ≠ some lock := by
    rw [hv.passLocks]
    intro hl
    cases hl
  refine ⟨⟨fun id t ht => absurd ht (hnone id t), fun key lock hl => absurd hl (hfree key lock),
    fun key _ lock hl => absurd hl (hfree key lock), fun id t _ ht => absurd ht (hnone id t),
    fun key lock hl => absurd hl (hfree key lock), fun key => ?_⟩,
    fun id t _ ht => absurd ht (hnone id t), fun key lock hl => absurd hl (hfree key lock)⟩
  have hcount : h.tasks.count (Task.drains key) = 0 := by
    rw [hv.tasks]
    rfl
  exact (hv.inFlight key).trans hcount.symm

/-- A handler that has no task is vacant. -/
theorem Reaches.vacant (hr : Reaches engine (start engine.settings s) h)
    (htasks : h.tasks = .empty) : h.Vacant := by
  obtain ⟨ho, -, -⟩ := hr.tended
  refine ⟨htasks, fun key => hr.passes_apart.2.2 key fun i t ht => ?_, fun key => ?_⟩
  · rw [htasks] at ht
    cases ht
  · have hflight := ho.flight key
    rw [show h.core.tasks = .empty from htasks] at hflight
    exact hflight

/-- Calls, the worker, the clock and tasks go on in any order, and no task comes. -/
def Interleaves (engine : Engine σ) : Handler σ → Handler σ → Prop :=
  ReflTransGen fun h h' => (∃ a, h.step engine a = some h') ∧
    ∀ id, h.tasks.get? id = none → h'.tasks.get? id = none

theorem Interleaves.tended (hi : h.Interleaves engine h')
    (hh : h.core.Orderly ∧ h.core.Ended ∧ h.core.Tended) :
    h'.core.Orderly ∧ h'.core.Ended ∧ h'.core.Tended := by
  induction hi with
  | refl => exact hh
  | tail _ hstep ih =>
    obtain ⟨⟨a, hstep⟩, -⟩ := hstep
    exact tended_step ih hstep

/-- A step of a task starts no other one. -/
theorem interleaves_stepTask (ht : h.tasks.get? id = some t)
    (hstep : h.stepTask engine id t = some h') : h.Interleaves engine h' := by
  refine .single ⟨⟨.task id, by rw [step, ht]; exact hstep⟩, fun i hnone => ?_⟩
  rcases steps_stepTask engine ht hstep with hcore | hcore
  · exact (congrArg (fun c => c.tasks.get? i) hcore).trans hnone
  · exact hcore.not_new hnone

theorem Works.interleaves (hw : h.Works engine h') : h.Interleaves engine h' := by
  induction hw with
  | refl => exact .refl
  | @tail g g' _ hstep ih =>
    refine ih.trans ?_
    rcases hstep with ⟨id, t, ht, hstep⟩ | ⟨time, rfl⟩
    · exact interleaves_stepTask ht hstep
    · exact .single ⟨⟨.clock (max g.clock time), if_pos (Nat.le_max_left ..)⟩, fun _ hnone => hnone⟩

/-! ### Every task can come to its end -/

/-- The task can come to its end, with the other ones where they are. -/
def Ends (engine : Engine σ) (id : Nat) (h : Handler σ) : Prop :=
  ∃ h', h.Interleaves engine h' ∧ h'.tasks.get? id = none ∧
    ∀ j, j ≠ id → h'.tasks.get? j = h.tasks.get? j

theorem Ends.after (hi : h.Interleaves engine h') {stage : Stage} (hb : h.Brought id t stage h')
    (he : h'.Ends engine id) : h.Ends engine id := by
  obtain ⟨h'', hi', hgone, hothers⟩ := he
  exact ⟨h'', hi.trans hi', hgone, fun j hj => (hothers j hj).trans (hb.others j hj)⟩

section Drain

variable {key : EntityKey} {names : List String} {actor : String} {batch lock : Nat} {stage : Stage}
  {r : TaskResult}

theorem ends_landing (ht : h.tasks.get? id = some ⟨key, .drain names actor batch, .landing r⟩) :
    h.Ends engine id := by
  refine ⟨_, interleaves_stepTask ht rfl, ?_, fun j hj => ?_⟩
  all_goals
    have htasks : (h.leaveFlight key).tasks = h.tasks := congrArg Core.tasks (h.core_leaveFlight key)
    change ((h.leaveFlight key).tasks.erase id).get? _ = _
    rw [htasks, Table.get?_erase]
  · exact if_pos rfl
  · exact if_neg (Ne.symm hj)

theorem ends_closing (ht : h.tasks.get? id = some ⟨key, .drain names actor batch, .closing lock r⟩) :
    h.Ends engine id := by
  obtain ⟨-, hm⟩ := h.moves_closing id ⟨key, .drain names actor batch, .closing lock r⟩ lock r
  exact .after (interleaves_stepTask ht rfl) hm.brought (ends_landing hm.brought.task)

theorem ends_unlocking (hu : h.Unlocks engine id ⟨key, .drain names actor batch, stage⟩ lock) :
    h.Ends engine id := by
  obtain ⟨h', r, hw, hb⟩ := hu
  exact .after hw.interleaves hb (ends_closing hb.task)

/-- Nobody else can have the lock that the only task of an entity waits for. -/
theorem ends_waiting (ho : h.core.Orderly)
    (ht : h.tasks.get? id = some ⟨key, .drain names actor batch, .waiting lock⟩)
    (honly : ∀ j u, h.tasks.get? j = some u → u.key = key → j = id) : h.Ends engine id := by
  have hof : h.core.lockOf key = some lock :=
    ho.known id _ lock ht (by simp [Task.handles, Stage.handle?])
  obtain ⟨held, hlock, hcount⟩ := ho.counted key lock hof
  cases held with
  | true =>
    obtain ⟨j, u, hu, hholds⟩ := Table.count_pos_iff.1 (Nat.lt_of_lt_of_eq Nat.one_pos hcount.symm)
    simp only [Task.holds, Bool.and_eq_true] at hholds
    have hkey : u.key = key := ho.single u.key key lock (ho.known j u lock hu hholds.2) hof
    obtain rfl := honly j u hu hkey
    rw [show h.core.tasks.get? j = h.tasks.get? j from rfl, ht] at hu
    cases hu
    cases hholds.1
  | false =>
    let u : Task := ⟨key, .drain names actor batch, .waiting lock⟩
    let stage : Stage :=
      .reading lock h.clock (u.plan engine.settings (engine.stamp h.clock)).run
    have hstep : h.stepTask engine id u = some ((h.setHeld lock true).setStage id u stage) := by
      have hlock : h.locks.get? lock = some ⟨_, false⟩ := hlock
      simp only [stepTask, u, stage, hlock]
    have hm : h.Moves id u stage ((h.setHeld lock true).setStage id u stage) := ⟨rfl, rfl, rfl⟩
    exact .after (interleaves_stepTask ht hstep) hm.brought
      (ends_unlocking (unlocks_reading hm.brought.task))

theorem ends (hh : h.core.Orderly ∧ h.core.Ended ∧ h.core.Tended) (ht : h.tasks.get? id = some t)
    (hj : t.job = .drain names actor batch)
    (honly : ∀ j u, h.tasks.get? j = some u → u.key = t.key → j = id) : h.Ends engine id := by
  obtain ⟨key, job, stage⟩ := t
  cases hj
  have hholding (lock : Nat)
      (hholds : Task.holds lock ⟨key, .drain names actor batch, stage⟩ = true) :
      h.Ends engine id := ends_unlocking (unlocks ht hholds)
  cases stage with
  | arriving =>
    obtain ⟨-, hm⟩ := h.moves_arriving id ⟨key, .drain names actor batch, .arriving⟩
    have hi : h.Interleaves engine _ := interleaves_stepTask ht rfl
    refine .after hi hm.brought (ends_waiting (hi.tended hh).1 hm.brought.task fun j u hu hkey => ?_)
    by_cases hid : j = id
    · exact hid
    · exact honly j u ((hm.brought.others j hid).symm.trans hu) hkey
  | waiting lock => exact ends_waiting hh.1 ht honly
  | reading lock | writing lock | leaving lock =>
    exact hholding lock (by simp [Task.holds, Task.handles, Stage.holds, Stage.handle?])
  | closing lock r => exact ends_closing ht
  | landing r => exact ends_landing ht
  | finished r =>
    obtain ⟨property, hj⟩ := hh.2.1 id _ r ht rfl
    cases hj

end Drain

/-- Drains of different entities can all come to their end. -/
theorem ends_all (hh : h.core.Orderly ∧ h.core.Ended ∧ h.core.Tended) (ids : List Nat)
    (hids : ∀ id t, h.tasks.get? id = some t → id ∈ ids)
    (hdrains : ∀ id t, h.tasks.get? id = some t → t.drains t.key = true)
    (honly : ∀ i j t u, h.tasks.get? i = some t → h.tasks.get? j = some u → u.key = t.key → j = i) :
    ∃ h', h.Interleaves engine h' ∧ h'.tasks = .empty := by
  induction ids generalizing h with
  | nil =>
    refine ⟨h, .refl, Table.eq_empty fun id => ?_⟩
    cases ht : h.tasks.get? id with
    | none => rfl
    | some t => exact absurd (hids id t ht) List.not_mem_nil
  | cons id rest ih =>
    have hends : h.Ends engine id := by
      cases ht : h.tasks.get? id with
      | none => exact ⟨h, .refl, ht, fun _ _ => rfl⟩
      | some t =>
        have hdrain := hdrains id t ht
        unfold Task.drains at hdrain
        split at hdrain
        · rename_i hj
          exact ends hh ht hj fun j u hu hkey => honly id j t u ht hu hkey
        · cases hdrain
    obtain ⟨h', hi, hgone, hothers⟩ := hends
    -- What is left was there before.
    have hold {j : Nat} {u : Task} (hu : h'.tasks.get? j = some u) :
        j ≠ id ∧ h.tasks.get? j = some u := by
      have hj : j ≠ id := by
        rintro rfl
        rw [hgone] at hu
        cases hu
      exact ⟨hj, (hothers j hj).symm.trans hu⟩
    obtain ⟨h'', hi', hempty⟩ := ih (hi.tended hh)
      (fun j u hu => (List.mem_cons.1 (hids j u (hold hu).2)).resolve_left (hold hu).1)
      (fun j u hu => hdrains j u (hold hu).2)
      fun i j t u ht hu hkey => honly i j t u (hold ht).2 (hold hu).2 hkey
    exact ⟨h'', hi.trans hi', hempty⟩

end Runs

/-! ### What the tasks of a drain are -/

section Start

variable {σ : Type} {h : Handler σ}

/-- The task that drains an entity. -/
def taskOf (actor : String) (batch : Nat) (e : EntityKey × QueueEntry) : Task :=
  { key := e.1, job := .drain e.2.names actor batch }

theorem foldl_launch_values (actor : String) (batch : Nat) (es : List (EntityKey × QueueEntry))
    (hids : ∀ id t, h.tasks.get? id = some t → id < h.fresh) :
    (es.foldl (launch actor batch) h).store = h.store ∧
      (es.foldl (launch actor batch) h).tasks.values =
        h.tasks.values ++ es.map (taskOf actor batch) := by
  induction es generalizing h with
  | nil => exact ⟨rfl, (List.append_nil _).symm⟩
  | cons e rest ih =>
    have hnone : h.tasks.get? h.fresh = none := by
      cases ht : h.tasks.get? h.fresh with
      | none => rfl
      | some t => exact absurd (hids _ t ht) (Nat.lt_irrefl _)
    have hvalues : (h.launch actor batch e).tasks.values = h.tasks.values ++ [taskOf actor batch e] :=
      Table.values_insert hnone _
    obtain ⟨hstore, hrest⟩ := ih (h := h.launch actor batch e) fun id t ht => by
      rw [show (h.launch actor batch e).tasks.get? id = _ from Table.get?_insert ..] at ht
      change id < h.fresh + 1
      split at ht
      · omega
      · have := hids id t ht
        omega
    refine ⟨hstore, hrest.trans ?_⟩
    rw [hvalues, List.append_assoc]
    rfl

/-- A drain that finds nobody at work has a task for each entity it takes, and no other task. -/
theorem Vacant.drain (hv : h.Vacant) (due : EntityKey → QueueEntry → Bool) (actor : String) :
    (h.drain due actor).2.store = h.store ∧ (h.drain due actor).2.tasks.values =
      (h.queue.filter due).entries.map (taskOf actor h.fresh) := by
  have htasks : (h.opened due).tasks = .empty := hv.tasks
  obtain ⟨hstore, hvalues⟩ := foldl_launch_values (h := h.opened due) actor h.fresh
    (h.queue.filter due).entries fun id t ht => by
      rw [htasks] at ht
      cases ht
  rw [htasks] at hvalues
  exact ⟨hstore, hvalues⟩

end Start

/-! ### All orders -/

/-- While no task comes, the tasks that are there stay abreast of their copies of the store. -/
theorem Interleaves.abreast {engine : Engine MemoryStore} {h h' : Handler MemoryStore}
    (hi : h.Interleaves engine h') (hh : h.core.Orderly ∧ h.core.Ended ∧ h.core.Tended)
    {s : MemoryStore} {ts : Table Nat Task} (hengine : engine.store = MemoryStore.store)
    (hs : s.available = true) (hn : ts.taskKeys.Nodup) (hapart : ts.Apart engine.settings s)
    {copy : EntityKey → MemoryStore} {now : EntityKey → String}
    (ha : Abreast engine.settings s ts copy now h.core) :
    ∃ copy' now', Abreast engine.settings s ts copy' now' h'.core := by
  induction hi with
  | refl => exact ⟨copy, now, ha⟩
  | @tail g g' hi hstep ih =>
    obtain ⟨copy, now, ha⟩ := ih
    obtain ⟨⟨a, hstep⟩, hnew⟩ := hstep
    have ho : g.core.Orderly := (Interleaves.tended hi hh).1
    rcases g.step_core engine hstep with ⟨n, -, hcore⟩ | ⟨-, hissues | hstep⟩
    · have hfresh : g'.core.tasks.get? g.fresh = none := hnew g.fresh ho.get?_fresh
      rw [hcore] at hfresh
      cases hfresh.symm.trans ((Table.get?_insert ..).trans (if_pos rfl))
    · obtain ⟨hstore, hkeep⟩ := Core.issues_keep ho hissues
      refine ⟨copy, now, ha.congr (funext fun id => ?_) hstore⟩
      cases ht : g.core.tasks.get? id with
      | none => exact hnew id ht
      | some t => exact hkeep id t ht
    · exact ha.step hengine hs hn hapart hstep

/-- The pass over one entity of a batch, with nobody else at work. -/
def passAlone {σ : Type} (engine : Engine σ) (actor now : String) (e : EntityKey × QueueEntry)
    (s : σ) : Except PassError PassOutcome × σ :=
  engine.store.recompute engine.settings now e.1.tenant e.1.entity actor (.marked e.2.names) s

/-- The pass over no entity of a batch loads another one of them. -/
def Apart (settings : Settings) (actor : String) (s : MemoryStore)
    (batch : List (EntityKey × QueueEntry)) : Prop :=
  ∀ e ∈ batch, ∀ now, ∀ key ∈ (e.1.drainPlan settings now e.2.names actor).loads s.table,
    key ∈ batch.map Prod.fst → key = e.1

/-- So it is if the context of no pass holds another entity of the batch. -/
theorem apart_of_contexts {settings : Settings} {actor : String} {s : MemoryStore}
    (hk : ∀ tenant, (s.table tenant).Keyed) {batch : List (EntityKey × QueueEntry)}
    (hcontexts : ∀ e ∈ batch, ∀ ctx ∈ Task.contextOf? s.table settings e.1 e.2.names,
      ∀ key ∈ batch.map Prod.fst, key.tenant = ctx.entity.tenant →
        (ctx.entities.get? key.entity).isSome = true → key = e.1) :
    Apart settings actor s batch := by
  intro e he now key hkey hmem
  rcases Task.loads_drain (t := taskOf actor 0 e) hk rfl hkey with hown | ⟨ctx, hctx, htenant, hin⟩
  · exact hown
  · exact hcontexts e he ctx hctx key hmem htenant hin

section Batch

variable {engine : Engine MemoryStore} {h h₁ h₂ h₃ : Handler MemoryStore}
  {due : EntityKey → QueueEntry → Bool} {actor : String}
  (hengine : engine.store = MemoryStore.store) (hv : h.Vacant) (hs : h.store.available = true)
  (hstart : h₁.core = (h.drain due actor).2.core)
  (hapart : Apart engine.settings actor h.store (h.queue.filter due).entries)

section
include hv hstart

theorem store_begun : h₁.store = h.store :=
  (congrArg Core.store hstart).trans (hv.drain due actor).1

theorem values_begun : h₁.tasks.values = (h.queue.filter due).entries.map (taskOf actor h.fresh) :=
  (congrArg (fun c => c.tasks.values) hstart).trans (hv.drain due actor).2

theorem taskKeys_begun : h₁.tasks.taskKeys = (h.queue.filter due).entries.map Prod.fst := by
  unfold Table.taskKeys
  rw [values_begun hv hstart, List.map_map]
  rfl

/-- Every task is that of an entity of the batch. -/
theorem exists_taskOf {id : Nat} {t : Task} (ht : h₁.tasks.get? id = some t) :
    ∃ e ∈ (h.queue.filter due).entries, t = taskOf actor h.fresh e := by
  have hmem := Table.mem_values.2 ⟨id, ht⟩
  rw [values_begun hv hstart] at hmem
  obtain ⟨e, he, rfl⟩ := List.mem_map.1 hmem
  exact ⟨e, he, rfl⟩

theorem tended_begun : h₁.core.Orderly ∧ h₁.core.Ended ∧ h₁.core.Tended := by
  rw [hstart]
  exact tended_issues hv.tended (h.steps_drain due actor)

include hengine hs hapart

theorem exists_abreast (hi : h₁.Interleaves engine h₂) :
    ∃ copy now, Abreast engine.settings h.store h₁.tasks copy now h₂.core := by
  have hbegin : Abreast engine.settings h.store h₁.tasks (fun _ => h.store) (fun _ => "") h₁.core := by
    rw [← store_begun hv hstart]
    have havailable : h₁.core.store.available = true :=
      (congrArg MemoryStore.available (store_begun hv hstart)).trans hs
    refine .start havailable fun id t ht => ?_
    obtain ⟨e, -, rfl⟩ := exists_taskOf hv hstart ht
    rfl
  refine hi.abreast (tended_begun hv hstart) hengine hs ?_
    (fun id t ht now key hkey hother => ?_) hbegin
  · rw [taskKeys_begun hv hstart]
    exact (h.queue.filter due).nodup
  · obtain ⟨e, he, rfl⟩ := exists_taskOf hv hstart ht
    obtain ⟨hmem, hne⟩ := hother
    rw [taskKeys_begun hv hstart] at hmem
    exact hne (hapart e he now key hkey hmem)

theorem ends_begun (hi : h₁.Interleaves engine h₂) :
    ∃ h₃, h₂.Interleaves engine h₃ ∧ h₃.tasks = .empty := by
  obtain ⟨copy, now, ha⟩ := exists_abreast hengine hv hs hstart hapart hi
  have hn : h₁.tasks.taskKeys.Nodup := by
    rw [taskKeys_begun hv hstart]
    exact (h.queue.filter due).nodup
  refine ends_all (hi.tended (tended_begun hv hstart)) h₂.tasks.keys
    (fun id t ht => List.mem_map_of_mem (Table.mem_entries_iff.2 ht)) (fun id t ht => ?_)
    fun i j t u ht hu hkey => ?_
  · obtain ⟨stage, ht⟩ := ha.known id t ht
    obtain ⟨e, -, htask⟩ := exists_taskOf hv hstart ht
    have hj : t.job = .drain e.2.names actor h.fresh := congrArg Task.job htask
    unfold Task.drains
    rw [hj]
    exact decide_eq_true rfl
  · obtain ⟨stage, ht⟩ := ha.known i t ht
    obtain ⟨stage', hu⟩ := ha.known j u hu
    exact Table.eq_of_nodup_taskKeys hn hu ht hkey

/-- A task that has come to its end has the result of its pass alone, and so has its entity. -/
theorem landing_begun (hi : h₁.Interleaves engine h₂) {e : EntityKey × QueueEntry}
    (he : e ∈ (h.queue.filter due).entries) {id : Nat} {t : Task} {r : TaskResult}
    (ht : h₂.tasks.get? id = some t) (hkey : t.key = e.1) (hstage : t.stage = .landing r) :
    ∃ now, passResult r = (passAlone engine actor now e h.store).1 ∧
      h₂.store.Matches e.1 (passAlone engine actor now e h.store).2 := by
  obtain ⟨copy, now, ha⟩ := exists_abreast hengine hv hs hstart hapart hi
  obtain ⟨stage, hbegun⟩ := ha.known id t ht
  obtain ⟨e', he', htask⟩ := exists_taskOf hv hstart hbegun
  obtain rfl : e' = e := List.inj_on_of_nodup_map (h.queue.filter due).nodup he' he
    ((congrArg Task.key htask).symm.trans hkey)
  have hj : t.job = .drain e'.2.names actor h.fresh := congrArg Task.job htask
  have hpass : (passResult r, copy e'.1) = passAlone engine actor (now e'.1) e' h.store := by
    have hfollows : (r, copy t.key) = t.work engine.settings (now t.key) h.store :=
      ha.follows_at ht hstage
    have hwork := t.work_drain hj engine.settings (now t.key) h.store
    rw [← hfollows, hkey, ← hengine] at hwork
    exact hwork
  refine ⟨now e'.1, congrArg Prod.fst hpass, ?_⟩
  rw [← congrArg Prod.snd hpass, ← hkey]
  exact ha.own ht

/-- When all tasks are gone the store is a merge of what their passes alone make of it. -/
theorem merges_begun (hi : h₁.Interleaves engine h₂) (hempty : h₂.tasks = .empty) :
    ∃ now : EntityKey → String, MemoryStore.Merges
      ((h.queue.filter due).entries.map fun e => (e.1, (passAlone engine actor (now e.1) e h.store).2))
      h.store h₂.store := by
  obtain ⟨copy, now, ha⟩ := exists_abreast hengine hv hs hstart hapart hi
  refine ⟨now, ?_⟩
  have hcopies : (h₁.tasks.taskKeys.map fun key => (key, copy key)) =
      (h.queue.filter due).entries.map fun e =>
        (e.1, (passAlone engine actor (now e.1) e h.store).2) := by
    rw [taskKeys_begun hv hstart, List.map_map]
    refine List.map_congr_left fun e he => congrArg (Prod.mk e.1) ?_
    obtain ⟨id, ht⟩ : ∃ id, h₁.tasks.get? id = some (taskOf actor h.fresh e) := by
      rw [← Table.mem_values, values_begun hv hstart]
      exact List.mem_map_of_mem he
    have hnone : h₂.core.tasks.get? id = none := by
      rw [show h₂.core.tasks = .empty from hempty]
      rfl
    have hwork := (taskOf actor h.fresh e).work_drain rfl engine.settings (now e.1) h.store
    rw [← hengine] at hwork
    exact (ha.done id _ ht hnone).trans (congrArg Prod.snd hwork)
  rw [← hcopies]
  exact ha.merges

/-- The order in which the tasks went on shows in timestamps only, and in the order in which records
    of different entities were written. -/
theorem equivalent_begun (hi₂ : h₁.Interleaves engine h₂) (hempty₂ : h₂.tasks = .empty)
    (hi₃ : h₁.Interleaves engine h₃) (hempty₃ : h₃.tasks = .empty) (time : String) :
    (h₂.store.restamp fun _ => time).Equivalent (h₃.store.restamp fun _ => time) := by
  have hmerges {g : Handler MemoryStore} (hi : h₁.Interleaves engine g) (hempty : g.tasks = .empty) :
      MemoryStore.Merges ((h.queue.filter due).entries.map fun e =>
          (e.1, (passAlone engine actor time e (h.store.restamp fun _ => time)).2))
        (h.store.restamp fun _ => time) (g.store.restamp fun _ => time) := by
    obtain ⟨now, hm⟩ := merges_begun hengine hv hs hstart hapart hi hempty
    have hcopies : ((h.queue.filter due).entries.map fun e =>
        (e.1, (passAlone engine actor (now e.1) e h.store).2.restamp fun _ => time)) =
        (h.queue.filter due).entries.map fun e =>
          (e.1, (passAlone engine actor time e (h.store.restamp fun _ => time)).2) := by
      refine List.map_congr_left fun e _ => congrArg (Prod.mk e.1) ?_
      unfold passAlone
      rw [hengine]
      exact (congrArg Prod.snd (MemoryStore.recompute_restamp (fun _ => time) ..)).symm
    have hrestamped := hm.restamp (f := fun _ => time)
    rw [List.map_map] at hrestamped
    rw [← hcopies]
    exact hrestamped
  exact (hmerges hi₂ hempty₂).equivalent (hmerges hi₃ hempty₃)

end

end Batch

/-- The passes of a drain commute, and none suffers from the failure of another one.  In `h₁` a drain
    has just begun, whoever makes it, and the tasks go on in any order.  From wherever they have come
    to they can all come to their end; each ends as its pass alone would; the store becomes what
    these passes make of it; and all orders lead to the same store. -/
theorem drain_interleaves {engine : Engine MemoryStore} {h h₁ : Handler MemoryStore}
    {due : EntityKey → QueueEntry → Bool} {actor : String}
    (hengine : engine.store = MemoryStore.store) (hv : h.Vacant) (hs : h.store.available = true)
    (hstart : h₁.core = (h.drain due actor).2.core)
    (hapart : Apart engine.settings actor h.store (h.queue.filter due).entries) :
    (∀ h₂, h₁.Interleaves engine h₂ → ∃ h₃, h₂.Interleaves engine h₃ ∧ h₃.tasks = .empty) ∧
    (∀ h₂, h₁.Interleaves engine h₂ → ∀ e ∈ (h.queue.filter due).entries, ∀ id t r,
      h₂.tasks.get? id = some t → t.key = e.1 → t.stage = .landing r →
        ∃ now, passResult r = (passAlone engine actor now e h.store).1 ∧
          h₂.store.Matches e.1 (passAlone engine actor now e h.store).2) ∧
    (∀ h₂, h₁.Interleaves engine h₂ → h₂.tasks = .empty → ∃ now : EntityKey → String,
      MemoryStore.Merges ((h.queue.filter due).entries.map fun e =>
        (e.1, (passAlone engine actor (now e.1) e h.store).2)) h.store h₂.store) ∧
    ∀ h₂ h₃, h₁.Interleaves engine h₂ → h₁.Interleaves engine h₃ → h₂.tasks = .empty →
      h₃.tasks = .empty → ∀ time,
        (h₂.store.restamp fun _ => time).Equivalent (h₃.store.restamp fun _ => time) :=
  ⟨fun _ hi => ends_begun hengine hv hs hstart hapart hi,
    fun _ hi _ he _ _ _ ht hkey hstage =>
      landing_begun hengine hv hs hstart hapart hi he ht hkey hstage,
    fun _ hi hempty => merges_begun hengine hv hs hstart hapart hi hempty,
    fun _ _ hi₂ hi₃ hempty₂ hempty₃ time =>
      equivalent_begun hengine hv hs hstart hapart hi₂ hempty₂ hi₃ hempty₃ time⟩

/-- A handler whose queue has three entities: one that can be computed, one with a division by zero,
    and one that the store does not have. -/
def threefold : Handler MemoryStore where
  store := (MemoryStore.insert {} echoing).insert
    { Entity.ofFormulas [("y", "1 / 0")] with id := "faulty" }
  queue := ((Table.empty.insert echoing.key ⟨["y"], 0⟩).insert ⟨"", "faulty"⟩ ⟨["y"], 0⟩).insert
    ⟨"", "ghost"⟩ ⟨["y"], 0⟩
  calls := Table.empty.insert 0 (.flush none "user")
  fresh := 1

/-- One of the three passes succeeds, one finds an error, and one fails; in whatever order they go
    on, the store comes out the same. -/
theorem threefold_interleaves :
    (passAlone plainEngine "user" "" (⟨"", "faulty"⟩, ⟨["y"], 0⟩) threefold.store).1.toOption.any
      (fun o => o.results.any fun r => r.error.isSome) = true ∧
    (passAlone plainEngine "user" "" (⟨"", "ghost"⟩, ⟨["y"], 0⟩) threefold.store).1.toOption.isNone =
      true ∧
    ∃ h₁ h₂, threefold.step plainEngine (.call 0) = some h₁ ∧ h₁.tasks.size = 3 ∧
      h₁.Interleaves plainEngine h₂ ∧ h₂.tasks = .empty ∧
      ∀ h₃, h₁.Interleaves plainEngine h₃ → h₃.tasks = .empty →
        (h₂.store.restamp fun _ => "").Equivalent (h₃.store.restamp fun _ => "") := by
  refine ⟨by decide +kernel, by decide +kernel, ?_⟩
  have hk : ∀ tenant, (threefold.store.table tenant).Keyed :=
    keyed_insert (keyed_insert (fun tenant id e he => by cases he) _) _
  have hcontexts : ∀ e ∈ (threefold.queue.filter fun _ _ => true).entries,
      ∀ ctx ∈ Task.contextOf? threefold.store.table plainEngine.settings e.1 e.2.names,
        ∀ key ∈ (threefold.queue.filter fun _ _ => true).entries.map Prod.fst,
          key.tenant = ctx.entity.tenant → (ctx.entities.get? key.entity).isSome = true →
            key = e.1 := by
    decide +kernel
  let h₁ := (threefold.drain (fun _ _ => true) "user").2.setCall 0 (.awaiting 1)
  have hstart : h₁.core = (threefold.drain (fun _ _ => true) "user").2.core := rfl
  obtain ⟨hends, -, -, hsame⟩ := drain_interleaves (show plainEngine.store = _ from rfl)
    ⟨rfl, fun _ => rfl, fun _ => rfl⟩ rfl hstart (apart_of_contexts hk hcontexts)
  obtain ⟨h₂, hi, hempty⟩ := hends h₁ .refl
  exact ⟨h₁, h₂, rfl, rfl, hi, hempty, fun h₃ hi' hempty' => hsame h₂ h₃ hi hi' hempty hempty' ""⟩

end Handler

end EntityFormulas
