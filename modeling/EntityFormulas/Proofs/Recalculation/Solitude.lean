/-
  EntityFormulas/Proofs/Recalculation/Solitude.lean
  =================================================
  **A task that is alone.**

  While a client waits for one task and makes no other call, nothing else in a
  handler works on entities: the worker finds nothing due and time passes
  (`Action.Calm`).  A task that is alone decides over what was stored when it
  came in, and when it is done it has written what it has decided and nothing
  else has changed in the store (`Stands`).  Nothing keeps it from its end
  (`Lone.closes`), which it may come to later or sooner.
-/
import EntityFormulas.Proofs.Recalculation.Decisions
import EntityFormulas.Proofs.Recalculation.Progress

namespace EntityFormulas

/-! ### Where a task stands -/

namespace Task

section Stands

variable (settings : Settings) (s : MemoryStore) (q : Table EntityKey QueueEntry) (e : Entity)

/-- The task has carried out what it has decided over a store, on an entity of it, and comes to that
    result. -/
def Did (t : Task) (r : TaskResult) (h : Handler MemoryStore) : Prop :=
  ∃ plan, t.Decides settings s plan ∧ r = .ok plan.outcome? ∧ t.Queues plan q h.queue ∧
    MemoryStore.Wrote e.tenant e.id (e.written (plan.records t.key.entity))
      (plan.records t.key.entity) s h.store

/-- Where a task stands that is alone since there was that store and that queue. -/
def Stands (t : Task) (h : Handler MemoryStore) : Prop :=
  match t.stage with
  | .arriving | .waiting _ => h.store.tenants = s.tenants ∧ h.queue = q
  | .reading _ _ program => (h.store.tenants = s.tenants ∧ h.queue = q) ∧
      ∃ now, program.answer s.table = (t.plan settings now).answer s.table
  | .writing _ plan rest => t.Decides settings s plan ∧ h.queue = q ∧ ∃ x written,
      plan.records t.key.entity = written ++ rest ∧
      MemoryStore.Wrote e.tenant e.id x written s h.store ∧ x.Writable rest ∧
      x.written rest = e.written (plan.records t.key.entity)
  | .leaving _ r | .closing _ r | .landing r | .finished r => t.Did settings s q e r h

end Stands

theorem Did.congr {settings : Settings} {s : MemoryStore} {q : Table EntityKey QueueEntry} {e : Entity}
    {t : Task} {r : TaskResult} {h h' : Handler MemoryStore} (hdid : t.Did settings s q e r h)
    (hstore : h'.store = h.store) (hqueue : h'.queue = h.queue) : t.Did settings s q e r h' := by
  unfold Did at *
  rw [hstore, hqueue]
  exact hdid

/-- What a task decides to write it writes to its own entity. -/
theorem Decides.addressed {settings : Settings} {s : MemoryStore} {t : Task} {plan : Plan}
    (h : t.Decides settings s plan) : ∀ r ∈ plan.records t.key.entity, r.entity = t.key.entity := by
  obtain ⟨now, h⟩ := h
  have halways : Fetch.Always (fun _ => True) _ (t.plan settings now) := t.plan_addressed settings now
  exact Lookup.Always.answer halways (fun _ => trivial) s.table plan h

/-- Every task can decide. -/
theorem exists_plan (settings : Settings) {s : MemoryStore} {e : Entity} {t : Task}
    (hs : s.Stores e) (hkey : t.key = e.key) (now : String) :
    ∃ plan, (t.plan settings now).answer s.table = .ok plan := by
  rw [plan_answer hs hkey, decide]
  cases t.job with
  | drain names actor batch =>
    obtain ⟨o, -, hanswer⟩ := pass_answer settings hs names now actor
    exact ⟨_, hanswer⟩
  | notification property =>
    dsimp only
    split
    · exact ⟨_, rfl⟩
    · split
      · exact ⟨_, rfl⟩
      · split
        · exact ⟨_, rfl⟩
        · obtain ⟨o, -, hanswer⟩ := pass_answer settings hs [property] now
            settings.recalc.systemActor
          exact ⟨_, hanswer⟩

namespace Stands

variable {engine : Engine MemoryStore} {s : MemoryStore} {q : Table EntityKey QueueEntry} {e : Entity}
  {t : Task} {h h' : Handler MemoryStore} {id : Nat}

/-- Nothing that a task stands on has changed. -/
theorem congr (hstands : t.Stands engine.settings s q e h) (hstore : h'.store = h.store)
    (hqueue : h'.queue = h.queue) : t.Stands engine.settings s q e h' := by
  unfold Stands Did at *
  rw [hstore, hqueue]
  exact hstands

/-- A task goes on from what it has done to giving its lock back. -/
theorem closed {r : TaskResult} (hdid : t.Did engine.settings s q e r h) :
    ({ t with stage := Core.closed t r } : Task).Stands engine.settings s q e h := by
  obtain ⟨key, job, stage⟩ := t
  cases job <;> exact hdid

section Step

variable (hengine : engine.store = MemoryStore.store) (ha : h.store.available = true)
include hengine ha

/-- A task that reads finds what is stored. -/
theorem stepReading (hs : s.Stores e) (hkey : t.key = e.key) {lock resume : Nat}
    {program : Lookup (Except StoreError Plan)} (hstage : t.stage = .reading lock resume program)
    (hstands : t.Stands engine.settings s q e h) :
    let h' := h.stepReading engine id t lock resume program
    h'.store.available = true ∧ ∃ stage, h.Moves id t stage h' ∧
      ({ t with stage } : Task).Stands engine.settings s q e h' := by
  unfold Stands at hstands
  rw [hstage] at hstands
  obtain ⟨⟨htenants, hqueue⟩, now, hanswer⟩ := hstands
  have htable : h.store.table = s.table := by
    unfold MemoryStore.table
    rw [htenants]
  cases program with
  | done r =>
    obtain ⟨plan, hplan⟩ := exists_plan engine.settings hs hkey now
    obtain rfl : r = .ok plan := hanswer.trans hplan
    have hdecides : t.Decides engine.settings s plan := ⟨now, hplan⟩
    refine ⟨ha, _, ⟨rfl, rfl, rfl⟩, hdecides, hqueue, e, [], rfl, ?_, hdecides.writable hs hkey, rfl⟩
    exact (MemoryStore.Wrote.refl (hs.of_tenants htenants).entity).of_tenants htenants
  | entities tenant ids next =>
    obtain ⟨hfound, htenants', havailable⟩ :=
      Lookup.run_memory ha (.entities tenant ids Lookup.done)
    rw [← hengine] at hfound htenants' havailable
    refine ⟨havailable, _, ⟨rfl, rfl, rfl⟩, ⟨htenants'.trans htenants, hqueue⟩, now, ?_⟩
    refine Eq.trans ?_ hanswer
    rw [← htable]
    exact congrArg (fun r => (next r).answer h.store.table) hfound
  | relationships tenant entity next =>
    obtain ⟨hfound, htenants', havailable⟩ :=
      Lookup.run_memory ha (.relationships tenant entity Lookup.done)
    rw [← hengine] at hfound htenants' havailable
    refine ⟨havailable, _, ⟨rfl, rfl, rfl⟩, ⟨htenants'.trans htenants, hqueue⟩, now, ?_⟩
    refine Eq.trans ?_ hanswer
    rw [← htable]
    exact congrArg (fun r => (next r).answer h.store.table) hfound

/-- A task that writes has its records accepted. -/
theorem stepWriting (hkey : t.key = e.key) {lock : Nat} {plan : Plan}
    {rest : List StateRecord} (hstage : t.stage = .writing lock plan rest)
    (hstands : t.Stands engine.settings s q e h) :
    let h' := h.stepWriting engine id t lock plan rest
    h'.store.available = true ∧ ∃ stage, h.Moves id t stage h' ∧
      ({ t with stage } : Task).Stands engine.settings s q e h' := by
  unfold Stands at hstands
  rw [hstage] at hstands
  obtain ⟨hdecides, hqueue, x, written, hrecords, hwrote, hw, hx⟩ := hstands
  cases rest with
  | nil =>
    obtain ⟨⟨hstore, hqueues⟩, hmoves⟩ := h.moves_settling engine id t lock plan
    refine ⟨by rw [hstore]; exact ha, _, hmoves, plan, hdecides, rfl, hqueue ▸ hqueues, ?_⟩
    rw [List.append_nil] at hrecords
    rw [hstore, ← hx]
    show MemoryStore.Wrote e.tenant e.id x (plan.records t.key.entity) s h.store
    rw [hrecords]
    exact hwrote
  | cons r rest =>
    obtain ⟨x', hx', hw', hrest⟩ := hw.exists_next
    have hr : r.entity = e.id := by
      rw [hdecides.addressed r (hrecords ▸ List.mem_append_right _ List.mem_cons_self), hkey]
      rfl
    have htenant : t.key.tenant = e.tenant := congrArg EntityKey.tenant hkey
    unfold Handler.stepWriting
    dsimp only
    rw [hengine, htenant]
    rcases hwrite : MemoryStore.store.write e.tenant r h.store with ⟨err | ⟨⟩, store⟩
    · exact absurd hx' ((MemoryStore.write_error hwrite).2 ha x (hr ▸ hwrote.entity) x')
    · obtain ⟨havailable, y, y', hy, hy', hnext⟩ := MemoryStore.write_ok hwrite
      rw [hr, hwrote.entity] at hy
      cases hy
      cases hx'.symm.trans hy'
      rw [hr] at hnext
      refine ⟨havailable.trans ha, .writing lock plan rest, ⟨rfl, rfl, rfl⟩, hdecides, hqueue, x',
        written ++ [r], ?_, hwrote.trans hnext, hw', hrest.symm.trans hx⟩
      rw [List.append_assoc]
      exact hrecords

/-- Every step of a task, but the last one of a drain, takes it further. -/
theorem step (hs : s.Stores e) (hkey : t.key = e.key) (hlanding : ∀ r, t.stage ≠ .landing r)
    (hstands : t.Stands engine.settings s q e h) (hstep : h.stepTask engine id t = some h') :
    h'.store.available = true ∧ ∃ stage, h.Moves id t stage h' ∧
      ({ t with stage } : Task).Stands engine.settings s q e h' := by
  cases Handler.stepTask_cases hstep with
  | arrive hstage =>
    obtain ⟨⟨hstore, hqueue⟩, hmoves⟩ := h.moves_arriving id t
    unfold Stands at hstands
    rw [hstage] at hstands
    refine ⟨by rw [hstore]; exact ha, _, hmoves, ?_, hqueue.trans hstands.2⟩
    rw [hstore]
    exact hstands.1
  | acquire hstage =>
    unfold Stands at hstands
    rw [hstage] at hstands
    exact ⟨ha, _, ⟨rfl, rfl, rfl⟩, hstands, _, rfl⟩
  | read hstage => exact hstands.stepReading hengine ha hs hkey hstage
  | write hstage => exact hstands.stepWriting hengine ha hkey hstage
  | release hstage =>
    unfold Stands at hstands
    rw [hstage] at hstands
    exact ⟨ha, _, ⟨rfl, rfl, rfl⟩, hstands⟩
  | @close lock r hstage =>
    obtain ⟨⟨hstore, hqueue⟩, hmoves⟩ := h.moves_closing id t lock r
    unfold Stands at hstands
    rw [hstage] at hstands
    exact ⟨by rw [hstore]; exact ha, _, hmoves, (closed hstands).congr hstore hqueue⟩
  | land hstage => exact absurd hstage (hlanding _)

end Step

end Stands

end Task

/-! ### Coming to an end -/

namespace Handler

variable {σ : Type} {engine : Engine σ} {h h' : Handler σ} {id : Nat} {t : Task} {stage : Stage}

/-- There is one task. -/
structure Lone (h : Handler σ) (id : Nat) (t : Task) : Prop where
  task : h.tasks.get? id = some t
  others : ∀ j, j ≠ id → h.tasks.get? j = none

theorem Lone.eq (hl : h.Lone id t) {j : Nat} {u : Task} (hu : h.tasks.get? j = some u) :
    j = id ∧ u = t := by
  by_cases hj : j = id
  · rw [hj, hl.task] at hu
    exact ⟨hj, (Option.some.inj hu).symm⟩
  · rw [hl.others j hj] at hu
    cases hu

theorem Lone.moves (hl : h.Lone id t) (hm : h.Moves id t stage h') : h'.Lone id { t with stage } := by
  refine ⟨?_, fun j hj => ?_⟩
  · rw [hm.tasks, Table.get?_insert, if_pos rfl]
  · rw [hm.tasks, Table.get?_insert, if_neg (Ne.symm hj)]
    exact hl.others j hj

theorem Lone.stays (hl : h.Lone id t) (hs : h.Stays h') : h'.Lone id t := by
  refine ⟨?_, fun j hj => ?_⟩ <;> rw [hs.tasks]
  · exact hl.task
  · exact hl.others j hj

/-- The handler can go on until its only task has given its lock back. -/
def Closes (engine : Engine σ) (id : Nat) (t : Task) (h : Handler σ) : Prop :=
  ∃ h' r, h.Proceeds engine h' ∧ h'.Lone id { t with stage := Core.closed t r } ∧
    h'.calls = h.calls ∧ h'.batches = h.batches

theorem Closes.after (hl : h.Lone id t) (hstep : h.stepTask engine id t = some h')
    (hm : h.Moves id t stage h') (hc : h'.Closes engine id { t with stage }) : h.Closes engine id t := by
  obtain ⟨h'', r, hp, hlone, hcalls, hbatches⟩ := hc
  have hact : h.step engine (.task id) = some h' := by
    simp only [step, hl.task, Option.bind_some]
    exact hstep
  exact ⟨h'', r, .head ⟨.task id, trivial, hact⟩ hp, hlone, hcalls.trans hm.calls,
    hbatches.trans hm.batches⟩

namespace Lone

theorem closes_closing {lock : Nat} {r : TaskResult}
    (hl : h.Lone id { t with stage := .closing lock r }) :
    h.Closes engine id { t with stage := .closing lock r } := by
  obtain ⟨-, hm⟩ := h.moves_closing id { t with stage := .closing lock r } lock r
  exact .after hl rfl hm ⟨_, r, .refl, hl.moves hm, rfl, rfl⟩

theorem closes_reading {lock resume : Nat} {program : Lookup (Except StoreError Plan)}
    (hl : h.Lone id { t with stage := .reading lock resume program }) :
    h.Closes engine id { t with stage := .reading lock resume program } := by
  have hreleases : h.Releases engine id _ lock := (unlocks_reading hl.task).releases
  obtain ⟨g, hp, hab, r, hb⟩ := hreleases
  have hlone : g.Lone id { t with stage := .closing lock r } :=
    ⟨hb.task, fun j hj => (hb.others j hj).trans (hl.others j hj)⟩
  have hcloses : g.Closes engine id _ := hlone.closes_closing
  obtain ⟨h', r', hp', hlone', hcalls, hbatches⟩ := hcloses
  exact ⟨h', r', hp.trans hp', hlone', hcalls.trans hab.calls, hbatches.trans hb.batches⟩

/-- Nobody holds the lock that the only task waits for. -/
theorem closes_waiting {s : σ} (hr : Reaches engine (start engine.settings s) h) {lock : Nat}
    (hl : h.Lone id { t with stage := .waiting lock }) :
    h.Closes engine id { t with stage := .waiting lock } := by
  obtain ⟨ho, -, -⟩ := hr.tended
  have hof := ho.known id _ lock hl.task (by simp [Task.handles, Stage.handle?])
  obtain ⟨held, hlock, hcount⟩ := ho.counted _ lock hof
  have hfree : held = false := by
    have hnone : h.core.tasks.count (Task.holds lock) = 0 := by
      by_contra hne
      obtain ⟨j, u, hu, hholds⟩ := Table.count_pos_iff.1 (Nat.pos_of_ne_zero hne)
      obtain ⟨-, rfl⟩ := hl.eq hu
      simp [Task.holds, Stage.holds] at hholds
    rw [hnone] at hcount
    exact Bool.toNat_eq_zero.1 hcount.symm
  subst hfree
  have hlock : h.locks.get? lock = some ⟨_, false⟩ := hlock
  have hm : h.Moves id { t with stage := .waiting lock } (.reading lock h.clock
      (t.plan engine.settings (engine.stamp h.clock)).run) ((h.setHeld lock true).setStage id t
        (.reading lock h.clock (t.plan engine.settings (engine.stamp h.clock)).run)) :=
    ⟨rfl, rfl, rfl⟩
  refine .after hl ?_ hm (hl.moves hm).closes_reading
  simp only [stepTask, hlock]
  rfl

/-- A task that is alone when it comes in can be carried out. -/
theorem closes {s : σ} (hr : Reaches engine (start engine.settings s) h)
    (hl : h.Lone id { t with stage := .arriving }) :
    h.Closes engine id { t with stage := .arriving } := by
  obtain ⟨-, hm⟩ := h.moves_arriving id { t with stage := .arriving }
  have hact : h.step engine (.task id) = some ((h.openLock t.key).2.setStage id t
      (.waiting (h.openLock t.key).1)) := by
    simp only [step, hl.task]
    rfl
  exact .after hl rfl hm ((hl.moves hm).closes_waiting (hr.step _ hact))

end Lone

end Handler

end EntityFormulas
