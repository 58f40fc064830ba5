/-
  EntityFormulas/Proofs/Recalculation/Progress.lean
  =================================================
  **Nothing keeps a task from its end.**

  A task that holds a lock waits for nobody but the clock, so the handler can go
  on until it has released the lock (`unlocks`), and so can every task that
  waits for a lock (`releases_waiting`).  Therefore the task of a drain can
  always come to its end (`lands`).

  On the way calls and the worker stay where they are (`Abides`): of what they
  go by, the `Front` of a handler, a task touches only the queue, and it only
  puts something in (`front_stepTask`).
-/
import EntityFormulas.Proofs.Recalculation.Calm
import EntityFormulas.Proofs.Recalculation.Exclusion

namespace EntityFormulas

open Relation (ReflTransGen)

/-- What a task queues in its next step. -/
def Task.queues? (t : Task) : Option Notification :=
  match t.stage, t.job with
  | .writing _ (.enqueue _) [], .notification property => some ⟨t.key, property⟩
  | _, _ => none

/-- The part of a handler's state that calls and the worker go by. -/
structure Front where
  clock : Nat
  queue : Table EntityKey QueueEntry
  /-- Whether a batch is there. -/
  batches : Nat → Bool
  calls : Table Nat Call
  worker : Worker
  workerWaitable : Bool
  woken : Bool
  stopRequested : Bool

namespace Handler

variable {σ : Type} {engine : Engine σ} {h h' h'' : Handler σ} {id : Nat} {t : Task}
  {stage : Stage} {lock : Nat}

def front (h : Handler σ) : Front where
  clock := h.clock
  queue := h.queue
  batches := h.batches.contains
  calls := h.calls
  worker := h.worker
  workerWaitable := h.workerWaitable
  woken := h.woken
  stopRequested := h.stopRequested

theorem front_closeLock (key : EntityKey) (lock : Nat) (h : Handler σ) :
    (h.closeLock key lock).front = h.front := by
  obtain ⟨_, _, heq⟩ := h.closeLock_frame key lock
  rw [heq]
  rfl

theorem contains_modify (batches : Table Nat Batch) (batch : Nat) (f : Batch → Batch) :
    (batches.modify batch f).contains = batches.contains := by
  funext b
  unfold Table.contains
  rw [Table.get?_modify]
  split
  · rename_i heq
    rw [heq, Option.isSome_map]
  · rfl

theorem front_stepLanding (id : Nat) (t : Task) (result : TaskResult) (h : Handler σ) :
    (h.stepLanding id t result).front = h.front := by
  unfold stepLanding
  rcases t.job with property | ⟨names, actor, batch⟩
  · rfl
  · obtain ⟨_, heq⟩ := h.leaveFlight_frame t.key
    dsimp only
    rw [heq]
    unfold front
    rw [contains_modify]

theorem queues?_eq_none (hs : ∀ lock mark, t.stage ≠ .writing lock (.enqueue mark) []) :
    t.queues? = none := by
  unfold Task.queues?
  split
  · rename_i hstage _
    exact absurd hstage (hs _ _)
  · rfl

theorem front_conclude_error (plan : Plan) (e : PassError) (h : Handler σ) :
    (h.conclude engine t plan (.error e)).front = h.front := by
  obtain ⟨_, heq⟩ := h.conclude_error_frame engine t plan e
  rw [heq]
  rfl

theorem front_conclude_ok {plan : Plan} (hs : t.stage = .writing lock plan []) (h : Handler σ) :
    (h.conclude engine t plan (.ok ())).front =
      (t.queues?.elim h (h.enqueue engine.settings.recalc.batchDelay)).front := by
  unfold conclude Task.queues?
  rw [hs]
  rcases t.job with property | ⟨names, actor, batch⟩ <;> rcases plan with _ | _ | mark | ⟨o, actor⟩ <;>
    rfl

theorem front_stepWriting {plan : Plan} {rest : List StateRecord}
    (hs : t.stage = .writing lock plan rest) (h : Handler σ) :
    (h.stepWriting engine id t lock plan rest).front =
      (t.queues?.elim h (h.enqueue engine.settings.recalc.batchDelay)).front := by
  cases rest with
  | nil => exact front_conclude_ok hs h
  | cons r rest =>
    rw [queues?_eq_none (by simp [hs])]
    unfold stepWriting
    dsimp only
    split
    · rfl
    · exact front_conclude_error plan _ _

theorem front_stepClosing (id : Nat) (t : Task) (lock : Nat) (result : TaskResult)
    (h : Handler σ) : (h.stepClosing id t lock result).front = h.front := by
  unfold stepClosing
  cases t.job with
  | notification property => exact front_closeLock ..
  | drain names actor batch => cases result <;> exact front_closeLock ..

/-- A task feeds the queue with what it queues, and touches nothing else that calls and the worker go
    by. -/
theorem front_stepTask (hstep : h.stepTask engine id t = some h') :
    h'.front = (t.queues?.elim h (h.enqueue engine.settings.recalc.batchDelay)).front := by
  cases stepTask_cases hstep with
  | arrive hs =>
    rw [queues?_eq_none (by simp [hs])]
    obtain ⟨_, _, _, -, heq⟩ := h.openLock_frame t.key
    rw [heq]
    rfl
  | acquire hs | release hs =>
    rw [queues?_eq_none (by simp [hs])]
    rfl
  | @read lock resume program hs =>
    rw [queues?_eq_none (by simp [hs])]
    rcases program with (e | plan) | _ | _ <;> rfl
  | write hs => exact front_stepWriting hs h
  | close hs =>
    rw [queues?_eq_none (by simp [hs])]
    exact front_stepClosing ..
  | land hs =>
    rw [queues?_eq_none (by simp [hs])]
    exact front_stepLanding ..

/-! ### Going on -/

theorem Reaches.proceeds {h₀ : Handler σ} (hr : Reaches engine h₀ h) (hp : h.Proceeds engine h') :
    Reaches engine h₀ h' := by
  induction hp with
  | refl => exact hr
  | tail _ hstep ih =>
    obtain ⟨a, -, hstep⟩ := hstep
    exact ih.step a hstep

/-- Calls are where they were, and what was queued still is. -/
structure Retains (h h' : Handler σ) : Prop where
  calls : h'.calls = h.calls
  stopRequested : h'.stopRequested = h.stopRequested
  queued : ∀ key e, h.queue.get? key = some e → ∃ e', h'.queue.get? key = some e' ∧
    e.names ⊆ e'.names

theorem Retains.of_eq (hcalls : h'.calls = h.calls) (hstop : h'.stopRequested = h.stopRequested)
    (hqueue : h'.queue = h.queue) : h.Retains h' := by
  refine ⟨hcalls, hstop, fun key e he => ⟨e, ?_, fun _ hn => hn⟩⟩
  rw [hqueue]
  exact he

theorem Retains.trans (hk : h.Retains h') (hk' : h'.Retains h'') : h.Retains h'' := by
  refine ⟨hk'.calls.trans hk.calls, hk'.stopRequested.trans hk.stopRequested, fun key e he => ?_⟩
  obtain ⟨e', he', hsub⟩ := hk.queued key e he
  obtain ⟨e'', he'', hsub'⟩ := hk'.queued key e' he'
  exact ⟨e'', he'', fun _ hn => hsub' (hsub hn)⟩

/-- The worker is where it was, too. -/
structure Abides (h h' : Handler σ) : Prop extends h.Retains h' where
  worker : h'.worker = h.worker

theorem Abides.refl (h : Handler σ) : h.Abides h := ⟨.of_eq rfl rfl rfl, rfl⟩

theorem Abides.trans (hab : h.Abides h') (hab' : h'.Abides h'') : h.Abides h'' :=
  ⟨hab.toRetains.trans hab'.toRetains, hab'.worker.trans hab.worker⟩

theorem Abides.of_front (hf : h'.front = h.front) : h.Abides h' := by
  obtain ⟨-, hqueue, -, hcalls, hworker, -, -, hstop⟩ := (Front.mk.injEq ..).mp hf
  exact ⟨.of_eq hcalls hstop hqueue, hworker⟩

theorem abides_enqueue (delay : Nat) (n : Notification) (h : Handler σ) :
    h.Abides (h.enqueue delay n) := by
  refine ⟨⟨rfl, rfl, fun key e he => ?_⟩, rfl⟩
  unfold enqueue
  dsimp only
  by_cases hk : n.key = key
  · subst hk
    refine ⟨_, by rw [Table.get?_insert, if_pos rfl], fun name hn => ?_⟩
    rw [he]
    exact mem_insertAscending.2 (.inr hn)
  · refine ⟨e, ?_, fun _ hn => hn⟩
    rw [Table.get?_insert, if_neg hk]
    exact he

theorem abides_stepTask (hstep : h.stepTask engine id t = some h') : h.Abides h' := by
  have hf := front_stepTask hstep
  cases hq : t.queues? with
  | none =>
    rw [hq] at hf
    exact .of_front hf
  | some n =>
    rw [hq] at hf
    exact (abides_enqueue ..).trans (.of_front hf)

/-- The handler can go on to such a state, with calls and the worker where they are. -/
def Attains (engine : Engine σ) (goal : Handler σ → Prop) (h : Handler σ) : Prop :=
  ∃ h', h.Proceeds engine h' ∧ h.Abides h' ∧ goal h'

namespace Attains

variable {goal goal' : Handler σ → Prop}

theorem now (hg : goal h) : h.Attains engine goal := ⟨h, .refl, .refl h, hg⟩

theorem bind (ha : h.Attains engine goal)
    (hnext : ∀ h', h.Proceeds engine h' → h.Abides h' → goal h' → h'.Attains engine goal') :
    h.Attains engine goal' := by
  obtain ⟨h₁, hp, hab, hg⟩ := ha
  obtain ⟨h₂, hp', hab', hg'⟩ := hnext h₁ hp hab hg
  exact ⟨h₂, hp.trans hp', hab.trans hab', hg'⟩

theorem step {a : Action} (ha : a.Calm) (hstep : h.step engine a = some h') (hab : h.Abides h')
    (hnext : h'.Attains engine goal) : h.Attains engine goal := by
  obtain ⟨h'', hp, hab', hg⟩ := hnext
  exact ⟨h'', .head ⟨a, ha, hstep⟩ hp, hab.trans hab', hg⟩

theorem task (ht : h.tasks.get? id = some t) (hstep : h.stepTask engine id t = some h')
    (hnext : h'.Attains engine goal) : h.Attains engine goal := by
  refine step (a := .task id) trivial ?_ (abides_stepTask hstep) hnext
  simp only [Handler.step, ht, Option.bind_some]
  exact hstep

end Attains

/-- The task has come to a stage, and other tasks and batches are where they were. -/
structure Brought (id : Nat) (t : Task) (stage : Stage) (h h' : Handler σ) : Prop where
  task : h'.tasks.get? id = some { t with stage }
  others : ∀ j, j ≠ id → h'.tasks.get? j = h.tasks.get? j
  batches : h'.batches = h.batches

theorem Moves.brought (hm : h.Moves id t stage h') : h.Brought id t stage h' where
  task := by rw [hm.tasks, Table.get?_insert, if_pos rfl]
  others j hj := by rw [hm.tasks, Table.get?_insert, if_neg (Ne.symm hj)]
  batches := hm.batches

theorem Brought.trans {stage' : Stage} (hb : h.Brought id t stage h')
    (hb' : h'.Brought id { t with stage } stage' h'') : h.Brought id t stage' h'' :=
  ⟨hb'.task, fun j hj => (hb'.others j hj).trans (hb.others j hj), hb'.batches.trans hb.batches⟩

/-- Tasks go on and time passes. -/
def Works (engine : Engine σ) : Handler σ → Handler σ → Prop :=
  ReflTransGen fun h h' => (∃ id t, h.tasks.get? id = some t ∧ h.stepTask engine id t = some h') ∨
    ∃ time, h' = { h with clock := max h.clock time }

theorem Works.proceeds (hw : h.Works engine h') : h.Proceeds engine h' ∧ h.Abides h' := by
  induction hw with
  | refl => exact ⟨.refl, .refl h⟩
  | @tail g g' _ hstep ih =>
    rcases hstep with ⟨id, t, ht, hstep⟩ | ⟨time, rfl⟩
    · refine ⟨ih.1.tail ⟨.task id, trivial, ?_⟩, ih.2.trans (abides_stepTask hstep)⟩
      simp only [step, ht, Option.bind_some]
      exact hstep
    · exact ⟨ih.1.tail ⟨.clock (max g.clock time), trivial, if_pos (Nat.le_max_left ..)⟩,
        ih.2.trans ⟨.of_eq rfl rfl rfl, rfl⟩⟩

/-- Tasks can go on until this one has released its lock. -/
def Unlocks (engine : Engine σ) (id : Nat) (t : Task) (lock : Nat) (h : Handler σ) : Prop :=
  ∃ h' r, h.Works engine h' ∧ h.Brought id t (.closing lock r) h'

theorem Unlocks.after (ht : h.tasks.get? id = some t) (hstep : h.stepTask engine id t = some h')
    (hm : h.Moves id t stage h')
    (hu : h'.tasks.get? id = some { t with stage } → h'.Unlocks engine id { t with stage } lock) :
    h.Unlocks engine id t lock := by
  obtain ⟨h'', r, hw, hb⟩ := hu hm.brought.task
  exact ⟨h'', r, .head (.inl ⟨id, t, ht, hstep⟩) hw, hm.brought.trans hb⟩

theorem Unlocks.wait (time : Nat)
    (hu : { h with clock := max h.clock time }.Unlocks engine id t lock) :
    h.Unlocks engine id t lock := by
  obtain ⟨h'', r, hw, hb⟩ := hu
  exact ⟨h'', r, .head (.inr ⟨time, rfl⟩) hw, hb.task, hb.others, hb.batches⟩

theorem unlocks_leaving {r : TaskResult}
    (ht : h.tasks.get? id = some { t with stage := .leaving lock r }) :
    h.Unlocks engine id { t with stage := .leaving lock r } lock := by
  have hm : h.Moves id { t with stage := .leaving lock r } (.closing lock r)
      ((h.setHeld lock false).setStage id t (.closing lock r)) := ⟨rfl, rfl, rfl⟩
  refine .after ht rfl hm fun ht => ?_
  exact ⟨_, r, .refl, ht, fun _ _ => rfl, rfl⟩

theorem unlocks_writing {plan : Plan} {rest : List StateRecord}
    (ht : h.tasks.get? id = some { t with stage := .writing lock plan rest }) :
    h.Unlocks engine id { t with stage := .writing lock plan rest } lock := by
  induction rest generalizing h with
  | nil =>
    obtain ⟨-, hm⟩ := h.moves_settling engine id
      { t with stage := .writing lock plan [] } lock plan
    exact .after ht rfl hm unlocks_leaving
  | cons r rest ih =>
    rcases hw : engine.store.write t.key.tenant r h.store with ⟨e | ⟨⟩, store⟩
    · refine .after ht ?_ (h.moves_refused engine id _ lock plan e store) unlocks_leaving
      simp only [stepTask, stepWriting, hw]
    · have hm : h.Moves id { t with stage := .writing lock plan (r :: rest) } (.writing lock plan rest)
          ({ h with store }.setStage id t (.writing lock plan rest)) := ⟨rfl, rfl, rfl⟩
      refine .after ht ?_ hm ih
      simp only [stepTask, stepWriting, hw]
      rfl

theorem unlocks_reading {resume : Nat} {program : Lookup (Except StoreError Plan)}
    (ht : h.tasks.get? id = some { t with stage := .reading lock resume program }) :
    h.Unlocks engine id { t with stage := .reading lock resume program } lock := by
  -- On the program, which says which call comes next; each may have to wait for time to pass.
  induction program generalizing h resume with
  | done r =>
    refine .wait resume ?_
    rcases r with e | plan
    · exact .after ht (if_pos (Nat.le_max_right ..)) ⟨rfl, rfl, rfl⟩ unlocks_leaving
    · exact .after ht (if_pos (Nat.le_max_right ..)) ⟨rfl, rfl, rfl⟩ unlocks_writing
  | entities tenant ids next ih | relationships tenant entity next ih =>
    refine .wait resume ?_
    exact .after ht (if_pos (Nat.le_max_right ..)) ⟨rfl, rfl, rfl⟩ (ih _)

/-- A task that holds a lock waits for nobody. -/
theorem unlocks (ht : h.tasks.get? id = some t) (hholds : t.holds lock = true) :
    h.Unlocks engine id t lock := by
  obtain ⟨key, job, stage⟩ := t
  simp only [Task.holds, Task.handles, Bool.and_eq_true, decide_eq_true_eq] at hholds
  obtain ⟨hholds, hhandle⟩ := hholds
  cases stage <;> simp only [Stage.holds, Bool.false_eq_true] at hholds <;>
    cases Option.some.inj hhandle
  · exact unlocks_reading (t := ⟨key, job, .arriving⟩) ht
  · exact unlocks_writing (t := ⟨key, job, .arriving⟩) ht
  · exact unlocks_leaving (t := ⟨key, job, .arriving⟩) ht

/-- The handler can go on until the task has released its lock. -/
def Releases (engine : Engine σ) (id : Nat) (t : Task) (lock : Nat) (h : Handler σ) : Prop :=
  h.Attains engine fun h' => ∃ r, h.Brought id t (.closing lock r) h'

theorem Unlocks.releases (hu : h.Unlocks engine id t lock) : h.Releases engine id t lock := by
  obtain ⟨h', r, hw, hb⟩ := hu
  exact ⟨h', hw.proceeds.1, hw.proceeds.2, r, hb⟩

/-! ### Drains come to their end -/

/-- The handler can go on until a task of a batch has reported to it. -/
def Lands (engine : Engine σ) (batch : Nat) (h : Handler σ) : Prop :=
  h.Attains engine fun h' => ∃ r, h'.batches = h.batches.modify batch fun b =>
    ⟨b.report.add r, b.remaining - 1⟩

section Lands

variable {key : EntityKey} {names : List String} {actor : String} {batch : Nat} {r : TaskResult}

theorem Lands.after (ha : h.Attains engine fun h' => h'.batches = h.batches ∧ h'.Lands engine batch) :
    h.Lands engine batch := by
  refine ha.bind fun g _ _ hg => ?_
  obtain ⟨hbatches, hlands⟩ := hg
  rw [← hbatches]
  exact hlands

theorem lands_landing
    (ht : h.tasks.get? id = some ⟨key, .drain names actor batch, .landing r⟩) :
    h.Lands engine batch := by
  refine .task ht rfl (.now ⟨passResult r, ?_⟩)
  obtain ⟨_, heq⟩ := h.leaveFlight_frame key
  unfold stepLanding
  simp only [heq]

theorem lands_closing
    (ht : h.tasks.get? id = some ⟨key, .drain names actor batch, .closing lock r⟩) :
    h.Lands engine batch := by
  obtain ⟨-, hm⟩ := h.moves_closing id ⟨key, .drain names actor batch, .closing lock r⟩ lock r
  exact .after (.task ht rfl (.now ⟨hm.batches, lands_landing hm.brought.task⟩))

end Lands

section Reachable

variable {s : σ} (hr : Reaches engine (start engine.settings s) h)
include hr

/-- Who holds the lock that a task waits for can release it. -/
theorem frees (ht : h.tasks.get? id = some t) (hs : t.stage = .waiting lock) :
    h.Attains engine fun h' => h'.tasks.get? id = some t ∧ h'.batches = h.batches ∧
      ∃ n, h'.locks.get? lock = some ⟨n, false⟩ := by
  have hlocked {g : Handler σ} (hg : Reaches engine (start engine.settings s) g)
      (ht : g.tasks.get? id = some t) : ∃ held, g.locks.get? lock =
        some ⟨g.tasks.count (Task.handles lock), held⟩ ∧
          g.tasks.count (Task.holds lock) = held.toNat := by
    obtain ⟨ho, -, -⟩ := hg.tended
    exact ho.counted _ lock (ho.known id t lock ht (by simp [Task.handles, hs, Stage.handle?]))
  obtain ⟨held, hlock, hcount⟩ := hlocked hr ht
  cases held with
  | false => exact .now ⟨ht, rfl, _, hlock⟩
  | true =>
    obtain ⟨j, u, hu, hholds⟩ := Table.count_pos_iff.1 (Nat.lt_of_lt_of_eq Nat.one_pos hcount.symm)
    have hne : id ≠ j := by
      rintro rfl
      rw [ht] at hu
      cases hu
      simp [Task.holds, hs, Stage.holds] at hholds
    refine (unlocks hu hholds).releases.bind fun h' hp _ hb => .now ?_
    obtain ⟨r, hb⟩ := hb
    have ht' : h'.tasks.get? id = some t := (hb.others id hne).trans ht
    obtain ⟨held', hlock', hcount'⟩ := hlocked (hr.proceeds hp) ht'
    refine ⟨ht', hb.batches, h'.tasks.count (Task.handles lock), ?_⟩
    cases held' with
    | false => exact hlock'
    | true =>
      -- Who holds the lock now held it before, and that is who has just released it.
      obtain ⟨i, w, hw, hholds'⟩ := Table.count_pos_iff.1 (Nat.lt_of_lt_of_eq Nat.one_pos hcount'.symm)
      have hij : i ≠ j := by
        rintro rfl
        rw [hb.task] at hw
        cases hw
        simp [Task.holds, Stage.holds] at hholds'
      rw [hb.others i hij] at hw
      exact absurd (Table.eq_of_count_le_one hcount.le hw hholds' hu hholds) hij

/-- A task that waits for a lock can get it and release it. -/
theorem releases_waiting (ht : h.tasks.get? id = some t) (hs : t.stage = .waiting lock) :
    h.Attains engine fun h' => h'.batches = h.batches ∧
      ∃ r, h'.tasks.get? id = some { t with stage := .closing lock r } := by
  refine (frees hr ht hs).bind fun g _ _ hg => ?_
  obtain ⟨htg, hbatches, n, hlock⟩ := hg
  let program := (t.plan engine.settings (engine.stamp g.clock)).run
  have hstep : g.stepTask engine id t = some ((g.setHeld lock true).setStage id t
      (.reading lock g.clock program)) := by
    simp only [stepTask, hs, hlock, program]
  have htask : ((g.setHeld lock true).setStage id t (.reading lock g.clock program)).tasks.get? id =
      some { t with stage := .reading lock g.clock program } := by
    rw [setStage, Table.get?_insert, if_pos rfl]
  refine .task htg hstep ((unlocks_reading htask).releases.bind fun h' _ _ hb => .now ?_)
  obtain ⟨r, hb⟩ := hb
  exact ⟨hb.batches.trans hbatches, r, hb.task⟩

/-- The task of a drain can come to its end. -/
theorem lands (ht : h.tasks.get? id = some t) {names : List String} {actor : String} {batch : Nat}
    (hj : t.job = .drain names actor batch) : h.Lands engine batch := by
  obtain ⟨key, job, stage⟩ := t
  cases hj
  have hwaiting {g : Handler σ} {lock : Nat} (hg : Reaches engine (start engine.settings s) g)
      (htg : g.tasks.get? id = some ⟨key, .drain names actor batch, .waiting lock⟩) :
      g.Lands engine batch := by
    refine .after ((releases_waiting hg htg rfl).bind fun h' _ _ hh => .now ?_)
    obtain ⟨hbatches, r, ht'⟩ := hh
    exact ⟨hbatches, lands_closing ht'⟩
  have hholding (lock : Nat) (hholds : Task.holds lock ⟨key, .drain names actor batch, stage⟩ = true) :
      h.Lands engine batch := by
    refine .after ((unlocks ht hholds).releases.bind fun h' _ _ hh => .now ?_)
    obtain ⟨r, hb⟩ := hh
    exact ⟨hb.batches, lands_closing hb.task⟩
  cases stage with
  | arriving =>
    obtain ⟨-, hm⟩ := h.moves_arriving id ⟨key, .drain names actor batch, .arriving⟩
    refine .after (.task ht rfl (.now ⟨hm.batches, hwaiting (hr.step (.task id) ?_) hm.brought.task⟩))
    simp only [step, ht, Option.bind_some]
    rfl
  | waiting lock => exact hwaiting hr ht
  | reading lock | writing lock | leaving lock =>
    exact hholding lock (by simp [Task.holds, Task.handles, Stage.holds, Stage.handle?])
  | closing lock r => exact lands_closing ht
  | landing r => exact lands_landing ht
  | finished r =>
    obtain ⟨-, hended, -⟩ := hr.tended
    obtain ⟨property, hj⟩ := hended id _ r ht rfl
    cases hj

end Reachable

end Handler

end EntityFormulas
