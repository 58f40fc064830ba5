/-
  EntityFormulas/Proofs/Recalculation/Calm.lean
  =============================================
  **What goes on by itself.**

  While nobody makes another call, tasks and calls go on and time passes; as
  long as no timer fires nothing is taken off the queue but by calls that are
  under way (`Action.Calm`).  The step of a task takes it to another stage and
  leaves calls and batches alone (`Moves`), and a step of the worker is none of
  their business (`Stays`).
-/
import EntityFormulas.Proofs.Recalculation.Steps

namespace EntityFormulas

open Relation (ReflTransGen)

namespace Handler

variable {σ : Type} {engine : Engine σ} {h h' h'' : Handler σ}

/-! ### Calm steps -/

/-- What goes on while a client waits: tasks and calls go on, time passes, and the worker goes on
    too, but no timer fires. -/
def Action.Calm : Action → Prop
  | .task _ | .call _ | .clock _ => True
  | .worker cue => cue ≠ .timer
  | _ => False

/-- A handler goes on by itself, and no timer fires. -/
def Proceeds (engine : Engine σ) : Handler σ → Handler σ → Prop :=
  ReflTransGen fun h h' => ∃ a : Action, a.Calm ∧ h.step engine a = some h'

/-- Nothing that tasks and calls work with has changed, but for batches that nobody works on. -/
structure Stays (h h' : Handler σ) : Prop where
  store : h'.store = h.store
  queue : h'.queue = h.queue
  tasks : h'.tasks = h.tasks
  calls : h'.calls = h.calls
  batches : ∀ batch report n, h.batches.get? batch = some ⟨report, n + 1⟩ →
    h'.batches.get? batch = some ⟨report, n + 1⟩

/-- The step of a worker whose timer does not fire. -/
theorem stays_stepWorker {cue : WorkerCue} (hcue : cue ≠ .timer)
    (hstep : h.stepWorker engine cue = some h') : h.Stays h' := by
  cases stepWorker_cases hstep with
  | stop | arm | heed | wake => exact ⟨rfl, rfl, rfl, rfl, fun _ _ _ hb => hb⟩
  | drain => exact absurd rfl hcue
  | @resume batch report hw hdone =>
    refine ⟨rfl, rfl, rfl, rfl, fun other report n hother => ?_⟩
    show (h.batches.erase batch).get? other = _
    rw [Table.get?_erase, if_neg ?_]
    · exact hother
    · rintro rfl
      rw [hdone] at hother
      cases hother

/-- What a calm step is: a task or a call goes on, or nothing happens to them. -/
theorem calm_cases {a : Action} (ha : a.Calm) (hstep : h.step engine a = some h') :
    (∃ id t, h.tasks.get? id = some t ∧ h.stepTask engine id t = some h') ∨
      (∃ id call, h.calls.get? id = some call ∧ h.stepCall engine id call = some h') ∨
      h.Stays h' := by
  cases step_cases hstep with
  | task ht hstep => exact .inl ⟨_, _, ht, hstep⟩
  | call hc hstep => exact .inr (.inl ⟨_, _, hc, hstep⟩)
  | worker hstep => exact .inr (.inr (stays_stepWorker ha hstep))
  | clock => exact .inr (.inr ⟨rfl, rfl, rfl, rfl, fun _ _ _ hb => hb⟩)
  | notify | begin | collect | report => exact ha.elim

/-! ### Steps of tasks -/

/-- A task goes to a stage, and calls and batches stay as they are. -/
structure Moves (id : Nat) (t : Task) (stage : Stage) (h h' : Handler σ) : Prop where
  tasks : h'.tasks = h.tasks.insert id { t with stage }
  calls : h'.calls = h.calls
  batches : h'.batches = h.batches

theorem moves_arriving (id : Nat) (t : Task) (h : Handler σ) :
    let h' := (h.openLock t.key).2.setStage id t (.waiting (h.openLock t.key).1)
    (h'.store = h.store ∧ h'.queue = h.queue) ∧
      h.Moves id t (.waiting (h.openLock t.key).1) h' := by
  obtain ⟨_, _, _, -, heq⟩ := h.openLock_frame t.key
  dsimp only
  rw [heq]
  exact ⟨⟨rfl, rfl⟩, rfl, rfl, rfl⟩

theorem moves_closing (id : Nat) (t : Task) (lock : Nat) (r : TaskResult) (h : Handler σ) :
    ((h.stepClosing id t lock r).store = h.store ∧ (h.stepClosing id t lock r).queue = h.queue) ∧
      h.Moves id t (Core.closed t r) (h.stepClosing id t lock r) := by
  obtain ⟨_, _, heq⟩ := h.closeLock_frame t.key lock
  unfold stepClosing Core.closed
  rw [heq]
  cases t.job with
  | notification property => exact ⟨⟨rfl, rfl⟩, rfl, rfl, rfl⟩
  | drain names actor batch => cases r <;> exact ⟨⟨rfl, rfl⟩, rfl, rfl, rfl⟩

end Handler

/-- How a task that has written its records leaves the queue: with its property in it, if it was to
    queue that. -/
def Task.Queues (t : Task) (plan : Plan) (q q' : Table EntityKey QueueEntry) : Prop :=
  match t.job, plan with
  | .notification name, .enqueue _ => ∃ deadline, q' = q.insert t.key
      ⟨insertAscending name (((q.get? t.key).map QueueEntry.names).getD []), deadline⟩
  | _, _ => q' = q

namespace Handler

variable {σ : Type} {engine : Engine σ} {h h' h'' : Handler σ}

theorem moves_settling (engine : Engine σ) (id : Nat) (t : Task) (lock : Nat) (plan : Plan) (h : Handler σ) :
    let h' := h.stepWriting engine id t lock plan []
    (h'.store = h.store ∧ t.Queues plan h.queue h'.queue) ∧
      h.Moves id t (.leaving lock (.ok plan.outcome?)) h' := by
  have hqueue : (h.conclude engine t plan (.ok ())).store = h.store ∧
      t.Queues plan h.queue (h.conclude engine t plan (.ok ())).queue := by
    unfold conclude Task.Queues
    cases t.job with
    | drain names actor batch => exact ⟨rfl, rfl⟩
    | notification property =>
      cases plan with
      | enqueue mark => exact ⟨rfl, _, rfl⟩
      | _ => exact ⟨rfl, rfl⟩
  refine ⟨hqueue, ?_⟩
  obtain ⟨_, _, _, _, heq⟩ := h.conclude_frame engine t plan (.ok ())
  unfold stepWriting
  rw [heq]
  exact ⟨rfl, rfl, rfl⟩

theorem moves_refused (engine : Engine σ) (id : Nat) (t : Task) (lock : Nat) (plan : Plan) (e : PassError) (store : σ)
    (h : Handler σ) : h.Moves id t (.leaving lock (.error e))
      (({ h with store }.conclude engine t plan (.error e)).setStage id t
        (.leaving lock (.error e))) := by
  obtain ⟨_, heq⟩ := ({ h with store }).conclude_error_frame engine t plan e
  rw [heq]
  exact ⟨rfl, rfl, rfl⟩

end Handler

end EntityFormulas
