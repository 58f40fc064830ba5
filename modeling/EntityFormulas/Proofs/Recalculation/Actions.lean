/-
  EntityFormulas/Proofs/Recalculation/Actions.lean
  ================================================
  **What every action does, case by case.**

  `Handler.step` and the functions it is made of answer nothing where an action
  is not possible.  The relations of this module have one case for each way in
  which a step is possible: what has to hold before it, and the state after it.
  All that is said about handlers is proved over these cases, so that the
  functions themselves are opened here only.
-/
import EntityFormulas.Recalculation.Handler

namespace EntityFormulas

/-- Only a task that has finished has a result. -/
theorem Task.stage_of_result? {t : Task} {r : TaskResult} (hr : t.result? = some r) :
    t.stage = .finished r := by
  unfold result? at hr
  split at hr
  · rename_i r' hs
    rw [hs, Option.some.inj hr]
  · cases hr

namespace Handler

variable {σ : Type} {engine : Engine σ} {h h' : Handler σ} {id : Nat}

/-- Only a task that has finished is collected, and it is forgotten. -/
theorem collected {result : TaskResult} (hc : h.collect id = some (result, h')) :
    ∃ t, h.tasks.get? id = some t ∧ t.stage = .finished result ∧
      h' = { h with tasks := h.tasks.erase id } := by
  unfold collect at hc
  split at hc
  · rename_i r hr
    cases hc
    obtain ⟨t, ht, hresult⟩ := Option.bind_eq_some_iff.1 hr
    exact ⟨t, ht, t.stage_of_result? hresult, rfl⟩
  · cases hc

/-- Whoever waits for the result of a task gets it when the task has finished. -/
theorem collect_of_finished {t : Task} {result : TaskResult} (ht : h.tasks.get? id = some t)
    (hs : t.stage = .finished result) :
    h.collect id = some (result, { h with tasks := h.tasks.erase id }) := by
  unfold collect Task.result?
  simp only [ht, Option.bind_some, hs]

/-- Only a batch without tasks at work is reported, and it is forgotten. -/
theorem finished {batch : Nat} {report : DrainReport}
    (hr : h.finishBatch batch = some (report, h')) : h.batches.get? batch = some ⟨report, 0⟩ ∧
      h' = { h with batches := h.batches.erase batch } := by
  unfold finishBatch at hr
  split at hr
  · rename_i hb
    cases hr
    exact ⟨hb, rfl⟩
  · cases hr

/-! ### What is left alone -/

/-- To open a lock only locks and numbers are touched. -/
theorem openLock_frame (key : EntityKey) (h : Handler σ) : ∃ passLocks locks fresh,
    h.fresh ≤ fresh ∧ (h.openLock key).2 = { h with passLocks, locks, fresh } := by
  unfold openLock
  split
  · exact ⟨_, _, _, Nat.le_refl _, rfl⟩
  · exact ⟨_, _, _, Nat.le_succ _, rfl⟩

theorem closeLock_frame (key : EntityKey) (lock : Nat) (h : Handler σ) :
    ∃ passLocks locks, h.closeLock key lock = { h with passLocks, locks } := by
  unfold closeLock
  dsimp only
  split
  · split <;> exact ⟨_, _, rfl⟩
  · exact ⟨_, _, rfl⟩

theorem leaveFlight_frame (key : EntityKey) (h : Handler σ) :
    ∃ inFlight, h.leaveFlight key = { h with inFlight } := by
  unfold leaveFlight
  split
  · split <;> exact ⟨_, rfl⟩
  · exact ⟨_, rfl⟩

theorem conclude_frame (engine : Engine σ) (t : Task) (plan : Plan) (w : Except PassError Unit)
    (h : Handler σ) : ∃ queue woken stats events,
      h.conclude engine t plan w = { h with queue, woken, stats, events } := by
  unfold conclude
  cases t.job with
  | drain names actor batch => exact ⟨_, _, _, _, rfl⟩
  | notification property => cases plan <;> cases w <;> exact ⟨_, _, _, _, rfl⟩

/-- A task whose record is refused is counted at most. -/
theorem conclude_error_frame (engine : Engine σ) (t : Task) (plan : Plan) (e : PassError)
    (h : Handler σ) : ∃ stats, h.conclude engine t plan (.error e) = { h with stats } := by
  unfold conclude
  cases t.job with
  | drain names actor batch => exact ⟨_, rfl⟩
  | notification property => cases plan <;> exact ⟨_, rfl⟩

/-! ### Tasks -/

/-- What the step of a task does. -/
inductive TaskStep (engine : Engine σ) (id : Nat) (t : Task) (h : Handler σ) :
    Handler σ → Prop where
  | arrive (hs : t.stage = .arriving) :
    TaskStep engine id t h ((h.openLock t.key).2.setStage id t (.waiting (h.openLock t.key).1))
  | acquire {lock handles : Nat} (hs : t.stage = .waiting lock)
    (hlock : h.locks.get? lock = some ⟨handles, false⟩) :
    TaskStep engine id t h ((h.setHeld lock true).setStage id t
      (.reading lock h.clock (t.plan engine.settings (engine.stamp h.clock)).run))
  | read {lock resume : Nat} {program : Lookup (Except StoreError Plan)}
    (hs : t.stage = .reading lock resume program) (hresume : resume ≤ h.clock) :
    TaskStep engine id t h (h.stepReading engine id t lock resume program)
  | write {lock : Nat} {plan : Plan} {rest : List StateRecord}
    (hs : t.stage = .writing lock plan rest) :
    TaskStep engine id t h (h.stepWriting engine id t lock plan rest)
  | release {lock : Nat} {result : TaskResult} (hs : t.stage = .leaving lock result) :
    TaskStep engine id t h ((h.setHeld lock false).setStage id t (.closing lock result))
  | close {lock : Nat} {result : TaskResult} (hs : t.stage = .closing lock result) :
    TaskStep engine id t h (h.stepClosing id t lock result)
  | land {result : TaskResult} (hs : t.stage = .landing result) :
    TaskStep engine id t h (h.stepLanding id t result)

theorem stepTask_cases {t : Task} (hstep : h.stepTask engine id t = some h') :
    TaskStep engine id t h h' := by
  unfold stepTask at hstep
  cases hs : t.stage with
  | arriving =>
    rw [hs] at hstep
    cases hstep
    exact .arrive hs
  | waiting lock =>
    rw [hs] at hstep
    dsimp only at hstep
    split at hstep
    · rename_i hlock
      cases hstep
      exact .acquire hs hlock
    · cases hstep
  | reading lock resume program =>
    rw [hs] at hstep
    dsimp only at hstep
    split at hstep
    · rename_i hresume
      cases hstep
      exact .read hs hresume
    · cases hstep
  | writing lock plan rest =>
    rw [hs] at hstep
    cases hstep
    exact .write hs
  | leaving lock result =>
    rw [hs] at hstep
    cases hstep
    exact .release hs
  | closing lock result =>
    rw [hs] at hstep
    cases hstep
    exact .close hs
  | landing result =>
    rw [hs] at hstep
    cases hstep
    exact .land hs
  | finished result =>
    rw [hs] at hstep
    cases hstep

/-! ### The worker -/

/-- What the step of the worker does. -/
inductive WorkerStep (engine : Engine σ) (h : Handler σ) : WorkerCue → Handler σ → Prop where
  | stop (hw : h.worker = .awake) (hstop : h.stopRequested = true) :
    WorkerStep engine h .proceed { h with worker := .stopped }
  | arm (hw : h.worker = .awake) (hstop : h.stopRequested = false) :
    WorkerStep engine h .proceed { h with worker := .armed h.earliestDeadline }
  | heed {deadline : Option Nat} (hw : h.worker = .armed deadline) (hstop : h.stopRequested = true) :
    WorkerStep engine h .stop { h with worker := .awake }
  | wake {deadline : Option Nat} (hw : h.worker = .armed deadline) (hwoken : h.woken = true) :
    WorkerStep engine h .wake { h with worker := .awake, woken := false }
  | drain {deadline : Nat} (hw : h.worker = .armed (some deadline)) (hdue : deadline ≤ h.clock) :
    WorkerStep engine h .timer
      { (h.drain (fun _ e => e.deadline ≤ h.clock) engine.settings.recalc.systemActor).2 with
        worker := .draining h.fresh }
  | resume {batch : Nat} {report : DrainReport} (hw : h.worker = .draining batch)
    (hb : h.batches.get? batch = some ⟨report, 0⟩) :
    WorkerStep engine h .proceed { h with batches := h.batches.erase batch, worker := .awake }

theorem stepWorker_cases {cue : WorkerCue} (hstep : h.stepWorker engine cue = some h') :
    WorkerStep engine h cue h' := by
  unfold stepWorker at hstep
  split at hstep
  · rename_i hw
    split at hstep
    · rename_i hstop
      cases hstep
      exact .stop hw hstop
    · rename_i hstop
      cases hstep
      exact .arm hw (Bool.not_eq_true _ ▸ hstop)
  · rename_i hw
    split at hstep
    · rename_i hstop
      cases hstep
      exact .heed hw hstop
    · cases hstep
  · rename_i hw
    split at hstep
    · rename_i hwoken
      cases hstep
      exact .wake hw hwoken
    · cases hstep
  · rename_i hw
    split at hstep
    · rename_i hdue
      cases hstep
      exact .drain hw hdue
    · cases hstep
  · rename_i hw
    obtain ⟨⟨report, g⟩, hr, rfl⟩ := Option.map_eq_some_iff.1 hstep
    obtain ⟨hb, rfl⟩ := finished hr
    exact .resume hw hb
  · cases hstep

/-! ### Calls -/

/-- What the step of a call does. -/
inductive CallStep (engine : Engine σ) (id : Nat) (h : Handler σ) : Call → Handler σ → Prop where
  | flush (tenant : Option String) (actor : String) :
    CallStep engine id h (.flush tenant actor)
      ((h.drain (fun key _ => tenant.all fun t => key.tenant = t) actor).2.setCall id
        (.awaiting h.fresh))
  | report {batch : Nat} {report : DrainReport} (hb : h.batches.get? batch = some ⟨report, 0⟩) :
    CallStep engine id h (.awaiting batch)
      ({ h with batches := h.batches.erase batch }.setCall id (.returned report))
  /-- The worker is told to stop. -/
  | tell (hw : h.workerWaitable = true) :
    CallStep engine id h .shutdown
      ({ h with stopRequested := true, workerWaitable := false }.setCall id .stopping)
  /-- There is no worker to wait for. -/
  | pass (hw : h.workerWaitable = false) :
    CallStep engine id h .shutdown ({ h with stopRequested := true }.setCall id
      (.flush none engine.settings.recalc.systemActor))
  | stopped (hw : h.worker = .stopped) :
    CallStep engine id h .stopping
      (h.setCall id (.flush none engine.settings.recalc.systemActor))
  | done : CallStep engine id h (.consume []) (h.setCall id (.returned {}))
  | next (n : Notification) (rest : List Notification) :
    CallStep engine id h (.consume (n :: rest)) ((h.notify n).2.setCall id (.consuming h.fresh rest))
  | handled {task : Nat} {t : Task} {o : Option PassOutcome} (ht : h.tasks.get? task = some t)
    (hs : t.stage = .finished (.ok o)) (rest : List Notification) :
    CallStep engine id h (.consuming task rest)
      ({ h with tasks := h.tasks.erase task }.setCall id (.consume rest))
  /-- What could not be handled is counted, and the next notification is handled. -/
  | failed {task : Nat} {t : Task} {e : PassError} (ht : h.tasks.get? task = some t)
    (hs : t.stage = .finished (.error e)) (rest : List Notification) :
    CallStep engine id h (.consuming task rest)
      ({ h with
        tasks := h.tasks.erase task
        stats := { h.stats with failures := h.stats.failures + 1 } }.setCall id (.consume rest))

theorem stepCall_cases {c : Call} (hstep : h.stepCall engine id c = some h') :
    CallStep engine id h c h' := by
  cases c with
  | flush tenant actor =>
    cases hstep
    exact .flush tenant actor
  | awaiting batch =>
    obtain ⟨⟨report, g⟩, hr, rfl⟩ := Option.map_eq_some_iff.1 hstep
    obtain ⟨hb, rfl⟩ := finished hr
    exact .report hb
  | shutdown =>
    unfold stepCall at hstep
    dsimp only at hstep
    split at hstep
    · rename_i hw
      cases hstep
      exact .tell hw
    · rename_i hw
      cases hstep
      exact .pass (Bool.not_eq_true _ ▸ hw)
  | stopping =>
    unfold stepCall at hstep
    dsimp only at hstep
    split at hstep
    · rename_i hw
      cases hstep
      exact .stopped hw
    · cases hstep
  | consume rest =>
    cases rest with
    | nil =>
      cases hstep
      exact .done
    | cons n rest =>
      cases hstep
      exact .next n rest
  | consuming task rest =>
    unfold stepCall at hstep
    dsimp only at hstep
    split at hstep
    · rename_i hc
      obtain ⟨t, ht, hs, rfl⟩ := collected hc
      cases hstep
      exact .handled ht hs rest
    · rename_i hc
      obtain ⟨t, ht, hs, rfl⟩ := collected hc
      cases hstep
      exact .failed ht hs rest
    · cases hstep
  | returned report => cases hstep

/-! ### All actions -/

/-- What an action does. -/
inductive ActionStep (engine : Engine σ) (h : Handler σ) : Action → Handler σ → Prop where
  | notify (n : Notification) : ActionStep engine h (.notify n) (h.notify n).2
  | begin (c : Call) : ActionStep engine h (.begin c) (h.begin c).2
  | task {id : Nat} {t : Task} {h' : Handler σ} (ht : h.tasks.get? id = some t)
    (hstep : h.stepTask engine id t = some h') : ActionStep engine h (.task id) h'
  | call {id : Nat} {c : Call} {h' : Handler σ} (hc : h.calls.get? id = some c)
    (hstep : h.stepCall engine id c = some h') : ActionStep engine h (.call id) h'
  | worker {cue : WorkerCue} {h' : Handler σ} (hstep : h.stepWorker engine cue = some h') :
    ActionStep engine h (.worker cue) h'
  | collect {task : Nat} {t : Task} {result : TaskResult} (ht : h.tasks.get? task = some t)
    (hs : t.stage = .finished result) :
    ActionStep engine h (.collect task) { h with tasks := h.tasks.erase task }
  | report {call : Nat} {report : DrainReport} (hc : h.calls.get? call = some (.returned report)) :
    ActionStep engine h (.report call) { h with calls := h.calls.erase call }
  | clock {time : Nat} (hle : h.clock ≤ time) :
    ActionStep engine h (.clock time) { h with clock := time }

theorem step_cases {a : Action} (hstep : h.step engine a = some h') : ActionStep engine h a h' := by
  cases a with
  | notify n =>
    cases hstep
    exact .notify n
  | begin c =>
    cases hstep
    exact .begin c
  | task id =>
    obtain ⟨t, ht, hstep⟩ := Option.bind_eq_some_iff.1 hstep
    exact .task ht hstep
  | call id =>
    obtain ⟨c, hc, hstep⟩ := Option.bind_eq_some_iff.1 hstep
    exact .call hc hstep
  | worker cue => exact .worker hstep
  | collect task =>
    obtain ⟨⟨result, g⟩, hc, rfl⟩ := Option.map_eq_some_iff.1 hstep
    obtain ⟨t, ht, hs, rfl⟩ := collected hc
    exact .collect ht hs
  | report call =>
    obtain ⟨⟨report, g⟩, hr, rfl⟩ := Option.map_eq_some_iff.1 hstep
    unfold Handler.report at hr
    split at hr
    · rename_i hc
      cases hr
      exact .report hc
    · cases hr
  | clock time =>
    unfold step at hstep
    dsimp only at hstep
    split at hstep
    · rename_i hle
      cases hstep
      exact .clock hle
    · cases hstep

end Handler

end EntityFormulas
