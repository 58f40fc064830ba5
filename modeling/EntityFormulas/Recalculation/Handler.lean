/-
  EntityFormulas/Recalculation/Handler.lean
  =========================================
  **The recalculation handler, step by step.**

  The handler reacts to notifications.  In eager mode each one leads to a pass
  over its entity.  In batched mode the property is marked stale and queued, and
  every notification puts off the entity's deadline; a worker drains the
  entities whose deadline has passed, and `flush` drains entities at once.

  Passes over one entity never overlap: every task works under the lock of its
  entity, which exists as long as some task has a handle on it.

  `Handler.step` gives the effect of every action in every state, or nothing
  where the action is not possible.  A run is any sequence of actions, so all
  ways in which tasks, calls, the worker and the clock may interleave are runs.
-/
import EntityFormulas.Collection.Table
import EntityFormulas.Recalculation.Task

namespace EntityFormulas

/-! ### States -/

/-- What a handler works with. -/
structure Engine (σ : Type) where
  store : EntityStore σ
  settings : Settings
  /-- The text that puts a time of the clock on record. -/
  stamp : Nat → String

/-- The queued properties of an entity. -/
structure QueueEntry where
  names : List String
  deadline : Nat
deriving DecidableEq, Repr

/-- The lock that passes over one entity share. -/
structure PassLock where
  /-- The number of tasks that have a handle on it. -/
  handles : Nat
  held : Bool
deriving DecidableEq, Repr

/-- A drain: its report so far, and how many of its tasks are still at work. -/
structure Batch where
  report : DrainReport := {}
  remaining : Nat
deriving DecidableEq, Repr

/-- The task that drains entities when they are due. -/
inductive Worker where
  /-- Eager handlers have none. -/
  | absent
  /-- About to look at the queue. -/
  | awake
  /-- Waits until the given time, or until something happens. -/
  | armed (deadline : Option Nat)
  /-- Waits for its drain. -/
  | draining (batch : Nat)
  | stopped
deriving DecidableEq, Repr

/-- A call that takes more than one step. -/
inductive Call where
  /-- Is about to drain the queue, of one tenant or of all. -/
  | flush (tenant : Option String) (actor : String)
  /-- Waits for its drain. -/
  | awaiting (batch : Nat)
  /-- Is about to stop the worker. -/
  | shutdown
  /-- Waits for the worker to stop. -/
  | stopping
  /-- Is about to handle notifications, one after another. -/
  | consume (rest : List Notification)
  /-- Waits for the handling of one of them. -/
  | consuming (task : Nat) (rest : List Notification)
  | returned (report : DrainReport)
deriving DecidableEq, Repr

/-- The state of a handler and of the store it works on. -/
structure Handler (σ : Type) where
  store : σ
  /-- The time in milliseconds. -/
  clock : Nat := 0
  queue : Table EntityKey QueueEntry := .empty
  /-- How many tasks of drains each entity has. -/
  inFlight : Table EntityKey Nat := .empty
  /-- The lock that passes over an entity share. -/
  passLocks : Table EntityKey Nat := .empty
  locks : Table Nat PassLock := .empty
  tasks : Table Nat Task := .empty
  batches : Table Nat Batch := .empty
  calls : Table Nat Call := .empty
  /-- The next number that names a lock, task, batch or call. -/
  fresh : Nat := 0
  worker : Worker := .absent
  /-- Whether a shutdown could still wait for the worker. -/
  workerWaitable : Bool := false
  /-- Whether something was queued since the worker last looked. -/
  woken : Bool := false
  /-- Whether the worker has been told to stop. -/
  stopRequested : Bool := false
  stats : HandlerStats := {}
  /-- The events published, the oldest first. -/
  events : List RecomputedEvent := []

namespace Handler

variable {σ : Type}

/-- A new handler. -/
def start (settings : Settings) (store : σ) : Handler σ :=
  match settings.recalc.mode with
  | .batched => { store, worker := .awake, workerWaitable := true }
  | .eager => { store }

/-- Where an entity is in the cycle of recalculation. -/
def stateOf (h : Handler σ) (key : EntityKey) : BatchState :=
  if h.inFlight.contains key then .flushing
  else if h.queue.contains key then .pendingBatch
  else .idle

/-! ### Locks -/

/-- Takes a handle on the lock of an entity, which is made if there is none. -/
def openLock (key : EntityKey) (h : Handler σ) : Nat × Handler σ :=
  match h.passLocks.get? key with
  | some lock =>
    (lock, { h with locks := h.locks.modify lock fun l => { l with handles := l.handles + 1 } })
  | none =>
    (h.fresh, { h with
      passLocks := h.passLocks.insert key h.fresh
      locks := h.locks.insert h.fresh ⟨1, false⟩
      fresh := h.fresh + 1 })

/-- Locks or unlocks. -/
def setHeld (lock : Nat) (held : Bool) (h : Handler σ) : Handler σ :=
  { h with locks := h.locks.modify lock fun l => { l with held } }

/-- Gives back a handle; the lock of the entity goes with the last handle on it. -/
def closeLock (key : EntityKey) (lock : Nat) (h : Handler σ) : Handler σ :=
  let locks := h.locks.modify lock fun l => { l with handles := l.handles - 1 }
  match h.passLocks.get? key with
  | some current =>
    match locks.get? current with
    | some ⟨0, _⟩ => { h with passLocks := h.passLocks.erase key, locks := locks.erase current }
    | _ => { h with locks }
  | none => { h with locks }

/-! ### The queue -/

/-- Queues a property and puts off the deadline of its entity. -/
def enqueue (delay : Nat) (n : Notification) (h : Handler σ) : Handler σ :=
  let names := ((h.queue.get? n.key).map QueueEntry.names).getD []
  { h with
    queue := h.queue.insert n.key ⟨insertAscending n.property names, h.clock + delay⟩
    woken := true }

/-- The earliest deadline in the queue. -/
def earliestDeadline (h : Handler σ) : Option Nat := (h.queue.values.map QueueEntry.deadline).min?

/-- Starts the task that drains one entity. -/
def launch (actor : String) (batch : Nat) (h : Handler σ) (e : EntityKey × QueueEntry) :
    Handler σ :=
  { h with
    inFlight := h.inFlight.insert e.1 (((h.inFlight.get? e.1).getD 0) + 1)
    tasks := h.tasks.insert h.fresh { key := e.1, job := .drain e.2.names actor batch }
    fresh := h.fresh + 1 }

/-- Takes entries off the queue and starts the tasks that drain them.  The batch they form comes
    first. -/
def drain (due : EntityKey → QueueEntry → Bool) (actor : String) (h : Handler σ) :
    Nat × Handler σ :=
  let taken := (h.queue.filter due).entries
  let rest := { h with
    queue := h.queue.filter fun key e => !due key e
    batches := h.batches.insert h.fresh { remaining := taken.length }
    fresh := h.fresh + 1 }
  (h.fresh, taken.foldl (launch actor h.fresh) rest)

/-- The report of a batch that is done; the batch is forgotten. -/
def finishBatch (batch : Nat) (h : Handler σ) : Option (DrainReport × Handler σ) :=
  match h.batches.get? batch with
  | some ⟨report, 0⟩ => some (report, { h with batches := h.batches.erase batch })
  | _ => none

/-! ### Passes -/

/-- Counts a pass and publishes its results. -/
def finishPass (key : EntityKey) (result : Except PassError PassOutcome) (h : Handler σ) :
    Handler σ :=
  let stats := { h.stats with passes := h.stats.passes + 1 }
  match result with
  | .ok o =>
    { h with stats, events := h.events ++ o.results.map (RecomputedEvent.ofResult key) }
  | .error _ => { h with stats := { stats with failures := stats.failures + 1 } }

/-- Takes the task of a drain out of flight. -/
def leaveFlight (key : EntityKey) (h : Handler σ) : Handler σ :=
  match h.inFlight.get? key with
  | some count =>
    if count ≤ 1 then { h with inFlight := h.inFlight.erase key }
    else { h with inFlight := h.inFlight.insert key (count - 1) }
  | none => h

/-- The result of a task that is to make a pass, as the result of that pass. -/
def passResult (r : TaskResult) : Except PassError PassOutcome := r.map fun o => o.getD ⟨.empty, []⟩

/-- What a task does under the lock once its records are written, or one was refused. -/
def conclude (engine : Engine σ) (t : Task) (plan : Plan) (written : Except PassError Unit)
    (h : Handler σ) : Handler σ :=
  match t.job with
  | .drain .. => h
  | .notification property =>
    match plan, written with
    | .ignore, _ => h
    | .skip, _ => { h with stats := { h.stats with skippedCircular := h.stats.skippedCircular + 1 } }
    | .enqueue _, .ok _ => h.enqueue engine.settings.recalc.batchDelay ⟨t.key, property⟩
    | .enqueue _, .error _ => h
    | .pass o _, written => h.finishPass t.key (written.map fun _ => o)

/-! ### Tasks -/

/-- Moves a task to a stage. -/
def setStage (id : Nat) (t : Task) (stage : Stage) (h : Handler σ) : Handler σ :=
  { h with tasks := h.tasks.insert id { t with stage } }

/-- Starts to handle a notification. -/
def notify (n : Notification) (h : Handler σ) : Nat × Handler σ :=
  (h.fresh, { h with
    stats := { h.stats with notifications := h.stats.notifications + 1 }
    tasks := h.tasks.insert h.fresh { key := n.key, job := .notification n.property }
    fresh := h.fresh + 1 })

/-- Makes the next call of a task that reads. -/
def stepReading (engine : Engine σ) (id : Nat) (t : Task) (lock resume : Nat) (h : Handler σ) :
    Lookup (Except StoreError Plan) → Handler σ
  | .done (.error e) => h.setStage id t (.leaving lock (.error (.load e)))
  | .done (.ok plan) => h.setStage id t (.writing lock plan (plan.records t.key.entity))
  | .entities tenant ids next =>
    let (answer, store) := engine.store.fetch tenant ids h.store
    let resume := match answer with
      | .ok _ => h.clock + engine.store.latency store
      | .error _ => resume
    { h with store }.setStage id t (.reading lock resume (next answer))
  | .relationships tenant entity next =>
    let (answer, store) := engine.store.relationships tenant entity h.store
    { h with store }.setStage id t (.reading lock resume (next answer))

/-- Makes the next step of a task that writes. -/
def stepWriting (engine : Engine σ) (id : Nat) (t : Task) (lock : Nat) (plan : Plan)
    (h : Handler σ) : List StateRecord → Handler σ
  | [] => (h.conclude engine t plan (.ok ())).setStage id t (.leaving lock (.ok plan.outcome?))
  | r :: rest =>
    match engine.store.write t.key.tenant r h.store with
    | (.ok _, store) => { h with store }.setStage id t (.writing lock plan rest)
    | (.error e, store) =>
      ({ h with store }.conclude engine t plan (.error e)).setStage id t (.leaving lock (.error e))

/-- The stage of a task that has given back its handle.  Drains count their passes only now. -/
def stepClosing (id : Nat) (t : Task) (lock : Nat) (result : TaskResult) (h : Handler σ) :
    Handler σ :=
  let h := h.closeLock t.key lock
  match t.job with
  | .notification _ => h.setStage id t (.finished result)
  | .drain .. => (h.finishPass t.key (passResult result)).setStage id t (.landing result)

/-- The end of the task of a drain. -/
def stepLanding (id : Nat) (t : Task) (result : TaskResult) (h : Handler σ) : Handler σ :=
  match t.job with
  | .notification _ => h
  | .drain _ _ batch =>
    let h := h.leaveFlight t.key
    { h with
      tasks := h.tasks.erase id
      batches := h.batches.modify batch fun b =>
        ⟨b.report.add (passResult result), b.remaining - 1⟩ }

/-- The next step of a task; nothing while the task has to wait. -/
def stepTask (engine : Engine σ) (id : Nat) (t : Task) (h : Handler σ) : Option (Handler σ) :=
  match t.stage with
  | .arriving =>
    let (lock, h) := h.openLock t.key
    some (h.setStage id t (.waiting lock))
  | .waiting lock =>
    match h.locks.get? lock with
    | some ⟨_, false⟩ =>
      let program := (t.plan engine.settings (engine.stamp h.clock)).run
      some ((h.setHeld lock true).setStage id t (.reading lock h.clock program))
    | _ => none
  | .reading lock resume program =>
    if resume ≤ h.clock then some (h.stepReading engine id t lock resume program) else none
  | .writing lock plan rest => some (h.stepWriting engine id t lock plan rest)
  | .leaving lock result => some ((h.setHeld lock false).setStage id t (.closing lock result))
  | .closing lock result => some (h.stepClosing id t lock result)
  | .landing result => some (h.stepLanding id t result)
  | .finished _ => none

/-- Collects the result of a notification that has been handled; the task is forgotten. -/
def collect (id : Nat) (h : Handler σ) : Option (TaskResult × Handler σ) :=
  match (h.tasks.get? id).bind Task.result? with
  | some result => some (result, { h with tasks := h.tasks.erase id })
  | none => none

/-! ### The worker -/

/-- What makes the worker go on. -/
inductive WorkerCue where
  /-- It is about to look, or its drain is done. -/
  | proceed
  /-- It was told to stop. -/
  | stop
  /-- Something was queued. -/
  | wake
  /-- Its deadline has passed. -/
  | timer
deriving DecidableEq, Repr

/-- The next step of the worker; nothing without the cue. -/
def stepWorker (engine : Engine σ) (cue : WorkerCue) (h : Handler σ) : Option (Handler σ) :=
  match h.worker, cue with
  | .awake, .proceed =>
    if h.stopRequested then some { h with worker := .stopped }
    else some { h with worker := .armed h.earliestDeadline }
  | .armed _, .stop => if h.stopRequested then some { h with worker := .awake } else none
  | .armed _, .wake => if h.woken then some { h with worker := .awake, woken := false } else none
  | .armed (some deadline), .timer =>
    if deadline ≤ h.clock then
      let (batch, h) :=
        h.drain (fun _ e => e.deadline ≤ h.clock) engine.settings.recalc.systemActor
      some { h with worker := .draining batch }
    else none
  | .draining batch, .proceed => (h.finishBatch batch).map fun (_, h) => { h with worker := .awake }
  | _, _ => none

/-! ### Calls -/

/-- Starts a call. -/
def begin (call : Call) (h : Handler σ) : Nat × Handler σ :=
  (h.fresh, { h with calls := h.calls.insert h.fresh call, fresh := h.fresh + 1 })

/-- Moves a call on. -/
def setCall (id : Nat) (call : Call) (h : Handler σ) : Handler σ :=
  { h with calls := h.calls.insert id call }

/-- The next step of a call; nothing while the call has to wait. -/
def stepCall (engine : Engine σ) (id : Nat) (call : Call) (h : Handler σ) : Option (Handler σ) :=
  match call with
  | .flush tenant actor =>
    let (batch, h) := h.drain (fun key _ => tenant.all fun t => key.tenant = t) actor
    some (h.setCall id (.awaiting batch))
  | .awaiting batch => (h.finishBatch batch).map fun (report, h) => h.setCall id (.returned report)
  | .shutdown =>
    if h.workerWaitable then
      some ({ h with stopRequested := true, workerWaitable := false }.setCall id .stopping)
    else
      some ({ h with stopRequested := true }.setCall id
        (.flush none engine.settings.recalc.systemActor))
  | .stopping =>
    if h.worker = .stopped then
      some (h.setCall id (.flush none engine.settings.recalc.systemActor))
    else none
  | .consume [] => some (h.setCall id (.returned {}))
  | .consume (n :: rest) =>
    let (task, h) := h.notify n
    some (h.setCall id (.consuming task rest))
  | .consuming task rest =>
    match h.collect task with
    | some (.ok _, h) => some (h.setCall id (.consume rest))
    | some (.error _, h) =>
      some ({ h with stats := { h.stats with failures := h.stats.failures + 1 } }.setCall id
        (.consume rest))
    | none => none
  | .returned _ => none

/-- Takes the report of a call that has returned; the call is forgotten. -/
def report (id : Nat) (h : Handler σ) : Option (DrainReport × Handler σ) :=
  match h.calls.get? id with
  | some (.returned report) => some (report, { h with calls := h.calls.erase id })
  | _ => none

/-! ### Runs -/

/-- What may happen next. -/
inductive Action where
  /-- Somebody notifies the handler. -/
  | notify (n : Notification)
  /-- Somebody makes a call. -/
  | begin (call : Call)
  | task (id : Nat)
  | call (id : Nat)
  | worker (cue : WorkerCue)
  /-- Somebody takes the result of a notification. -/
  | collect (task : Nat)
  /-- Somebody takes the report of a call. -/
  | report (call : Nat)
  /-- Time passes. -/
  | clock (time : Nat)

/-- The state after an action, if the action is possible. -/
def step (engine : Engine σ) (a : Action) (h : Handler σ) : Option (Handler σ) :=
  match a with
  | .notify n => some (h.notify n).2
  | .begin call => some (h.begin call).2
  | .task id => (h.tasks.get? id).bind fun t => h.stepTask engine id t
  | .call id => (h.calls.get? id).bind fun c => h.stepCall engine id c
  | .worker cue => h.stepWorker engine cue
  | .collect task => (h.collect task).map Prod.snd
  | .report call => (h.report call).map Prod.snd
  | .clock time => if h.clock ≤ time then some { h with clock := time } else none

/-- The states that actions lead to from a state. -/
inductive Reaches (engine : Engine σ) : Handler σ → Handler σ → Prop where
  | refl (h : Handler σ) : Reaches engine h h
  | step {h h' h'' : Handler σ} (a : Action) :
    Reaches engine h h' → h'.step engine a = some h'' → Reaches engine h h''

end Handler

end EntityFormulas
