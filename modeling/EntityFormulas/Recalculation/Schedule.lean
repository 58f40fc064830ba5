/-
  EntityFormulas/Recalculation/Schedule.lean
  ==========================================
  **Running a handler for one client on a virtual clock.**

  Of the many runs of a handler this module picks one.  The client goes first
  and as far as it can.  When it has to wait, everybody else goes on until all
  of them have to wait.  Only when the client still has to wait then does time
  pass, up to the next moment at which somebody waits no longer.

  Every change is an action of `Handler.step`, apart from the client's own
  access to the store.
-/
import EntityFormulas.Recalculation.Handler

namespace EntityFormulas

namespace Handler

variable {σ : Type}

/-! ### Who can go on -/

/-- The first of these actions that is possible, done. -/
def stepFirst (engine : Engine σ) (h : Handler σ) (actions : List Action) : Option (Handler σ) :=
  actions.findSome? fun a => h.step engine a

/-- What the client waits for. -/
inductive Awaited where
  /-- Its notification, which it handles itself. -/
  | notification (task : Nat)
  /-- Its call, which it carries out itself. -/
  | call (id : Nat)
  /-- A call that somebody else carries out. -/
  | background (id : Nat)
  | time (time : Nat)

namespace Awaited

/-- The actions that are up to the client. -/
def actions (h : Handler σ) : Awaited → List Action
  | .notification task => [.task task]
  | .call id =>
    match h.calls.get? id with
    | some (.consuming task _) => [.call id, .task task]
    | _ => [.call id]
  | .background _ | .time _ => []

/-- Whether the wait is over. -/
def isOver (h : Handler σ) : Awaited → Bool
  | .notification task => (h.collect task).isSome
  | .call id | .background id => (h.report id).isSome
  | .time t => t ≤ h.clock

/-- Whether the client carries out the call itself. -/
def isOwnCall (call : Nat) : Awaited → Bool
  | .call id => id = call
  | _ => false

/-- Whether the client carries out the task itself. -/
def isOwnTask (h : Handler σ) (task : Nat) : Awaited → Bool
  | .notification id => id = task
  | .call id =>
    match h.calls.get? id with
    | some (.consuming id _) => id = task
    | _ => false
  | .background _ | .time _ => false

/-- The actions that are up to everybody else. -/
def others (h : Handler σ) (w : Awaited) : List Action :=
  [WorkerCue.proceed, .stop, .wake, .timer].map Action.worker ++
    (h.calls.keys.filter fun id => !w.isOwnCall id).map Action.call ++
    (h.tasks.keys.filter fun id => !w.isOwnTask h id).map Action.task

end Awaited

/-! ### Time -/

/-- When a task that sleeps goes on. -/
def wakeTime? (t : Task) : Option Nat :=
  match t.stage with
  | .reading _ resume _ => some resume
  | _ => none

/-- The moments at which the worker or a task could go on. -/
def timers (h : Handler σ) : List Nat :=
  let worker := match h.worker with
    | .armed deadline => deadline.toList
    | _ => []
  worker ++ h.tasks.values.filterMap wakeTime?

/-- The next moment at which somebody waits no longer. -/
def nextMoment (h : Handler σ) (w : Awaited) : Option Nat :=
  let own := match w with
    | .time time => [time]
    | _ => []
  ((own ++ h.timers).filter fun t => h.clock < t).min?

/-! ### Waiting -/

/-- Repeats the first possible action until none is possible, at most so many times. -/
def exhaust (engine : Engine σ) (actions : Handler σ → List Action) : (limit : Nat) → Handler σ →
    Handler σ
  | 0, h => h
  | limit + 1, h =>
    match h.stepFirst engine (actions h) with
    | some h => exhaust engine actions limit h
    | none => h

/-- Goes on until the wait is over or can never end, at most for so many rounds of at most so many
    actions. -/
def waitWithin (engine : Engine σ) (w : Awaited) (limit : Nat) : (rounds : Nat) → Handler σ →
    Handler σ
  | 0, h => h
  | rounds + 1, h =>
    let h := h.exhaust engine (fun h => w.actions h) limit
    if w.isOver h then h
    else
      let h := h.exhaust engine (fun h => w.others h) limit
      if w.isOver h || (h.stepFirst engine (w.actions h)).isSome then
        waitWithin engine w limit rounds h
      else
        match h.nextMoment w with
        | some time => waitWithin engine w limit rounds { h with clock := time }
        | none => h

/-- The number of actions and rounds beyond which no wait goes. -/
def patience : Nat := 1000000000000

/-- Goes on until the wait is over. -/
def wait (engine : Engine σ) (w : Awaited) (h : Handler σ) : Handler σ :=
  h.waitWithin engine w patience patience

/-! ### The client -/

/-- Lets so many milliseconds pass. -/
def sleep (engine : Engine σ) (duration : Nat) (h : Handler σ) : Handler σ :=
  h.wait engine (.time (h.clock + duration))

/-- Handles a notification. -/
def handle (engine : Engine σ) (n : Notification) (h : Handler σ) :
    Option TaskResult × Handler σ :=
  let (task, h) := h.notify n
  let h := h.wait engine (.notification task)
  match h.collect task with
  | some (result, h) => (some result, h)
  | none => (none, h)

/-- Waits for a call and takes its report. -/
def await (engine : Engine σ) (w : Awaited) (id : Nat) (h : Handler σ) :
    Option DrainReport × Handler σ :=
  let h := h.wait engine w
  match h.report id with
  | some (report, h) => (some report, h)
  | none => (none, h)

/-- Makes a call and waits for its report. -/
def make (engine : Engine σ) (call : Call) (h : Handler σ) : Option DrainReport × Handler σ :=
  let (id, h) := h.begin call
  h.await engine (.call id) id

/-- Waits for a call that was left to somebody else. -/
def join (engine : Engine σ) (id : Nat) (h : Handler σ) : Option DrainReport × Handler σ :=
  h.await engine (.background id) id

/-- Reads from the store on behalf of the client, who waits for the entities to arrive. -/
def read {α : Type} (engine : Engine σ) : Lookup α → Handler σ → α × Handler σ
  | .done a, h => (a, h)
  | .entities tenant ids next, h =>
    let (answer, store) := engine.store.fetch tenant ids h.store
    let h := { h with store }
    let h := match answer with
      | .ok _ => h.sleep engine (engine.store.latency store)
      | .error _ => h
    read engine (next answer) h
  | .relationships tenant id next, h =>
    let (answer, store) := engine.store.relationships tenant id h.store
    read engine (next answer) { h with store }

/-- Recomputes a stored entity on behalf of the client, and outside of its lock. -/
def recompute (engine : Engine σ) (key : EntityKey) (actor : String) (request : Request)
    (h : Handler σ) : Except PassError PassOutcome × Handler σ :=
  let program := request.compute engine.settings (engine.stamp h.clock) key.tenant key.entity
  match h.read engine program.run with
  | (.error e, h) => (.error (.load e), h)
  | (.ok o, h) =>
    let (written, store) := engine.store.writeAll key.tenant (o.records key.entity actor) h.store
    (written.map fun _ => o, { h with store })

end Handler

end EntityFormulas
