/-
  EntityFormulas/Recalculation/Task.lean
  ======================================
  **The tasks of recalculation.**

  A task handles one notification or drains one entity.  Either way it works on
  its entity under the entity's lock, and its `Stage` says how far it has come:

      arriving → waiting → reading → writing → leaving → closing → landing → finished

  From `waiting` to `closing` the task has a handle on a lock, and from
  `reading` to `leaving` it holds that lock.  Other tasks may act between any
  two stages and between any two calls on the store.
-/
import EntityFormulas.Recalculation.Basic

namespace EntityFormulas

/-! ### Plans -/

/-- What a task that has read its entity is going to do. -/
inductive Plan where
  /-- Nothing, because the entity lacks the property. -/
  | ignore
  /-- Nothing, because the property lies on a cycle. -/
  | skip
  /-- Writes the mark, if the property is not stale already, and queues the property. -/
  | enqueue (mark : Option StateRecord)
  /-- Writes back what was recomputed. -/
  | pass (outcome : PassOutcome) (actor : String)

namespace Plan

/-- The records that the plan writes to the entity. -/
def records (entity : String) : Plan → List StateRecord
  | ignore | skip => []
  | enqueue mark => mark.toList
  | pass outcome actor => outcome.records entity actor

/-- The outcome of the pass, if the plan is one. -/
def outcome? : Plan → Option PassOutcome
  | pass outcome _ => some outcome
  | _ => none

end Plan

/-- Reads the entity that a notification is about and decides what to do. -/
def Notification.plan (settings : Settings) (now : String) (n : Notification) : Fetch Plan := do
  let e ← Fetch.entity n.key.tenant n.key.entity
  let actor := settings.recalc.systemActor
  match e.property? n.property with
  | none => return .ignore
  | some p =>
    if p.status? = some .circular then return .skip
    else match settings.recalc.mode with
      | .batched =>
        let mark := StateRecord.statusOnly n.key.entity n.property .stale p.current actor
        return .enqueue (if p.goesStale then some mark else none)
      | .eager => do
        let o ← ExceptT.lift ((e.markStale [n.property]).recompute settings now .stale)
        return .pass o actor

/-- Reads an entity whose drain is due and recomputes it with these properties marked. -/
def EntityKey.drainPlan (settings : Settings) (now : String) (key : EntityKey)
    (names : List String) (actor : String) : Fetch Plan := do
  return .pass (← Request.compute settings now key.tenant key.entity (.marked names)) actor

/-! ### Tasks -/

/-- What a task is for. -/
inductive Job where
  /-- Handles the notification of a property. -/
  | notification (property : String)
  /-- Recomputes an entity that a drain has taken off the queue. -/
  | drain (names : List String) (actor : String) (batch : Nat)

/-- How a task ended: with an error, or with the outcome of its pass if it made one. -/
abbrev TaskResult := Except PassError (Option PassOutcome)

/-- How far a task has come. -/
inductive Stage where
  | arriving
  /-- Waits for the lock. -/
  | waiting (lock : Nat)
  /-- Reads from the store; goes on when the clock has reached `resume`. -/
  | reading (lock resume : Nat) (program : Lookup (Except StoreError Plan))
  /-- Writes the records that are left. -/
  | writing (lock : Nat) (plan : Plan) (rest : List StateRecord)
  /-- Is about to release the lock. -/
  | leaving (lock : Nat) (result : TaskResult)
  /-- Is about to give back its handle on the lock. -/
  | closing (lock : Nat) (result : TaskResult)
  /-- Is about to report to its drain. -/
  | landing (result : TaskResult)
  | finished (result : TaskResult)

namespace Stage

/-- The lock that the task has a handle on. -/
def handle? : Stage → Option Nat
  | waiting lock | reading lock _ _ | writing lock _ _ | leaving lock _ | closing lock _ =>
    some lock
  | arriving | landing _ | finished _ => none

/-- Whether the task holds its lock. -/
def holds : Stage → Bool
  | reading .. | writing .. | leaving .. => true
  | _ => false

end Stage

/-- A task. -/
structure Task where
  key : EntityKey
  job : Job
  stage : Stage := .arriving

namespace Task

/-- Reads what the task is for and decides what to do. -/
def plan (settings : Settings) (now : String) (t : Task) : Fetch Plan :=
  match t.job with
  | .notification property => Notification.plan settings now ⟨t.key, property⟩
  | .drain names actor _ => t.key.drainPlan settings now names actor

/-- The result, once the task has finished. -/
def result? (t : Task) : Option TaskResult :=
  match t.stage with
  | .finished r => some r
  | _ => none

end Task

end EntityFormulas
