/-
  EntityFormulas/Proofs/Recalculation/Steps.lean
  ==============================================
  **What the actions of a handler come to.**

  Of a handler's state its calls, batches, counts and events decide nothing
  about the entities it works on.  `Core` is what is left.  `Core.Step` lists
  what one task can do to it, which goes from one stage to the next and is
  forgotten when it has finished, and `Core.Issue` what happens without any
  task: above all, tasks are started that drain queues.  Every action that
  handles no new notification is a step of one task or a sequence of issues
  (`step_core`), so an invariant has to be checked for these only.
-/
import EntityFormulas.Proofs.Recalculation.Actions
import Mathlib.Logic.Function.Basic
import Mathlib.Logic.Relation

namespace EntityFormulas

open Relation (ReflTransGen)

namespace Table

variable {κ α : Type} [DecidableEq κ] (t : Table κ α) (key : κ)

theorem get?_insert_eq_update (a : α) :
    (t.insert key a).get? = Function.update t.get? key (some a) := by
  funext k
  rw [get?_insert, Function.update_apply]
  by_cases hk : key = k
  · rw [if_pos hk, if_pos hk.symm]
  · rw [if_neg hk, if_neg (Ne.symm hk)]

theorem get?_erase_eq_update : (t.erase key).get? = Function.update t.get? key none := by
  funext k
  rw [get?_erase, Function.update_apply]
  by_cases hk : key = k
  · rw [if_pos hk, if_pos hk.symm]
  · rw [if_neg hk, if_neg (Ne.symm hk)]

theorem get?_modify_eq_update (f : α → α) :
    (t.modify key f).get? = Function.update t.get? key ((t.get? key).map f) := by
  funext k
  rw [get?_modify, Function.update_apply]
  by_cases hk : key = k
  · rw [if_pos hk, if_pos hk.symm]
  · rw [if_neg hk, if_neg (Ne.symm hk)]

end Table

/-! ### The core of a handler -/

/-- The part of a handler's state that decides what becomes of entities. -/
structure Core (σ : Type) where
  store : σ
  /-- The queued properties of each entity. -/
  queued : EntityKey → List String
  /-- How many tasks of drains each entity has. -/
  inFlight : EntityKey → Nat
  lockOf : EntityKey → Option Nat
  locks : Nat → Option PassLock
  tasks : Table Nat Task
  fresh : Nat

variable {σ : Type}

/-- The core of a handler. -/
def Handler.core (h : Handler σ) : Core σ where
  store := h.store
  queued key := ((h.queue.get? key).map QueueEntry.names).getD []
  inFlight key := (h.inFlight.get? key).getD 0
  lockOf := h.passLocks.get?
  locks := h.locks.get?
  tasks := h.tasks
  fresh := h.fresh

/-- A new handler has nothing to do. -/
theorem Handler.core_start (settings : Settings) (s : σ) : (Handler.start settings s).core =
    ⟨s, fun _ => [], fun _ => 0, fun _ => none, fun _ => none, .empty, 0⟩ := by
  unfold Handler.start
  split <;> rfl

namespace Core

/-- Moves a task to a stage. -/
def setStage (id : Nat) (t : Task) (stage : Stage) (c : Core σ) : Core σ :=
  { c with tasks := c.tasks.insert id { t with stage } }

/-- Starts to handle a notification. -/
def notify (n : Notification) (c : Core σ) : Core σ :=
  { c with
    tasks := c.tasks.insert c.fresh { key := n.key, job := .notification n.property }
    fresh := c.fresh + 1 }

/-- Starts the task that drains the queue of an entity. -/
def launch (key : EntityKey) (actor : String) (batch : Nat) (c : Core σ) : Core σ :=
  { c with
    queued := Function.update c.queued key []
    inFlight := Function.update c.inFlight key (c.inFlight key + 1)
    tasks := c.tasks.insert c.fresh { key, job := .drain (c.queued key) actor batch }
    fresh := c.fresh + 1 }

/-- Locks or unlocks. -/
def setHeld (lock : Nat) (held : Bool) (c : Core σ) : Core σ :=
  { c with locks := Function.update c.locks lock ((c.locks lock).map fun l => { l with held }) }

/-- Takes a handle on a lock. -/
def joinLock (lock : Nat) (c : Core σ) : Core σ :=
  { c with
    locks := Function.update c.locks lock
      ((c.locks lock).map fun l => { l with handles := l.handles + 1 }) }

/-- Makes the lock of an entity and takes a handle on it. -/
def makeLock (key : EntityKey) (c : Core σ) : Core σ :=
  { c with
    lockOf := Function.update c.lockOf key (some c.fresh)
    locks := Function.update c.locks c.fresh (some ⟨1, false⟩)
    fresh := c.fresh + 1 }

/-- Queues a property of an entity. -/
def enqueue (key : EntityKey) (property : String) (c : Core σ) : Core σ :=
  { c with queued := Function.update c.queued key (insertAscending property (c.queued key)) }

/-- Ends the task of a drain. -/
def land (key : EntityKey) (id : Nat) (c : Core σ) : Core σ :=
  { c with
    inFlight := Function.update c.inFlight key (c.inFlight key - 1)
    tasks := c.tasks.erase id }

/-- Gives back a handle; the lock of the entity goes with the last handle on it. -/
def closeLock (key : EntityKey) (lock : Nat) (c : Core σ) : Core σ :=
  let locks := Function.update c.locks lock
    ((c.locks lock).map fun l => { l with handles := l.handles - 1 })
  match c.lockOf key with
  | some current =>
    match locks current with
    | some ⟨0, _⟩ =>
      { c with
        lockOf := Function.update c.lockOf key none
        locks := Function.update locks current none }
    | _ => { c with locks }
  | none => { c with locks }

/-- The stage of a task that has given back its handle. -/
def closed (t : Task) (result : TaskResult) : Stage :=
  match t.job with
  | .notification _ => .finished result
  | .drain .. => .landing result

/-! ### Steps -/

/-- What does not depend on any task. -/
inductive Issue (c : Core σ) : Core σ → Prop where
  /-- Something else than a task is given a number. -/
  | number (fresh : Nat) (h : c.fresh ≤ fresh) : Issue c { c with fresh }
  | launch (key : EntityKey) (actor : String) (batch : Nat) : Issue c (c.launch key actor batch)

/-- What one task can do to the core of a handler. -/
inductive Step (engine : Engine σ) (c : Core σ) : Core σ → Prop where
  /-- The result of a notification is collected. -/
  | forget {id : Nat} {t : Task} {result : TaskResult} (ht : c.tasks.get? id = some t)
    (hs : t.stage = .finished result) : Step engine c { c with tasks := c.tasks.erase id }
  /-- A task takes a handle on the lock that its entity has. -/
  | join {id : Nat} {t : Task} {lock : Nat} (ht : c.tasks.get? id = some t)
    (hs : t.stage = .arriving) (hl : c.lockOf t.key = some lock) :
    Step engine c ((c.joinLock lock).setStage id t (.waiting lock))
  /-- A task makes a lock for its entity. -/
  | make {id : Nat} {t : Task} (ht : c.tasks.get? id = some t) (hs : t.stage = .arriving)
    (hl : c.lockOf t.key = none) :
    Step engine c ((c.makeLock t.key).setStage id t (.waiting c.fresh))
  | acquire {id : Nat} {t : Task} {lock handles : Nat} (ht : c.tasks.get? id = some t)
    (hs : t.stage = .waiting lock) (hl : c.locks lock = some ⟨handles, false⟩) (resume : Nat)
    (now : String) :
    Step engine c ((c.setHeld lock true).setStage id t
      (.reading lock resume (t.plan engine.settings now).run))
  | fetch {id : Nat} {t : Task} {lock resume : Nat} {tenant : String} {ids : List String}
    {next : Except StoreError (List Entity) → Lookup (Except StoreError Plan)}
    (ht : c.tasks.get? id = some t)
    (hs : t.stage = .reading lock resume (.entities tenant ids next)) (resume' : Nat) :
    Step engine c ({ c with store := (engine.store.fetch tenant ids c.store).2 }.setStage id t
      (.reading lock resume' (next (engine.store.fetch tenant ids c.store).1)))
  | relate {id : Nat} {t : Task} {lock resume : Nat} {tenant entity : String}
    {next : Except StoreError Relationships → Lookup (Except StoreError Plan)}
    (ht : c.tasks.get? id = some t)
    (hs : t.stage = .reading lock resume (.relationships tenant entity next)) :
    Step engine c
      ({ c with store := (engine.store.relationships tenant entity c.store).2 }.setStage id t
        (.reading lock resume (next (engine.store.relationships tenant entity c.store).1)))
  | decide {id : Nat} {t : Task} {lock resume : Nat} {plan : Plan}
    (ht : c.tasks.get? id = some t) (hs : t.stage = .reading lock resume (.done (.ok plan))) :
    Step engine c (c.setStage id t (.writing lock plan (plan.records t.key.entity)))
  /-- A task could not read what it needs. -/
  | abandon {id : Nat} {t : Task} {lock resume : Nat} {e : StoreError}
    (ht : c.tasks.get? id = some t) (hs : t.stage = .reading lock resume (.done (.error e))) :
    Step engine c (c.setStage id t (.leaving lock (.error (.load e))))
  | write {id : Nat} {t : Task} {lock : Nat} {plan : Plan} {r : StateRecord}
    {rest : List StateRecord} {s : σ} (ht : c.tasks.get? id = some t)
    (hs : t.stage = .writing lock plan (r :: rest))
    (hw : engine.store.write t.key.tenant r c.store = (.ok (), s)) :
    Step engine c ({ c with store := s }.setStage id t (.writing lock plan rest))
  /-- The store refuses a record. -/
  | refuse {id : Nat} {t : Task} {lock : Nat} {plan : Plan} {r : StateRecord}
    {rest : List StateRecord} {e : PassError} {s : σ} (ht : c.tasks.get? id = some t)
    (hs : t.stage = .writing lock plan (r :: rest))
    (hw : engine.store.write t.key.tenant r c.store = (.error e, s)) :
    Step engine c ({ c with store := s }.setStage id t (.leaving lock (.error e)))
  /-- The property of a notification is queued. -/
  | enqueue {id : Nat} {t : Task} {lock : Nat} {mark : Option StateRecord} {property : String}
    (ht : c.tasks.get? id = some t) (hs : t.stage = .writing lock (.enqueue mark) [])
    (hj : t.job = .notification property) :
    Step engine c ((c.enqueue t.key property).setStage id t (.leaving lock (.ok none)))
  /-- Everything is written and nothing to be queued. -/
  | settle {id : Nat} {t : Task} {lock : Nat} {plan : Plan} (ht : c.tasks.get? id = some t)
    (hs : t.stage = .writing lock plan [])
    (hj : ∀ property mark, t.job = .notification property → plan ≠ .enqueue mark) :
    Step engine c (c.setStage id t (.leaving lock (.ok plan.outcome?)))
  | release {id : Nat} {t : Task} {lock : Nat} {result : TaskResult}
    (ht : c.tasks.get? id = some t) (hs : t.stage = .leaving lock result) :
    Step engine c ((c.setHeld lock false).setStage id t (.closing lock result))
  | close {id : Nat} {t : Task} {lock : Nat} {result : TaskResult}
    (ht : c.tasks.get? id = some t) (hs : t.stage = .closing lock result) :
    Step engine c ((c.closeLock t.key lock).setStage id t (closed t result))
  | land {id : Nat} {t : Task} {names : List String} {actor : String} {batch : Nat}
    {result : TaskResult} (ht : c.tasks.get? id = some t) (hs : t.stage = .landing result)
    (hj : t.job = .drain names actor batch) :
    Step engine c (c.land t.key id)

end Core

/-! ### Actions -/

namespace Handler

variable (h : Handler σ)

theorem core_openLock_some {key : EntityKey} {lock : Nat} (hl : h.passLocks.get? key = some lock) :
    h.openLock key = (lock, (h.openLock key).2) ∧
      (h.openLock key).2.core = h.core.joinLock lock := by
  unfold openLock
  rw [hl]
  refine ⟨rfl, ?_⟩
  unfold core Core.joinLock
  simp only [Table.get?_modify_eq_update]

theorem core_openLock_none {key : EntityKey} (hl : h.passLocks.get? key = none) :
    h.openLock key = (h.fresh, (h.openLock key).2) ∧
      (h.openLock key).2.core = h.core.makeLock key := by
  unfold openLock
  rw [hl]
  refine ⟨rfl, ?_⟩
  unfold core Core.makeLock
  simp only [Table.get?_insert_eq_update]

theorem core_setHeld (lock : Nat) (held : Bool) :
    (h.setHeld lock held).core = h.core.setHeld lock held := by
  unfold setHeld core Core.setHeld
  simp only [Table.get?_modify_eq_update]

theorem core_closeLock (key : EntityKey) (lock : Nat) :
    (h.closeLock key lock).core = h.core.closeLock key lock := by
  unfold closeLock Core.closeLock
  dsimp only [core]
  rw [← Table.get?_modify_eq_update]
  cases hl : h.passLocks.get? key with
  | none => rfl
  | some current =>
    dsimp only
    cases (h.locks.modify lock fun l => { l with handles := l.handles - 1 }).get? current with
    | none => rfl
    | some l =>
      obtain ⟨handles, held⟩ := l
      cases handles with
      | zero =>
        rw [← Table.get?_erase_eq_update, ← Table.get?_erase_eq_update]
        rfl
      | succ handles => rfl

theorem core_enqueue (delay : Nat) (n : Notification) :
    (h.enqueue delay n).core = h.core.enqueue n.key n.property := by
  unfold enqueue core Core.enqueue
  dsimp only
  congr 1
  funext key
  rw [Table.get?_insert, Function.update_apply]
  by_cases hk : n.key = key
  · rw [if_pos hk, if_pos hk.symm]
    rfl
  · rw [if_neg hk, if_neg (Ne.symm hk)]

theorem core_leaveFlight (key : EntityKey) : (h.leaveFlight key).core =
    { h.core with
      inFlight := Function.update h.core.inFlight key (h.core.inFlight key - 1) } := by
  have hcount : h.core.inFlight key = (h.inFlight.get? key).getD 0 := rfl
  unfold leaveFlight
  split
  · rename_i count hc
    rw [hc] at hcount
    split
    · rename_i hle
      unfold core
      dsimp only
      congr 1
      funext k
      rw [Table.get?_erase, Function.update_apply, hc]
      by_cases hk : key = k
      · rw [if_pos hk, if_pos hk.symm]
        show 0 = count - 1
        omega
      · rw [if_neg hk, if_neg (Ne.symm hk)]
    · unfold core
      dsimp only
      congr 1
      funext k
      rw [Table.get?_insert, Function.update_apply, hc]
      by_cases hk : key = k
      · rw [if_pos hk, if_pos hk.symm]
        rfl
      · rw [if_neg hk, if_neg (Ne.symm hk)]
  · rename_i hc
    rw [hc] at hcount
    have hsame : Function.update h.core.inFlight key (h.core.inFlight key - 1) = h.core.inFlight := by
      refine (Function.update_eq_self_iff ..).2 ?_
      rw [hcount]
      rfl
    rw [hsame]

/-- The start of one of the tasks of a drain, which takes all queues off at once. -/
theorem core_launch (actor : String) (batch : Nat) {key : EntityKey} {q : QueueEntry}
    {queued : EntityKey → List String} (hq : queued key = q.names) :
    { h.core with queued }.launch key actor batch =
      { (h.launch actor batch (key, q)).core with queued := Function.update queued key [] } := by
  unfold launch Core.launch
  dsimp only
  rw [hq]
  unfold core
  dsimp only
  congr 1
  funext k
  rw [Table.get?_insert, Function.update_apply]
  by_cases hk : key = k
  · rw [if_pos hk, if_pos hk.symm]
    rfl
  · rw [if_neg hk, if_neg (Ne.symm hk)]

theorem steps_foldl_launch (actor : String) (batch : Nat) (queued : EntityKey → List String)
    {es : List (EntityKey × QueueEntry)} (hn : (es.map Prod.fst).Nodup)
    (hq : ∀ e ∈ es, queued e.1 = e.2.names) :
    ReflTransGen Core.Issue { h.core with queued }
      { (es.foldl (launch actor batch) h).core with
        queued := fun key => if key ∈ es.map Prod.fst then [] else queued key } := by
  induction es generalizing h queued with
  | nil => exact .refl
  | cons e rest ih =>
    obtain ⟨key, q⟩ := e
    obtain ⟨hkey, hrest⟩ := List.nodup_cons.1 hn
    have hfirst : Core.Issue { h.core with queued }
        { (h.launch actor batch (key, q)).core with queued := Function.update queued key [] } := by
      rw [← h.core_launch actor batch (hq _ List.mem_cons_self)]
      exact .launch key actor batch
    refine .head hfirst ?_
    have hsteps := ih (h.launch actor batch (key, q)) (Function.update queued key []) hrest
      fun e he => by
        have hmem : e.1 ∈ rest.map Prod.fst := List.mem_map_of_mem he
        have hne : e.1 ≠ key := fun heq => hkey (heq ▸ hmem)
        rw [Function.update_of_ne hne]
        exact hq e (List.mem_cons_of_mem _ he)
    have hsame : (fun k => if k ∈ rest.map Prod.fst then []
        else Function.update queued key [] k) =
        fun k => if k ∈ ((key, q) :: rest).map Prod.fst then [] else queued k := by
      funext k
      have hiff : k ∈ ((key, q) :: rest).map Prod.fst ↔ k = key ∨ k ∈ rest.map Prod.fst :=
        List.mem_cons
      by_cases hk : k = key
      · rw [if_pos (hiff.2 (.inl hk)), hk, Function.update_self, ite_self]
      · rw [Function.update_of_ne hk]
        simp only [hiff, hk, false_or]
    rw [hsame] at hsteps
    exact hsteps

theorem foldl_launch_queue (actor : String) (batch : Nat) (es : List (EntityKey × QueueEntry)) :
    (es.foldl (launch actor batch) h).queue = h.queue := by
  induction es generalizing h with
  | nil => rfl
  | cons e rest ih => exact ih (h.launch actor batch e)

/-- A drain takes queues off one by one. -/
theorem steps_drain (due : EntityKey → QueueEntry → Bool) (actor : String) :
    ReflTransGen Core.Issue h.core (h.drain due actor).2.core := by
  unfold drain
  dsimp only
  refine .head (.number (h.fresh + 1) (Nat.le_succ _)) ?_
  have hmem {e : EntityKey × QueueEntry} :
      e ∈ (h.queue.filter due).entries ↔ h.queue.get? e.1 = some e.2 ∧ due e.1 e.2 = true := by
    rw [← Table.mem_entries_iff]
    exact List.mem_filter
  have hkeys {key : EntityKey} : key ∈ (h.queue.filter due).entries.map Prod.fst ↔
      ∃ q, h.queue.get? key = some q ∧ due key q = true := by
    constructor
    · intro hk
      obtain ⟨e, he, rfl⟩ := List.mem_map.1 hk
      exact ⟨e.2, hmem.1 he⟩
    · rintro ⟨q, hq⟩
      exact List.mem_map.2 ⟨(key, q), hmem.2 hq, rfl⟩
  have hqueued : (fun key => if key ∈ (h.queue.filter due).entries.map Prod.fst then []
      else h.core.queued key) =
      fun key => (((h.queue.filter fun key e => !due key e).get? key).map QueueEntry.names).getD [] := by
    funext key
    rw [Table.get?_filter]
    by_cases hk : key ∈ (h.queue.filter due).entries.map Prod.fst
    · rw [if_pos hk]
      obtain ⟨q, hq, hdue⟩ := hkeys.1 hk
      simp [hq, hdue, Option.filter]
    · rw [if_neg hk]
      show ((h.queue.get? key).map QueueEntry.names).getD [] = _
      cases hq : h.queue.get? key with
      | none => rfl
      | some q =>
        have hdue : due key q = false := by
          rw [← Bool.not_eq_true]
          exact fun hdue => hk (hkeys.2 ⟨q, hq, hdue⟩)
        simp [hdue, Option.filter]
  have hsteps := steps_foldl_launch { h with
      queue := h.queue.filter fun key e => !due key e
      batches := h.batches.insert h.fresh { remaining := (h.queue.filter due).entries.length }
      fresh := h.fresh + 1 }
    actor h.fresh h.core.queued (h.queue.filter due).nodup fun e he => by
      show ((h.queue.get? e.1).map QueueEntry.names).getD [] = e.2.names
      rw [(hmem.1 he).1]
      rfl
  rw [hqueued] at hsteps
  rw [show (fun key => (((h.queue.filter fun key e => !due key e).get? key).map
    QueueEntry.names).getD []) = ((h.queue.filter due).entries.foldl (launch actor h.fresh) { h with
      queue := h.queue.filter fun key e => !due key e
      batches := h.batches.insert h.fresh { remaining := (h.queue.filter due).entries.length }
      fresh := h.fresh + 1 }).core.queued by
    unfold core
    dsimp only
    rw [foldl_launch_queue]] at hsteps
  exact hsteps

/-! ### Tasks -/

variable (engine : Engine σ)

theorem core_finishPass (key : EntityKey) (result : Except PassError PassOutcome) :
    (h.finishPass key result).core = h.core := by
  cases result <;> rfl

/-- A task that has written all its records has its property queued, if it is to have one. -/
theorem core_conclude (t : Task) (plan : Plan) :
    (∃ property mark, t.job = .notification property ∧ plan = .enqueue mark ∧
      (h.conclude engine t plan (.ok ())).core = h.core.enqueue t.key property) ∨
    ((∀ property mark, t.job = .notification property → plan ≠ .enqueue mark) ∧
      (h.conclude engine t plan (.ok ())).core = h.core) := by
  unfold conclude
  cases hj : t.job with
  | drain names actor batch => exact .inr ⟨fun _ _ hj => (nomatch hj), rfl⟩
  | notification property =>
    cases plan with
    | ignore => exact .inr ⟨fun _ _ _ hp => (nomatch hp), rfl⟩
    | skip => exact .inr ⟨fun _ _ _ hp => (nomatch hp), rfl⟩
    | pass o actor => exact .inr ⟨fun _ _ _ hp => (nomatch hp), h.core_finishPass ..⟩
    | enqueue mark => exact .inl ⟨property, mark, rfl, rfl, h.core_enqueue ..⟩

theorem core_conclude_error (t : Task) (plan : Plan) (e : PassError) :
    (h.conclude engine t plan (.error e)).core = h.core := by
  obtain ⟨_, heq⟩ := h.conclude_error_frame engine t plan e
  rw [heq]
  rfl

variable {h} {id : Nat} {t : Task} (ht : h.tasks.get? id = some t)
include ht

theorem steps_stepReading {lock resume : Nat} {program : Lookup (Except StoreError Plan)}
    (hs : t.stage = .reading lock resume program) :
    Core.Step engine h.core (h.stepReading engine id t lock resume program).core := by
  have ht : h.core.tasks.get? id = some t := ht
  cases program with
  | done r =>
    cases r with
    | error e => exact .abandon ht hs
    | ok plan => exact .decide ht hs
  | entities tenant ids next =>
    exact .fetch ht hs _
  | relationships tenant entity next => exact .relate ht hs

theorem steps_stepWriting {lock : Nat} {plan : Plan} {rest : List StateRecord}
    (hs : t.stage = .writing lock plan rest) :
    Core.Step engine h.core (h.stepWriting engine id t lock plan rest).core := by
  have ht : h.core.tasks.get? id = some t := ht
  cases rest with
  | nil =>
    show Core.Step engine h.core ((h.conclude engine t plan (.ok ())).core.setStage id t _)
    rcases h.core_conclude engine t plan with ⟨property, mark, hj, rfl, hcore⟩ | ⟨hj, hcore⟩
    · rw [hcore]
      exact .enqueue ht hs hj
    · rw [hcore]
      exact .settle ht hs hj
  | cons r rest =>
    unfold stepWriting
    dsimp only
    split
    · rename_i store hw
      exact .write ht hs hw
    · rename_i e store hw
      show Core.Step engine h.core
        (({ h with store }.conclude engine t plan (.error e)).core.setStage id t _)
      rw [core_conclude_error]
      exact .refuse ht hs hw

theorem steps_stepClosing {lock : Nat} {result : TaskResult} (hs : t.stage = .closing lock result) :
    Core.Step engine h.core (h.stepClosing id t lock result).core := by
  have hcore : (h.stepClosing id t lock result).core =
      (h.core.closeLock t.key lock).setStage id t (Core.closed t result) := by
    rw [← core_closeLock]
    unfold stepClosing Core.closed
    cases t.job with
    | notification property => rfl
    | drain names actor batch =>
      show ((h.closeLock t.key lock).finishPass t.key _).core.setStage id t _ = _
      rw [core_finishPass]
  rw [hcore]
  exact .close ht hs

theorem steps_stepLanding {result : TaskResult} (hs : t.stage = .landing result) :
    (h.stepLanding id t result).core = h.core ∨
      Core.Step engine h.core (h.stepLanding id t result).core := by
  unfold stepLanding
  cases hj : t.job with
  | notification property => exact .inl rfl
  | drain names actor batch =>
    refine .inr ?_
    show Core.Step engine h.core { (h.leaveFlight t.key).core with
      tasks := (h.leaveFlight t.key).tasks.erase id }
    have htasks : (h.leaveFlight t.key).tasks = h.tasks :=
      congrArg Core.tasks (h.core_leaveFlight t.key)
    rw [htasks, core_leaveFlight]
    exact .land ht hs hj

theorem steps_stepTask {h' : Handler σ} (hstep : h.stepTask engine id t = some h') :
    h'.core = h.core ∨ Core.Step engine h.core h'.core := by
  have ht' : h.core.tasks.get? id = some t := ht
  cases stepTask_cases hstep with
  | arrive hs =>
    refine .inr ?_
    show Core.Step engine h.core ((h.openLock t.key).2.core.setStage id t _)
    cases hl : h.passLocks.get? t.key with
    | some lock =>
      obtain ⟨hopen, hcore⟩ := h.core_openLock_some hl
      rw [hcore, hopen]
      exact .join ht' hs hl
    | none =>
      obtain ⟨hopen, hcore⟩ := h.core_openLock_none hl
      rw [hcore, hopen]
      exact .make ht' hs hl
  | @acquire lock handles hs hlock =>
    refine .inr ?_
    show Core.Step engine h.core ((h.setHeld lock true).core.setStage id t _)
    rw [core_setHeld]
    exact .acquire ht' hs hlock _ _
  | read hs => exact .inr (steps_stepReading engine ht hs)
  | write hs => exact .inr (steps_stepWriting engine ht hs)
  | @release lock result hs =>
    refine .inr ?_
    show Core.Step engine h.core ((h.setHeld lock false).core.setStage id t _)
    rw [core_setHeld]
    exact .release ht' hs
  | close hs => exact .inr (steps_stepClosing engine ht hs)
  | land hs => exact steps_stepLanding engine ht hs

omit ht

/-! ### All actions -/

theorem steps_stepWorker {cue : WorkerCue} {h' : Handler σ}
    (hstep : h.stepWorker engine cue = some h') :
    ReflTransGen Core.Issue h.core h'.core := by
  cases stepWorker_cases hstep with
  | stop | arm | heed | wake | resume => exact .refl
  | drain => exact steps_drain h _ _

/-- The notifications that an action starts to handle. -/
def started (h : Handler σ) : Action → List Notification
  | .notify n => [n]
  | .call id =>
    match h.calls.get? id with
    | some (.consume (n :: _)) => [n]
    | _ => []
  | _ => []

/-- What an action comes to: it starts to handle a notification, or makes steps. -/
theorem step_core {a : Action} {h' : Handler σ} (hstep : h.step engine a = some h') :
    (∃ n, h.started a = [n] ∧ h'.core = h.core.notify n) ∨
      (h.started a = [] ∧
        (ReflTransGen Core.Issue h.core h'.core ∨ Core.Step engine h.core h'.core)) := by
  have number (fresh : Nat) (hle : h.fresh ≤ fresh) :
      ReflTransGen Core.Issue h.core { h.core with fresh } :=
    .single (.number fresh hle)
  cases step_cases hstep with
  | notify n => exact .inl ⟨n, rfl, rfl⟩
  | begin c => exact .inr ⟨rfl, .inl (number _ (Nat.le_succ _))⟩
  | task ht hstep =>
    refine .inr ⟨rfl, ?_⟩
    rcases steps_stepTask engine ht hstep with hcore | hstep
    · rw [hcore]
      exact .inl .refl
    · exact .inr hstep
  | call hc hstep =>
    unfold started
    dsimp only
    rw [hc]
    cases stepCall_cases hstep with
    | flush tenant actor => exact .inr ⟨rfl, .inl (steps_drain h _ actor)⟩
    | report | tell | pass | stopped | done => exact .inr ⟨rfl, .inl .refl⟩
    | next n rest => exact .inl ⟨n, rfl, rfl⟩
    | handled ht hs | failed ht hs => exact .inr ⟨rfl, .inr (.forget ht hs)⟩
  | worker hstep => exact .inr ⟨rfl, .inl (steps_stepWorker engine hstep)⟩
  | collect ht hs => exact .inr ⟨rfl, .inr (.forget ht hs)⟩
  | report | clock => exact .inr ⟨rfl, .inl .refl⟩

end Handler

end EntityFormulas
