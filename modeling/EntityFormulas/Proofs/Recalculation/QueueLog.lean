/-
  EntityFormulas/Proofs/Recalculation/QueueLog.lean
  =================================================
  **What happens to the queue of a handler, kept in a log.**

  A name is queued once a notification has been handled, drains take entries
  off the queue and start tasks for them, these tasks end in any order, and a
  drain reports when all of its tasks have ended.  `Logged` is a run of a
  handler with a log of these events, the newest first.

  Of the handler's state only the queue, what is in flight, batches, tasks and
  the clock matter to the log; together with it they are a `Ledger`.
  `Ledger.Step` lists what can happen to one, where a drain takes one entry at
  a time, and every action of a handler is a sequence of such steps
  (`steps_ledger`).  So an invariant that ties the log to the state has to be
  checked for these only.
-/
import EntityFormulas.Proofs.Recalculation.Exclusion

namespace EntityFormulas

open Relation (ReflTransGen)

/-! ### Events -/

/-- Who drains the queue. -/
inductive Taker where
  | timer
  /-- A call, for one tenant or for all; a shutdown makes one for all. -/
  | flush (tenant : Option String) (actor : String)
deriving DecidableEq

namespace Taker

def actor (settings : Settings) : Taker → String
  | timer => settings.recalc.systemActor
  | flush _ actor => actor

/-- The entries that are taken at a time. -/
def due (clock : Nat) : Taker → EntityKey → QueueEntry → Bool
  | timer => fun _ e => e.deadline ≤ clock
  | flush tenant _ => fun key _ => tenant.all fun t => key.tenant = t

end Taker

inductive QueueEvent where
  | queued (time : Nat) (key : EntityKey) (property : String)
  /-- The entry of an entity was taken, and this task was started to drain it. -/
  | taken (time : Nat) (key : EntityKey) (names : List String) (task batch : Nat) (taker : Taker)
  /-- The task of a drain has ended. -/
  | landed (key : EntityKey) (task batch : Nat) (succeeded : Bool)
  | reported (batch : Nat) (report : DrainReport)
deriving DecidableEq

/-- Entries are taken one after another, for tasks with successive numbers. -/
def QueueEvent.takes (time batch : Nat) (taker : Taker) : Nat → List (EntityKey × QueueEntry) →
    List QueueEvent → List QueueEvent
  | _, [], log => log
  | task, e :: rest, log =>
    takes time batch taker (task + 1) rest (.taken time e.1 e.2.names task batch taker :: log)

namespace Handler

variable {σ : Type}

/-- The log after the next step of a task. -/
def logTask (id : Nat) (t : Task) (h : Handler σ) (log : List QueueEvent) : List QueueEvent :=
  match t.stage, t.job with
  | .writing _ (.enqueue _) [], .notification property => .queued h.clock t.key property :: log
  | .landing result, .drain _ _ batch =>
    .landed t.key id batch (passResult result).toBool :: log
  | _, _ => log

def logDrain (taker : Taker) (h : Handler σ) (log : List QueueEvent) : List QueueEvent :=
  QueueEvent.takes h.clock h.fresh taker (h.fresh + 1) (h.queue.filter (taker.due h.clock)).entries
    log

def logReport (batch : Nat) (h : Handler σ) (log : List QueueEvent) : List QueueEvent :=
  match h.finishBatch batch with
  | some (report, _) => .reported batch report :: log
  | none => log

/-- The log after an action that is possible. -/
def logAction (h : Handler σ) (log : List QueueEvent) : Action → List QueueEvent
  | .task id =>
    match h.tasks.get? id with
    | some t => h.logTask id t log
    | none => log
  | .call id =>
    match h.calls.get? id with
    | some (.flush tenant actor) => h.logDrain (.flush tenant actor) log
    | some (.awaiting batch) => h.logReport batch log
    | _ => log
  | .worker .timer => h.logDrain .timer log
  | .worker .proceed =>
    match h.worker with
    | .draining batch => h.logReport batch log
    | _ => log
  | _ => log

/-- The states that a new handler comes to, each with the log so far. -/
inductive Logged (engine : Engine σ) (s : σ) : Handler σ → List QueueEvent → Prop where
  | start : Logged engine s (start engine.settings s) []
  | act {h h' : Handler σ} {log : List QueueEvent} (a : Action) (hr : Logged engine s h log)
    (hstep : h.step engine a = some h') : Logged engine s h' (h.logAction log a)

theorem Logged.reaches {engine : Engine σ} {s : σ} {h : Handler σ} {log : List QueueEvent}
    (hr : Logged engine s h log) : Reaches engine (Handler.start engine.settings s) h := by
  induction hr with
  | start => exact .refl _
  | act a _ hstep ih => exact .step a ih hstep

/-- Carries out one action after another, if they are possible, and keeps the log. -/
def actsLogged (engine : Engine σ) : List Action → Handler σ × List QueueEvent →
    Option (Handler σ × List QueueEvent)
  | [], x => some x
  | a :: rest, (h, log) =>
    (h.step engine a).bind fun h' => actsLogged engine rest (h', h.logAction log a)

theorem Logged.acts {engine : Engine σ} {s : σ} {h h' : Handler σ} {log log' : List QueueEvent}
    {as : List Action} (hr : Logged engine s h log)
    (ha : actsLogged engine as (h, log) = some (h', log')) : Logged engine s h' log' := by
  induction as generalizing h log with
  | nil =>
    cases ha
    exact hr
  | cons a rest ih =>
    obtain ⟨h₁, hstep, hrest⟩ := Option.bind_eq_some_iff.1 ha
    exact ih (.act a hr hstep) hrest

end Handler

/-! ### Ledgers -/

/-- The part of a handler's state that the log is about, and the log. -/
structure Ledger where
  clock : Nat
  queue : EntityKey → Option QueueEntry
  inFlight : EntityKey → Option Nat
  batches : Nat → Option Batch
  tasks : Table Nat Task
  fresh : Nat
  log : List QueueEvent

def Handler.ledger {σ : Type} (h : Handler σ) (log : List QueueEvent) : Ledger where
  clock := h.clock
  queue := h.queue.get?
  inFlight := h.inFlight.get?
  batches := h.batches.get?
  tasks := h.tasks
  fresh := h.fresh
  log := log

namespace Ledger

def enqueue (delay : Nat) (n : Notification) (c : Ledger) : Ledger :=
  { c with
    queue := Function.update c.queue n.key (some
      ⟨insertAscending n.property (((c.queue n.key).map QueueEntry.names).getD []),
        c.clock + delay⟩)
    log := .queued c.clock n.key n.property :: c.log }

def openBatch (c : Ledger) : Ledger :=
  { c with
    batches := Function.update c.batches c.fresh (some { remaining := 0 })
    fresh := c.fresh + 1 }

/-- Takes an entry for a batch and starts the task that drains it. -/
def take (settings : Settings) (taker : Taker) (batch : Nat) (c : Ledger)
    (e : EntityKey × QueueEntry) : Ledger where
  clock := c.clock
  queue := Function.update c.queue e.1 none
  inFlight := Function.update c.inFlight e.1 (some (((c.inFlight e.1).getD 0) + 1))
  batches := Function.update c.batches batch
    ((c.batches batch).map fun b => { b with remaining := b.remaining + 1 })
  tasks := c.tasks.insert c.fresh
    { key := e.1, job := .drain e.2.names (taker.actor settings) batch }
  fresh := c.fresh + 1
  log := .taken c.clock e.1 e.2.names c.fresh batch taker :: c.log

def land (id batch : Nat) (key : EntityKey) (result : TaskResult) (c : Ledger) : Ledger :=
  { c with
    inFlight := Function.update c.inFlight key
      ((c.inFlight key).bind fun n => if n ≤ 1 then none else some (n - 1))
    batches := Function.update c.batches batch ((c.batches batch).map fun b =>
      ⟨b.report.add (Handler.passResult result), b.remaining - 1⟩)
    tasks := c.tasks.erase id
    log := .landed key id batch (Handler.passResult result).toBool :: c.log }

/-- What can happen at once. -/
inductive Step (settings : Settings) (c : Ledger) : Ledger → Prop where
  | time (clock : Nat) (hle : c.clock ≤ clock) : Step settings c { c with clock }
  | number (fresh : Nat) (hle : c.fresh ≤ fresh) : Step settings c { c with fresh }
  | notify (n : Notification) : Step settings c { c with
      tasks := c.tasks.insert c.fresh { key := n.key, job := .notification n.property }
      fresh := c.fresh + 1 }
  | stage {id : Nat} {t : Task} (ht : c.tasks.get? id = some t) (stage : Stage) :
    Step settings c { c with tasks := c.tasks.insert id { t with stage } }
  | forget {id : Nat} {t : Task} {property : String} (ht : c.tasks.get? id = some t)
    (hj : t.job = .notification property) : Step settings c { c with tasks := c.tasks.erase id }
  | enqueue (n : Notification) : Step settings c (c.enqueue settings.recalc.batchDelay n)
  | openBatch : Step settings c c.openBatch
  | take {key : EntityKey} {e : QueueEntry} {batch : Nat} {b : Batch} (taker : Taker)
    (hq : c.queue key = some e) (hdue : taker.due c.clock key e = true)
    (hb : c.batches batch = some b) : Step settings c (c.take settings taker batch (key, e))
  | land {id : Nat} {t : Task} {names : List String} {actor : String} {batch : Nat}
    (result : TaskResult) (ht : c.tasks.get? id = some t) (hj : t.job = .drain names actor batch) :
    Step settings c (c.land id batch t.key result)
  | report {batch : Nat} {report : DrainReport} (hb : c.batches batch = some ⟨report, 0⟩) :
    Step settings c { c with
      batches := Function.update c.batches batch none
      log := .reported batch report :: c.log }

end Ledger

/-! ### Drains -/

/-- What is left without the entries that meet a condition. -/
theorem Table.get?_filter_not {κ α : Type} [DecidableEq κ] (t : Table κ α) (p : κ → α → Bool)
    (key : κ) : (t.filter fun k a => !p k a).get? key =
      if key ∈ (t.filter p).entries.map Prod.fst then none else t.get? key := by
  have hkeys : key ∈ (t.filter p).entries.map Prod.fst ↔
      ∃ a, t.get? key = some a ∧ p key a = true := by
    simp [filter, mem_entries_iff]
  rw [get?_filter]
  cases ha : t.get? key with
  | none => simp
  | some a => cases hp : p key a <;> simp [hkeys, ha, hp, Option.filter]

namespace Ledger

variable {settings : Settings} {c : Ledger}

theorem steps_takes (taker : Taker) (batch : Nat) {es : List (EntityKey × QueueEntry)}
    (hn : (es.map Prod.fst).Nodup)
    (hes : ∀ e ∈ es, c.queue e.1 = some e.2 ∧ taker.due c.clock e.1 e.2 = true)
    (hb : (c.batches batch).isSome = true) :
    ReflTransGen (Step settings) c (es.foldl (take settings taker batch) c) := by
  induction es generalizing c with
  | nil => exact .refl
  | cons e rest ih =>
    obtain ⟨hkey, hrest⟩ := List.nodup_cons.1 hn
    obtain ⟨b, hb⟩ := Option.isSome_iff_exists.1 hb
    obtain ⟨hq, hdue⟩ := hes e List.mem_cons_self
    -- Keys are different, so the entries that come later are still in the queue.
    refine .head (.take taker hq hdue hb) (ih hrest (fun x hx => ?_) ?_)
    · have hne : x.1 ≠ e.1 := fun heq => hkey (heq ▸ List.mem_map_of_mem hx)
      obtain ⟨hxq, hxdue⟩ := hes x (List.mem_cons_of_mem _ hx)
      exact ⟨(Function.update_of_ne hne ..).trans hxq, hxdue⟩
    · simp [take, hb]

end Ledger

namespace Handler

variable {σ : Type} {engine : Engine σ} {h h' : Handler σ} {log : List QueueEvent}

/-- The tasks of a drain are started in a row, while the entries that they drain are taken one by
    one. -/
theorem foldl_take (settings : Settings) (taker : Taker) (batch : Nat)
    (es : List (EntityKey × QueueEntry)) {c : Ledger} (hclock : c.clock = h.clock)
    (hflight : c.inFlight = h.inFlight.get?) (htasks : c.tasks = h.tasks)
    (hfresh : c.fresh = h.fresh) :
    let g := es.foldl (launch (taker.actor settings) batch) h
    es.foldl (Ledger.take settings taker batch) c =
      { clock := g.clock
        queue := fun key => if key ∈ es.map Prod.fst then none else c.queue key
        inFlight := g.inFlight.get?
        batches := Function.update c.batches batch ((c.batches batch).map fun b =>
          { b with remaining := b.remaining + es.length })
        tasks := g.tasks
        fresh := g.fresh
        log := QueueEvent.takes h.clock batch taker h.fresh es c.log } := by
  induction es generalizing c h with
  | nil =>
    obtain ⟨clock, queue, inFlight, batches, tasks, fresh, log⟩ := c
    dsimp only at hclock hflight htasks hfresh
    subst hclock hflight htasks hfresh
    simp [QueueEvent.takes]
  | cons e rest ih =>
    have hfirst := ih (h := h.launch (taker.actor settings) batch e)
      (c := c.take settings taker batch e) hclock (by
        rw [launch, Ledger.take, hflight, Table.get?_insert_eq_update]) (by
        rw [launch, Ledger.take, htasks, hfresh]) (congrArg (· + 1) hfresh)
    refine hfirst.trans ?_
    unfold Ledger.take
    dsimp only
    congr 1
    · funext key
      rw [Function.update_apply]
      by_cases hkey : key = e.1
      · simp [hkey]
      · simp only [List.map_cons, List.mem_cons, hkey, false_or, if_false]
    · rw [Function.update_self, Function.update_idem, Option.map_map]
      congr 2
      funext b
      simp only [Function.comp_apply, List.length_cons]
      congr 1
      omega
    · rw [hclock, hfresh]
      rfl

theorem foldl_launch_kept (actor : String) (batch : Nat) (es : List (EntityKey × QueueEntry))
    (h : Handler σ) : (es.foldl (launch actor batch) h).clock = h.clock ∧
      (es.foldl (launch actor batch) h).batches = h.batches := by
  induction es generalizing h with
  | nil => exact ⟨rfl, rfl⟩
  | cons e rest ih => exact ih (h.launch actor batch e)

/-- A drain begins: its entries are off the queue, and its batch is there. -/
def opened (due : EntityKey → QueueEntry → Bool) (h : Handler σ) : Handler σ :=
  { h with
    queue := h.queue.filter fun key e => !due key e
    batches := h.batches.insert h.fresh { remaining := (h.queue.filter due).entries.length }
    fresh := h.fresh + 1 }

theorem drain_eq (due : EntityKey → QueueEntry → Bool) (actor : String) (h : Handler σ) :
    (h.drain due actor).2 =
      (h.queue.filter due).entries.foldl (launch actor h.fresh) (h.opened due) :=
  rfl

/-- A drain takes the entries that are due one by one. -/
theorem steps_drain_ledger (settings : Settings) (taker : Taker) (h : Handler σ)
    (log : List QueueEvent) : ReflTransGen (Ledger.Step settings) (h.ledger log)
      ((h.drain (taker.due h.clock) (taker.actor settings)).2.ledger (h.logDrain taker log)) := by
  have hmem {e : EntityKey × QueueEntry} : e ∈ (h.queue.filter (taker.due h.clock)).entries ↔
      h.queue.get? e.1 = some e.2 ∧ taker.due h.clock e.1 e.2 = true := by
    rw [← Table.mem_entries_iff]
    exact List.mem_filter
  have htakes : ReflTransGen (Ledger.Step settings) (h.ledger log).openBatch _ :=
    Ledger.steps_takes taker h.fresh (h.queue.filter (taker.due h.clock)).nodup
      (fun e he => hmem.1 he) (by simp [Ledger.openBatch, ledger])
  have hfold := foldl_take (h := h.opened (taker.due h.clock)) settings taker h.fresh
    (h.queue.filter (taker.due h.clock)).entries (c := (h.ledger log).openBatch) rfl rfl rfl rfl
  rw [hfold] at htakes
  refine .head .openBatch (htakes.trans (Eq.subst ?_ .refl))
  obtain ⟨hclock, hbatches⟩ := foldl_launch_kept (taker.actor settings) h.fresh
    (h.queue.filter (taker.due h.clock)).entries (h.opened (taker.due h.clock))
  unfold ledger
  rw [drain_eq, hbatches, foldl_launch_queue]
  congr 1
  · funext key
    exact (h.queue.get?_filter_not (taker.due h.clock) key).symm
  · rw [opened, Table.get?_insert_eq_update]
    simp [Ledger.openBatch]

/-! ### Actions -/

variable {id : Nat} {t : Task}

theorem ledger_finishPass (key : EntityKey) (result : Except PassError PassOutcome) :
    (h.finishPass key result).ledger log = h.ledger log := by
  cases result <;> rfl

theorem ledger_closeLock (key : EntityKey) (lock : Nat) :
    (h.closeLock key lock).ledger log = h.ledger log := by
  obtain ⟨_, _, heq⟩ := h.closeLock_frame key lock
  rw [heq]
  rfl

theorem ledger_leaveFlight (key : EntityKey) : (h.leaveFlight key).ledger log =
    { h.ledger log with
      inFlight := Function.update h.inFlight.get? key
        ((h.inFlight.get? key).bind fun n => if n ≤ 1 then none else some (n - 1)) } := by
  unfold leaveFlight
  cases hc : h.inFlight.get? key with
  | none =>
    dsimp only [Option.bind_none]
    rw [← hc, Function.update_eq_self]
    rfl
  | some n =>
    dsimp only [Option.bind_some]
    split
    · rw [← Table.get?_erase_eq_update]
      rfl
    · rw [← Table.get?_insert_eq_update]
      rfl

theorem ledger_enqueue (delay : Nat) (n : Notification) :
    (h.enqueue delay n).ledger (.queued h.clock n.key n.property :: log) =
      (h.ledger log).enqueue delay n := by
  unfold enqueue ledger Ledger.enqueue
  dsimp only
  rw [Table.get?_insert_eq_update]

/-- A task that stays in the ledger goes to another stage. -/
theorem steps_stage {g : Handler σ} {log' : List QueueEvent} (stage : Stage)
    (hsteps : ReflTransGen (Ledger.Step engine.settings) (h.ledger log) (g.ledger log'))
    (ht : g.tasks.get? id = some t) :
    ReflTransGen (Ledger.Step engine.settings) (h.ledger log)
      ((g.setStage id t stage).ledger log') :=
  hsteps.tail (Ledger.Step.stage (c := g.ledger log') ht stage)

/-- Only a task that queues a property or ends a drain is logged. -/
theorem logTask_eq (hqueue : ∀ lock mark, t.stage ≠ .writing lock (.enqueue mark) [])
    (hland : ∀ r, t.stage ≠ .landing r) : h.logTask id t log = log := by
  unfold logTask
  split
  · rename_i hs _
    exact absurd hs (hqueue _ _)
  · rename_i hs _
    exact absurd hs (hland _)
  · rfl

/-- A task that does not queue anything changes nothing in the ledger when its writing ends. -/
theorem ledger_conclude {plan : Plan} {w : Except PassError Unit}
    (hw : ∀ property mark, t.job = .notification property → plan = .enqueue mark → w ≠ .ok ()) :
    (h.conclude engine t plan w).ledger log = h.ledger log := by
  unfold conclude
  cases hj : t.job with
  | drain names actor batch => rfl
  | notification property =>
    cases plan with
    | enqueue mark =>
      cases w with
      | ok _ => exact absurd rfl (hw property mark hj rfl)
      | error e => rfl
    | pass o actor => exact ledger_finishPass ..
    | ignore | skip => rfl

theorem steps_stepWriting_ledger (ht : h.tasks.get? id = some t) {lock : Nat} {plan : Plan}
    {rest : List StateRecord} (hs : t.stage = .writing lock plan rest) :
    ReflTransGen (Ledger.Step engine.settings) (h.ledger log)
      ((h.stepWriting engine id t lock plan rest).ledger (h.logTask id t log)) := by
  have hconclude {g : Handler σ} {w : Except PassError Unit} (stage : Stage)
      (hg : g.ledger log = h.ledger log) (hw : ∀ property mark, t.job = .notification property →
        plan = .enqueue mark → w ≠ .ok ()) : ReflTransGen (Ledger.Step engine.settings)
          (h.ledger log) (((g.conclude engine t plan w).setStage id t stage).ledger log) := by
    have hsame : (g.conclude engine t plan w).ledger log = h.ledger log :=
      (ledger_conclude hw).trans hg
    refine steps_stage stage (hsame ▸ .refl) ?_
    rw [show (g.conclude engine t plan w).tasks = h.tasks from congrArg Ledger.tasks hsame]
    exact ht
  cases rest with
  | nil =>
    cases hj : t.job with
    | drain names actor batch =>
      have hlog : h.logTask id t log = log := by simp [logTask, hs, hj]
      rw [hlog]
      exact hconclude _ rfl (by simp [hj])
    | notification property =>
      cases plan with
      | enqueue mark =>
        have hlog : h.logTask id t log = .queued h.clock t.key property :: log := by
          simp [logTask, hs, hj]
        have hqueued : h.conclude engine t (.enqueue mark) (.ok ()) =
            h.enqueue engine.settings.recalc.batchDelay ⟨t.key, property⟩ := by
          unfold conclude
          rw [hj]
        rw [hlog, stepWriting, hqueued]
        refine steps_stage _ (.single ?_) ht
        rw [ledger_enqueue (n := ⟨t.key, property⟩)]
        exact .enqueue _
      | pass | ignore | skip =>
        have hlog : h.logTask id t log = log := by simp [logTask, hs]
        rw [hlog]
        exact hconclude _ rfl (by simp)
  | cons r rest =>
    have hlog : h.logTask id t log = log := by simp [logTask, hs]
    rw [hlog]
    unfold stepWriting
    dsimp only
    split
    · rename_i store _
      exact steps_stage (g := { h with store }) _ .refl ht
    · rename_i e store _
      exact hconclude (g := { h with store }) _ rfl (by simp)

theorem steps_stepReading_ledger (ht : h.tasks.get? id = some t) {lock resume : Nat}
    (program : Lookup (Except StoreError Plan)) :
    ReflTransGen (Ledger.Step engine.settings) (h.ledger log)
      ((h.stepReading engine id t lock resume program).ledger log) := by
  cases program with
  | done r => cases r <;> exact steps_stage _ .refl ht
  | entities tenant ids next => exact steps_stage (g := { h with store := _ }) _ .refl ht
  | relationships tenant entity next => exact steps_stage (g := { h with store := _ }) _ .refl ht

theorem steps_stepClosing_ledger (ht : h.tasks.get? id = some t) (lock : Nat)
    (result : TaskResult) :
    ReflTransGen (Ledger.Step engine.settings) (h.ledger log)
      ((h.stepClosing id t lock result).ledger log) := by
  have hclose : (h.closeLock t.key lock).ledger log = h.ledger log := ledger_closeLock ..
  unfold stepClosing
  cases t.job with
  | notification property =>
    refine steps_stage _ (hclose ▸ .refl) ?_
    rw [show (h.closeLock t.key lock).tasks = h.tasks from congrArg Ledger.tasks hclose]
    exact ht
  | drain names actor batch =>
    have hfinish : ((h.closeLock t.key lock).finishPass t.key (passResult result)).ledger log =
        h.ledger log := (ledger_finishPass ..).trans hclose
    refine steps_stage _ (hfinish ▸ .refl) ?_
    rw [show Handler.tasks _ = h.tasks from congrArg Ledger.tasks hfinish]
    exact ht

theorem steps_stepLanding_ledger (ht : h.tasks.get? id = some t) {result : TaskResult}
    (hs : t.stage = .landing result) :
    ReflTransGen (Ledger.Step engine.settings) (h.ledger log)
      ((h.stepLanding id t result).ledger (h.logTask id t log)) := by
  cases hj : t.job with
  | notification property =>
    have hlog : h.logTask id t log = log := by simp [logTask, hs, hj]
    rw [hlog, stepLanding, hj]
  | drain names actor batch =>
    have hlog : h.logTask id t log =
        .landed t.key id batch (passResult result).toBool :: log := by simp [logTask, hs, hj]
    have hland : (h.stepLanding id t result).ledger (h.logTask id t log) =
        (h.ledger log).land id batch t.key result := by
      have hleave : (h.leaveFlight t.key).ledger log = _ := ledger_leaveFlight t.key
      rw [hlog, stepLanding, hj]
      generalize h.leaveFlight t.key = g at hleave ⊢
      obtain ⟨hclock, hqueue, hflight, hbatches, htasks, hfresh, -⟩ :=
        (Ledger.mk.injEq ..).mp hleave
      unfold ledger Ledger.land
      dsimp only
      rw [hclock, hqueue, hflight, Table.get?_modify_eq_update, hbatches, htasks, hfresh]
      rfl
    rw [hland]
    exact .single (.land result ht hj)

theorem steps_stepTask_ledger (ht : h.tasks.get? id = some t)
    (hstep : h.stepTask engine id t = some h') :
    ReflTransGen (Ledger.Step engine.settings) (h.ledger log) (h'.ledger (h.logTask id t log)) := by
  cases stepTask_cases hstep with
  | arrive hs =>
    rw [logTask_eq (by simp [hs]) (by simp [hs])]
    obtain ⟨_, _, fresh, hfresh, heq⟩ := h.openLock_frame t.key
    rw [heq]
    exact steps_stage _ (.single (.number fresh hfresh)) ht
  | @acquire lock handles hs =>
    rw [logTask_eq (by simp [hs]) (by simp [hs])]
    exact steps_stage (g := h.setHeld lock true) _ .refl ht
  | read hs =>
    rw [logTask_eq (by simp [hs]) (by simp [hs])]
    exact steps_stepReading_ledger ht _
  | write hs => exact steps_stepWriting_ledger ht hs
  | @release lock result hs =>
    rw [logTask_eq (by simp [hs]) (by simp [hs])]
    exact steps_stage (g := h.setHeld lock false) _ .refl ht
  | close hs =>
    rw [logTask_eq (by simp [hs]) (by simp [hs])]
    exact steps_stepClosing_ledger ht _ _
  | land hs => exact steps_stepLanding_ledger ht hs

/-! ### All actions -/

/-- The report of a batch that is done. -/
theorem steps_report {batch : Nat} {report : DrainReport} (settings : Settings)
    (hb : h.batches.get? batch = some ⟨report, 0⟩) : ReflTransGen (Ledger.Step settings)
      (h.ledger log)
      (({ h with batches := h.batches.erase batch } : Handler σ).ledger (h.logReport batch log)) := by
  have hlog : h.logReport batch log = .reported batch report :: log := by
    simp [logReport, finishBatch, hb]
  have hstep : Ledger.Step settings (h.ledger log) _ := .report hb
  rw [hlog]
  refine .single ?_
  rwa [show Function.update (h.ledger log).batches batch none = (h.batches.erase batch).get? from
    (Table.get?_erase_eq_update ..).symm] at hstep

/-- The task of a notification is forgotten. -/
theorem steps_forget (he : h.core.Ended) (settings : Settings) {result : TaskResult}
    (ht : h.tasks.get? id = some t) (hs : t.stage = .finished result) :
    ReflTransGen (Ledger.Step settings) (h.ledger log)
      (({ h with tasks := h.tasks.erase id } : Handler σ).ledger log) := by
  obtain ⟨property, hj⟩ := he id t result ht hs
  exact .single (Ledger.Step.forget (c := h.ledger log) ht hj)

theorem steps_stepWorker_ledger {cue : WorkerCue} (hstep : h.stepWorker engine cue = some h') :
    ReflTransGen (Ledger.Step engine.settings) (h.ledger log)
      (h'.ledger (h.logAction log (.worker cue))) := by
  cases stepWorker_cases hstep with
  | stop hw | arm hw =>
    have hlog : h.logAction log (.worker .proceed) = log := by simp [logAction, hw]
    rw [hlog]
    exact .refl
  | heed | wake => exact .refl
  | drain => exact h.steps_drain_ledger engine.settings .timer log
  | @resume batch report hw hb =>
    have hlog : h.logAction log (.worker .proceed) = h.logReport batch log := by
      simp [logAction, hw]
    rw [hlog]
    exact steps_report engine.settings hb

theorem steps_stepCall_ledger (he : h.core.Ended) {call : Call} (hc : h.calls.get? id = some call)
    (hstep : h.stepCall engine id call = some h') :
    ReflTransGen (Ledger.Step engine.settings) (h.ledger log)
      (h'.ledger (h.logAction log (.call id))) := by
  cases stepCall_cases hstep with
  | flush tenant actor =>
    have hlog : h.logAction log (.call id) = h.logDrain (.flush tenant actor) log := by
      simp [logAction, hc]
    rw [hlog]
    exact h.steps_drain_ledger engine.settings (.flush tenant actor) log
  | @report batch report hb =>
    have hlog : h.logAction log (.call id) = h.logReport batch log := by simp [logAction, hc]
    rw [hlog]
    exact steps_report engine.settings hb
  | tell | pass | stopped | done =>
    have hlog : h.logAction log (.call id) = log := by simp [logAction, hc]
    rw [hlog]
    exact .refl
  | next n =>
    have hlog : h.logAction log (.call id) = log := by simp [logAction, hc]
    rw [hlog]
    exact .single (.notify n)
  | handled ht hs | failed ht hs =>
    have hlog : h.logAction log (.call id) = log := by simp [logAction, hc]
    rw [hlog]
    exact steps_forget he engine.settings ht hs

/-- Every action is a sequence of steps of the ledger, and the log has their events. -/
theorem steps_ledger (log : List QueueEvent) (he : h.core.Ended) {a : Action}
    (hstep : h.step engine a = some h') :
    ReflTransGen (Ledger.Step engine.settings) (h.ledger log) (h'.ledger (h.logAction log a)) := by
  cases step_cases hstep with
  | notify n => exact .single (.notify n)
  | begin => exact .single (.number (h.fresh + 1) (Nat.le_succ _))
  | @task id t _ ht hstep =>
    have hlog : h.logAction log (.task id) = h.logTask id t log := by simp [logAction, ht]
    rw [hlog]
    exact steps_stepTask_ledger ht hstep
  | call hc hstep => exact steps_stepCall_ledger he hc hstep
  | worker hstep => exact steps_stepWorker_ledger hstep
  | collect ht hs => exact steps_forget he engine.settings ht hs
  | report => exact .refl
  | clock hle => exact .single (.time _ hle)

/-- What holds of the ledger of a new handler and is kept by every step holds in every run. -/
theorem Logged.ledger_induction {s : σ} (hr : Logged engine s h log) {P : Ledger → Prop}
    (hstart : P ((Handler.start engine.settings s).ledger []))
    (hstep : ∀ c d, P c → Ledger.Step engine.settings c d → P d) : P (h.ledger log) := by
  have hkeep {c d : Ledger} (hsteps : ReflTransGen (Ledger.Step engine.settings) c d) (hc : P c) :
      P d := by
    induction hsteps with
    | refl => exact hc
    | tail _ hlast ih => exact hstep _ _ ih hlast
  -- An action may be several steps of the ledger, each of which keeps what holds.
  induction hr with
  | start => exact hstart
  | act a hr haction ih => exact hkeep (steps_ledger _ hr.reaches.tended.2.1 haction) ih

end Handler

end EntityFormulas
