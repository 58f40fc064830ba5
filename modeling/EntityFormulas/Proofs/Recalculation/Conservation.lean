/-
  EntityFormulas/Proofs/Recalculation/Conservation.lean
  =====================================================
  **Nothing that is queued is lost or handed out twice.**

  Three invariants tie the log of a run to the state of the handler.  What is
  queued for an entity is what was queued since its entry was last taken
  (`Queued`).  The tasks that drain entities are those that were started by
  taking an entry and have not ended (`Working`).  What is in flight, and what
  every batch still waits for and has reported, are counts of these tasks
  (`Counted`).  None of them depends on the order in which tasks, calls, the
  worker and the clock come, so they hold of every run, and together they say
  what becomes of everything that is queued (`Conserved`).
-/
import EntityFormulas.Proofs.Recalculation.QueueLog

namespace EntityFormulas

/-! ### What a log says -/

/-- Every event is as the events before it allow. -/
def Throughout (p : List QueueEvent → QueueEvent → Prop) : List QueueEvent → Prop
  | [] => True
  | e :: log => p log e ∧ Throughout p log

theorem Throughout.of_append {p : List QueueEvent → QueueEvent → Prop}
    {log after before : List QueueEvent} {e : QueueEvent} (h : Throughout p log)
    (hlog : log = after ++ e :: before) : p before e := by
  induction after generalizing log with
  | nil =>
    subst hlog
    exact h.1
  | cons x rest ih =>
    subst hlog
    exact ih h.2 rfl

theorem throughout_iff {p : List QueueEvent → QueueEvent → Prop} {log : List QueueEvent} :
    Throughout p log ↔ ∀ after e before, log = after ++ e :: before → p before e := by
  refine ⟨fun h after e before hlog => h.of_append hlog, fun h => ?_⟩
  induction log with
  | nil => trivial
  | cons e log ih => exact ⟨h [] e log rfl, ih fun after x before hlog =>
      h (e :: after) x before (by rw [hlog]; rfl)⟩

/-- The last element with a property splits a list, if there is one. -/
theorem exists_last_or_forall {α : Type} (p : α → Bool) (xs : List α) :
    (∀ x ∈ xs, p x = false) ∨ ∃ front x rest, xs = front ++ x :: rest ∧ p x = true ∧
      ∀ y ∈ rest, p y = false := by
  induction xs with
  | nil => simp
  | cons x xs ih =>
    rcases ih with hnone | ⟨front, y, rest, rfl, hy⟩
    · cases hx : p x with
      | false => exact .inl (List.forall_mem_cons.2 ⟨hx, hnone⟩)
      | true => exact .inr ⟨[], x, xs, rfl, hx, hnone⟩
    · exact .inr ⟨x :: front, y, rest, rfl, hy⟩

namespace QueueEvent

def time? : QueueEvent → Option Nat
  | queued time _ _ | taken time _ _ _ _ _ => some time
  | landed .. | reported .. => none

/-- What was queued for an entity, and when. -/
def queued? (key : EntityKey) : QueueEvent → Option (Nat × String)
  | queued time k property => if k = key then some (time, property) else none
  | _ => none

def isTake (key : EntityKey) : QueueEvent → Bool
  | taken _ k _ _ _ _ => k = key
  | _ => false

theorem isTake_iff {key : EntityKey} {e : QueueEvent} : e.isTake key = true ↔
    ∃ time names task batch taker, e = taken time key names task batch taker := by
  cases e <;> simp [isTake]

/-- The task that was started. -/
def started? : QueueEvent → Option Nat
  | taken _ _ _ task _ _ => some task
  | _ => none

/-- The task that has ended. -/
def ended? : QueueEvent → Option Nat
  | landed _ task _ _ => some task
  | _ => none

def startedFor (p : EntityKey → Nat → Bool) : QueueEvent → Bool
  | taken _ key _ _ batch _ => p key batch
  | _ => false

def endedFor (p : EntityKey → Nat → Bool) : QueueEvent → Bool
  | landed key _ batch _ => p key batch
  | _ => false

def succeededIn (batch : Nat) : QueueEvent → Bool
  | landed _ _ b succeeded => b = batch && succeeded
  | _ => false

def failedIn (batch : Nat) : QueueEvent → Bool
  | landed _ _ b succeeded => b = batch && !succeeded
  | _ => false

/-- What was queued for an entity since its entry was last taken, the newest first. -/
def since (key : EntityKey) (log : List QueueEvent) : List (Nat × String) :=
  (log.takeWhile fun e => !e.isTake key).filterMap (queued? key)

/-- The entry that this comes to. -/
def entryOf (delay : Nat) (key : EntityKey) (log : List QueueEvent) : Option QueueEntry :=
  match since key log with
  | [] => none
  | (time, name) :: rest => some ⟨ascending (name :: rest.map Prod.snd), time + delay⟩

section Since

variable (key : EntityKey) (log : List QueueEvent)

theorem since_cons (e : QueueEvent) : since key (e :: log) =
    if e.isTake key then [] else (queued? key e).toList ++ since key log := by
  unfold since
  rw [List.takeWhile_cons]
  cases e.isTake key with
  | true => rfl
  | false =>
    rw [Bool.not_false, if_pos rfl, List.filterMap_cons, if_neg Bool.false_ne_true]
    cases queued? key e <;> rfl

@[simp] theorem since_queued (time : Nat) (k : EntityKey) (name : String) :
    since key (queued time k name :: log) =
      if k = key then (time, name) :: since key log else since key log := by
  by_cases hk : k = key <;> simp [since_cons, isTake, queued?, hk]

@[simp] theorem since_taken (time : Nat) (k : EntityKey) (names : List String) (task batch : Nat)
    (taker : Taker) : since key (taken time k names task batch taker :: log) =
      if k = key then [] else since key log := by
  by_cases hk : k = key <;> simp [since_cons, isTake, queued?, hk]

@[simp] theorem since_landed (k : EntityKey) (task batch : Nat) (succeeded : Bool) :
    since key (landed k task batch succeeded :: log) = since key log := by
  simp [since_cons, isTake, queued?]

@[simp] theorem since_reported (batch : Nat) (report : DrainReport) :
    since key (reported batch report :: log) = since key log := by
  simp [since_cons, isTake, queued?]

theorem since_append {front : List QueueEvent} (hf : ∀ e ∈ front, e.isTake key = false) :
    since key (front ++ log) = front.filterMap (queued? key) ++ since key log := by
  induction front with
  | nil => rfl
  | cons e rest ih =>
    rw [List.cons_append, since_cons, hf e List.mem_cons_self, if_neg Bool.false_ne_true,
      ih fun x hx => hf x (List.mem_cons_of_mem _ hx), List.filterMap_cons]
    cases queued? key e <;> rfl

theorem names_entryOf (delay : Nat) : (entryOf delay key log).map QueueEntry.names =
    if since key log = [] then none else some (ascending ((since key log).map Prod.snd)) := by
  unfold entryOf
  cases since key log <;> simp

theorem getD_names_entryOf (delay : Nat) : ((entryOf delay key log).map QueueEntry.names).getD [] =
    ascending ((since key log).map Prod.snd) := by
  unfold entryOf
  cases since key log <;> rfl

end Since

end QueueEvent

open QueueEvent

/-! ### What is queued -/

namespace QueueEvent

/-- Time passes from event to event, and what is taken is what was queued before, with a deadline
    after the last time. -/
def Timely (delay : Nat) (log : List QueueEvent) (e : QueueEvent) : Prop :=
  (∀ time ∈ e.time?, ∀ earlier ∈ log.filterMap time?, earlier ≤ time) ∧
    match e with
    | taken time key names _ _ taker => ∃ deadline, entryOf delay key log = some ⟨names, deadline⟩ ∧
        taker.due time key ⟨names, deadline⟩ = true
    | _ => True

end QueueEvent

namespace Ledger

/-- The queue is what the log says, and no event is later than now. -/
structure Queued (delay : Nat) (c : Ledger) : Prop where
  queue : ∀ key, c.queue key = entryOf delay key c.log
  past : ∀ time ∈ c.log.filterMap time?, time ≤ c.clock
  timely : Throughout (Timely delay) c.log

variable {settings : Settings} {c d : Ledger}

theorem Queued.step (h : c.Queued settings.recalc.batchDelay) (hstep : Step settings c d) :
    d.Queued settings.recalc.batchDelay := by
  obtain ⟨hqueue, hpast, htimely⟩ := h
  cases hstep with
  | time clock hle => exact ⟨hqueue, fun time ht => (hpast time ht).trans hle, htimely⟩
  | number | notify | stage | forget | openBatch => exact ⟨hqueue, hpast, htimely⟩
  | enqueue n =>
    refine ⟨fun key => ?_, ?_, ⟨?_, trivial⟩, htimely⟩
    · have hnames := getD_names_entryOf n.key c.log settings.recalc.batchDelay
      show Function.update c.queue n.key _ key =
        entryOf _ key (queued c.clock n.key n.property :: c.log)
      rw [Function.update_apply, hqueue n.key, hnames]
      unfold entryOf
      by_cases hk : key = n.key
      · subst hk
        simp [ascending]
      · simp [hk, Ne.symm hk, hqueue key, entryOf]
    · simpa [enqueue, time?] using hpast
    · simpa [time?] using hpast
  | @take key e batch b taker hq hdue hb =>
    refine ⟨fun k => ?_, ?_, ⟨?_, e.deadline, (hqueue key).symm.trans hq, hdue⟩, htimely⟩
    · show Function.update c.queue key none k = entryOf _ k (taken _ key _ _ _ _ :: c.log)
      rw [Function.update_apply]
      unfold entryOf
      by_cases hk : k = key
      · subst hk
        simp
      · simp [hk, Ne.symm hk, hqueue k, entryOf]
    · simpa [take, time?] using hpast
    · simpa [time?] using hpast
  | land result ht hj =>
    refine ⟨fun k => ?_, hpast, ⟨by simp [time?], trivial⟩, htimely⟩
    simpa [land, entryOf] using hqueue k
  | report hb =>
    refine ⟨fun k => ?_, hpast, ⟨by simp [time?], trivial⟩, htimely⟩
    simpa [entryOf] using hqueue k

end Ledger

/-! ### Who works on what is taken -/

/-- Whether the task drains an entity for a batch, of the ones meant. -/
def Task.drainsFor (p : EntityKey → Nat → Bool) (t : Task) : Bool :=
  match t.job with
  | .drain _ _ batch => p t.key batch
  | .notification _ => false

/-- The entity, names, actor and batch of a task that drains. -/
def Task.drain? (t : Task) : Option (EntityKey × List String × String × Nat) :=
  match t.job with
  | .drain names actor batch => some (t.key, names, actor, batch)
  | .notification _ => none

namespace QueueEvent

/-- The numbers of tasks and batches. -/
def numbers : QueueEvent → List Nat
  | queued .. => []
  | taken _ _ _ task batch _ | landed _ task batch _ => [task, batch]
  | reported batch _ => [batch]

/-- The task that ends was started before. -/
def Owed (log : List QueueEvent) : QueueEvent → Prop
  | landed key task batch _ => ∃ time names taker, taken time key names task batch taker ∈ log
  | _ => True

end QueueEvent

namespace Ledger

def drainOf (c : Ledger) (id : Nat) : Option (EntityKey × List String × String × Nat) :=
  (c.tasks.get? id).bind Task.drain?

section DrainOf

variable (c : Ledger)

theorem drainOf_insert (id : Nat) (t : Task) : drainOf { c with tasks := c.tasks.insert id t } =
    Function.update c.drainOf id t.drain? := by
  funext i
  rw [Function.update_apply, drainOf, Table.get?_insert]
  by_cases hi : id = i
  · simp [hi]
  · simp [hi, Ne.symm hi, drainOf]

theorem drainOf_erase (id : Nat) : drainOf { c with tasks := c.tasks.erase id } =
    Function.update c.drainOf id none := by
  funext i
  rw [Function.update_apply, drainOf, Table.get?_erase]
  by_cases hi : id = i
  · simp [hi]
  · simp [hi, Ne.symm hi, drainOf]

end DrainOf

/-- What has a number has it from the counter. -/
structure Numbered (c : Ledger) : Prop where
  log : ∀ e ∈ c.log, ∀ n ∈ e.numbers, n < c.fresh
  tasks : ∀ id t, c.tasks.get? id = some t →
    id < c.fresh ∧ ∀ names actor batch, t.job = .drain names actor batch → batch < c.fresh
  batches : ∀ id b, c.batches id = some b → id < c.fresh

namespace Numbered

variable {settings : Settings} {c d : Ledger} (h : c.Numbered)
include h

theorem tasks_insert {id fresh : Nat} {t : Task} (hle : c.fresh ≤ fresh) (hid : id < fresh)
    (hj : ∀ names actor batch, t.job = .drain names actor batch → batch < fresh) :
    ∀ i u, (c.tasks.insert id t).get? i = some u →
      i < fresh ∧ ∀ names actor batch, u.job = .drain names actor batch → batch < fresh := by
  intro i u hu
  rw [Table.get?_insert] at hu
  split at hu
  next hi =>
    cases hu
    exact ⟨hi ▸ hid, hj⟩
  next =>
    obtain ⟨hi, hjob⟩ := h.tasks i u hu
    exact ⟨hi.trans_le hle, fun names actor batch hj => (hjob names actor batch hj).trans_le hle⟩

theorem tasks_erase (id : Nat) : ∀ i u, (c.tasks.erase id).get? i = some u →
    i < c.fresh ∧ ∀ names actor batch, u.job = .drain names actor batch → batch < c.fresh := by
  intro i u hu
  rw [Table.get?_erase] at hu
  split at hu
  next => cases hu
  next => exact h.tasks i u hu

theorem batches_update {fresh : Nat} (hle : c.fresh ≤ fresh) {id : Nat} {b : Option Batch}
    (hb : b.isSome = true → id < fresh) :
    ∀ i x, Function.update c.batches id b i = some x → i < fresh := by
  intro i x hx
  rw [Function.update_apply] at hx
  split at hx
  next hi => exact hi ▸ hb (by rw [hx]; rfl)
  next => exact (h.batches i x hx).trans_le hle

theorem log_cons {fresh : Nat} (hle : c.fresh ≤ fresh) {e : QueueEvent}
    (he : ∀ n ∈ e.numbers, n < fresh) : ∀ x ∈ e :: c.log, ∀ n ∈ x.numbers, n < fresh := by
  intro x hx n hn
  rcases List.mem_cons.1 hx with rfl | hx
  · exact he n hn
  · exact (h.log x hx n hn).trans_le hle

theorem step (hstep : Step settings c d) : d.Numbered := by
  have hmono {fresh : Nat} (hle : c.fresh ≤ fresh) : ∀ x ∈ c.log, ∀ n ∈ x.numbers, n < fresh :=
    fun x hx n hn => (h.log x hx n hn).trans_le hle
  cases hstep with
  | time clock hle => exact ⟨h.log, h.tasks, h.batches⟩
  | number fresh hle =>
    refine ⟨hmono hle, fun id t ht => ?_, fun id b hb => (h.batches id b hb).trans_le hle⟩
    obtain ⟨hid, hjob⟩ := h.tasks id t ht
    exact ⟨hid.trans_le hle, fun names actor batch hj => (hjob names actor batch hj).trans_le hle⟩
  | notify n =>
    exact ⟨hmono (Nat.le_succ _), h.tasks_insert (Nat.le_succ _) (Nat.lt_succ_self _) (by simp),
      fun id b hb => (h.batches id b hb).trans (Nat.lt_succ_self _)⟩
  | @stage id t ht stage =>
    obtain ⟨hid, hjob⟩ := h.tasks id t ht
    exact ⟨h.log, h.tasks_insert (Nat.le_refl _) hid hjob, h.batches⟩
  | @forget id => exact ⟨h.log, h.tasks_erase id, h.batches⟩
  | enqueue n => exact ⟨h.log_cons (Nat.le_refl _) (by simp [numbers]), h.tasks, h.batches⟩
  | openBatch =>
    refine ⟨hmono (Nat.le_succ _), fun id t ht => ?_,
      h.batches_update (Nat.le_succ _) fun _ => Nat.lt_succ_self _⟩
    obtain ⟨hid, hjob⟩ := h.tasks id t ht
    exact ⟨hid.trans (Nat.lt_succ_self _),
      fun names actor batch hj => (hjob names actor batch hj).trans (Nat.lt_succ_self _)⟩
  | @take key e batch b taker hq hdue hb =>
    have hbatch : batch < c.fresh + 1 := (h.batches batch b hb).trans (Nat.lt_succ_self _)
    refine ⟨h.log_cons (Nat.le_succ _) ?_, h.tasks_insert (Nat.le_succ _) (Nat.lt_succ_self _) ?_,
      h.batches_update (Nat.le_succ _) fun _ => hbatch⟩
    · intro n hn
      rcases List.mem_pair.1 hn with rfl | rfl
      · exact Nat.lt_succ_self _
      · exact hbatch
    · intro names actor batch' hj
      cases hj
      exact hbatch
  | @land id t names actor batch result ht hj =>
    obtain ⟨hid, hjob⟩ := h.tasks id t ht
    have hbatch := hjob names actor batch hj
    exact ⟨h.log_cons (Nat.le_refl _) (by simp [numbers, hid, hbatch]), h.tasks_erase id,
      h.batches_update (Nat.le_refl _) fun _ => hbatch⟩
  | @report batch report hb =>
    have hbatch := h.batches batch _ hb
    exact ⟨h.log_cons (Nat.le_refl _) (by simp [numbers, hbatch]), h.tasks,
      h.batches_update (Nat.le_refl _) fun hsome => absurd hsome (by simp)⟩

theorem get?_fresh : c.tasks.get? c.fresh = none := by
  cases ht : c.tasks.get? c.fresh with
  | none => rfl
  | some t => exact absurd (h.tasks _ t ht).1 (Nat.lt_irrefl _)

theorem fresh_not_started : c.fresh ∉ c.log.filterMap started? := by
  intro hmem
  obtain ⟨e, he, hstarted⟩ := List.mem_filterMap.1 hmem
  cases e with
  | taken time key names task batch taker =>
    cases hstarted
    exact Nat.lt_irrefl _ (h.log _ he c.fresh (by simp [numbers]))
  | _ => cases hstarted

theorem fresh_not_ended : c.fresh ∉ c.log.filterMap ended? := by
  intro hmem
  obtain ⟨e, he, hended⟩ := List.mem_filterMap.1 hmem
  cases e with
  | landed key task batch succeeded =>
    cases hended
    exact Nat.lt_irrefl _ (h.log _ he c.fresh (by simp [numbers]))
  | _ => cases hended

end Numbered

/-- The tasks that drain entities are those that were started and have not ended, and every one is
    started once and ends once. -/
structure Working (settings : Settings) (c : Ledger) : Prop where
  started : (c.log.filterMap started?).Nodup
  ended : (c.log.filterMap ended?).Nodup
  owed : Throughout Owed c.log
  working : ∀ id key names actor batch, c.drainOf id = some (key, names, actor, batch) ↔
    (∃ time taker, taken time key names id batch taker ∈ c.log ∧ taker.actor settings = actor) ∧
      id ∉ c.log.filterMap ended?

namespace Working

variable {settings : Settings} {c d : Ledger} (h : c.Working settings)
include h

/-- Nothing changes for those who drain, and an event is about none of them. -/
theorem note {e : QueueEvent} (hlog : d.log = e :: c.log) (hdrains : d.drainOf = c.drainOf)
    (hstarted : e.started? = none) (hended : e.ended? = none) : d.Working settings := by
  have howed : Owed c.log e := by
    cases e with
    | landed => cases hended
    | _ => trivial
  have htaken (time : Nat) (key : EntityKey) (names : List String) (task batch : Nat)
      (taker : Taker) : taken time key names task batch taker ∈ e :: c.log ↔
        taken time key names task batch taker ∈ c.log := by
    refine List.mem_cons.trans (or_iff_right ?_)
    rintro rfl
    cases hstarted
  constructor
  · rw [hlog, List.filterMap_cons_none hstarted]
    exact h.started
  · rw [hlog, List.filterMap_cons_none hended]
    exact h.ended
  · rw [hlog]
    exact ⟨howed, h.owed⟩
  · intro id key names actor batch
    rw [hlog, hdrains, List.filterMap_cons_none hended]
    simpa only [htaken] using h.working id key names actor batch

theorem congr (hlog : d.log = c.log) (hdrains : d.drainOf = c.drainOf) : d.Working settings := by
  obtain ⟨hstarted, hended, howed, hworking⟩ := h
  rw [← hlog] at hstarted hended howed hworking
  rw [← hdrains] at hworking
  exact ⟨hstarted, hended, howed, hworking⟩

theorem take (hn : c.Numbered) (taker : Taker) (batch : Nat) (e : EntityKey × QueueEntry) :
    (c.take settings taker batch e).Working settings := by
  have hdrains : (c.take settings taker batch e).drainOf = Function.update c.drainOf c.fresh
      (some (e.1, e.2.names, taker.actor settings, batch)) := drainOf_insert c c.fresh _
  constructor
  · exact List.nodup_cons.2 ⟨hn.fresh_not_started, h.started⟩
  · exact h.ended
  · exact ⟨trivial, h.owed⟩
  · intro id key names actor b
    have hlog : (c.take settings taker batch e).log =
      taken c.clock e.1 e.2.names c.fresh batch taker :: c.log := rfl
    rw [hdrains, Function.update_apply, hlog, List.filterMap_cons_none rfl]
    by_cases hid : id = c.fresh
    · -- Nothing was started and nothing has ended with this number.
      subst hid
      rw [if_pos rfl]
      constructor
      · intro heq
        cases heq
        exact ⟨⟨c.clock, taker, List.mem_cons_self, rfl⟩, hn.fresh_not_ended⟩
      · rintro ⟨⟨time, taker', hmem, rfl⟩, -⟩
        rcases List.mem_cons.1 hmem with heq | hmem
        · cases heq
          rfl
        · have hstarted : c.fresh ∈ c.log.filterMap started? := List.mem_filterMap.2 ⟨_, hmem, rfl⟩
          exact absurd hstarted hn.fresh_not_started
    · rw [if_neg hid, h.working]
      simp [hid]

theorem land {id : Nat} {t : Task} {names : List String} {actor : String} {batch : Nat}
    (result : TaskResult) (ht : c.tasks.get? id = some t) (hj : t.job = .drain names actor batch) :
    (c.land id batch t.key result).Working settings := by
  have hdrain : c.drainOf id = some (t.key, names, actor, batch) := by
    simp [drainOf, ht, Task.drain?, hj]
  obtain ⟨⟨time, taker, hmem, -⟩, hnot⟩ := (h.working ..).1 hdrain
  have hdrains : (c.land id batch t.key result).drainOf = Function.update c.drainOf id none :=
    drainOf_erase c id
  constructor
  · exact h.started
  · exact List.nodup_cons.2 ⟨hnot, h.ended⟩
  · exact ⟨⟨time, names, taker, hmem⟩, h.owed⟩
  · intro i key names actor b
    have hlog : (c.land id batch t.key result).log =
      landed t.key id batch (Handler.passResult result).toBool :: c.log := rfl
    have hcons : (landed t.key id batch (Handler.passResult result).toBool :: c.log).filterMap
      ended? = id :: c.log.filterMap ended? := rfl
    rw [hdrains, Function.update_apply, hlog, hcons]
    by_cases hi : i = id
    · simp [hi]
    · rw [if_neg hi, h.working]
      simp [hi]

theorem step (hn : c.Numbered) (hstep : Step settings c d) : d.Working settings := by
  cases hstep with
  | time | number | openBatch => exact h.congr rfl rfl
  | notify n =>
    refine h.congr rfl ((drainOf_insert ..).trans (Function.update_eq_self_iff.2 ?_))
    simp [drainOf, hn.get?_fresh, Task.drain?]
  | stage ht stage =>
    refine h.congr rfl ((drainOf_insert ..).trans (Function.update_eq_self_iff.2 ?_))
    simp [drainOf, ht, Task.drain?]
  | forget ht hj =>
    refine h.congr rfl ((drainOf_erase ..).trans (Function.update_eq_self_iff.2 ?_))
    simp [drainOf, ht, Task.drain?, hj]
  | enqueue n => exact h.note rfl rfl rfl rfl
  | report hb => exact h.note rfl rfl rfl rfl
  | take taker hq hdue hb => exact h.take hn taker _ _
  | land result ht hj => exact h.land result ht hj

end Working

end Ledger

/-! ### Counts -/

namespace Table

variable {tasks : Table Nat Task} {id : Nat} (p : Task → Bool)

theorem count_insert_new {t : Task} (h : tasks.get? id = none) :
    (tasks.insert id t).count p = tasks.count p + (p t).toNat := by
  simpa using (changes_insert h t).count p

theorem count_insert_same {t u : Task} (h : tasks.get? id = some t) (hp : p u = p t) :
    (tasks.insert id u).count p = tasks.count p := by
  have hcount := (changes_insert h u).count p
  simp only [Option.any_some, hp] at hcount
  omega

theorem count_erase {t : Task} (h : tasks.get? id = some t) :
    (tasks.erase id).count p + (p t).toNat = tasks.count p := by
  simpa using (changes_erase h).count p

end Table

namespace QueueEvent

/-- Of one batch. -/
def inBatch (batch : Nat) : EntityKey → Nat → Bool := fun _ b => b = batch

/-- Of one entity. -/
def ofKey (key : EntityKey) : EntityKey → Nat → Bool := fun k _ => k = key

theorem countP_cons_toNat {α : Type} (p : α → Bool) (x : α) (xs : List α) :
    (x :: xs).countP p = xs.countP p + (p x).toNat := by
  rw [List.countP_cons]
  cases p x <;> rfl

theorem countP_endedFor (batch : Nat) (log : List QueueEvent) :
    log.countP (endedFor (inBatch batch)) =
      log.countP (succeededIn batch) + log.countP (failedIn batch) := by
  induction log with
  | nil => rfl
  | cons e log ih =>
    rw [List.countP_cons, List.countP_cons, List.countP_cons, ih]
    cases e with
    | landed key task b succeeded =>
      by_cases hb : b = batch <;> cases succeeded <;>
        simp [endedFor, succeededIn, failedIn, inBatch, hb] <;> omega
    | _ => simp [endedFor, succeededIn, failedIn]

end QueueEvent

namespace Ledger

/-- What a batch waits for and what it reports is as many as there are. -/
structure Accounted (c : Ledger) (batch : Nat) : Prop where
  waiting : ∀ b, c.batches batch = some b →
    b.remaining = c.tasks.count (Task.drainsFor (inBatch batch)) ∧
      b.report.entities = c.log.countP (endedFor (inBatch batch)) ∧
      b.report.failedEntities = c.log.countP (failedIn batch)
  closed : c.batches batch = none → c.tasks.count (Task.drainsFor (inBatch batch)) = 0
  reports : ∀ report, reported batch report ∈ c.log → c.batches batch = none ∧
    report.entities = c.log.countP (startedFor (inBatch batch)) ∧
      report.failedEntities = c.log.countP (failedIn batch)

theorem Accounted.congr {c d : Ledger} {batch : Nat} (h : c.Accounted batch)
    (hbatch : d.batches batch = c.batches batch)
    (hcount : d.tasks.count (Task.drainsFor (inBatch batch)) =
      c.tasks.count (Task.drainsFor (inBatch batch)))
    (hstarted : d.log.countP (startedFor (inBatch batch)) =
      c.log.countP (startedFor (inBatch batch)))
    (hended : d.log.countP (endedFor (inBatch batch)) = c.log.countP (endedFor (inBatch batch)))
    (hfailed : d.log.countP (failedIn batch) = c.log.countP (failedIn batch))
    (hreports : ∀ report, reported batch report ∈ d.log → reported batch report ∈ c.log) :
    d.Accounted batch := by
  constructor
  · simpa only [hbatch, hcount, hended, hfailed] using h.waiting
  · simpa only [hbatch, hcount] using h.closed
  · intro report hmem
    simpa only [hbatch, hstarted, hfailed] using h.reports report (hreports report hmem)

/-- So is what is in flight, and every task that is started is at work until it ends. -/
structure Counted (c : Ledger) : Prop where
  balance : ∀ p, c.tasks.count (Task.drainsFor p) + c.log.countP (endedFor p) =
    c.log.countP (startedFor p)
  inFlight : ∀ key, c.inFlight key = if c.tasks.count (Task.drainsFor (ofKey key)) = 0 then none
    else some (c.tasks.count (Task.drainsFor (ofKey key)))
  batches : ∀ batch, c.Accounted batch

namespace Counted

variable {settings : Settings} {c d : Ledger} (h : c.Counted)
include h

/-- No counts change. -/
theorem congr (hcount : ∀ p, d.tasks.count (Task.drainsFor p) = c.tasks.count (Task.drainsFor p))
    (hflight : d.inFlight = c.inFlight) (hbatches : d.batches = c.batches)
    (hstarted : ∀ p, d.log.countP (startedFor p) = c.log.countP (startedFor p))
    (hended : ∀ p, d.log.countP (endedFor p) = c.log.countP (endedFor p))
    (hfailed : ∀ batch, d.log.countP (failedIn batch) = c.log.countP (failedIn batch))
    (hreports : ∀ batch report, reported batch report ∈ d.log → reported batch report ∈ c.log) :
    d.Counted := by
  constructor
  · simpa only [hcount, hended, hstarted] using h.balance
  · simpa only [hcount, hflight] using h.inFlight
  · exact fun batch => (h.batches batch).congr (congrFun hbatches batch) (hcount _) (hstarted _)
      (hended _) (hfailed _) (hreports batch)

theorem openBatch (hn : c.Numbered) : c.openBatch.Counted := by
  refine ⟨h.balance, h.inFlight, fun batch => ?_⟩
  by_cases hfresh : batch = c.fresh
  · -- Nothing has this number yet.
    subst hfresh
    have hstarted : c.log.countP (startedFor (inBatch c.fresh)) = 0 := by
      refine List.countP_eq_zero.2 fun e he => ?_
      have := hn.log e he
      cases e <;> simp_all [startedFor, inBatch, numbers]
      omega
    have hbalance := h.balance (inBatch c.fresh)
    have hended := countP_endedFor c.fresh c.log
    have hopen : c.openBatch.batches c.fresh = some { remaining := 0 } := Function.update_self ..
    constructor
    · intro b hb
      cases hopen.symm.trans hb
      refine ⟨?_, ?_, ?_⟩
      · show 0 = c.tasks.count _
        omega
      · show 0 = c.log.countP _
        omega
      · show 0 = c.log.countP _
        omega
    · intro hnone
      cases hopen.symm.trans hnone
    · intro report hmem
      exact absurd (hn.log _ hmem c.fresh (by simp [numbers])) (Nat.lt_irrefl _)
  · exact (h.batches batch).congr (Function.update_of_ne hfresh ..) rfl rfl rfl rfl
      fun _ hmem => hmem

theorem take (hn : c.Numbered) (taker : Taker) {batch : Nat} {b : Batch}
    (hb : c.batches batch = some b) (e : EntityKey × QueueEntry) :
    (c.take settings taker batch e).Counted := by
  have hcount (p : EntityKey → Nat → Bool) :
      (c.take settings taker batch e).tasks.count (Task.drainsFor p) =
        c.tasks.count (Task.drainsFor p) + (p e.1 batch).toNat :=
    Table.count_insert_new _ hn.get?_fresh
  have hstarted (p : EntityKey → Nat → Bool) :
      (c.take settings taker batch e).log.countP (startedFor p) =
        c.log.countP (startedFor p) + (p e.1 batch).toNat := countP_cons_toNat ..
  have hended (p : EntityKey → Nat → Bool) :
      (c.take settings taker batch e).log.countP (endedFor p) = c.log.countP (endedFor p) := by
    simp [Ledger.take, endedFor]
  have hfailed (id : Nat) :
      (c.take settings taker batch e).log.countP (failedIn id) = c.log.countP (failedIn id) := by
    simp [Ledger.take, failedIn]
  have hreports (id : Nat) (report : DrainReport)
      (hmem : reported id report ∈ (c.take settings taker batch e).log) :
      reported id report ∈ c.log := by
    simpa [Ledger.take] using hmem
  constructor
  · intro p
    have := h.balance p
    rw [hcount, hstarted, hended]
    omega
  · intro key
    show Function.update c.inFlight e.1 _ key = _
    rw [hcount, Function.update_apply, h.inFlight e.1, h.inFlight key]
    by_cases hk : key = e.1
    · subst hk
      simp only [if_true, ofKey, decide_true, Bool.toNat_true]
      split <;> simp_all
    · simp [hk, ofKey, Ne.symm hk]
  · intro id
    by_cases hid : id = batch
    · subst hid
      have htaken : (c.take settings taker id e).batches id =
          some { b with remaining := b.remaining + 1 } := by
        simp [Ledger.take, hb]
      obtain ⟨hremaining, hcounts⟩ := (h.batches id).waiting b hb
      constructor
      · intro b' hb'
        cases htaken.symm.trans hb'
        rw [hcount, hended, hfailed]
        refine ⟨?_, hcounts⟩
        simp [inBatch, hremaining]
      · intro hnone
        cases htaken.symm.trans hnone
      · intro report hmem
        cases hb.symm.trans ((h.batches id).reports report (hreports id report hmem)).1
    · refine (h.batches id).congr (Function.update_of_ne hid ..) ?_ ?_ (hended _) (hfailed _)
        (hreports id)
      · rw [hcount]
        simp [inBatch, Ne.symm hid]
      · rw [hstarted]
        simp [inBatch, Ne.symm hid]

section Land

variable {id : Nat} {t : Task} {names : List String} {actor : String} {batch : Nat}
  (result : TaskResult) (ht : c.tasks.get? id = some t) (hj : t.job = .drain names actor batch)
include ht hj

omit h in
theorem count_land (p : EntityKey → Nat → Bool) :
    (c.land id batch t.key result).tasks.count (Task.drainsFor p) + (p t.key batch).toNat =
      c.tasks.count (Task.drainsFor p) := by
  have hp : t.drainsFor p = p t.key batch := by simp [Task.drainsFor, hj]
  rw [← hp]
  exact Table.count_erase (Task.drainsFor p) ht

/-- The entity has one task less in flight. -/
theorem inFlight_land (key : EntityKey) : (c.land id batch t.key result).inFlight key =
    if (c.land id batch t.key result).tasks.count (Task.drainsFor (ofKey key)) = 0 then none
    else some ((c.land id batch t.key result).tasks.count (Task.drainsFor (ofKey key))) := by
  have hkey := count_land result ht hj (ofKey key)
  show Function.update c.inFlight t.key _ key = _
  rw [Function.update_apply, h.inFlight t.key, h.inFlight key]
  by_cases hk : key = t.key
  · -- The task that ends is still counted, so there is something to take off.
    subst hk
    simp only [ofKey, decide_true, Bool.toNat_true] at hkey
    rw [if_pos rfl, if_neg (by omega), Option.bind_some]
    by_cases hone : c.tasks.count (Task.drainsFor (ofKey t.key)) ≤ 1
    · rw [if_pos hone, if_pos (by omega)]
    · rw [if_neg hone, if_neg (by omega)]
      congr 1
      omega
  · simp only [ofKey, Ne.symm hk, decide_false, Bool.toNat_false, add_zero] at hkey
    rw [if_neg hk, hkey]

omit h ht hj in
theorem started_land (p : EntityKey → Nat → Bool) :
    (c.land id batch t.key result).log.countP (startedFor p) = c.log.countP (startedFor p) := by
  simp [Ledger.land, startedFor]

omit h ht hj in
theorem ended_land (p : EntityKey → Nat → Bool) :
    (c.land id batch t.key result).log.countP (endedFor p) =
      c.log.countP (endedFor p) + (p t.key batch).toNat := countP_cons_toNat ..

omit h ht hj in
theorem failed_land (other : Nat) : (c.land id batch t.key result).log.countP (failedIn other) =
    c.log.countP (failedIn other) +
      (failedIn other (landed t.key id batch (Handler.passResult result).toBool)).toNat :=
  countP_cons_toNat ..

omit h ht hj in
theorem reported_of_land {other : Nat} {report : DrainReport}
    (hmem : reported other report ∈ (c.land id batch t.key result).log) :
    reported other report ∈ c.log := by
  simpa [Ledger.land] using hmem

/-- The batch waits for one task less, whose result is in the report. -/
theorem accounted_land : (c.land id batch t.key result).Accounted batch := by
  have hbatch := count_land result ht hj (inBatch batch)
  simp only [inBatch, decide_true, Bool.toNat_true] at hbatch
  obtain ⟨b, hb⟩ : ∃ b, c.batches batch = some b := by
    refine Option.ne_none_iff_exists'.1 fun hnone => ?_
    have := (h.batches batch).closed hnone
    omega
  have hlanded : (c.land id batch t.key result).batches batch =
      some ⟨b.report.add (Handler.passResult result), b.remaining - 1⟩ := by
    simp [Ledger.land, hb]
  obtain ⟨hremaining, hentities, hfailures⟩ := (h.batches batch).waiting b hb
  constructor
  · intro b' hb'
    cases hlanded.symm.trans hb'
    rw [ended_land, failed_land]
    refine ⟨?_, ?_, ?_⟩
    · show b.remaining - 1 = _
      omega
    · cases hresult : Handler.passResult result <;>
        simp [DrainReport.add, inBatch, hentities]
    · cases hresult : Handler.passResult result <;>
        simp [DrainReport.add, failedIn, Except.toBool, hfailures]
  · intro hnone
    cases hlanded.symm.trans hnone
  · intro report hmem
    cases hb.symm.trans ((h.batches batch).reports report (reported_of_land result hmem)).1

theorem land : (c.land id batch t.key result).Counted := by
  refine ⟨fun p => ?_, h.inFlight_land result ht hj, fun other => ?_⟩
  · have := h.balance p
    have := count_land result ht hj p
    rw [started_land, ended_land]
    omega
  · by_cases hid : other = batch
    · rw [hid]
      exact h.accounted_land result ht hj
    · have hbatch := count_land result ht hj (inBatch other)
      simp only [inBatch, Ne.symm hid, decide_false, Bool.toNat_false, add_zero] at hbatch
      refine (h.batches other).congr (Function.update_of_ne hid ..) hbatch (started_land ..) ?_ ?_
        fun _ => reported_of_land result
      · rw [ended_land]
        simp [inBatch, Ne.symm hid]
      · rw [failed_land]
        simp [failedIn, Ne.symm hid]

end Land

theorem report {batch : Nat} {report : DrainReport} (hb : c.batches batch = some ⟨report, 0⟩) :
    Counted { c with
      batches := Function.update c.batches batch none
      log := .reported batch report :: c.log } := by
  have hstarted (p : EntityKey → Nat → Bool) :
      (reported batch report :: c.log).countP (startedFor p) = c.log.countP (startedFor p) := by
    simp [startedFor]
  have hended (p : EntityKey → Nat → Bool) :
      (reported batch report :: c.log).countP (endedFor p) = c.log.countP (endedFor p) := by
    simp [endedFor]
  have hfailed (id : Nat) :
      (reported batch report :: c.log).countP (failedIn id) = c.log.countP (failedIn id) := by
    simp [failedIn]
  refine ⟨?_, h.inFlight, fun id => ?_⟩
  · intro p
    simpa only [hstarted, hended] using h.balance p
  · by_cases hid : id = batch
    · subst hid
      obtain ⟨hremaining, hentities, hfailures⟩ := (h.batches id).waiting _ hb
      have hbalance := h.balance (inBatch id)
      constructor
      · intro b hb
        cases (Function.update_self ..).symm.trans hb
      · exact fun _ => hremaining.symm
      · intro report' hmem
        refine ⟨Function.update_self .., ?_⟩
        rw [hstarted, hfailed]
        rcases List.mem_cons.1 hmem with heq | hmem
        · cases heq
          refine ⟨?_, hfailures⟩
          dsimp only at hremaining hentities
          omega
        · cases hb.symm.trans ((h.batches id).reports report' hmem).1
    · refine (h.batches id).congr (Function.update_of_ne hid ..) rfl (hstarted _) (hended _)
        (hfailed _) fun report' hmem => ?_
      exact List.mem_of_ne_of_mem (by simp [hid]) hmem

theorem step (hn : c.Numbered) (hstep : Step settings c d) : d.Counted := by
  cases hstep with
  | time | number =>
    exact h.congr (fun _ => rfl) rfl rfl (fun _ => rfl) (fun _ => rfl) (fun _ => rfl) fun _ _ h => h
  | notify n =>
    refine h.congr (fun p => ?_) rfl rfl (fun _ => rfl) (fun _ => rfl) (fun _ => rfl) fun _ _ h => h
    exact Table.count_insert_new _ hn.get?_fresh
  | stage ht stage =>
    refine h.congr (fun p => ?_) rfl rfl (fun _ => rfl) (fun _ => rfl) (fun _ => rfl) fun _ _ h => h
    exact Table.count_insert_same _ ht rfl
  | forget ht hj =>
    refine h.congr (fun p => ?_) rfl rfl (fun _ => rfl) (fun _ => rfl) (fun _ => rfl) fun _ _ h => h
    simpa [Task.drainsFor, hj] using Table.count_erase (Task.drainsFor p) ht
  | enqueue n =>
    refine h.congr (fun _ => rfl) rfl rfl ?_ ?_ ?_ ?_
    · simp [enqueue, startedFor]
    · simp [enqueue, endedFor]
    · simp [enqueue, failedIn]
    · simp [enqueue]
  | openBatch => exact h.openBatch hn
  | take taker hq hdue hb => exact h.take hn taker hb _
  | land result ht hj => exact h.land result ht hj
  | report hb => exact h.report hb

end Counted

/-! ### Runs -/

/-- What is kept in every run. -/
structure Kept (settings : Settings) (c : Ledger) : Prop where
  numbered : c.Numbered
  queued : c.Queued settings.recalc.batchDelay
  working : c.Working settings
  counted : c.Counted

theorem Kept.step {settings : Settings} {c d : Ledger} (h : c.Kept settings)
    (hstep : Step settings c d) : d.Kept settings where
  numbered := h.numbered.step hstep
  queued := h.queued.step hstep
  working := h.working.step h.numbered hstep
  counted := h.counted.step h.numbered hstep

end Ledger

namespace Handler

variable {σ : Type} {engine : Engine σ} {s : σ} {h : Handler σ} {log : List QueueEvent}

theorem mem_takes {time batch task : Nat} {taker : Taker} {es : List (EntityKey × QueueEntry)}
    {e : QueueEvent} (he : e ∈ takes time batch taker task es log) :
    e ∈ log ∨ ∃ key names task, e = .taken time key names task batch taker := by
  induction es generalizing task log with
  | nil => exact .inl he
  | cons x rest ih =>
    rcases ih he with hmem | htaken
    · rcases List.mem_cons.1 hmem with rfl | hmem
      · exact .inr ⟨x.1, x.2.names, task, rfl⟩
      · exact .inl hmem
    · exact .inr htaken

/-- What is taken in one action is taken by one taker, for a new batch. -/
theorem mem_logAction (h : Handler σ) (log : List QueueEvent) (a : Action) :
    ∃ taker, ∀ e ∈ h.logAction log a, e ∈ log ∨ e.started? = none ∨
      ∃ key names task, e = .taken h.clock key names task h.fresh taker := by
  have hdrain (who : Taker) : ∃ taker, ∀ e ∈ h.logDrain who log, e ∈ log ∨
      e.started? = none ∨ ∃ key names task, e = .taken h.clock key names task h.fresh taker :=
    ⟨who, fun e he => (mem_takes he).imp_right .inr⟩
  have hother {log' : List QueueEvent} (hlog : ∀ e ∈ log', e ∈ log ∨ e.started? = none) :
      ∃ taker, ∀ e ∈ log', e ∈ log ∨ e.started? = none ∨
        ∃ key names task, e = .taken h.clock key names task h.fresh taker :=
    ⟨.timer, fun e he => (hlog e he).imp_right .inl⟩
  have hreport (batch : Nat) : ∀ e ∈ h.logReport batch log, e ∈ log ∨ e.started? = none := by
    unfold logReport
    split <;> simp +contextual [started?]
  have htask (id : Nat) (t : Task) : ∀ e ∈ h.logTask id t log, e ∈ log ∨ e.started? = none := by
    unfold logTask
    split <;> simp +contextual [started?]
  unfold logAction
  split
  · split
    · exact hother (htask _ _)
    · exact hother fun e he => .inl he
  · split
    · exact hdrain _
    · exact hother (hreport _)
    · exact hother fun e he => .inl he
  · exact hdrain .timer
  · split
    · exact hother (hreport _)
    · exact hother fun e he => .inl he
  · exact hother fun e he => .inl he

theorem ledger_start (settings : Settings) (s : σ) : (start settings s).ledger [] =
    ⟨0, fun _ => none, fun _ => none, fun _ => none, .empty, 0, []⟩ := by
  unfold start
  split <;> rfl

/-- The invariants hold in every run. -/
theorem Logged.kept (hr : Logged engine s h log) : (h.ledger log).Kept engine.settings := by
  refine hr.ledger_induction (P := Ledger.Kept engine.settings) ?_ fun _ _ h hstep => h.step hstep
  rw [ledger_start]
  refine ⟨⟨?_, ?_, ?_⟩, ⟨?_, ?_, trivial⟩, ⟨.nil, .nil, trivial, ?_⟩,
    ⟨?_, ?_, fun _ => ⟨?_, ?_, ?_⟩⟩⟩ <;>
    simp [entryOf, since, Ledger.drainOf, Table.count, Table.empty, Table.get?, Table.find?]

theorem Logged.drained (hr : Logged engine s h log) {time time' : Nat} {key key' : EntityKey}
    {names names' : List String} {task task' batch : Nat} {taker taker' : Taker}
    (he : .taken time key names task batch taker ∈ log)
    (he' : .taken time' key' names' task' batch taker' ∈ log) : time = time' ∧ taker = taker' := by
  induction hr with
  | start => cases he
  | @act h h' log a hr hstep ih =>
    -- What was taken before has the number of an older batch.
    have hold {time : Nat} {key : EntityKey} {names : List String} {task : Nat} {taker : Taker}
        (hmem : .taken time key names task h.fresh taker ∈ log) : False :=
      Nat.lt_irrefl _ (hr.kept.numbered.log _ hmem h.fresh (by simp [numbers]))
    obtain ⟨who, hnew⟩ := h.mem_logAction log a
    rcases hnew _ he with hmem | hnone | ⟨_, _, _, heq⟩
    · rcases hnew _ he' with hmem' | hnone | ⟨_, _, _, heq'⟩
      · exact ih hmem hmem'
      · cases hnone
      · cases heq'
        exact (hold hmem).elim
    · cases hnone
    · cases heq
      rcases hnew _ he' with hmem' | hnone | ⟨_, _, _, heq'⟩
      · exact (hold hmem').elim
      · cases hnone
      · cases heq'
        exact ⟨rfl, rfl⟩

namespace Logged

variable (hr : Logged engine s h log)
include hr

theorem queue_eq (key : EntityKey) :
    h.queue.get? key = entryOf engine.settings.recalc.batchDelay key log :=
  hr.kept.queued.queue key

/-- What is taken is the entry that was due then. -/
theorem taken_eq {after before : List QueueEvent} {time : Nat} {key : EntityKey}
    {names : List String} {task batch : Nat} {taker : Taker}
    (hlog : log = after ++ .taken time key names task batch taker :: before) :
    (since key before ≠ [] ∧ names = ascending ((since key before).map Prod.snd)) ∧
      ∃ deadline, entryOf engine.settings.recalc.batchDelay key before = some ⟨names, deadline⟩ ∧
        taker.due time key ⟨names, deadline⟩ = true := by
  obtain ⟨-, deadline, hentry, hdue⟩ := hr.kept.queued.timely.of_append hlog
  refine ⟨?_, deadline, hentry, hdue⟩
  have hnames := names_entryOf key before engine.settings.recalc.batchDelay
  rw [hentry, Option.map_some] at hnames
  split at hnames
  next => cases hnames
  next hne => exact ⟨hne, Option.some.inj hnames⟩

theorem handed_over {after before : List QueueEvent} {time : Nat} {key : EntityKey} {name : String}
    (hlog : log = after ++ .queued time key name :: before) :
    ((∀ e ∈ after, e.isTake key = false) ∧ ∃ e, h.queue.get? key = some e ∧ name ∈ e.names) ∨
      ∃ later between time' names task batch taker,
        after = later ++ .taken time' key names task batch taker :: between ∧
          (∀ e ∈ between, e.isTake key = false) ∧ name ∈ names := by
  rcases exists_last_or_forall (isTake key) after with hnone | ⟨later, e, between, rfl, he, hnone⟩
  · -- The entry has not been taken since.
    have hsince : since key log = after.filterMap (queued? key) ++ (time, name) ::
        since key before := by
      rw [hlog, since_append _ _ hnone, since_queued, if_pos rfl]
    have hnames := names_entryOf key log engine.settings.recalc.batchDelay
    rw [← hr.queue_eq, hsince, if_neg (by simp)] at hnames
    obtain ⟨e, he, hentry⟩ := Option.map_eq_some_iff.1 hnames
    refine .inl ⟨hnone, e, he, ?_⟩
    rw [hentry, mem_ascending]
    simp
  · -- The first event that takes the entry finds everything since the last one before it.
    obtain ⟨time', names, task, batch, taker, rfl⟩ := isTake_iff.1 he
    have hsplit : log = later ++ .taken time' key names task batch taker ::
        (between ++ .queued time key name :: before) := by rw [hlog, List.append_assoc]; rfl
    obtain ⟨⟨-, hnames⟩, -⟩ := hr.taken_eq hsplit
    refine .inr ⟨later, between, time', names, task, batch, taker, rfl, hnone, ?_⟩
    rw [hnames, mem_ascending, since_append _ _ hnone, since_queued, if_pos rfl]
    simp

theorem drains_iff (id : Nat) (key : EntityKey) (names : List String) (actor : String)
    (batch : Nat) :
    (∃ t, h.tasks.get? id = some t ∧ t.key = key ∧ t.job = .drain names actor batch) ↔
      (∃ time taker, .taken time key names id batch taker ∈ log ∧
        taker.actor engine.settings = actor) ∧ id ∉ log.filterMap ended? := by
  refine Iff.trans ?_ (hr.kept.working.working id key names actor batch)
  unfold Ledger.drainOf
  rw [Option.bind_eq_some_iff]
  refine exists_congr fun t => and_congr_right fun _ => ?_
  unfold Task.drain?
  cases t.job <;> simp [eq_comm]

theorem inFlight_eq (key : EntityKey) : h.inFlight.get? key =
    if h.tasks.count (Task.drains key) = 0 then none
    else some (h.tasks.count (Task.drains key)) :=
  hr.kept.counted.inFlight key

theorem inFlight_balance (key : EntityKey) :
    (h.inFlight.get? key).getD 0 = h.tasks.count (Task.drains key) ∧
      (h.inFlight.get? key).getD 0 + log.countP (endedFor (ofKey key)) =
        log.countP (startedFor (ofKey key)) := by
  have hget : (h.inFlight.get? key).getD 0 = h.tasks.count (Task.drains key) := by
    rw [hr.inFlight_eq]
    split
    next hzero => exact hzero.symm
    next => rfl
  refine ⟨hget, ?_⟩
  rw [hget]
  exact hr.kept.counted.balance (ofKey key)

theorem flushing_iff (key : EntityKey) : h.stateOf key = .flushing ↔
    ∃ id t, h.tasks.get? id = some t ∧ t.drains key = true := by
  have hcontains : h.inFlight.contains key = true ↔ 0 < h.tasks.count (Task.drains key) := by
    unfold Table.contains
    rw [hr.inFlight_eq]
    split <;> simp_all [Nat.pos_iff_ne_zero]
  rw [← Table.count_pos_iff, ← hcontains]
  unfold stateOf
  split
  next hc => simp [hc]
  next hc => split <;> simp [hc]

theorem report_eq {batch : Nat} {report : DrainReport} (hmem : .reported batch report ∈ log) :
    report.entities = log.countP (startedFor (inBatch batch)) ∧
      report.entities = log.countP (succeededIn batch) + report.failedEntities ∧
      report.failedEntities = log.countP (failedIn batch) := by
  have hcounted := hr.kept.counted
  obtain ⟨hclosed, hentities, hfailed⟩ := (hcounted.batches batch).reports report hmem
  have hbalance := hcounted.balance (inBatch batch)
  rw [(hcounted.batches batch).closed hclosed, countP_endedFor] at hbalance
  refine ⟨hentities, ?_, hfailed⟩
  rw [hentities, ← hbalance, hfailed, Nat.zero_add]
  rfl

end Logged

/-- What becomes of everything that is queued. -/
structure Conserved (settings : Settings) (h : Handler σ) (log : List QueueEvent) : Prop where
  /-- An entity's entry has what was queued for it since its entry was last taken. -/
  queue : ∀ key, (h.queue.get? key).map QueueEntry.names =
    if since key log = [] then none else some (ascending ((since key log).map Prod.snd))
  /-- So has an entry that is taken; and who flushes a tenant takes entries of that tenant. -/
  taken : ∀ after before time key names task batch taker,
    log = after ++ .taken time key names task batch taker :: before →
      since key before ≠ [] ∧ names = ascending ((since key before).map Prod.snd) ∧
        ∀ tenant actor, taker = .flush (some tenant) actor → key.tenant = tenant
  /-- A queued name is in the queue until the entry is taken, and then in what is taken first. -/
  handed : ∀ after before time key name, log = after ++ .queued time key name :: before →
    ((∀ e ∈ after, e.isTake key = false) ∧ ∃ e, h.queue.get? key = some e ∧ name ∈ e.names) ∨
      ∃ later between time' names task batch taker,
        after = later ++ .taken time' key names task batch taker :: between ∧
          (∀ e ∈ between, e.isTake key = false) ∧ name ∈ names
  /-- A batch is what one taker takes at one time. -/
  drained : ∀ time time' key key' names names' task task' batch taker taker',
    .taken time key names task batch taker ∈ log →
      .taken time' key' names' task' batch taker' ∈ log → time = time' ∧ taker = taker'
  /-- Every entry is taken for a task of its own, and a task ends once. -/
  started : (log.filterMap started?).Nodup
  ended : (log.filterMap ended?).Nodup
  owed : ∀ after before key task batch succeeded,
    log = after ++ .landed key task batch succeeded :: before →
      ∃ time names taker, .taken time key names task batch taker ∈ before
  /-- The tasks that are at work drain what was taken for them. -/
  working : ∀ id key names actor batch,
    (∃ t, h.tasks.get? id = some t ∧ t.key = key ∧ t.job = .drain names actor batch) ↔
      (∃ time taker, .taken time key names id batch taker ∈ log ∧ taker.actor settings = actor) ∧
        id ∉ log.filterMap ended?
  inFlight : ∀ key, (h.inFlight.get? key).getD 0 = h.tasks.count (Task.drains key) ∧
    (h.inFlight.get? key).getD 0 + log.countP (endedFor (ofKey key)) =
      log.countP (startedFor (ofKey key))
  flushing : ∀ key, h.stateOf key = .flushing ↔
    ∃ id t, h.tasks.get? id = some t ∧ t.drains key = true
  report : ∀ batch report, .reported batch report ∈ log →
    report.entities = log.countP (startedFor (inBatch batch)) ∧
      report.entities = log.countP (succeededIn batch) + report.failedEntities ∧
      report.failedEntities = log.countP (failedIn batch)

/-- However tasks, calls, the worker and the clock interleave. -/
theorem Logged.conserved (hr : Logged engine s h log) : h.Conserved engine.settings log where
  queue key := by rw [hr.queue_eq, names_entryOf]
  taken after before time key names task batch taker hlog := by
    obtain ⟨⟨hne, hnames⟩, deadline, -, hdue⟩ := hr.taken_eq hlog
    refine ⟨hne, hnames, ?_⟩
    rintro tenant actor rfl
    exact of_decide_eq_true hdue
  handed _ _ _ _ _ hlog := hr.handed_over hlog
  drained _ _ _ _ _ _ _ _ _ _ _ he he' := hr.drained he he'
  started := hr.kept.working.started
  ended := hr.kept.working.ended
  owed _ _ _ _ _ _ hlog := hr.kept.working.owed.of_append hlog
  working := hr.drains_iff
  inFlight := hr.inFlight_balance
  flushing := hr.flushing_iff
  report _ _ hmem := hr.report_eq hmem

/-! ### Two drains of one entity -/

/-- A tenant is flushed; before the drain has begun its work the property is queued again, and
    everything is flushed.  Then the first drain comes to its end. -/
def overlapping : List Action :=
  let task (id count : Nat) : List Action := List.replicate count (.task id)
  [.notify ⟨echoing.key, "y"⟩] ++ task 0 7 ++
    [.begin (.flush (some echoing.key.tenant) "user"), .call 2, .notify ⟨echoing.key, "y"⟩] ++
    task 5 7 ++ [.begin (.flush none "user"), .call 7] ++ task 4 9 ++ [.call 2]

/-- The entry was taken twice, by two tasks, and one of them is still at work. -/
theorem overlapping_conserved : ∃ h log,
    Logged plainEngine (MemoryStore.insert {} echoing) h log ∧
      log.countP (startedFor (ofKey echoing.key)) = 2 ∧
      (h.inFlight.get? echoing.key).getD 0 = 1 ∧ h.stateOf echoing.key = .flushing ∧
      ∃ report, .reported 3 report ∈ log ∧ report.entities = 1 := by
  have hacts : (actsLogged plainEngine overlapping
      (start plainEngine.settings (MemoryStore.insert {} echoing), [])).any (fun x =>
        x.2.countP (startedFor (ofKey echoing.key)) = 2 ∧
        x.2.countP (endedFor (ofKey echoing.key)) = 1 ∧
        x.2.countP (startedFor (inBatch 3)) = 1 ∧
        x.2.head? = some (.reported 3 ⟨1, 1, 0, 0⟩)) = true := by
    decide +kernel
  obtain ⟨⟨h, log⟩, hrun, hlog⟩ := (Option.any_eq_true ..).1 hacts
  obtain ⟨hstarted, hended, hbatch, hhead⟩ := of_decide_eq_true hlog
  have hr : Logged plainEngine (MemoryStore.insert {} echoing) h log := Logged.start.acts hrun
  obtain ⟨htasks, hbalance⟩ := hr.conserved.inFlight echoing.key
  have hone : (h.inFlight.get? echoing.key).getD 0 = 1 := by
    dsimp only at hstarted hended
    omega
  have hmem : .reported 3 ⟨1, 1, 0, 0⟩ ∈ log := List.mem_of_mem_head? hhead
  refine ⟨h, log, hr, hstarted, hone, ?_, _, hmem, ?_⟩
  · refine (hr.conserved.flushing echoing.key).2 (Table.count_pos_iff.1 ?_)
    omega
  · rw [(hr.conserved.report 3 _ hmem).1]
    exact hbatch

end Handler

end EntityFormulas
