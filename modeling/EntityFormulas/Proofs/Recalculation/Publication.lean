/-
  EntityFormulas/Proofs/Recalculation/Publication.lean
  ====================================================
  **What is published of a pass.**

  A pass writes its results one after another and publishes them together when
  all are written.  A store may refuse any of them.  The handler's state does not
  keep what its tasks have done, so a run is accompanied by a journal of it: what
  each task has computed, what the store has accepted of that, and the events.

  `Balances` ties the journal to the stage of every task.  A task whose pass is
  over has written some first results, and published all of them if these were
  all, and none at all otherwise (`Recorded.publishes`).  So what a pass has
  published is what it has written unless the store refused a result after it
  had accepted another one of the same pass (`torn_unpublished`).

  The store is any store, and others may change what is in it at any time.
-/
import EntityFormulas.Proofs.Recalculation.Steps
import Mathlib.Data.List.Basic

namespace EntityFormulas

/-! ### The journal -/

/-- Something that a task has done. -/
inductive Entry where
  /-- It has computed what it is going to write to an entity. -/
  | began (task : Nat) (key : EntityKey) (outcome : PassOutcome) (actor : String)
  /-- The store has accepted a record of its pass. -/
  | persisted (task : Nat) (record : StateRecord)
  | published (task : Nat) (event : RecomputedEvent)

namespace Entry

def task : Entry → Nat
  | began id _ _ _ | persisted id _ | published id _ => id

def event? : Entry → Option RecomputedEvent
  | published _ e => some e
  | _ => none

/-- The entries of a pass of which so many results are written and these events are published. -/
def ofPass (id : Nat) (key : EntityKey) (o : PassOutcome) (actor : String) (written : Nat)
    (events : List RecomputedEvent) : List Entry :=
  .began id key o actor :: ((o.records key.entity actor).take written).map (.persisted id) ++
    events.map (.published id)

theorem filterMap_published (id : Nat) (events : List RecomputedEvent) :
    (events.map (published id)).filterMap event? = events := by
  rw [List.filterMap_map]
  exact List.filterMap_some

theorem filterMap_ofPass (id : Nat) (key : EntityKey) (o : PassOutcome) (actor : String)
    (written : Nat) (events : List RecomputedEvent) :
    (ofPass id key o actor written events).filterMap event? = events := by
  have hpersisted (rs : List StateRecord) : (rs.map (persisted id)).filterMap event? = [] := by
    rw [List.filterMap_map]
    exact List.filterMap_eq_nil_iff.2 fun _ _ => rfl
  rw [ofPass, List.filterMap_append, filterMap_published, List.filterMap_cons_none rfl, hpersisted,
    List.nil_append]

end Entry

/-- What the next step of a task adds to the journal, but for events. -/
def Task.entries {σ : Type} (store : EntityStore σ) (s : σ) (id : Nat) (t : Task) : List Entry :=
  match t.stage with
  | .reading _ _ (.done (.ok (.pass o actor))) => [.began id t.key o actor]
  | .writing _ (.pass _ _) (r :: _) =>
    match (store.write t.key.tenant r s).1 with
    | .ok _ => [.persisted id r]
    | .error _ => []
  | _ => []

namespace Task

variable {σ : Type} {store : EntityStore σ} {s : σ} {id : Nat} {t : Task}

theorem task_of_mem_entries {e : Entry} (he : e ∈ t.entries store s id) : e.task = id := by
  unfold entries at he
  split at he
  · rw [List.mem_singleton.1 he]
    rfl
  · split at he
    · rw [List.mem_singleton.1 he]
      rfl
    · exact absurd he List.not_mem_nil
  · exact absurd he List.not_mem_nil

theorem filterMap_entries : (t.entries store s id).filterMap Entry.event? = [] := by
  unfold entries
  split
  · rfl
  · split <;> rfl
  · rfl

end Task

/-- What an action that leads from one state to another adds to the journal. -/
def Handler.entries {σ : Type} (engine : Engine σ) (h h' : Handler σ) : Handler.Action → List Entry
  | .task id =>
    match h.tasks.get? id with
    | some t => t.entries engine.store h.store id ++
        (h'.events.drop h.events.length).map (.published id)
    | none => []
  | _ => []

/-- The states that a handler comes to from its start, each with the journal so far.  Others may
    put the store into any state at any time. -/
inductive Recorded {σ : Type} (engine : Engine σ) (s : σ) : Handler σ → List Entry → Prop where
  | start : Recorded engine s (Handler.start engine.settings s) []
  | act {h h' : Handler σ} {journal : List Entry} (a : Handler.Action)
    (hr : Recorded engine s h journal) (hstep : h.step engine a = some h') :
    Recorded engine s h' (journal ++ h.entries engine h' a)
  | outside {h : Handler σ} {journal : List Entry} (hr : Recorded engine s h journal) (s' : σ) :
    Recorded engine s { h with store := s' } journal

/-! ### What the journal says of a task -/

/-- The events of a pass that has written so many of its results. -/
def PassOutcome.announced (key : EntityKey) (o : PassOutcome) (written : Nat) :
    List RecomputedEvent :=
  if written = o.results.length then o.results.map (RecomputedEvent.ofResult key) else []

/-- The entries of a task that is done: none, or a pass with all the events that it will have. -/
def Entry.Complete (id : Nat) (es : List Entry) : Prop :=
  es = [] ∨ ∃ key o actor written, written ≤ o.results.length ∧
    es = Entry.ofPass id key o actor written (o.announced key written)

/-- The entries of the task of a drain with that result, whose events are still to come. -/
def Entry.Owing (id : Nat) (key : EntityKey) (r : TaskResult) (es : List Entry) : Prop :=
  (es = [] ∧ ∀ o, r ≠ .ok (some o)) ∨ ∃ o actor written, written ≤ o.results.length ∧
    es = Entry.ofPass id key o actor written [] ∧
    if written = o.results.length then r = .ok (some o) else ∃ e, r = .error e

/-- The events that the result of a pass comes with. -/
def TaskResult.events (key : EntityKey) : TaskResult → List RecomputedEvent
  | .ok (some o) => o.results.map (RecomputedEvent.ofResult key)
  | _ => []

/-- The events that a task publishes as soon as its pass is written; those of drains come later. -/
def Task.announces (o : PassOutcome) (t : Task) : List RecomputedEvent :=
  match t.job with
  | .notification _ => o.results.map (RecomputedEvent.ofResult t.key)
  | .drain .. => []

/-- What a task has done by its stage. -/
def Task.Accounts (id : Nat) (es : List Entry) (t : Task) : Prop :=
  match t.stage with
  | .arriving | .waiting _ | .reading .. => es = []
  | .writing _ (.pass o actor) rest => ∃ written, written ≤ o.results.length ∧
      rest = (o.records t.key.entity actor).drop written ∧
      es = Entry.ofPass id t.key o actor written []
  | .writing .. => es = []
  | .leaving _ r | .closing _ r =>
    match t.job with
    | .notification _ => Entry.Complete id es
    | .drain .. => Entry.Owing id t.key r es
  | .landing _ | .finished _ => Entry.Complete id es

/-- The entries of a pass grow by what is written. -/
theorem Entry.ofPass_succ {id : Nat} {key : EntityKey} {o : PassOutcome} {actor : String}
    {written : Nat} {r : StateRecord} {rest : List StateRecord}
    (h : r :: rest = (o.records key.entity actor).drop written) :
    Entry.ofPass id key o actor (written + 1) [] =
      Entry.ofPass id key o actor written [] ++ [.persisted id r] := by
  have htake : (o.records key.entity actor).take (written + 1) =
      (o.records key.entity actor).take written ++ [r] := by
    have hget : (o.records key.entity actor)[written]? = some r := by
      rw [← List.head?_drop, ← h]
      rfl
    rw [List.take_add_one, hget]
    rfl
  simp [Entry.ofPass, htake]

/-- The events of a pass come after what it has written. -/
theorem Entry.ofPass_append {id : Nat} {key : EntityKey} {o : PassOutcome} {actor : String}
    {written : Nat} (events : List RecomputedEvent) :
    Entry.ofPass id key o actor written [] ++ events.map (.published id) =
      Entry.ofPass id key o actor written events := by
  simp [Entry.ofPass]

/-- Nothing is owed any more once the events of the result are published. -/
theorem Entry.Owing.complete {id : Nat} {key : EntityKey} {r : TaskResult} {es : List Entry}
    (h : Entry.Owing id key r es) :
    Entry.Complete id (es ++ (r.events key).map (.published id)) := by
  rcases h with ⟨rfl, hr⟩ | ⟨o, actor, written, hle, rfl, hr⟩
  · cases r with
    | error e => exact .inl rfl
    | ok o =>
      cases o with
      | none => exact .inl rfl
      | some o => exact absurd rfl (hr o)
  · refine .inr ⟨key, o, actor, written, hle, ?_⟩
    rw [Entry.ofPass_append, PassOutcome.announced]
    split at hr
    · rename_i hall
      rw [hr, if_pos hall]
      rfl
    · rename_i hsome
      obtain ⟨e, rfl⟩ := hr
      rw [if_neg hsome]
      rfl

namespace Task.Accounts

variable {id lock : Nat} {es : List Entry} {t : Task}

/-- A task without a pass leaves without entries. -/
theorem leaving_nil {r : TaskResult} (h : es = []) (hr : ∀ o, r ≠ .ok (some o)) :
    Task.Accounts id es { t with stage := .leaving lock r } := by
  unfold Task.Accounts
  cases t.job with
  | notification property => exact .inl h
  | drain names actor batch => exact .inl ⟨h, hr⟩

/-- A task whose pass cannot be written to its end leaves with what it has written. -/
theorem leaving_error {o : PassOutcome} {actor : String} {written : Nat} {e : PassError}
    (hlt : written < o.results.length) (h : es = Entry.ofPass id t.key o actor written []) :
    Task.Accounts id es { t with stage := .leaving lock (.error e) } := by
  have hne : written ≠ o.results.length := Nat.ne_of_lt hlt
  unfold Task.Accounts
  cases t.job with
  | notification property =>
    refine .inr ⟨t.key, o, actor, written, Nat.le_of_lt hlt, ?_⟩
    rw [PassOutcome.announced, if_neg hne]
    exact h
  | drain names drainer batch =>
    refine .inr ⟨o, actor, written, Nat.le_of_lt hlt, h, ?_⟩
    rw [if_neg hne]
    exact ⟨e, rfl⟩

/-- A task whose pass is written leaves with all of it. -/
theorem leaving_pass {o : PassOutcome} {actor : String}
    (h : es = Entry.ofPass id t.key o actor o.results.length []) :
    Task.Accounts id (es ++ (t.announces o).map (.published id))
      { t with stage := .leaving lock (.ok (some o)) } := by
  unfold Task.Accounts Task.announces
  cases t.job with
  | notification property =>
    refine .inr ⟨t.key, o, actor, o.results.length, Nat.le_refl _, ?_⟩
    rw [h, Entry.ofPass_append, PassOutcome.announced, if_pos rfl]
  | drain names drainer batch =>
    refine .inr ⟨o, actor, o.results.length, Nat.le_refl _, ?_, ?_⟩
    · rw [h]
      exact List.append_nil _
    · rw [if_pos rfl]

end Task.Accounts

/-- The journal accounts for the events and for what every task has done. -/
structure Handler.Balances {σ : Type} (h : Handler σ) (journal : List Entry) : Prop where
  events : h.events = journal.filterMap Entry.event?
  numbered : ∀ e ∈ journal, e.task < h.fresh
  tasks : ∀ id t, h.tasks.get? id = some t →
    id < h.fresh ∧ t.Accounts id (journal.filter fun e => e.task = id)
  gone : ∀ id, h.tasks.get? id = none → Entry.Complete id (journal.filter fun e => e.task = id)

/-! ### Actions of others than tasks -/

/-- What nobody but a task does: nothing is published, tasks are started, and finished ones are
    forgotten. -/
structure Handler.Aside {σ : Type} (h h' : Handler σ) : Prop where
  events : h'.events = h.events
  fresh : h.fresh ≤ h'.fresh
  kept : ∀ id t, h'.tasks.get? id = some t →
    h.tasks.get? id = some t ∨ h.fresh ≤ id ∧ id < h'.fresh ∧ t.stage = .arriving
  gone : ∀ id t, id < h.fresh → h.tasks.get? id = some t →
    h'.tasks.get? id = some t ∨ ∃ r, t.stage = .finished r

namespace Handler

variable {σ : Type} {h h' h'' : Handler σ}

namespace Aside

theorem of_eq (hevents : h'.events = h.events) (hfresh : h.fresh ≤ h'.fresh)
    (htasks : h'.tasks = h.tasks) : h.Aside h' := by
  refine ⟨hevents, hfresh, ?_, ?_⟩
  · intro id t ht
    rw [htasks] at ht
    exact .inl ht
  · intro id t _ ht
    rw [htasks]
    exact .inl ht

theorem refl (h : Handler σ) : h.Aside h := of_eq rfl (Nat.le_refl _) rfl

theorem trans (hb : h.Aside h') (hc : h'.Aside h'') : h.Aside h'' := by
  refine ⟨hc.events.trans hb.events, Nat.le_trans hb.fresh hc.fresh, ?_, ?_⟩
  · intro id t ht
    rcases hc.kept id t ht with ht | ⟨hle, hlt, hs⟩
    · rcases hb.kept id t ht with ht | ⟨hle, hlt, hs⟩
      · exact .inl ht
      · exact .inr ⟨hle, Nat.lt_of_lt_of_le hlt hc.fresh, hs⟩
    · exact .inr ⟨Nat.le_trans hb.fresh hle, hlt, hs⟩
  · intro id t hid ht
    rcases hb.gone id t hid ht with ht | hfinished
    · exact hc.gone id t (Nat.lt_of_lt_of_le hid hb.fresh) ht
    · exact .inr hfinished

/-- A task is started under the next number. -/
theorem start {t : Task} (hevents : h'.events = h.events) (hfresh : h'.fresh = h.fresh + 1)
    (htasks : h'.tasks = h.tasks.insert h.fresh t) (hs : t.stage = .arriving) : h.Aside h' := by
  refine ⟨hevents, by omega, ?_, ?_⟩
  · intro id u hu
    rw [htasks, Table.get?_insert] at hu
    split at hu
    · rename_i hid
      cases hu
      exact .inr ⟨by omega, by omega, hs⟩
    · exact .inl hu
  · intro id u hid hu
    rw [htasks, Table.get?_insert, if_neg (by omega)]
    exact .inl hu

theorem notify (n : Notification) (h : Handler σ) : h.Aside (h.notify n).2 :=
  start rfl rfl rfl rfl

theorem drain (due : EntityKey → QueueEntry → Bool) (actor : String) (h : Handler σ) :
    h.Aside (h.drain due actor).2 := by
  have hfold (batch : Nat) (es : List (EntityKey × QueueEntry)) (g : Handler σ) :
      g.Aside (es.foldl (launch actor batch) g) := by
    induction es generalizing g with
    | nil => exact refl g
    | cons e rest ih =>
      have hfirst : g.Aside (g.launch actor batch e) := start rfl rfl rfl rfl
      exact hfirst.trans (ih (g.launch actor batch e))
  have hrest : h.Aside { h with
      queue := h.queue.filter fun key e => !due key e
      batches := h.batches.insert h.fresh { remaining := (h.queue.filter due).entries.length }
      fresh := h.fresh + 1 } := of_eq rfl (Nat.le_succ _) rfl
  exact hrest.trans (hfold _ _ _)

/-- The task of a notification is forgotten. -/
theorem forget {id : Nat} {t : Task} {result : TaskResult} (ht : h.tasks.get? id = some t)
    (hs : t.stage = .finished result) : h.Aside { h with tasks := h.tasks.erase id } := by
  refine ⟨rfl, Nat.le_refl _, ?_, ?_⟩
  · intro j u hu
    rw [Table.get?_erase] at hu
    split at hu
    · cases hu
    · exact .inl hu
  · intro j u _ hu
    rw [Table.get?_erase]
    split
    · rename_i hj
      rw [← hj, ht] at hu
      cases hu
      exact .inr ⟨_, hs⟩
    · exact .inl hu

variable {engine : Engine σ}

theorem stepWorker {cue : WorkerCue} (hstep : h.stepWorker engine cue = some h') : h.Aside h' := by
  cases stepWorker_cases hstep with
  | stop | arm | heed | wake | resume => exact of_eq rfl (Nat.le_refl _) rfl
  | drain => exact trans (drain _ _ h) (of_eq rfl (Nat.le_refl _) rfl)

theorem stepCall {id : Nat} {c : Call} (hstep : h.stepCall engine id c = some h') : h.Aside h' := by
  cases stepCall_cases hstep with
  | flush => exact trans (drain _ _ h) (of_eq rfl (Nat.le_refl _) rfl)
  | report | tell | pass | stopped | done => exact of_eq rfl (Nat.le_refl _) rfl
  | next n => exact trans (notify n h) (of_eq rfl (Nat.le_refl _) rfl)
  | handled ht hs | failed ht hs => exact trans (forget ht hs) (of_eq rfl (Nat.le_refl _) rfl)

/-- Only the actions of tasks are not aside. -/
theorem step {a : Action} (hstep : h.step engine a = some h') (ha : ∀ id, a ≠ .task id) :
    h.Aside h' := by
  cases step_cases hstep with
  | notify n => exact notify n h
  | begin => exact of_eq rfl (Nat.le_succ _) rfl
  | task => exact absurd rfl (ha _)
  | call _ hstep => exact stepCall hstep
  | worker hstep => exact stepWorker hstep
  | collect ht hs => exact forget ht hs
  | report | clock => exact of_eq rfl (Nat.le_refl _) rfl

end Aside

/-! ### The journal goes on -/

/-- What the step of a task puts into the journal. -/
def stepEntries (engine : Engine σ) (id : Nat) (t : Task) (h h' : Handler σ) : List Entry :=
  t.entries engine.store h.store id ++ (h'.events.drop h.events.length).map (.published id)

theorem conclude_tasks (engine : Engine σ) (t : Task) (plan : Plan) (w : Except PassError Unit)
    (h : Handler σ) : (h.conclude engine t plan w).tasks = h.tasks ∧
      (h.conclude engine t plan w).fresh = h.fresh := by
  obtain ⟨_, _, _, _, heq⟩ := h.conclude_frame engine t plan w
  rw [heq]
  exact ⟨rfl, rfl⟩

/-- Of what a task does at the end of its writing only a pass that is written has events. -/
theorem conclude_events (engine : Engine σ) (t : Task) {plan : Plan} {w : Except PassError Unit}
    (h : Handler σ) (hw : (∃ e, w = .error e) ∨ plan.outcome? = none) :
    (h.conclude engine t plan w).events = h.events := by
  unfold conclude
  cases t.job with
  | drain names actor batch => rfl
  | notification property =>
    rcases hw with ⟨e, rfl⟩ | hplan
    · cases plan <;> rfl
    · cases plan with
      | pass o actor => exact nomatch hplan
      | enqueue mark => cases w <;> rfl
      | _ => rfl

theorem conclude_pass_events (engine : Engine σ) (t : Task) (o : PassOutcome) (actor : String)
    (h : Handler σ) :
    (h.conclude engine t (.pass o actor) (.ok ())).events = h.events ++ t.announces o := by
  unfold conclude Task.announces
  cases t.job with
  | drain names actor batch => exact (List.append_nil _).symm
  | notification property => rfl

/-- The events of a pass are those of its result, if it made one. -/
theorem finishPass_aside (key : EntityKey) (result : TaskResult) (h : Handler σ) :
    (h.finishPass key (passResult result)).events = h.events ++ result.events key ∧
      (h.finishPass key (passResult result)).tasks = h.tasks ∧
      (h.finishPass key (passResult result)).fresh = h.fresh := by
  cases result with
  | error e => exact ⟨(List.append_nil _).symm, rfl, rfl⟩
  | ok o => cases o <;> exact ⟨rfl, rfl, rfl⟩

namespace Balances

variable {journal : List Entry} (hb : h.Balances journal)
include hb

/-- What is done aside of tasks needs no entry. -/
theorem aside (ha : h.Aside h') : h'.Balances journal := by
  have hunused {id : Nat} (hid : h.fresh ≤ id) :
      (journal.filter fun e => e.task = id) = [] := by
    apply List.filter_eq_nil_iff.2
    intro e he hid'
    have := hb.numbered e he
    have := of_decide_eq_true hid'
    omega
  constructor
  · rw [ha.events, hb.events]
  · exact fun e he => Nat.lt_of_lt_of_le (hb.numbered e he) ha.fresh
  · intro id t ht
    rcases ha.kept id t ht with ht | ⟨hle, hlt, hs⟩
    · obtain ⟨hid, haccounts⟩ := hb.tasks id t ht
      exact ⟨Nat.lt_of_lt_of_le hid ha.fresh, haccounts⟩
    · refine ⟨hlt, ?_⟩
      unfold Task.Accounts
      rw [hs]
      exact hunused hle
  · intro id hgone
    cases ht : h.tasks.get? id with
    | none => exact hb.gone id ht
    | some t =>
      obtain ⟨hid, haccounts⟩ := hb.tasks id t ht
      rcases ha.gone id t hid ht with ht' | ⟨r, hs⟩
      · rw [hgone] at ht'
        exact nomatch ht'
      · unfold Task.Accounts at haccounts
        rw [hs] at haccounts
        exact haccounts

variable {engine : Engine σ} {id : Nat} {t : Task} (ht : h.tasks.get? id = some t)
include ht

/-- What a task does has its entries, and only its own accounts change. -/
theorem extend (es : List Entry) (hes : ∀ e ∈ es, e.task = id)
    (hevents : h'.events = h.events ++ es.filterMap Entry.event?) (hfresh : h.fresh ≤ h'.fresh)
    (hothers : ∀ j, j ≠ id → h'.tasks.get? j = h.tasks.get? j)
    (hown : match h'.tasks.get? id with
      | some u => u.Accounts id ((journal.filter fun e => e.task = id) ++ es)
      | none => Entry.Complete id ((journal.filter fun e => e.task = id) ++ es)) :
    h'.Balances (journal ++ es) := by
  have hid := (hb.tasks id t ht).1
  have hfilter : ((journal ++ es).filter fun e => e.task = id) =
      (journal.filter fun e => e.task = id) ++ es := by
    have hall : (es.filter fun e => e.task = id) = es :=
      List.filter_eq_self.2 fun e he => decide_eq_true (hes e he)
    rw [List.filter_append, hall]
  have hother {j : Nat} (hj : j ≠ id) : ((journal ++ es).filter fun e => e.task = j) =
      journal.filter fun e => e.task = j := by
    have hnone : (es.filter fun e => e.task = j) = [] := by
      apply List.filter_eq_nil_iff.2
      intro e he hej
      exact hj ((of_decide_eq_true hej).symm.trans (hes e he))
    rw [List.filter_append, hnone, List.append_nil]
  constructor
  · rw [hevents, hb.events, List.filterMap_append]
  · intro e he
    rcases List.mem_append.1 he with he | he
    · exact Nat.lt_of_lt_of_le (hb.numbered e he) hfresh
    · rw [hes e he]
      exact Nat.lt_of_lt_of_le hid hfresh
  · intro j u hu
    by_cases hj : j = id
    · subst hj
      rw [hu] at hown
      rw [hfilter]
      exact ⟨Nat.lt_of_lt_of_le hid hfresh, hown⟩
    · rw [hothers j hj] at hu
      rw [hother hj]
      obtain ⟨hlt, haccounts⟩ := hb.tasks j u hu
      exact ⟨Nat.lt_of_lt_of_le hlt hfresh, haccounts⟩
  · intro j hu
    by_cases hj : j = id
    · subst hj
      rw [hu] at hown
      rw [hfilter]
      exact hown
    · rw [hothers j hj] at hu
      rw [hother hj]
      exact hb.gone j hu

/-- The task comes to another stage and publishes events. -/
theorem advance (stage : Stage) (events : List RecomputedEvent)
    (hevents : h'.events = h.events ++ events) (hfresh : h.fresh ≤ h'.fresh)
    (htasks : h'.tasks = h.tasks.insert id { t with stage })
    (hown : Task.Accounts id ((journal.filter fun e => e.task = id) ++
      (t.entries engine.store h.store id ++ events.map (.published id))) { t with stage }) :
    h'.Balances (journal ++ h.stepEntries engine id t h') := by
  unfold stepEntries
  rw [hevents, List.drop_left]
  apply hb.extend ht (t.entries engine.store h.store id ++ events.map (Entry.published id))
  · intro e he
    rcases List.mem_append.1 he with he | he
    · exact Task.task_of_mem_entries he
    · obtain ⟨event, -, rfl⟩ := List.mem_map.1 he
      rfl
  · rw [hevents, List.filterMap_append, Task.filterMap_entries, Entry.filterMap_published]
    rfl
  · exact hfresh
  · intro j hj
    rw [htasks, Table.get?_insert, if_neg (Ne.symm hj)]
  · rw [htasks, Table.get?_insert, if_pos rfl]
    exact hown

/-- The task comes to another stage and does nothing that the journal is about. -/
theorem pass (stage : Stage) (hentries : t.entries engine.store h.store id = [])
    (hevents : h'.events = h.events) (hfresh : h.fresh ≤ h'.fresh)
    (htasks : h'.tasks = h.tasks.insert id { t with stage })
    (hown : Task.Accounts id (journal.filter fun e => e.task = id) { t with stage }) :
    h'.Balances (journal ++ h.stepEntries engine id t h') := by
  apply hb.advance ht stage [] (hevents.trans (List.append_nil _).symm) hfresh htasks
  rw [hentries]
  simpa using hown

variable {lock : Nat}

theorem stepReading {resume : Nat} {program : Lookup (Except StoreError Plan)}
    (hs : t.stage = .reading lock resume program)
    (hstep : h.stepReading engine id t lock resume program = h') :
    h'.Balances (journal ++ h.stepEntries engine id t h') := by
  have hown : (journal.filter fun e => e.task = id) = [] := by
    have haccounts := (hb.tasks id t ht).2
    unfold Task.Accounts at haccounts
    rw [hs] at haccounts
    exact haccounts
  subst hstep
  cases program with
  | done r =>
    cases r with
    | error e =>
      refine hb.pass ht (.leaving lock (.error (.load e))) ?_ rfl (Nat.le_refl _) rfl ?_
      · simp [Task.entries, hs]
      · exact .leaving_nil hown fun _ h => nomatch h
    | ok plan =>
      cases plan with
      | pass o actor =>
        refine hb.advance ht (.writing lock (.pass o actor) (o.records t.key.entity actor)) []
          (List.append_nil _).symm (Nat.le_refl _) rfl ?_
        refine ⟨0, Nat.zero_le _, rfl, ?_⟩
        simp [Task.entries, hs, hown, Entry.ofPass]
      | ignore | skip | enqueue mark =>
        refine hb.pass ht (.writing lock _ _) ?_ rfl (Nat.le_refl _) rfl hown
        simp [Task.entries, hs]
  | entities tenant ids next =>
    refine hb.pass ht (.reading lock _ _) ?_ rfl (Nat.le_refl _) rfl hown
    simp [Task.entries, hs]
  | relationships tenant entity next =>
    refine hb.pass ht (.reading lock resume _) ?_ rfl (Nat.le_refl _) rfl hown
    simp [Task.entries, hs]

/-- A task that has written all its records publishes the results of its pass, if it has made one. -/
theorem settle {plan : Plan} (hs : t.stage = .writing lock plan []) :
    let h' := h.stepWriting engine id t lock plan []
    h'.Balances (journal ++ h.stepEntries engine id t h') := by
  have haccounts := (hb.tasks id t ht).2
  unfold Task.Accounts at haccounts
  rw [hs] at haccounts
  have hentries : t.entries engine.store h.store id = [] := by simp [Task.entries, hs]
  obtain ⟨htasks, hfresh⟩ := h.conclude_tasks engine t plan (.ok ())
  have htasks : ((h.conclude engine t plan (.ok ())).setStage id t
      (.leaving lock (.ok plan.outcome?))).tasks =
        h.tasks.insert id { t with stage := .leaving lock (.ok plan.outcome?) } := by
    rw [setStage, htasks]
  cases plan with
  | pass o actor =>
    obtain ⟨written, hle, hrest, hown⟩ := haccounts
    have hlength : written = o.results.length := by
      have := List.drop_eq_nil_iff.1 hrest.symm
      rw [PassOutcome.records, List.length_map] at this
      omega
    refine hb.advance ht (.leaving lock (.ok (some o))) (t.announces o)
      (h.conclude_pass_events engine t o actor) (Nat.le_of_eq hfresh.symm) htasks ?_
    rw [hentries, List.nil_append]
    exact .leaving_pass (hlength ▸ hown)
  | ignore | skip | enqueue mark =>
    refine hb.pass ht (.leaving lock (.ok none)) hentries
      (h.conclude_events engine t (.inr rfl)) (Nat.le_of_eq hfresh.symm) htasks ?_
    exact .leaving_nil haccounts fun _ h => nomatch h

/-- A task whose record is refused writes nothing more, and publishes nothing here. -/
theorem refuse {plan : Plan} {r : StateRecord} {rest : List StateRecord} {e : PassError} {store : σ}
    (hs : t.stage = .writing lock plan (r :: rest))
    (hw : engine.store.write t.key.tenant r h.store = (.error e, store)) :
    let h' := ({ h with store }.conclude engine t plan (.error e)).setStage id t
      (.leaving lock (.error e))
    h'.Balances (journal ++ h.stepEntries engine id t h') := by
  have haccounts := (hb.tasks id t ht).2
  unfold Task.Accounts at haccounts
  rw [hs] at haccounts
  have hentries : t.entries engine.store h.store id = [] := by
    cases plan <;> simp [Task.entries, hs, hw]
  obtain ⟨_, heq⟩ := ({ h with store }).conclude_error_frame engine t plan e
  rw [heq]
  refine hb.pass ht (.leaving lock (.error e)) hentries rfl (Nat.le_refl _) rfl ?_
  cases plan with
  | pass o actor =>
    obtain ⟨written, -, hrest, hown⟩ := haccounts
    have hlt : written < o.results.length := by
      have := congrArg List.length hrest
      rw [List.length_drop, PassOutcome.records, List.length_map, List.length_cons] at this
      omega
    exact .leaving_error hlt hown
  | ignore | skip | enqueue mark => exact .leaving_nil haccounts fun _ h => nomatch h

/-- A record that is accepted is the next one of its pass. -/
theorem write {plan : Plan} {r : StateRecord} {rest : List StateRecord} {store : σ}
    (hs : t.stage = .writing lock plan (r :: rest))
    (hw : engine.store.write t.key.tenant r h.store = (.ok (), store)) :
    let h' := { h with store }.setStage id t (.writing lock plan rest)
    h'.Balances (journal ++ h.stepEntries engine id t h') := by
  have haccounts := (hb.tasks id t ht).2
  unfold Task.Accounts at haccounts
  rw [hs] at haccounts
  cases plan with
  | pass o actor =>
    obtain ⟨written, -, hrest, hown⟩ := haccounts
    refine hb.advance ht (.writing lock (.pass o actor) rest) [] (List.append_nil _).symm
      (Nat.le_refl _) rfl ?_
    refine ⟨written + 1, ?_, ?_, ?_⟩
    · have := congrArg List.length hrest
      rw [List.length_drop, PassOutcome.records, List.length_map, List.length_cons] at this
      omega
    · rw [← List.tail_drop, ← hrest]
      rfl
    · rw [Entry.ofPass_succ hrest, hown]
      simp [Task.entries, hs, hw]
  | ignore | skip | enqueue mark =>
    refine hb.pass ht (.writing lock _ rest) ?_ rfl (Nat.le_refl _) rfl haccounts
    simp [Task.entries, hs]

theorem stepWriting {plan : Plan} {rest : List StateRecord}
    (hs : t.stage = .writing lock plan rest)
    (hstep : h.stepWriting engine id t lock plan rest = h') :
    h'.Balances (journal ++ h.stepEntries engine id t h') := by
  subst hstep
  cases rest with
  | nil => exact hb.settle ht hs
  | cons r rest =>
    unfold Handler.stepWriting
    dsimp only
    rcases hw : engine.store.write t.key.tenant r h.store with ⟨e | _, store⟩
    · exact hb.refuse ht hs hw
    · exact hb.write ht hs hw

theorem stepClosing {result : TaskResult} (hs : t.stage = .closing lock result)
    (hstep : h.stepClosing id t lock result = h') :
    h'.Balances (journal ++ h.stepEntries engine id t h') := by
  have haccounts := (hb.tasks id t ht).2
  unfold Task.Accounts at haccounts
  rw [hs] at haccounts
  have hentries : t.entries engine.store h.store id = [] := by simp [Task.entries, hs]
  subst hstep
  obtain ⟨passLocks, locks, heq⟩ := h.closeLock_frame t.key lock
  unfold Handler.stepClosing
  rw [heq]
  cases hj : t.job with
  | notification property =>
    rw [hj] at haccounts
    exact hb.pass ht (.finished result) hentries rfl (Nat.le_refl _) rfl haccounts
  | drain names actor batch =>
    rw [hj] at haccounts
    obtain ⟨hevents, htasks, hfresh⟩ := { h with passLocks, locks }.finishPass_aside t.key result
    refine hb.advance ht (.landing result) (result.events t.key) hevents
      (Nat.le_of_eq hfresh.symm) (congrArg (fun ts => Table.insert ts id _) htasks) ?_
    rw [hentries, List.nil_append]
    exact haccounts.complete

theorem stepLanding {result : TaskResult} (hs : t.stage = .landing result)
    (hstep : h.stepLanding id t result = h') :
    h'.Balances (journal ++ h.stepEntries engine id t h') := by
  have haccounts := (hb.tasks id t ht).2
  unfold Task.Accounts at haccounts
  rw [hs] at haccounts
  have hentries : t.entries engine.store h.store id = [] := by simp [Task.entries, hs]
  subst hstep
  unfold Handler.stepLanding
  cases t.job with
  | notification property => simpa [stepEntries, hentries] using hb
  | drain names actor batch =>
    obtain ⟨inFlight, heq⟩ := h.leaveFlight_frame t.key
    dsimp only
    rw [heq]
    simp only [stepEntries, hentries, List.drop_length, List.map_nil, List.append_nil]
    rw [← List.append_nil journal]
    refine hb.extend ht [] (fun _ he => absurd he List.not_mem_nil) (List.append_nil _).symm
      (Nat.le_refl _) (fun j hj => ?_) ?_
    · exact (Table.get?_erase ..).trans (if_neg (Ne.symm hj))
    · dsimp only
      rw [Table.get?_erase, if_pos rfl, List.append_nil]
      exact haccounts

/-- Whatever step a task makes, the journal goes on to account for it. -/
theorem stepTask (hstep : h.stepTask engine id t = some h') :
    h'.Balances (journal ++ h.stepEntries engine id t h') := by
  have haccounts := (hb.tasks id t ht).2
  unfold Task.Accounts at haccounts
  cases stepTask_cases hstep with
  | arrive hs =>
    rw [hs] at haccounts
    obtain ⟨_, _, _, hfresh, heq⟩ := h.openLock_frame t.key
    rw [heq]
    exact hb.pass ht (.waiting _) (by simp [Task.entries, hs]) rfl hfresh rfl haccounts
  | @acquire lock handles hs =>
    rw [hs] at haccounts
    exact hb.pass ht (.reading lock _ _) (by simp [Task.entries, hs]) rfl (Nat.le_refl _) rfl
      haccounts
  | read hs => exact hb.stepReading ht hs rfl
  | write hs => exact hb.stepWriting ht hs rfl
  | @release lock result hs =>
    rw [hs] at haccounts
    exact hb.pass ht (.closing lock result) (by simp [Task.entries, hs]) rfl (Nat.le_refl _) rfl
      haccounts
  | close hs => exact hb.stepClosing ht hs rfl
  | land hs => exact hb.stepLanding ht hs rfl

end Balances

end Handler

/-! ### Runs -/

namespace Recorded

variable {σ : Type} {engine : Engine σ} {s : σ} {h : Handler σ} {journal : List Entry}

theorem balances (hr : Recorded engine s h journal) : h.Balances journal := by
  induction hr with
  | start =>
    have hnew : (Handler.start engine.settings s).events = [] ∧
        (Handler.start engine.settings s).tasks = .empty := by
      unfold Handler.start
      split <;> exact ⟨rfl, rfl⟩
    constructor
    · exact hnew.1
    · exact fun _ he => absurd he List.not_mem_nil
    · intro id t ht
      rw [hnew.2] at ht
      exact nomatch ht
    · exact fun _ _ => .inl rfl
  | @act h h' journal a hr hstep ih =>
    by_cases ha : ∃ id, a = .task id
    · obtain ⟨id, rfl⟩ := ha
      obtain ⟨t, ht, hstep⟩ := Option.bind_eq_some_iff.1 hstep
      simp only [Handler.entries, ht]
      exact ih.stepTask ht hstep
    · have hnone : h.entries engine h' a = [] := by
        cases a with
        | task id => exact absurd ⟨id, rfl⟩ ha
        | _ => rfl
      rw [hnone, List.append_nil]
      exact ih.aside (.step hstep fun id heq => ha ⟨id, heq⟩)
  | outside hr s' ih => exact ⟨ih.events, ih.numbered, ih.tasks, ih.gone⟩

/-- The events of a handler are those of its journal, and a task that is done has made no pass, or
    one of which the store has accepted some first results.  It has published all results of the
    pass if these were all, and none otherwise: what it has published is what was persisted only
    if that was nothing or everything. -/
theorem publishes (hr : Recorded engine s h journal) :
    h.events = journal.filterMap Entry.event? ∧
    ∀ id, (∀ t, h.tasks.get? id = some t → ∃ r, t.stage = .landing r ∨ t.stage = .finished r) →
      (journal.filter fun e => e.task = id) = [] ∨
      ∃ key o actor written events, written ≤ o.results.length ∧
        (journal.filter fun e => e.task = id) = Entry.ofPass id key o actor written events ∧
        events = (if written = o.results.length then o.results.map (RecomputedEvent.ofResult key)
          else []) ∧
        (events = (o.results.take written).map (RecomputedEvent.ofResult key) ↔
          written = 0 ∨ written = o.results.length) := by
  refine ⟨hr.balances.events, fun id hdone => ?_⟩
  have hcomplete : Entry.Complete id (journal.filter fun e => e.task = id) := by
    cases ht : h.tasks.get? id with
    | none => exact hr.balances.gone id ht
    | some t =>
      have haccounts := (hr.balances.tasks id t ht).2
      unfold Task.Accounts at haccounts
      obtain ⟨r, hs | hs⟩ := hdone t ht <;> rw [hs] at haccounts <;> exact haccounts
  rcases hcomplete with hnone | ⟨key, o, actor, written, hle, hes⟩
  · exact .inl hnone
  · refine .inr ⟨key, o, actor, written, _, hle, hes, rfl, ?_⟩
    unfold PassOutcome.announced
    split
    · rename_i hall
      simp [hall]
    · rename_i hsome
      rw [eq_comm, List.map_eq_nil_iff, List.take_eq_nil_iff, or_iff_left hsome]
      constructor
      · rintro (h0 | hnil)
        · exact h0
        · rw [hnil] at hle
          exact Nat.le_zero.1 hle
      · exact .inl

end Recorded

/-! ### A store that fails in the middle of a pass -/

theorem Handler.get?_setStage {σ : Type} (h : Handler σ) (id : Nat) (t : Task) (stage : Stage) :
    (h.setStage id t stage).tasks.get? id = some { t with stage } :=
  (Table.get?_insert ..).trans (if_pos rfl)

namespace Recorded

variable {σ : Type} {engine : Engine σ} {s : σ} {h h' : Handler σ} {journal : List Entry}
  {id lock resume : Nat} {t : Task}

/-- A task makes a step that publishes nothing. -/
theorem task (hr : Recorded engine s h journal) (ht : h.tasks.get? id = some t)
    (hstep : h.stepTask engine id t = some h') (hevents : h'.events = h.events) :
    Recorded engine s h' (journal ++ t.entries engine.store h.store id) := by
  have hact : h.step engine (.task id) = some h' := by
    simp only [Handler.step, ht, Option.bind_some]
    exact hstep
  have hentries : h.entries engine h' (.task id) = t.entries engine.store h.store id := by
    simp only [Handler.entries, ht, hevents, List.drop_length, List.map_nil, List.append_nil]
  rw [← hentries]
  exact .act (.task id) hr hact

/-- Time passes until a task that reads may go on. -/
theorem wait (hr : Recorded engine s h journal) (resume : Nat) :
    Recorded engine s { h with clock := max h.clock resume } journal := by
  have hclock : h.step engine (.clock (max h.clock resume)) =
      some { h with clock := max h.clock resume } := if_pos (Nat.le_max_left ..)
  simpa [Handler.entries] using Recorded.act _ hr hclock

/-- A task makes a step that the journal says nothing of. -/
theorem silent (hr : Recorded engine s h journal) (ht : h.tasks.get? id = some t)
    (hstep : h.stepTask engine id t = some h') (hevents : h'.events = h.events)
    (hentries : t.entries engine.store h.store id = []) : Recorded engine s h' journal := by
  have hr := hr.task ht hstep hevents
  rwa [hentries, List.append_nil] at hr

/-- A task that reads gets to its plan or to an error. -/
theorem reads {program : Lookup (Except StoreError Plan)} (hr : Recorded engine s h journal)
    (ht : h.tasks.get? id = some { t with stage := .reading lock resume program }) :
    ∃ h' resume', Recorded engine s h' journal ∧ h'.store = (program.run engine.store h.store).2 ∧
      resume' ≤ h'.clock ∧ h'.tasks.get? id =
        some { t with stage := .reading lock resume' (.done (program.run engine.store h.store).1) } := by
  induction program generalizing h resume with
  | done r => exact ⟨_, resume, hr.wait resume, rfl, Nat.le_max_right .., ht⟩
  | entities tenant ids next ih =>
    have hstep := (hr.wait resume).silent ht (if_pos (Nat.le_max_right ..)) rfl rfl
    exact ih (engine.store.fetch tenant ids h.store).1 hstep (Handler.get?_setStage ..)
  | relationships tenant entity next ih =>
    have hstep := (hr.wait resume).silent ht (if_pos (Nat.le_max_right ..)) rfl rfl
    exact ih (engine.store.relationships tenant entity h.store).1 hstep (Handler.get?_setStage ..)

/-- A task has computed what it is going to write. -/
theorem begins {o : PassOutcome} {actor : String} (hr : Recorded engine s h journal)
    (hresume : resume ≤ h.clock) (ht : h.tasks.get? id =
      some { t with stage := .reading lock resume (.done (.ok (.pass o actor))) }) :
    ∃ h', Recorded engine s h' (journal ++ [.began id t.key o actor]) ∧ h'.store = h.store ∧
      h'.tasks.get? id =
        some { t with stage := .writing lock (.pass o actor) (o.records t.key.entity actor) } :=
  ⟨_, hr.task ht (if_pos hresume) rfl, rfl, Handler.get?_setStage ..⟩

/-- The store accepts a record of a pass. -/
theorem persists {o : PassOutcome} {actor : String} {r : StateRecord} {rest : List StateRecord}
    {s' : σ} (hr : Recorded engine s h journal)
    (ht : h.tasks.get? id = some { t with stage := .writing lock (.pass o actor) (r :: rest) })
    (hw : engine.store.write t.key.tenant r h.store = (.ok (), s')) :
    ∃ h', Recorded engine s h' (journal ++ [.persisted id r]) ∧ h'.store = s' ∧
      h'.tasks.get? id = some { t with stage := .writing lock (.pass o actor) rest } := by
  have hstep : h.stepTask engine id { t with stage := .writing lock (.pass o actor) (r :: rest) } =
      some ({ h with store := s' }.setStage id t (.writing lock (.pass o actor) rest)) := by
    simp only [Handler.stepTask, Handler.stepWriting, hw]
    rfl
  have hr := hr.task ht hstep rfl
  simp only [Task.entries, hw] at hr
  exact ⟨_, hr, rfl, Handler.get?_setStage ..⟩

/-- The store refuses a record of a notification's pass, and the task comes to its end. -/
theorem fails {property : String} {plan : Plan} {r : StateRecord} {rest : List StateRecord} {s' : σ}
    {e : PassError} (hr : Recorded engine s h journal) (hj : t.job = .notification property)
    (ht : h.tasks.get? id = some { t with stage := .writing lock plan (r :: rest) })
    (hw : engine.store.write t.key.tenant r h.store = (.error e, s')) :
    ∃ h', Recorded engine s h' journal ∧
      h'.tasks.get? id = some { t with stage := .finished (.error e) } := by
  obtain ⟨key, job, stage⟩ := t
  obtain rfl : job = .notification property := hj
  have hstep : h.stepTask engine id ⟨key, .notification property, .writing lock plan (r :: rest)⟩ =
      some (({ h with store := s' }.conclude engine ⟨key, .notification property, stage⟩ plan
        (.error e)).setStage id ⟨key, .notification property, stage⟩ (.leaving lock (.error e))) := by
    simp only [Handler.stepTask, Handler.stepWriting, hw]
    rfl
  have hevents : ({ h with store := s' }.conclude engine ⟨key, .notification property, stage⟩ plan
      (.error e)).events = h.events :=
    ({ h with store := s' }).conclude_events engine _ (.inl ⟨e, rfl⟩)
  have hrefused := hr.silent ht hstep hevents (by cases plan <;> simp only [Task.entries, hw])
  have hclosing := hrefused.silent (Handler.get?_setStage ..) rfl rfl rfl
  have hclose (h : Handler σ) : (h.closeLock key lock).events = h.events := by
    obtain ⟨_, _, heq⟩ := h.closeLock_frame key lock
    rw [heq]
  have hfinished := hclosing.silent (Handler.get?_setStage ..) rfl (hclose _) rfl
  exact ⟨_, hfinished, Handler.get?_setStage ..⟩

end Recorded

/-- Two properties that have never been computed. -/
def uncomputed : Entity :=
  [.computed { name := "a", expression := "\"X\"" },
    .computed { name := "b", expression := "\"Y\"" }].foldl
      Entity.withProperty { id := "entity", typePath := "entity" }

/-- A store of that entity that has room for one record, and counts those that it is given. -/
def oneRecordEngine : Engine Nat where
  store := {
    fetch _ _ count := (.ok [uncomputed], count)
    relationships _ _ count := (.ok .empty, count)
    persist _ _ count := (if count = 0 then .ok () else .error (.backend "full"), count + 1) }
  settings := { recalc := { mode := .eager } }
  stamp _ := "now"

/-- The task that handles a notification of one of them. -/
def uncomputedTask : Task := { key := ⟨uncomputed.tenant, uncomputed.id⟩, job := .notification "a" }

theorem uncomputedTask_plan : ∃ o,
    (uncomputedTask.plan oneRecordEngine.settings "now").run.run oneRecordEngine.store 0 =
        (.ok (.pass o "system"), 0) ∧ o.results.length = 2 := by
  refine ⟨_, rfl, ?_⟩
  exact (List.length_mergeSort _).trans rfl

/-- Its pass is written in part. -/
theorem exists_torn : ∃ h o e,
    Recorded oneRecordEngine 0 h (Entry.ofPass 0 uncomputedTask.key o "system" 1 []) ∧
      h.tasks.get? 0 = some { uncomputedTask with stage := .finished (.error e) } ∧
      o.results.length = 2 := by
  obtain ⟨o, hplan, hlength⟩ := uncomputedTask_plan
  obtain ⟨r₁, r₂, hrecords⟩ :
      ∃ r₁ r₂, o.records uncomputedTask.key.entity "system" = [r₁, r₂] := by
    refine List.length_eq_two.1 ?_
    rw [PassOutcome.records, List.length_map, hlength]
  obtain ⟨h, hr, hstore, ht⟩ : ∃ h, Recorded oneRecordEngine 0 h [] ∧ h.store = 0 ∧
      h.tasks.get? 0 = some { uncomputedTask with
        stage := .reading 1 0 (uncomputedTask.plan oneRecordEngine.settings "now").run } := by
    have hstart : Recorded oneRecordEngine 0 _ [] := .start
    exact ⟨_, ((hstart.act (.notify ⟨uncomputedTask.key, "a"⟩) rfl).act (.task 0) rfl).act
      (.task 0) rfl, rfl, rfl⟩
  obtain ⟨h, resume, hr, hread, hresume, ht⟩ := hr.reads ht
  rw [hstore, hplan] at hread ht
  obtain ⟨h, hr, hbegan, ht⟩ := hr.begins hresume ht
  rw [hrecords] at ht
  have hfirst : oneRecordEngine.store.write uncomputedTask.key.tenant r₁ h.store = (.ok (), 1) := by
    rw [hbegan, hread]
    rfl
  obtain ⟨h, hr, hstore, ht⟩ := hr.persists ht hfirst
  have hsecond : oneRecordEngine.store.write uncomputedTask.key.tenant r₂ h.store =
      (.error (.persist r₂.entity r₂.property (.backend "full")), 2) := by
    rw [hstore]
    rfl
  obtain ⟨h, hr, ht⟩ := hr.fails rfl ht hsecond
  refine ⟨h, o, _, ?_, ht, hlength⟩
  simpa [Entry.ofPass, hrecords] using hr

theorem torn_publishes : ∃ h journal, Recorded oneRecordEngine 0 h journal ∧
    h.events = journal.filterMap Entry.event? ∧
    ∃ key o actor written events, written ≤ o.results.length ∧
      (journal.filter fun e => e.task = 0) = Entry.ofPass 0 key o actor written events ∧
      events = (if written = o.results.length then o.results.map (RecomputedEvent.ofResult key)
        else []) ∧
      (events = (o.results.take written).map (RecomputedEvent.ofResult key) ↔
        written = 0 ∨ written = o.results.length) := by
  obtain ⟨h, o, e, hr, ht, -⟩ := exists_torn
  have hdone (t : Task) (htask : h.tasks.get? 0 = some t) :
      ∃ r, t.stage = .landing r ∨ t.stage = .finished r := by
    rw [ht] at htask
    cases htask
    exact ⟨_, .inr rfl⟩
  refine ⟨h, _, hr, hr.publishes.1, (hr.publishes.2 0 hdone).resolve_left ?_⟩
  simp [Entry.ofPass, Entry.task]

/-- The store has accepted the first result of a pass that is over, and nothing is published. -/
theorem torn_unpublished : ∃ h o e key actor,
    Recorded oneRecordEngine 0 h (Entry.ofPass 0 key o actor 1 []) ∧
      (h.tasks.get? 0).bind Task.result? = some (.error e) ∧ o.results.length = 2 ∧
      h.events = [] ∧ (o.results.take 1).map (RecomputedEvent.ofResult key) ≠ h.events := by
  obtain ⟨h, o, e, hr, ht, hlength⟩ := exists_torn
  have hevents : h.events = [] := by
    rw [hr.balances.events, Entry.filterMap_ofPass]
  refine ⟨h, o, e, _, _, hr, ?_, hlength, hevents, ?_⟩
  · rw [ht]
    rfl
  · rw [hevents]
    intro hnil
    have hzero := congrArg List.length hnil
    simp [hlength] at hzero

end EntityFormulas
