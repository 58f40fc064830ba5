/-
  EntityFormulas/Proofs/Recalculation/FailureCount.lean
  =====================================================
  **What the count of failures counts.**

  Notifications that arrive by consume calls fail when their handling does, and
  entities that are drained when their pass does.  The handler's state does not
  keep either, so a run is accompanied by a log of them (`Consumed`).

  The count of failures is the number of both, and of the passes of
  notifications that the store refuses a result of (`Consumed.counts`).  A pass
  of that kind ends the handling of its notification with an error, so it is
  counted twice (`refusedPass_counted`); there is none in batched mode, where
  only drains make passes.

  The store is any store, and others may change what is in it at any time.
-/
import EntityFormulas.Proofs.Recalculation.Attendance
import EntityFormulas.Proofs.Recalculation.Plans
import EntityFormulas.Proofs.Recalculation.Quiescence
import EntityFormulas.Proofs.Recalculation.Stages

namespace EntityFormulas

/-! ### The log -/

/-- Something that is counted. -/
inductive Occurrence where
  /-- A consume call has received a notification. -/
  | received (n : Notification)
  /-- The handling of a notification has returned to its consume call. -/
  | handled (task : Nat) (result : TaskResult)
  /-- The pass over an entity that is drained has come to its end. -/
  | drained (task : Nat) (result : TaskResult)
  /-- The store has refused a result of the pass that a notification led to. -/
  | refused (task : Nat)

namespace Occurrence

def isReceived : Occurrence → Bool
  | received _ => true
  | _ => false

/-- Whether the handling of a notification, or the pass over a drained entity, has failed. -/
def isFailure : Occurrence → Bool
  | handled _ (.error _) | drained _ (.error _) => true
  | _ => false

/-- The task of the notification whose pass was refused. -/
def refused? : Occurrence → Option Nat
  | refused id => some id
  | _ => none

end Occurrence

/-- The tasks of the notifications whose passes were refused. -/
def refusals (log : List Occurrence) : List Nat := log.filterMap Occurrence.refused?

theorem mem_refusals {log : List Occurrence} {id : Nat} :
    id ∈ refusals log ↔ .refused id ∈ log := by
  unfold refusals
  rw [List.mem_filterMap]
  constructor
  · rintro ⟨x, hx, hid⟩
    cases x with
    | refused j =>
      cases hid
      exact hx
    | _ => cases hid
  · exact fun h => ⟨_, h, rfl⟩

theorem refusals_append (log es : List Occurrence) :
    refusals (log ++ es) = refusals log ++ refusals es := List.filterMap_append

/-- What the next step of a task adds to the log. -/
def Task.occurrences {σ : Type} (store : EntityStore σ) (s : σ) (id : Nat) (t : Task) :
    List Occurrence :=
  match t.job, t.stage with
  | .drain .., .closing _ r => [.drained id r]
  | .notification _, .writing _ (.pass _ _) (r :: _) =>
    match (store.write t.key.tenant r s).1 with
    | .ok _ => []
    | .error _ => [.refused id]
  | _, _ => []

namespace Handler

variable {σ : Type} {engine : Engine σ} {s : σ} {h h' : Handler σ} {log : List Occurrence}

/-- What an action adds to the log. -/
def occurrences (engine : Engine σ) (h : Handler σ) : Action → List Occurrence
  | .task id =>
    match h.tasks.get? id with
    | some t => t.occurrences engine.store h.store id
    | none => []
  | .call id =>
    match h.calls.get? id with
    | some (.consume (n :: _)) => [.received n]
    | some (.consuming task _) =>
      match h.collect task with
      | some (r, _) => [.handled task r]
      | none => []
    | _ => []
  | _ => []

/-- Notifications arrive by consume calls, which also take their results. -/
def Action.ByConsume : Action → Prop
  | .notify _ | .collect _ => False
  | .begin c => c.Offered
  | _ => True

/-- The states that a new handler comes to while all notifications arrive by consume calls, each
    with the log so far.  Others may put the store into any state at any time. -/
inductive Consumed (engine : Engine σ) (s : σ) : Handler σ → List Occurrence → Prop where
  | start : Consumed engine s (Handler.start engine.settings s) []
  | act {h h' : Handler σ} {log : List Occurrence} (a : Action) (ha : a.ByConsume)
    (hr : Consumed engine s h log) (hstep : h.step engine a = some h') :
    Consumed engine s h' (log ++ h.occurrences engine a)
  | outside {h : Handler σ} {log : List Occurrence} (hr : Consumed engine s h log) (s' : σ) :
    Consumed engine s { h with store := s' } log

/-! ### Counts -/

/-- The counts go up by what is added to the log. -/
structure Counts (h h' : Handler σ) (es : List Occurrence) : Prop where
  notifications : h'.stats.notifications = h.stats.notifications + es.countP Occurrence.isReceived
  failures : h'.stats.failures =
    h.stats.failures + (es.countP Occurrence.isFailure + (refusals es).length)

theorem Counts.of_eq (hstats : h'.stats = h.stats) : h.Counts h' [] := by
  constructor <;> rw [hstats] <;> rfl

theorem stats_closeLock (key : EntityKey) (lock : Nat) (h : Handler σ) :
    (h.closeLock key lock).stats = h.stats := by
  obtain ⟨_, _, heq⟩ := h.closeLock_frame key lock
  rw [heq]

theorem stats_drain (due : EntityKey → QueueEntry → Bool) (actor : String) (h : Handler σ) :
    (h.drain due actor).2.stats = h.stats := by
  have hfold (batch : Nat) (es : List (EntityKey × QueueEntry)) (g : Handler σ) :
      (es.foldl (launch actor batch) g).stats = g.stats := by
    induction es generalizing g with
    | nil => rfl
    | cons e rest ih => exact ih (g.launch actor batch e)
  exact hfold _ _ _

/-- The pass of a drain fails when its result is an error. -/
theorem counts_finishPass (key : EntityKey) (id : Nat) (r : TaskResult) (h : Handler σ) :
    h.Counts (h.finishPass key (passResult r)) [.drained id r] := by
  cases r with
  | error e => exact ⟨rfl, rfl⟩
  | ok o => exact ⟨rfl, rfl⟩

/-- A notification that has written what it is to write has not failed. -/
theorem counts_conclude (engine : Engine σ) (t : Task) (plan : Plan) (h : Handler σ) :
    h.Counts (h.conclude engine t plan (.ok ())) [] := by
  unfold conclude
  cases t.job with
  | drain names actor batch => exact ⟨rfl, rfl⟩
  | notification property => cases plan <;> exact ⟨rfl, rfl⟩

section StepTask

variable {id lock : Nat} {t : Task}

theorem counts_stepWriting {plan : Plan} {rest : List StateRecord}
    (hs : t.stage = .writing lock plan rest) :
    h.Counts (h.stepWriting engine id t lock plan rest)
      (t.occurrences engine.store h.store id) := by
  unfold Task.occurrences
  rw [hs]
  cases rest with
  | nil =>
    have hcounts := h.counts_conclude engine t plan
    cases t.job with
    | drain names actor batch => exact ⟨hcounts.notifications, hcounts.failures⟩
    | notification property => cases plan <;> exact ⟨hcounts.notifications, hcounts.failures⟩
  | cons r rest =>
    unfold stepWriting conclude
    dsimp only
    rcases hw : engine.store.write t.key.tenant r h.store with ⟨e | _, s'⟩
    · cases t.job with
      | drain names actor batch => exact ⟨rfl, rfl⟩
      | notification property =>
        cases plan with
        | pass outcome actor =>
          dsimp only
          rw [hw]
          exact ⟨rfl, rfl⟩
        | _ => exact ⟨rfl, rfl⟩
    · cases t.job with
      | drain names actor batch => exact ⟨rfl, rfl⟩
      | notification property =>
        cases plan with
        | pass outcome actor =>
          dsimp only
          rw [hw]
          exact ⟨rfl, rfl⟩
        | _ => exact ⟨rfl, rfl⟩

theorem counts_stepClosing {r : TaskResult} (hs : t.stage = .closing lock r) :
    h.Counts (h.stepClosing id t lock r) (t.occurrences engine.store h.store id) := by
  unfold Task.occurrences stepClosing
  rw [hs]
  have hstats := h.stats_closeLock t.key lock
  cases t.job with
  | notification property => exact .of_eq hstats
  | drain names actor batch =>
    have hcounts := (h.closeLock t.key lock).counts_finishPass t.key id r
    refine ⟨?_, ?_⟩ <;> rw [← hstats]
    · exact hcounts.notifications
    · exact hcounts.failures

theorem stats_stepReading (resume : Nat) (program : Lookup (Except StoreError Plan)) :
    (h.stepReading engine id t lock resume program).stats = h.stats := by
  rcases program with (e | plan) | _ | _ <;> rfl

theorem stats_stepLanding (r : TaskResult) : (h.stepLanding id t r).stats = h.stats := by
  unfold stepLanding
  cases t.job with
  | notification property => rfl
  | drain names actor batch =>
    obtain ⟨_, heq⟩ := h.leaveFlight_frame t.key
    dsimp only
    rw [heq]

/-- What a task counts is what it adds to the log. -/
theorem counts_stepTask (hstep : h.stepTask engine id t = some h') :
    h.Counts h' (t.occurrences engine.store h.store id) := by
  have hsilent (hnone : t.occurrences engine.store h.store id = []) (hstats : h'.stats = h.stats) :
      h.Counts h' (t.occurrences engine.store h.store id) := by
    rw [hnone]
    exact .of_eq hstats
  cases stepTask_cases hstep with
  | arrive hs =>
    obtain ⟨_, _, _, -, heq⟩ := h.openLock_frame t.key
    refine hsilent (by simp [Task.occurrences, hs]) ?_
    rw [heq]
    rfl
  | acquire hs => exact hsilent (by simp [Task.occurrences, hs]) rfl
  | read hs => exact hsilent (by simp [Task.occurrences, hs]) (stats_stepReading ..)
  | write hs => exact counts_stepWriting hs
  | release hs => exact hsilent (by simp [Task.occurrences, hs]) rfl
  | close hs => exact counts_stepClosing hs
  | land hs => exact hsilent (by simp [Task.occurrences, hs]) (stats_stepLanding ..)

end StepTask

theorem stats_stepWorker {cue : WorkerCue} (hstep : h.stepWorker engine cue = some h') :
    h'.stats = h.stats := by
  cases stepWorker_cases hstep with
  | stop | arm | heed | wake | resume => rfl
  | drain => exact stats_drain ..

/-- What a call counts is what it adds to the log. -/
theorem counts_stepCall {id : Nat} {c : Call} (hc : h.calls.get? id = some c)
    (hstep : h.stepCall engine id c = some h') :
    h.Counts h' (h.occurrences engine (.call id)) := by
  unfold occurrences
  dsimp only
  rw [hc]
  cases stepCall_cases hstep with
  | flush => exact .of_eq (stats_drain ..)
  | report | tell | pass | stopped | done => exact .of_eq rfl
  | next n => exact ⟨rfl, rfl⟩
  | handled ht hs =>
    dsimp only
    rw [collect_of_finished ht hs]
    exact ⟨rfl, rfl⟩
  | failed ht hs =>
    dsimp only
    rw [collect_of_finished ht hs]
    exact ⟨rfl, rfl⟩

/-- What is counted is what is added to the log. -/
theorem counts_step {a : Action} (ha : a.ByConsume) (hstep : h.step engine a = some h') :
    h.Counts h' (h.occurrences engine a) := by
  cases step_cases hstep with
  | notify | collect => exact ha.elim
  | begin | report | clock => exact .of_eq rfl
  | task ht hstep =>
    unfold occurrences
    dsimp only
    rw [ht]
    exact counts_stepTask hstep
  | call hc hstep => exact counts_stepCall hc hstep
  | worker hstep => exact .of_eq (stats_stepWorker hstep)

end Handler

/-! ### Tasks that have failed, and tasks without a pass -/

/-- Whether the stage is one of those after an error. -/
def Stage.Fails : Stage → Prop
  | .leaving _ (.error _) | .closing _ (.error _) | .finished (.error _) => True
  | _ => False

/-- Whatever the store answers and has answered, there is no pass to write. -/
def Stage.Passless : Stage → Prop
  | .reading _ _ program =>
    program.Always (fun _ => True) fun r => ∀ plan, r = .ok plan → plan.outcome? = none
  | .writing _ plan _ => plan.outcome? = none
  | _ => True

namespace Task

variable {σ : Type} {engine : Engine σ} {t : Task} {s s' : σ} {stage : Stage}

/-- The handling of a notification has failed, and this is still to be told. -/
def Failed (t : Task) : Prop := (∃ property, t.job = .notification property) ∧ t.stage.Fails

theorem Failed.goes (hf : t.Failed) (hg : t.Goes engine s stage s') :
    Failed { t with stage } := by
  obtain ⟨hj, hs⟩ := hf
  refine ⟨hj, ?_⟩
  obtain ⟨property, hj⟩ := hj
  cases hg with
  | @release lock r hs' =>
    rw [hs'] at hs
    cases r with
    | ok o => exact hs.elim
    | error e => exact trivial
  | @close lock r hs' =>
    rw [hs'] at hs
    unfold Core.closed
    rw [hj]
    cases r with
    | ok o => exact hs.elim
    | error e => exact trivial
  | arrive hs' | acquire hs' | fetch hs' | relate hs' | decide hs' | abandon hs' | settle hs' =>
    rw [hs'] at hs
    exact hs.elim
  | write hs' hw | refuse hs' hw =>
    rw [hs'] at hs
    exact hs.elim

/-- A task that has a record refused gives up. -/
theorem Goes.of_refused {lock : Nat} {plan : Plan} {r : StateRecord} {rest : List StateRecord}
    {e : PassError} (hs : t.stage = .writing lock plan (r :: rest))
    (hw : (engine.store.write t.key.tenant r s).1 = .error e) (hg : t.Goes engine s stage s') :
    stage = .leaving lock (.error e) := by
  cases hg with
  | write hs' hok =>
    rw [hs] at hs'
    cases hs'
    rw [hok] at hw
    cases hw
  | refuse hs' hfails =>
    rw [hs] at hs'
    cases hs'
    rw [hfails] at hw
    cases hw
    rfl
  | arrive hs' | acquire hs' | fetch hs' | relate hs' | decide hs' | abandon hs' | settle hs'
  | release hs' | close hs' =>
    rw [hs] at hs'
    cases hs'

/-- In batched mode a notification does not lead to a pass. -/
theorem plan_passless {settings : Settings} (hb : settings.recalc.mode = .batched) (now : String)
    {property : String} (hj : t.job = .notification property) :
    Fetch.Always (fun _ => True) (fun plan => plan.outcome? = none) (t.plan settings now) := by
  rw [plan_eq]
  apply Fetch.always_bind
  apply Lookup.always_of_forall
  intro r e _
  unfold decide
  rw [hj]
  dsimp only
  split
  · exact Fetch.always_pure rfl
  · split
    · exact Fetch.always_pure rfl
    · rw [hb]
      exact Fetch.always_pure rfl

/-- The task is not one of a notification that makes a pass. -/
def Passless (t : Task) : Prop := ∀ property, t.job = .notification property → t.stage.Passless

theorem Passless.goes (hb : engine.settings.recalc.mode = .batched) (ht : t.Passless)
    (hg : t.Goes engine s stage s') : Passless { t with stage } := by
  intro property hj
  have hs := ht property hj
  cases hg with
  | acquire _ => exact plan_passless hb _ hj
  | fetch hs' =>
    rw [hs'] at hs
    exact hs _ trivial
  | relate hs' =>
    rw [hs'] at hs
    exact hs _ trivial
  | decide hs' =>
    rw [hs'] at hs
    exact hs _ rfl
  | write hs' hw =>
    rw [hs'] at hs
    exact hs
  | close _ =>
    unfold Core.closed
    split <;> exact trivial
  | _ => exact trivial

end Task

/-! ### What a run keeps -/

namespace Handler

variable {σ : Type} {engine : Engine σ} {s : σ} {h h' : Handler σ} {log : List Occurrence}

/-- What the log says of a task and what has become of the task. -/
structure Tallies (engine : Engine σ) (h : Handler σ) (log : List Occurrence) : Prop where
  numbered : ∀ id t, h.tasks.get? id = some t → id < h.fresh
  refused : ∀ id, .refused id ∈ log → id < h.fresh ∧ ∀ t, h.tasks.get? id = some t → t.Failed
  handled : ∀ id r, .handled id r ∈ log →
    id < h.fresh ∧ h.tasks.get? id = none ∧ (.refused id ∈ log → ∃ e, r = .error e)
  nodup : (refusals log).Nodup
  batched : engine.settings.recalc.mode = .batched →
    (∀ id t, h.tasks.get? id = some t → t.Passless) ∧ refusals log = []

/-- What a step adds to the log, and what it makes of the task that this is about. -/
inductive Adds (h h' : Handler σ) : List Occurrence → Prop where
  | nothing : Adds h h' []
  | received (n : Notification) : Adds h h' [.received n]
  | drained (id : Nat) (r : TaskResult) : Adds h h' [.drained id r]
  | handled {id : Nat} {r : TaskResult} {t : Task} (ht : h.tasks.get? id = some t)
    (hs : t.stage = .finished r) (hgone : h'.tasks.get? id = none) : Adds h h' [.handled id r]
  | refused {id : Nat} {t : Task} (ht : h.tasks.get? id = some t) (hnot : ¬ t.Failed)
    (hpass : ¬ t.Passless) (hfailed : ∀ u, h'.tasks.get? id = some u → u.Failed) :
    Adds h h' [.refused id]

theorem adds_stepTask {id : Nat} {t : Task} (ht : h.tasks.get? id = some t)
    (hstep : h.stepTask engine id t = some h') :
    h.Adds h' (t.occurrences engine.store h.store id) := by
  unfold Task.occurrences
  split
  · exact .drained id _
  · rename_i property lock outcome actor r rest hj hs
    split
    · exact .nothing
    · rename_i e hw
      obtain ⟨stage, hg, hm⟩ := goes_stepTask (fun r hr => by rw [hs] at hr; cases hr) hstep
      obtain rfl := hg.of_refused hs hw
      refine .refused ht ?_ ?_ fun u hu => ?_
      · rintro ⟨-, hfails⟩
        rw [hs] at hfails
        exact hfails
      · intro hpassless
        have hplan := hpassless property hj
        rw [hs] at hplan
        cases hplan
      · rw [hm.tasks, Table.get?_insert, if_pos rfl] at hu
        cases hu
        exact ⟨⟨property, hj⟩, trivial⟩
  · exact .nothing

theorem adds_step {a : Action} (hstep : h.step engine a = some h') :
    h.Adds h' (h.occurrences engine a) := by
  cases step_cases hstep with
  | task ht hstep =>
    unfold occurrences
    dsimp only
    rw [ht]
    exact adds_stepTask ht hstep
  | call hc hstep =>
    unfold occurrences
    dsimp only
    rw [hc]
    cases stepCall_cases hstep with
    | next => exact .received _
    | handled ht hs | failed ht hs =>
      dsimp only
      rw [collect_of_finished ht hs]
      exact .handled ht hs ((Table.get?_erase ..).trans (if_pos rfl))
    | _ => exact .nothing
  | _ => exact .nothing

theorem Tallies.start : Tallies engine (Handler.start engine.settings s) [] := by
  have hnew (id : Nat) : (Handler.start engine.settings s).tasks.get? id = none := by
    unfold Handler.start
    split <;> rfl
  constructor
  · intro id t ht
    rw [hnew] at ht
    cases ht
  · exact fun id hid => absurd hid List.not_mem_nil
  · exact fun id r hid => absurd hid List.not_mem_nil
  · exact List.nodup_nil
  · refine fun hb => ⟨fun id t ht => ?_, rfl⟩
    rw [hnew] at ht
    cases ht

namespace Tallies

variable (ht : Tallies engine h log)
include ht

/-- An action keeps what was noted before. -/
theorem keep {a : Action} (hstep : h.step engine a = some h') : Tallies engine h' log := by
  have hfresh := fresh_step hstep
  constructor
  · intro id t hid
    rcases origin hstep hid with hid | ⟨-, hlt, -⟩ | ⟨u, stage, -, hu, -, -⟩
    · exact Nat.lt_of_lt_of_le (ht.numbered id t hid) hfresh
    · exact hlt
    · exact Nat.lt_of_lt_of_le (ht.numbered id u hu) hfresh
  · intro id hmem
    obtain ⟨hlt, hfailed⟩ := ht.refused id hmem
    refine ⟨Nat.lt_of_lt_of_le hlt hfresh, fun t hid => ?_⟩
    rcases origin hstep hid with hid | ⟨hle, -, -⟩ | ⟨u, stage, -, hu, rfl, hg⟩
    · exact hfailed t hid
    · omega
    · exact (hfailed u hu).goes hg
  · intro id r hmem
    obtain ⟨hlt, hnone, herror⟩ := ht.handled id r hmem
    exact ⟨Nat.lt_of_lt_of_le hlt hfresh, get?_eq_none_of_step hstep hlt hnone, herror⟩
  · exact ht.nodup
  · intro hb
    obtain ⟨hpassless, hrefusals⟩ := ht.batched hb
    refine ⟨fun id t hid => ?_, hrefusals⟩
    rcases origin hstep hid with hid | ⟨-, -, hs⟩ | ⟨u, stage, -, hu, rfl, hg⟩
    · exact hpassless id t hid
    · intro property _
      rw [hs]
      exact trivial
    · exact (hpassless id u hu).goes hb hg

/-- Something is noted that fits what has become of its task. -/
theorem snoc {x : Occurrence}
    (hrefused : ∀ id, x = .refused id → engine.settings.recalc.mode ≠ .batched ∧ id < h.fresh ∧
      (∀ t, h.tasks.get? id = some t → t.Failed) ∧ .refused id ∉ log ∧ ∀ r, .handled id r ∉ log)
    (hhandled : ∀ id r, x = .handled id r → id < h.fresh ∧ h.tasks.get? id = none ∧
      (.refused id ∈ log → ∃ e, r = .error e)) : Tallies engine h (log ++ [x]) := by
  constructor
  · exact ht.numbered
  · intro id hmem
    rcases List.mem_append.1 hmem with hmem | hmem
    · exact ht.refused id hmem
    · obtain ⟨-, hlt, hfailed, -⟩ := hrefused id (List.mem_singleton.1 hmem).symm
      exact ⟨hlt, hfailed⟩
  · intro id r hmem
    rcases List.mem_append.1 hmem with hold | hnew
    · obtain ⟨hlt, hnone, herror⟩ := ht.handled id r hold
      refine ⟨hlt, hnone, fun hmem => ?_⟩
      rcases List.mem_append.1 hmem with hmem | hmem
      · exact herror hmem
      · obtain ⟨-, -, -, -, hnot⟩ := hrefused id (List.mem_singleton.1 hmem).symm
        exact absurd hold (hnot r)
    · obtain ⟨hlt, hnone, herror⟩ := hhandled id r (List.mem_singleton.1 hnew).symm
      refine ⟨hlt, hnone, fun hmem => ?_⟩
      rcases List.mem_append.1 hmem with hmem | hmem
      · exact herror hmem
      · rw [← List.mem_singleton.1 hnew] at hmem
        simp at hmem
  · rw [refusals_append]
    cases x with
    | refused id =>
      obtain ⟨-, -, -, hnot, -⟩ := hrefused id rfl
      exact ht.nodup.append (List.nodup_singleton id)
        (List.disjoint_singleton.2 fun hmem => hnot (mem_refusals.1 hmem))
    | _ =>
      show (refusals log ++ []).Nodup
      rw [List.append_nil]
      exact ht.nodup
  · intro hb
    obtain ⟨hpassless, hrefusals⟩ := ht.batched hb
    refine ⟨hpassless, ?_⟩
    rw [refusals_append, hrefusals]
    cases x with
    | refused id => exact absurd hb (hrefused id rfl).1
    | _ => rfl

theorem adds {es : List Occurrence} (hkept : Tallies engine h' log) (hfresh : h.fresh ≤ h'.fresh)
    (ha : h.Adds h' es) : Tallies engine h' (log ++ es) := by
  cases ha with
  | nothing => simpa using hkept
  | received n => exact hkept.snoc (fun _ hx => nomatch hx) fun _ _ hx => nomatch hx
  | drained id r => exact hkept.snoc (fun _ hx => nomatch hx) fun _ _ hx => nomatch hx
  | @handled id r t hid hs hgone =>
    refine hkept.snoc (fun _ hx => nomatch hx) fun j r' hx => ?_
    cases hx
    refine ⟨Nat.lt_of_lt_of_le (ht.numbered id t hid) hfresh, hgone, fun hmem => ?_⟩
    obtain ⟨-, hfails⟩ := (ht.refused id hmem).2 t hid
    rw [hs] at hfails
    cases r with
    | ok o => exact hfails.elim
    | error e => exact ⟨e, rfl⟩
  | @refused id t hid hnot hpass hfailed =>
    refine hkept.snoc (fun j hx => ?_) fun _ _ hx => nomatch hx
    cases hx
    refine ⟨fun hb => hpass ((ht.batched hb).1 id t hid),
      Nat.lt_of_lt_of_le (ht.numbered id t hid) hfresh, hfailed,
      fun hmem => hnot ((ht.refused id hmem).2 t hid), fun r hmem => ?_⟩
    obtain ⟨-, hnone, -⟩ := ht.handled id r hmem
    rw [hid] at hnone
    cases hnone

end Tallies

theorem Consumed.tallies (hr : Consumed engine s h log) : Tallies engine h log := by
  induction hr with
  | start => exact .start
  | act a _ _ hstep ih => exact ih.adds (ih.keep hstep) (fresh_step hstep) (adds_step hstep)
  | outside _ s' ih => exact ⟨ih.numbered, ih.refused, ih.handled, ih.nodup, ih.batched⟩

/-- The counts are those of the log. -/
theorem Consumed.totals (hr : Consumed engine s h log) :
    h.stats.notifications = log.countP Occurrence.isReceived ∧
    h.stats.failures = log.countP Occurrence.isFailure + (refusals log).length := by
  induction hr with
  | start =>
    unfold Handler.start
    split <;> exact ⟨rfl, rfl⟩
  | act a ha _ hstep ih =>
    obtain ⟨hnotifications, hfailures⟩ := counts_step ha hstep
    constructor
    · rw [hnotifications, ih.1, List.countP_append]
    · rw [hfailures, ih.2, List.countP_append, refusals_append, List.length_append]
      omega
  | outside _ _ ih => exact ih

/-- Carries out one action after another, if they are possible, and notes what is counted. -/
def actsConsumed (engine : Engine σ) : List Action → Handler σ × List Occurrence →
    Option (Handler σ × List Occurrence)
  | [], x => some x
  | a :: rest, (h, log) =>
    (h.step engine a).bind fun h' => actsConsumed engine rest (h', log ++ h.occurrences engine a)

theorem Consumed.acts {log' : List Occurrence} {as : List Action} (has : ∀ a ∈ as, a.ByConsume)
    (hr : Consumed engine s h log) (ha : actsConsumed engine as (h, log) = some (h', log')) :
    Consumed engine s h' log' := by
  induction as generalizing h log with
  | nil =>
    cases ha
    exact hr
  | cons a rest ih =>
    obtain ⟨ha', hrest⟩ := List.forall_mem_cons.1 has
    obtain ⟨h₁, hstep, hacts⟩ := Option.bind_eq_some_iff.1 ha
    exact ih hrest (.act a ha' hr hstep) hacts

/-- Consume calls count every notification that they receive.  Failures are the handlings and the
    passes of drains that fail, and once more the passes of notifications that the store refuses a
    result of.  These are passes of different notifications, all of which fail, and there is none
    in batched mode. -/
theorem Consumed.counts (hr : Consumed engine s h log) :
    h.stats.notifications = log.countP Occurrence.isReceived ∧
    h.stats.failures = log.countP Occurrence.isFailure + (refusals log).length ∧
    (refusals log).Nodup ∧ (engine.settings.recalc.mode = .batched → refusals log = []) ∧
    ∀ id ∈ refusals log, ∀ r, .handled id r ∈ log → ∃ e, r = .error e := by
  have ht : Tallies engine h log := hr.tallies
  obtain ⟨hnotifications, hfailures⟩ := hr.totals
  exact ⟨hnotifications, hfailures, ht.nodup, fun hb => (ht.batched hb).2,
    fun id hid r hmem => (ht.handled id r hmem).2.2 (mem_refusals.1 hid)⟩

/-- A consume call receives two notifications, the first one of which is about no entity. -/
def twoConsumed : List Action :=
  [.begin (.consume [⟨⟨echoing.tenant, "missing"⟩, "y"⟩, ⟨echoing.key, "y"⟩]), .call 0] ++
    List.replicate 6 (.task 1) ++ [.call 0, .call 0] ++ List.replicate 7 (.task 3) ++ [.call 0]

theorem twoConsumed_counts : ∃ h log, plainEngine.settings.recalc.mode = .batched ∧
    Consumed plainEngine (MemoryStore.insert {} echoing) h log ∧
      log.countP Occurrence.isReceived = 2 ∧ log.countP Occurrence.isFailure = 1 ∧
      h.stats.notifications = 2 ∧ h.stats.failures = 1 := by
  have hacts : (actsConsumed plainEngine twoConsumed
      (start plainEngine.settings (MemoryStore.insert {} echoing), [])).any (fun x =>
        x.2.countP Occurrence.isReceived = 2 ∧ x.2.countP Occurrence.isFailure = 1) = true := by
    decide +kernel
  obtain ⟨⟨h, log⟩, hrun, hend⟩ := (Option.any_eq_true ..).1 hacts
  obtain ⟨hreceived, hfailed⟩ := of_decide_eq_true hend
  have hr : Consumed plainEngine (MemoryStore.insert {} echoing) h log :=
    Consumed.start.acts (by simp [twoConsumed, Action.ByConsume, Call.Offered]) hrun
  obtain ⟨hnotifications, hfailures, -, hbatched, -⟩ := hr.counts
  refine ⟨h, log, rfl, hr, hreceived, hfailed, hnotifications.trans hreceived, ?_⟩
  rw [hfailures, hbatched rfl]
  exact hfailed

end Handler

/-! ### A failure that is counted twice -/

/-- An entity with one property to compute. -/
def quoting : Entity := Entity.ofFormulas [("y", "\"X\"")]

/-- A store of that entity that accepts no results. -/
def refusingEngine : Engine Unit where
  store := {
    fetch _ _ _ := (.ok [quoting], ())
    relationships _ _ _ := (.ok .empty, ())
    persist _ _ _ := (.error (.backend "full"), ()) }
  settings := { recalc := { mode := .eager } }
  stamp _ := "now"

namespace Handler

/-- A consume call receives a notification, and the pass that it leads to is refused. -/
def refusedPass : List Action :=
  [.begin (.consume [⟨quoting.key, "y"⟩]), .call 0] ++ List.replicate 7 (.task 1) ++ [.call 0]

/-- One handling has failed, nothing is drained, and two failures are counted. -/
theorem refusedPass_counted : ∃ h log, Consumed refusingEngine () h log ∧
    log.countP Occurrence.isReceived = 1 ∧ log.countP Occurrence.isFailure = 1 ∧
      h.stats.failures = 2 ∧ h.stats.failures ≠ log.countP Occurrence.isFailure := by
  have hacts : (actsConsumed refusingEngine refusedPass
      (start refusingEngine.settings (), [])).any (fun x =>
        x.2.countP Occurrence.isReceived = 1 ∧ x.2.countP Occurrence.isFailure = 1 ∧
          x.1.stats.failures = 2) = true := by
    decide +kernel
  obtain ⟨⟨h, log⟩, hrun, hend⟩ := (Option.any_eq_true ..).1 hacts
  obtain ⟨hreceived, hfailed, hcounted⟩ := of_decide_eq_true hend
  refine ⟨h, log, ?_, hreceived, hfailed, hcounted, ?_⟩
  · exact Consumed.start.acts (by simp [refusedPass, Action.ByConsume, Call.Offered]) hrun
  · rw [hcounted, hfailed]
    decide

end Handler

end EntityFormulas
