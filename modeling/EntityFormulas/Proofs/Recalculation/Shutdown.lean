/-
  EntityFormulas/Proofs/Recalculation/Shutdown.lean
  =================================================
  **What is queued is drained, until a shutdown has taken the queue.**

  While the worker has not stopped, or a shutdown has yet to take the queue, the
  handler can always go on by itself until a drain takes what is queued
  (`Watched.coming`): a drain that the worker waits for can come to its end, a
  worker that sleeps is woken or its timer fires in time, and a worker that has
  been told to stop leaves the queue to the shutdown that waits for it.

  What is queued after the final drain of a shutdown is another matter.  The
  handler takes notifications as before, but nobody drains them until there is
  another call (`afterwards_stranded`).
-/
import EntityFormulas.Proofs.Recalculation.Attendance

namespace EntityFormulas

open Milestone

namespace Handler

variable {σ : Type} {engine : Engine σ} {s : σ} {h h' : Handler σ} {log : List Milestone}

/-! ### A drain is coming -/

theorem Reaches.exists_logged {s : σ} (hr : Reaches engine (start engine.settings s) h) :
    ∃ log, Logged engine s h log := by
  induction hr with
  | refl => exact ⟨[], .start⟩
  | step a _ hstep ih =>
    obtain ⟨log, hlogged⟩ := ih
    exact ⟨_, hlogged.act a hstep⟩

/-- All tasks of a batch can come to their end. -/
theorem completes {s : σ} (hr : Reaches engine (start engine.settings s) h) {batch n : Nat}
    {report : DrainReport} (hb : h.batches.get? batch = some ⟨report, n⟩) :
    h.Attains engine fun h' => ∃ report', h'.batches.get? batch = some ⟨report', 0⟩ := by
  induction n generalizing h report with
  | zero => exact .now ⟨report, hb⟩
  | succ n ih =>
    obtain ⟨log, hlogged⟩ := hr.exists_logged
    obtain ⟨hcount, -, -⟩ := (hlogged.kept.counted.batches batch).waiting _ hb
    obtain ⟨id, t, ht, hdrains⟩ := Table.count_pos_iff.1
      (Nat.lt_of_lt_of_eq (Nat.succ_pos n) hcount)
    obtain ⟨names, actor, hj⟩ : ∃ names actor, t.job = .drain names actor batch := by
      unfold Task.drainsFor at hdrains
      split at hdrains
      · rename_i names actor other hj
        obtain rfl : other = batch := of_decide_eq_true hdrains
        exact ⟨names, actor, hj⟩
      · cases hdrains
    refine (lands hr ht hj).bind fun g hp _ hg => ?_
    obtain ⟨r, hbatches⟩ := hg
    have hb' : g.batches.get? batch = some ⟨report.add r, n⟩ := by
      rw [hbatches, Table.get?_modify, if_pos rfl, hb]
      rfl
    exact ih (hr.proceeds hp) hb'

theorem foldl_launch_tasks (actor : String) (batch : Nat) (es : List (EntityKey × QueueEntry))
    (h : Handler σ) :
    (∀ id, id < h.fresh → (es.foldl (launch actor batch) h).tasks.get? id = h.tasks.get? id) ∧
      ∀ e ∈ es, ∃ id, h.fresh ≤ id ∧ (es.foldl (launch actor batch) h).tasks.get? id =
        some ⟨e.1, .drain e.2.names actor batch, .arriving⟩ := by
  induction es generalizing h with
  | nil => exact ⟨fun _ _ => rfl, nofun⟩
  | cons x rest ih =>
    obtain ⟨hold, hnew⟩ := ih (h.launch actor batch x)
    have hfresh : (h.launch actor batch x).fresh = h.fresh + 1 := rfl
    have htask (id : Nat) : (h.launch actor batch x).tasks.get? id =
        if h.fresh = id then some ⟨x.1, .drain x.2.names actor batch, .arriving⟩
        else h.tasks.get? id := Table.get?_insert ..
    refine ⟨fun id hid => ?_, fun e he => ?_⟩
    · refine (hold id (hfresh ▸ hid.trans (Nat.lt_succ_self _))).trans ?_
      rw [htask, if_neg hid.ne']
    · rcases List.mem_cons.1 he with rfl | he
      · refine ⟨h.fresh, Nat.le_refl _, ?_⟩
        refine (hold h.fresh (hfresh ▸ Nat.lt_succ_self _)).trans ?_
        rw [htask, if_pos rfl]
      · obtain ⟨id, hid, hget⟩ := hnew e he
        exact ⟨id, (Nat.le_succ _).trans hid, hget⟩

/-- What starts the drain of an entity. -/
def Action.Drains : Action → Prop
  | .worker .timer | .call _ => True
  | _ => False

/-- The handler can go on by itself until a drain takes the entity, with these names at least. -/
def Coming (engine : Engine σ) (key : EntityKey) (names : List String) (h : Handler σ) : Prop :=
  ∃ h₁ h₂ a, h.Proceeds engine h₁ ∧ a.Drains ∧ h₁.step engine a = some h₂ ∧
    ∃ id ns actor batch, names ⊆ ns ∧ h₁.tasks.get? id = none ∧
      h₂.tasks.get? id = some ⟨key, .drain ns actor batch, .arriving⟩

section Coming

variable {key : EntityKey} {e : QueueEntry}

theorem drain_starts (hr : Reaches engine (start engine.settings s) h)
    (he : h.queue.get? key = some e) (due : EntityKey → QueueEntry → Bool) (hdue : due key e = true)
    (actor : String) : ∃ id, h.tasks.get? id = none ∧ (h.drain due actor).2.tasks.get? id =
      some ⟨key, .drain e.names actor h.fresh, .arriving⟩ := by
  obtain ⟨-, hnew⟩ := foldl_launch_tasks actor h.fresh (h.queue.filter due).entries (h.opened due)
  have hmem : (key, e) ∈ (h.queue.filter due).entries :=
    List.mem_filter.2 ⟨Table.mem_entries_iff.2 he, hdue⟩
  obtain ⟨id, hid, hget⟩ := hnew _ hmem
  refine ⟨id, ?_, (congrArg (fun g => g.tasks.get? id) (h.drain_eq due actor)).trans hget⟩
  cases ht : h.tasks.get? id with
  | none => rfl
  | some t =>
    obtain ⟨ho, -, -⟩ := hr.tended
    exact absurd (ho.numbered id t ht) (Nat.not_lt.2 ((Nat.le_succ _).trans hid))

theorem Coming.after {names names' : List String} (hp : h.Proceeds engine h')
    (hsub : names ⊆ names') (hc : h'.Coming engine key names') : h.Coming engine key names := by
  obtain ⟨h₁, h₂, a, hp', ha, hstep, id, ns, actor, batch, hns, htask⟩ := hc
  exact ⟨h₁, h₂, a, hp.trans hp', ha, hstep, id, ns, actor, batch, fun _ hn => hns (hsub hn), htask⟩

/-- A worker that sleeps no longer than until the deadline of the entity. -/
theorem comes_armed (hr : Reaches engine (start engine.settings s) h)
    (he : h.queue.get? key = some e) {time : Nat} (hw : h.worker = .armed (some time))
    (hle : time ≤ e.deadline) : h.Coming engine key e.names := by
  let g : Handler σ := { h with clock := max h.clock e.deadline }
  have hclock : h.step engine (.clock (max h.clock e.deadline)) = some g :=
    if_pos (Nat.le_max_left ..)
  have hdue : decide (e.deadline ≤ g.clock) = true := decide_eq_true (Nat.le_max_right ..)
  obtain ⟨id, hnone, htask⟩ := drain_starts (h := g) (hr.step _ hclock) he
    (fun _ e => e.deadline ≤ g.clock) hdue engine.settings.recalc.systemActor
  have htimer : g.step engine (.worker .timer) = some { (g.drain (fun _ e => e.deadline ≤ g.clock)
      engine.settings.recalc.systemActor).2 with worker := .draining g.fresh } := by
    have hle : time ≤ g.clock := hle.trans (Nat.le_max_right ..)
    have hw : g.worker = .armed (some time) := hw
    simp only [step, stepWorker, hw, hle, if_true]
    rfl
  exact ⟨g, _, .worker .timer, .single ⟨.clock _, trivial, hclock⟩, trivial, htimer, id, e.names,
    _, _, fun _ hn => hn, hnone, htask⟩

theorem calm_worker {cue : WorkerCue} (hcue : cue ≠ .timer) : (Action.worker cue).Calm := hcue

/-- A worker that is awake and was not told to stop. -/
theorem comes_awake (hr : Reaches engine (start engine.settings s) h)
    (he : h.queue.get? key = some e) (hw : h.worker = .awake) (hstop : h.stopRequested = false) :
    h.Coming engine key e.names := by
  have hsleep : h.step engine (.worker .proceed) =
      some { h with worker := .armed h.earliestDeadline } := by
    simp [step, stepWorker, hw, hstop]
  obtain ⟨time, htime, hle⟩ := exists_earliest he
  refine .after (.single ⟨.worker .proceed, calm_worker (by decide), hsleep⟩) (fun _ hn => hn) ?_
  exact comes_armed (hr.step _ hsleep) he (congrArg Worker.armed htime) hle

/-- A call that is about to drain the queue of all tenants. -/
theorem comes_flush (hr : Reaches engine (start engine.settings s) h)
    (he : h.queue.get? key = some e) {id : Nat} {actor : String}
    (hc : h.calls.get? id = some (.flush none actor)) : h.Coming engine key e.names := by
  obtain ⟨task, hnone, htask⟩ := drain_starts hr he
    (fun key _ => (none : Option String).all fun t => key.tenant = t) rfl actor
  have hstep : h.step engine (.call id) = some (((h.drain (fun key _ =>
      (none : Option String).all fun t => key.tenant = t) actor).2).setCall id (.awaiting h.fresh)) := by
    simp only [step, hc]
    rfl
  exact ⟨h, _, .call id, .refl, trivial, hstep, task, e.names, _, _, fun _ hn => hn, hnone, htask⟩

theorem get?_setCall (id : Nat) (c : Call) (h : Handler σ) :
    (h.setCall id c).calls.get? id = some c := by
  unfold setCall
  rw [Table.get?_insert, if_pos rfl]

/-- A shutdown that waits for the worker, once that has stopped. -/
theorem comes_stopping (hr : Reaches engine (start engine.settings s) h)
    (he : h.queue.get? key = some e) (hw : h.worker = .stopped) {id : Nat}
    (hc : h.calls.get? id = some .stopping) : h.Coming engine key e.names := by
  have hstep : h.step engine (.call id) =
      some (h.setCall id (.flush none engine.settings.recalc.systemActor)) := by
    simp [step, hc, stepCall, hw]
  refine .after (.single ⟨.call id, trivial, hstep⟩) (fun _ hn => hn) ?_
  exact comes_flush (hr.step _ hstep) he (get?_setCall id _ h)

/-- A shutdown, once the worker has stopped. -/
theorem comes_closing (hr : Reaches engine (start engine.settings s) h)
    (he : h.queue.get? key = some e) (hw : h.worker = .stopped) {id : Nat} {c : Call}
    (hc : h.calls.get? id = some c) (hcloses : c.Closes) : h.Coming engine key e.names := by
  cases c with
  | shutdown =>
    cases hwaitable : h.workerWaitable with
    | true =>
      have hstep : h.step engine (.call id) = some
          (({ h with stopRequested := true, workerWaitable := false }).setCall id .stopping) := by
        simp [step, hc, stepCall, hwaitable]
      refine .after (.single ⟨.call id, trivial, hstep⟩) (fun _ hn => hn) ?_
      exact comes_stopping (hr.step _ hstep) he hw (get?_setCall ..)
    | false =>
      have hstep : h.step engine (.call id) = some (({ h with stopRequested := true }).setCall id
          (.flush none engine.settings.recalc.systemActor)) := by
        simp [step, hc, stepCall, hwaitable]
      refine .after (.single ⟨.call id, trivial, hstep⟩) (fun _ hn => hn) ?_
      exact comes_flush (hr.step _ hstep) he (get?_setCall ..)
  | stopping => exact comes_stopping hr he hw hc
  | flush tenant actor =>
    cases tenant with
    | none => exact comes_flush hr he hc
    | some tenant => exact hcloses.elim
  | awaiting | consume | consuming | returned => exact hcloses.elim

/-- The worker can go on until it looks at the queue, unless it sleeps and nothing is to wake it. -/
theorem wakes (hr : Reaches engine (start engine.settings s) h) {log : List Milestone}
    (hatt : h.front.Attended h.fresh log) (hw : h.worker ≠ .stopped)
    (hwakes : ∀ deadline, h.worker = .armed deadline → h.stopRequested = true ∨ h.woken = true) :
    ∃ h', h.Proceeds engine h' ∧ h.Retains h' ∧ h'.worker = .awake := by
  cases hworker : h.worker with
  | absent => exact absurd hworker hatt.present
  | stopped => exact absurd hworker hw
  | awake => exact ⟨h, .refl, .of_eq rfl rfl rfl, hworker⟩
  | armed deadline =>
    rcases hwakes deadline hworker with hstop | hwoken
    · refine ⟨{ h with worker := .awake }, .single ⟨.worker .stop, calm_worker (by decide), ?_⟩,
        .of_eq rfl rfl rfl, rfl⟩
      simp [step, stepWorker, hworker, hstop]
    · refine ⟨{ h with worker := .awake, woken := false },
        .single ⟨.worker .wake, calm_worker (by decide), ?_⟩, .of_eq rfl rfl rfl, rfl⟩
      simp [step, stepWorker, hworker, hwoken]
  | draining batch =>
    -- Its tasks can come to their end, and then the worker goes on.
    have hpresent : h.batches.contains batch = true := (hatt.draining batch hworker).1.2
    obtain ⟨⟨report, n⟩, hb⟩ := Option.isSome_iff_exists.1 hpresent
    obtain ⟨g, hp, hab, report', hb'⟩ := completes hr hb
    have hdone : g.step engine (.worker .proceed) =
        some { g with batches := g.batches.erase batch, worker := .awake } := by
      simp [step, stepWorker, hab.worker, hworker, finishBatch, hb']
    exact ⟨_, hp.tail ⟨.worker .proceed, calm_worker (by decide), hdone⟩,
      hab.toRetains.trans (.of_eq rfl rfl rfl), rfl⟩

end Coming

/-- As long as the worker has not stopped, or a shutdown has yet to take the queue. -/
theorem Watched.coming (hmode : engine.settings.recalc.mode = .batched)
    (hr : Watched engine s h log) {key : EntityKey} {e : QueueEntry}
    (he : h.queue.get? key = some e) (hopen : h.worker ≠ .stopped ∨ ∃ id, Pending log id) :
    h.Coming engine key e.names := by
  have hatt := hr.attended hmode
  by_cases hw : h.worker = .stopped
  · obtain ⟨id, hid⟩ := hopen.resolve_left (not_not.2 hw)
    obtain ⟨c, hc, hcloses⟩ := hatt.pending id hid
    exact comes_closing hr.reaches he hw hc hcloses
  cases hstop : h.stopRequested with
  | true =>
    obtain ⟨id, hid⟩ := hatt.stopping hstop hw
    obtain ⟨g, hp, hk, hawake⟩ := wakes hr.reaches hatt hw fun _ _ => .inl hstop
    obtain ⟨e', he', hsub⟩ := hk.queued key e he
    have hstep : g.step engine (.worker .proceed) = some { g with worker := .stopped } := by
      simp [step, stepWorker, hawake, hk.stopRequested, hstop]
    refine .after (hp.tail ⟨.worker .proceed, calm_worker (by decide), hstep⟩) hsub ?_
    exact comes_stopping ((hr.reaches.proceeds hp).step _ hstep) he' rfl
      ((congrArg (·.get? id) hk.calls).trans hid)
  | false =>
    by_cases hsleeps : ∃ deadline, h.worker = .armed deadline ∧ h.woken = false
    · obtain ⟨deadline, hworker, hwoken⟩ := hsleeps
      obtain ⟨time, rfl, hle⟩ := hatt.armed deadline hworker hwoken key e he
      exact comes_armed hr.reaches he hworker hle
    · obtain ⟨g, hp, hk, hawake⟩ := wakes hr.reaches hatt hw fun deadline hworker => .inr (by
        rw [← Bool.not_eq_false]
        exact fun hwoken => hsleeps ⟨deadline, hworker, hwoken⟩)
      obtain ⟨e', he', hsub⟩ := hk.queued key e he
      refine .after hp hsub (comes_awake (hr.reaches.proceeds hp) he' hawake ?_)
      rw [hk.stopRequested]
      exact hstop

/-- While something is queued, the worker has not stopped, or the final drain of a shutdown has yet to
    take the queue, or it was queued after such a drain.  In the first two cases the handler can go on
    by itself until a drain takes it, in every state that it comes to. -/
theorem Watched.not_stranded (hmode : engine.settings.recalc.mode = .batched)
    (hr : Watched engine s h log) {key : EntityKey} {e : QueueEntry}
    (he : h.queue.get? key = some e) :
    (h.worker ≠ .stopped ∨ (∃ id, Pending log id) ∨ ∀ name ∈ e.names, Late log ⟨key, name⟩) ∧
      (h.worker ≠ .stopped ∨ (∃ id, Pending log id) → h.Coming engine key e.names) := by
  refine ⟨?_, hr.coming hmode he⟩
  by_cases hw : h.worker = .stopped
  · have hatt := hr.attended hmode
    rcases hatt.stopped hw with hid | ⟨id, hid⟩
    · exact .inr (.inl hid)
    · obtain ⟨newer, older, hlog⟩ := List.append_of_mem hid
      refine .inr (.inr fun name hname => ⟨newer, id, older, hlog, ?_⟩)
      exact hatt.late newer id older hlog key e he name hname
  · exact .inl hw

/-! ### While a shutdown is under way -/

/-- Carries out one action after another, if they are possible, and notes the milestones. -/
def actsWatched (engine : Engine σ) : List Action → Handler σ × List Milestone →
    Option (Handler σ × List Milestone)
  | [], x => some x
  | a :: rest, (h, log) =>
    (h.step engine a).bind fun h' => actsWatched engine rest (h', h.milestones log a)

theorem Watched.acts {log' : List Milestone} {as : List Action} (hoffered : ∀ a ∈ as, a.Offered)
    (hr : Watched engine s h log) (ha : actsWatched engine as (h, log) = some (h', log')) :
    Watched engine s h' log' := by
  induction as generalizing h log with
  | nil =>
    cases ha
    exact hr
  | cons a rest ih =>
    obtain ⟨ha', hrest⟩ := List.forall_mem_cons.1 hoffered
    obtain ⟨h₁, hstep, hacts⟩ := Option.bind_eq_some_iff.1 ha
    exact ih hrest (.act a ha' hr hstep) hacts

/-- A notification is handled while a shutdown waits for the worker, and then the worker stops. -/
def meanwhile : List Action :=
  [.begin .shutdown, .call 0, .notify ⟨echoing.key, "y"⟩] ++ List.replicate 7 (.task 1) ++
    [.worker .proceed]

theorem meanwhile_not_stranded : ∃ h log e,
    Watched plainEngine (MemoryStore.insert {} echoing) h log ∧
      h.queue.get? echoing.key = some e ∧ e.names = ["y"] ∧ h.worker = .stopped ∧
      h.Coming plainEngine echoing.key e.names := by
  have hacts : (actsWatched plainEngine meanwhile
      (start plainEngine.settings (MemoryStore.insert {} echoing), [])).any (fun x =>
        (x.1.queue.get? echoing.key).any (fun e => e.names = ["y"]) ∧ x.1.worker = .stopped ∧
        x.2 = [.queued ⟨echoing.key, "y"⟩, .asked 0]) = true := by
    decide +kernel
  obtain ⟨⟨h, log⟩, hrun, hend⟩ := (Option.any_eq_true ..).1 hacts
  obtain ⟨hqueue, hworker, hlog⟩ := of_decide_eq_true hend
  obtain ⟨e, he, hnames⟩ := (Option.any_eq_true ..).1 hqueue
  have hr : Watched plainEngine (MemoryStore.insert {} echoing) h log :=
    Watched.start.acts (by simp [meanwhile, Action.Offered, Call.Offered]) hrun
  have hpending : Pending log 0 := by
    dsimp only at hlog
    simp [hlog, Pending]
  obtain ⟨-, hcoming⟩ := hr.not_stranded rfl he
  exact ⟨h, log, e, hr, he, of_decide_eq_true hnames, hworker, hcoming (.inr ⟨0, hpending⟩)⟩

/-! ### After a shutdown -/

/-- Nobody works, and nobody waits but those who would take a report. -/
structure Idle (h : Handler σ) : Prop where
  tasks : ∀ id t, h.tasks.get? id = some t → ∃ r, t.stage = .finished r
  calls : ∀ id c, h.calls.get? id = some c → ∃ report, c = .returned report
  worker : h.worker = .stopped

/-- Then all that goes on by itself is the clock. -/
theorem Idle.eq_clock {a : Action} (hi : h.Idle) (hstep : h.step engine a = some h') :
    (∃ time, a = .clock time ∧ h' = { h with clock := time }) ∨ ¬ (a.Calm ∨ a.Drains) := by
  cases step_cases hstep with
  | notify | begin | collect | report => exact .inr (by simp [Action.Calm, Action.Drains])
  | task ht hstep =>
    obtain ⟨r, hs⟩ := hi.tasks _ _ ht
    unfold stepTask at hstep
    rw [hs] at hstep
    cases hstep
  | call hc hstep =>
    obtain ⟨report, rfl⟩ := hi.calls _ _ hc
    cases hstep
  | worker hstep => simp [stepWorker, hi.worker] at hstep
  | clock => exact .inl ⟨_, rfl, rfl⟩

theorem Idle.not_coming (hi : h.Idle) (key : EntityKey) (names : List String) :
    ¬ h.Coming engine key names := by
  rintro ⟨h₁, h₂, a, hp, hdrains, hstep, -⟩
  have hi₁ : h₁.Idle := by
    clear hstep
    induction hp with
    | refl => exact hi
    | tail _ hstep ih =>
      obtain ⟨a, ha, hstep⟩ := hstep
      rcases ih.eq_clock hstep with ⟨time, -, rfl⟩ | hnot
      · exact ⟨ih.tasks, ih.calls, ih.worker⟩
      · exact absurd (.inl ha) hnot
  rcases hi₁.eq_clock hstep with ⟨time, rfl, -⟩ | hnot
  · exact hdrains
  · exact hnot (.inr hdrains)

/-- A notification comes in when a shutdown has come to its end. -/
def afterwards : List Action :=
  [.begin .shutdown, .call 0, .worker .proceed, .call 0, .call 0, .call 0, .report 0,
    .notify ⟨echoing.key, "y"⟩] ++ List.replicate 7 (.task 2)

/-- It is handled with success and queued, and no drain is coming. -/
theorem afterwards_stranded : plainEngine.settings.recalc.mode = .batched ∧ ∃ h log t,
    Watched plainEngine (MemoryStore.insert {} echoing) h log ∧
      h.tasks.get? 2 = some t ∧ t.result?.any Except.toBool = true ∧
      .queued ⟨echoing.key, "y"⟩ ∈ log ∧ h.queue.contains echoing.key = true ∧
      ¬ (h.worker ≠ .stopped ∨ ∃ id, Pending log id) ∧
      ∀ names, ¬ h.Coming plainEngine echoing.key names := by
  refine ⟨rfl, ?_⟩
  have hacts : (actsWatched plainEngine afterwards
      (start plainEngine.settings (MemoryStore.insert {} echoing), [])).any (fun x =>
        x.2 = [.queued ⟨echoing.key, "y"⟩, .emptied 0, .asked 0] ∧
        x.1.queue.contains echoing.key = true ∧ x.1.worker = .stopped ∧ x.1.calls.entries = [] ∧
        (x.1.tasks.get? 2).any (fun t => t.result?.any Except.toBool) = true ∧
        x.1.tasks.entries.all (fun entry => entry.2.result?.isSome) = true) = true := by
    decide +kernel
  obtain ⟨⟨h, log⟩, hrun, hend⟩ := (Option.any_eq_true ..).1 hacts
  obtain ⟨hlog, hqueue, hworker, hcalls, htask, htasks⟩ := of_decide_eq_true hend
  dsimp only at hlog hqueue hworker hcalls htask htasks
  obtain ⟨t, ht, hresult⟩ := (Option.any_eq_true ..).1 htask
  have hr : Watched plainEngine (MemoryStore.insert {} echoing) h log :=
    Watched.start.acts (by simp [afterwards, Action.Offered, Call.Offered]) hrun
  have hidle : h.Idle := by
    refine ⟨fun id u hu => ?_, fun id c hc => ?_, hworker⟩
    · have hsome := List.all_eq_true.1 htasks _ (Table.mem_entries_iff.2 hu)
      unfold Task.result? at hsome
      split at hsome
      · rename_i r hs
        exact ⟨r, hs⟩
      · cases hsome
    · have hmem := Table.mem_entries_iff.2 hc
      rw [hcalls] at hmem
      cases hmem
  refine ⟨h, log, t, hr, ht, hresult, ?_, hqueue, ?_, fun names => hidle.not_coming _ names⟩
  · simp [hlog]
  · rintro (hw | ⟨id, hasked, hemptied⟩)
    · exact hw hworker
    · simp only [hlog, List.mem_cons, reduceCtorEq, List.not_mem_nil, or_false, false_or,
        asked.injEq, emptied.injEq] at hasked hemptied
      exact hemptied hasked

end Handler

end EntityFormulas
