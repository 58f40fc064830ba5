/-
  EntityFormulas/Proofs/Recalculation/Debounce.lean
  =================================================
  **The timer waits until an entity has been left alone.**

  The worker sleeps until a deadline that it has read off the queue before, and
  by the time it looks again notifications may have put deadlines off, or a
  drain of other entities may have kept it.  None of this matters, because what
  it takes it chooses by the deadlines as they are then: an entity's deadline is
  the time at which something was last queued for it plus the delay
  (`Ledger.Queued`).  So a burst of notifications that leaves no gap as long as
  the delay is drained once, after it, with all of its names (`Debounced`).
-/
import EntityFormulas.Proofs.Recalculation.Conservation

namespace EntityFormulas

namespace QueueEvent

/-- The times at which something was queued for an entity, the last one first. -/
def times (key : EntityKey) (log : List QueueEvent) : List Nat :=
  (log.filterMap (queued? key)).map Prod.fst

/-- Whether a call has taken the entry of the entity. -/
def isFlush (key : EntityKey) : QueueEvent → Bool
  | taken _ k _ _ _ (.flush _ _) => k = key
  | _ => false

theorem queued?_eq_some_iff {key : EntityKey} {e : QueueEvent} {time : Nat} {name : String} :
    queued? key e = some (time, name) ↔ e = queued time key name := by
  cases e with
  | queued t k n =>
    by_cases hk : k = key
    · simp [queued?, hk]
    · simp [queued?, hk]
  | _ => simp [queued?]

theorem mem_times_iff {key : EntityKey} {log : List QueueEvent} {time : Nat} :
    time ∈ times key log ↔ ∃ name, queued time key name ∈ log := by
  simp [times, List.mem_filterMap, queued?_eq_some_iff]

theorem times_append (key : EntityKey) (log log' : List QueueEvent) :
    times key (log ++ log') = times key log ++ times key log' := by
  simp [times, List.filterMap_append]

@[simp] theorem times_queued (key k : EntityKey) (time : Nat) (name : String)
    (log : List QueueEvent) : times key (queued time k name :: log) =
      if k = key then time :: times key log else times key log := by
  by_cases hk : k = key <;> simp [times, queued?, hk]

/-- What was queued last stands in the log after everything else that was queued. -/
theorem split_since {key : EntityKey} {log : List QueueEvent} {time : Nat} {name : String}
    {rest : List (Nat × String)} (h : since key log = (time, name) :: rest) :
    ∃ front back, log = front ++ queued time key name :: back ∧
      ∀ e ∈ front, queued? key e = none := by
  induction log with
  | nil => cases h
  | cons e log ih =>
    rw [since_cons] at h
    split at h
    next => cases h
    next =>
      cases hq : queued? key e with
      | none =>
        rw [hq] at h
        obtain ⟨front, back, rfl, hfront⟩ := ih h
        exact ⟨e :: front, back, rfl, List.forall_mem_cons.2 ⟨hq, hfront⟩⟩
      | some x =>
        rw [hq] at h
        cases h
        exact ⟨[], log, by rw [queued?_eq_some_iff.1 hq]; rfl, by simp⟩

section Timely

variable {delay : Nat} {log : List QueueEvent} (h : Throughout (Timely delay) log)
include h

theorem Timely.le {after before : List QueueEvent} {e e' : QueueEvent} {time time' : Nat}
    (hlog : log = after ++ e :: before) (he : e.time? = some time) (hmem : e' ∈ before)
    (he' : e'.time? = some time') : time' ≤ time :=
  (h.of_append hlog).1 time he time' (List.mem_filterMap.2 ⟨e', hmem, he'⟩)

/-- The deadline of an entry is that of the last time at which something was queued. -/
theorem Timely.deadline {key : EntityKey} {names : List String} {deadline time : Nat}
    (hentry : entryOf delay key log = some ⟨names, deadline⟩) (htime : time ∈ times key log) :
    time + delay ≤ deadline := by
  obtain ⟨name, hmem⟩ := mem_times_iff.1 htime
  unfold entryOf at hentry
  split at hentry
  next => cases hentry
  next last lastName rest hsince =>
    cases hentry
    obtain ⟨front, back, hlog, hfront⟩ := split_since hsince
    refine Nat.add_le_add_right ?_ delay
    rw [hlog] at hmem
    rcases List.mem_append.1 hmem with hmem | hmem
    · cases (hfront _ hmem).symm.trans (queued?_eq_some_iff.2 rfl)
    · rcases List.mem_cons.1 hmem with heq | hmem
      · cases heq
        exact Nat.le_refl _
      · exact Timely.le h hlog rfl hmem rfl

end Timely

end QueueEvent

theorem Task.drains_iff {key : EntityKey} {t : Task} : t.drains key = true ↔
    t.key = key ∧ ∃ names actor batch, t.job = .drain names actor batch := by
  unfold drains
  cases t.job <;> simp

open QueueEvent

namespace Handler

variable {σ : Type} {engine : Engine σ} {s : σ} {h : Handler σ} {log : List QueueEvent}

/-- In a row of numbers that fall by less than `d` at a time, some number before a given one is
    less than `d` above it. -/
theorem exists_lt_of_isChain {d x y : Nat} {front back : List Nat}
    (h : (x :: (front ++ y :: back)).IsChain fun a b => a < b + d) :
    ∃ z ∈ x :: front, z < y + d := by
  induction front generalizing x with
  | nil => exact ⟨x, List.mem_cons_self, (List.isChain_cons_cons.1 h).1⟩
  | cons w rest ih =>
    obtain ⟨z, hz, hlt⟩ := ih (List.isChain_cons_cons.1 h).2
    exact ⟨z, List.mem_cons_of_mem _ hz, hlt⟩

/-- When the timer drains an entity, and what it then drains. -/
structure Debounced (settings : Settings) (h : Handler σ) (log : List QueueEvent) : Prop where
  /-- Nothing was queued for the entity for as long as the delay. -/
  waits : ∀ after before time key names task batch,
    log = after ++ .taken time key names task batch .timer :: before →
      ∀ time' ∈ times key before, time' + settings.recalc.batchDelay ≤ time
  /-- The pass marks what was queued for the entity since its entry was last taken. -/
  marks : ∀ after before time key names task batch,
    log = after ++ .taken time key names task batch .timer :: before →
      names = ascending ((since key before).map Prod.snd) ∧ (task ∉ log.filterMap ended? →
        ∃ t, h.tasks.get? task = some t ∧ ∀ now, t.plan settings now =
          key.drainPlan settings now names settings.recalc.systemActor)
  /-- Once something is queued for an entity, while it goes on to be queued less than the delay
      apart and no call takes the entry, nothing does, and no task is started that drains the
      entity. -/
  quiet : ∀ burst before first key name, log = burst ++ .queued first key name :: before →
    (h.clock :: (times key burst ++ [first])).IsChain (fun later earlier =>
      later < earlier + settings.recalc.batchDelay) →
    (∀ e ∈ burst, e.isFlush key = false) →
      (∀ e ∈ burst, e.isTake key = false) ∧ ∀ id t, h.tasks.get? id = some t →
        t.drains key = true → id ∈ before.filterMap started?

namespace Logged

variable (hr : Logged engine s h log)
include hr

/-- What the timer takes has been left alone for as long as the delay. -/
theorem timer_waits {after before : List QueueEvent} {time : Nat} {key : EntityKey}
    {names : List String} {task batch : Nat}
    (hlog : log = after ++ .taken time key names task batch .timer :: before) {time' : Nat}
    (htime : time' ∈ times key before) : time' + engine.settings.recalc.batchDelay ≤ time := by
  obtain ⟨-, deadline, hentry, hdue⟩ := hr.taken_eq hlog
  have hbefore : Throughout (Timely engine.settings.recalc.batchDelay) before := by
    refine throughout_iff.2 fun front e back hsplit => ?_
    have hlog' : log = after ++ .taken time key names task batch .timer :: front ++ e :: back := by
      rw [hlog, hsplit]
      simp
    exact hr.kept.queued.timely.of_append hlog'
  exact (Timely.deadline hbefore hentry htime).trans (of_decide_eq_true hdue)

/-- The timer takes nothing during a burst of notifications: it would have to come after a pause as
    long as the delay, and the burst has none. -/
theorem not_taken_of_isChain {burst before : List QueueEvent} {first : Nat} {key : EntityKey}
    {name : String} (hlog : log = burst ++ .queued first key name :: before)
    (hchain : (h.clock :: (times key burst ++ [first])).IsChain fun later earlier =>
      later < earlier + engine.settings.recalc.batchDelay)
    (hflush : ∀ e ∈ burst, e.isFlush key = false) : ∀ e ∈ burst, e.isTake key = false := by
  intro e he
  by_contra htake
  obtain ⟨time, names, task, batch, taker, rfl⟩ := isTake_iff.1 (Bool.eq_true_of_not_eq_false htake)
  obtain rfl : taker = .timer := by
    have hflush := hflush _ he
    cases taker with
    | timer => rfl
    | flush tenant actor => simp [isFlush] at hflush
  obtain ⟨newer, older, rfl⟩ := List.append_of_mem he
  have hlog' : log = newer ++ .taken time key names task batch .timer ::
      (older ++ .queued first key name :: before) := by
    rw [hlog, List.append_assoc, List.cons_append]
  obtain ⟨last, rest, hlast⟩ : ∃ last rest, times key older ++ [first] = last :: rest :=
    List.exists_cons_of_ne_nil (by simp)
  -- The delay has passed since what was queued last before the entry was taken, and what was
  -- queued next, or the clock, came within the delay.
  have hwaits : last + engine.settings.recalc.batchDelay ≤ time := by
    have hmem : last ∈ times key older ++ [first] := hlast ▸ List.mem_cons_self
    refine hr.timer_waits hlog' ?_
    rw [times_append, times_queued, if_pos rfl]
    rcases List.mem_append.1 hmem with hmem | hmem
    · exact List.mem_append_left _ hmem
    · exact List.mem_append_right _ (List.mem_singleton.1 hmem ▸ List.mem_cons_self)
  have htimes : times key (newer ++ .taken time key names task batch .timer :: older) ++ [first] =
      times key newer ++ last :: rest := by
    rw [times_append, List.append_assoc, ← hlast]
    rfl
  rw [htimes] at hchain
  obtain ⟨next, hnext, hlt⟩ := exists_lt_of_isChain hchain
  have hle : time ≤ next := by
    rcases List.mem_cons.1 hnext with rfl | hnext
    · have hmem : .taken time key names task batch .timer ∈ log := by simp [hlog']
      exact hr.kept.queued.past time (List.mem_filterMap.2 ⟨_, hmem, rfl⟩)
    · obtain ⟨name, hmem⟩ := mem_times_iff.1 hnext
      obtain ⟨front, back, rfl⟩ := List.append_of_mem hmem
      rw [List.append_assoc, List.cons_append] at hlog'
      exact Timely.le hr.kept.queued.timely hlog' rfl
        (List.mem_append_right _ List.mem_cons_self) rfl
  omega

end Logged

/-- However the worker, notifications and drains interleave. -/
theorem Logged.debounced (hr : Logged engine s h log) : h.Debounced engine.settings log := by
  constructor
  · exact fun _ _ _ _ _ _ _ hlog _ htime => hr.timer_waits hlog htime
  · intro after before time key names task batch hlog
    refine ⟨(hr.taken_eq hlog).1.2, fun hended => ?_⟩
    have hmem : .taken time key names task batch .timer ∈ log := by simp [hlog]
    obtain ⟨t, ht, rfl, hj⟩ := (hr.drains_iff task key names engine.settings.recalc.systemActor
      batch).2 ⟨⟨time, .timer, hmem, rfl⟩, hended⟩
    refine ⟨t, ht, fun now => ?_⟩
    unfold Task.plan
    rw [hj]
  · intro burst before first key name hlog hchain hflush
    have hquiet := hr.not_taken_of_isChain hlog hchain hflush
    refine ⟨hquiet, fun id t ht hdrains => ?_⟩
    obtain ⟨hkey, names, actor, batch, hj⟩ := Task.drains_iff.1 hdrains
    obtain ⟨⟨time, taker, hmem, -⟩, -⟩ := (hr.drains_iff id key names actor batch).1
      ⟨t, ht, hkey, hj⟩
    rw [hlog] at hmem
    rcases List.mem_append.1 hmem with hmem | hmem
    · exact absurd (isTake_iff.2 ⟨time, names, id, batch, taker, rfl⟩)
        (Bool.eq_false_iff.1 (hquiet _ hmem))
    · exact List.mem_filterMap.2 ⟨_, List.mem_of_ne_of_mem (by simp) hmem, rfl⟩

/-! ### A deadline that is put off -/

/-- While the worker sleeps a property is queued again; when it wakes it takes nothing, and it
    sleeps once more. -/
def putOff : List Action :=
  let task (id count : Nat) : List Action := List.replicate count (.task id)
  [.notify ⟨echoing.key, "y"⟩] ++ task 0 7 ++
    [.worker .proceed, .clock 200, .notify ⟨echoing.key, "y"⟩] ++ task 2 7 ++
    [.clock 300, .worker .timer, .worker .proceed, .worker .proceed, .clock 450, .worker .timer]

theorem putOff_debounced : ∃ h log, Logged plainEngine (MemoryStore.insert {} echoing) h log ∧
    (∀ time ∈ times echoing.key log, time + plainEngine.settings.recalc.batchDelay ≤ 450) ∧
      ∃ t, h.tasks.get? 6 = some t ∧ ∀ now, t.plan plainEngine.settings now =
        echoing.key.drainPlan plainEngine.settings now ["y"]
          plainEngine.settings.recalc.systemActor := by
  have hacts : (actsLogged plainEngine putOff
      (start plainEngine.settings (MemoryStore.insert {} echoing), [])).any (fun x =>
        x.2.head? = some (.taken 450 echoing.key ["y"] 6 5 .timer) ∧
        6 ∉ x.2.filterMap ended?) = true := by
    decide +kernel
  obtain ⟨⟨h, log⟩, hrun, hlog⟩ := (Option.any_eq_true ..).1 hacts
  obtain ⟨hhead, hended⟩ := of_decide_eq_true hlog
  have hr : Logged plainEngine (MemoryStore.insert {} echoing) h log := Logged.start.acts hrun
  obtain ⟨before, rfl⟩ := List.head?_eq_some_iff.1 hhead
  refine ⟨h, _, hr, ?_, (hr.debounced.marks [] before _ _ _ _ _ rfl).2 hended⟩
  exact fun time htime => hr.debounced.waits [] before _ _ _ _ _ rfl time htime

end Handler

end EntityFormulas
