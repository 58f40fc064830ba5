/-
  EntityFormulas/Proofs/Recalculation/Attendance.lean
  ===================================================
  **Who looks after the queue.**

  As long as the worker runs it looks after the queue, and it never sleeps
  longer than until the first deadline unless something is to wake it.  A
  shutdown tells it to stop and takes over: it waits for the worker, and then
  its final drain takes what is in the queue.  Several shutdowns may be under
  way at once, and then the one that waits for the worker need not be the first
  whose drain takes the queue.

  `Watched` is a run with its `Milestone`s: what was queued, and when shutdowns
  were called and took the queue.  All that calls and the worker go by is the
  `Front` of a handler, so the invariant (`Front.Attended`) is about that and the
  milestones.
-/
import EntityFormulas.Proofs.Recalculation.Progress
import EntityFormulas.Proofs.Recalculation.Conservation

namespace EntityFormulas

open Relation (ReflTransGen)

/-! ### Milestones -/

/-- What matters to the end of a handler. -/
inductive Milestone where
  | queued (n : Notification)
  /-- A shutdown was called, and this is the number of the call. -/
  | asked (call : Nat)
  /-- The final drain of that shutdown has taken the queue. -/
  | emptied (call : Nat)
deriving DecidableEq

/-- The calls that others make; a handler makes the other ones of them. -/
def Call.Offered : Call → Prop
  | .flush .. | .shutdown | .consume _ => True
  | _ => False

/-- A shutdown that has not drained the queue yet. -/
def Call.Closes : Call → Prop
  | .shutdown | .stopping | .flush none _ => True
  | _ => False

namespace Milestone

/-- The final drain of that shutdown has not yet taken the queue. -/
def Pending (log : List Milestone) (id : Nat) : Prop := asked id ∈ log ∧ emptied id ∉ log

/-- The notification was queued after the final drain of a shutdown had taken the queue. -/
def Late (log : List Milestone) (n : Notification) : Prop :=
  ∃ newer id older, log = newer ++ emptied id :: older ∧ queued n ∈ newer

/-- What was noted last and is not that drain was noted after it. -/
theorem split_cons {log newer older : List Milestone} {x : Milestone} {id : Nat}
    (h : x :: log = newer ++ emptied id :: older) (hx : x ≠ emptied id) :
    ∃ newer', newer = x :: newer' ∧ log = newer' ++ emptied id :: older := by
  rcases newer with _ | ⟨y, newer⟩
  · exact absurd (List.cons_eq_cons.1 h).1 hx
  · obtain ⟨rfl, hlog⟩ := List.cons_eq_cons.1 h
    exact ⟨newer, rfl, hlog⟩

end Milestone

open Milestone

namespace Handler

variable {σ : Type} {engine : Engine σ} {s : σ} {h h' : Handler σ} {log : List Milestone}

/-- The milestones after an action that is possible. -/
def milestones (h : Handler σ) (log : List Milestone) : Action → List Milestone
  | .begin .shutdown => .asked h.fresh :: log
  | .task id => (((h.tasks.get? id).bind Task.queues?).map Milestone.queued).toList ++ log
  | .call id =>
    match h.calls.get? id with
    | some (.flush none _) => if .asked id ∈ log then .emptied id :: log else log
    | _ => log
  | _ => log

/-- Others make no calls but those that are offered. -/
def Action.Offered : Action → Prop
  | .begin c => c.Offered
  | _ => True

/-- The states that a new handler comes to, each with the milestones so far, the newest first. -/
inductive Watched (engine : Engine σ) (s : σ) : Handler σ → List Milestone → Prop where
  | start : Watched engine s (start engine.settings s) []
  | act {h h' : Handler σ} {log : List Milestone} (a : Action) (ha : a.Offered)
    (hr : Watched engine s h log) (hstep : h.step engine a = some h') :
    Watched engine s h' (h.milestones log a)

theorem Watched.reaches (hr : Watched engine s h log) :
    Reaches engine (Handler.start engine.settings s) h := by
  induction hr with
  | start => exact .refl _
  | act a _ _ hstep ih => exact .step a ih hstep

end Handler

/-! ### What is kept -/

/-- What is in the queue is due no earlier than what is due first. -/
theorem exists_earliest {queue : Table EntityKey QueueEntry} {key : EntityKey} {e : QueueEntry}
    (he : queue.get? key = some e) :
    ∃ time, (queue.values.map QueueEntry.deadline).min? = some time ∧ time ≤ e.deadline := by
  have hmem : e.deadline ∈ queue.values.map QueueEntry.deadline :=
    List.mem_map_of_mem (List.mem_map_of_mem (f := Prod.snd) (Table.mem_entries_iff.2 he))
  obtain ⟨time, htime⟩ := Option.isSome_iff_exists.1 (List.isSome_min?_of_mem hmem)
  exact ⟨time, htime, (List.min?_eq_some_iff.1 htime).2 _ hmem⟩

namespace Front

/-- Somebody looks after the queue.  Numbers that are not yet in use are not below `fresh`. -/
structure Attended (fresh : Nat) (log : List Milestone) (f : Front) : Prop where
  numbered : ∀ id c, f.calls.get? id = some c →
    id < fresh ∧ ∀ batch, c = .awaiting batch → batch < fresh
  logged : ∀ id, .asked id ∈ log ∨ .emptied id ∈ log → id < fresh
  /-- A shutdown is under way until it drains the queue. -/
  pending : ∀ id, Pending log id → ∃ call, f.calls.get? id = some call ∧ call.Closes
  calls : ∀ id call, f.calls.get? id = some call → call = .shutdown ∨ call = .stopping →
    Pending log id
  present : f.worker ≠ .absent
  waitable : f.stopRequested = false → f.workerWaitable = true
  /-- A shutdown waits for the worker to stop. -/
  stopping : f.stopRequested = true → f.worker ≠ .stopped → ∃ id, f.calls.get? id = some .stopping
  stopped : f.worker = .stopped → (∃ id, Pending log id) ∨ ∃ id, .emptied id ∈ log
  /-- While the worker sleeps, it sleeps no longer than until the deadline of every entry, or
      something will wake it. -/
  armed : ∀ deadline, f.worker = .armed deadline → f.woken = false →
    ∀ key e, f.queue.get? key = some e → ∃ time, deadline = some time ∧ time ≤ e.deadline
  /-- Nobody else waits for the drain that the worker waits for. -/
  draining : ∀ batch, f.worker = .draining batch →
    (batch < fresh ∧ f.batches batch = true) ∧ ∀ id, f.calls.get? id ≠ some (.awaiting batch)
  late : ∀ newer id older, log = newer ++ .emptied id :: older → ∀ key e,
    f.queue.get? key = some e → ∀ name ∈ e.names, .queued ⟨key, name⟩ ∈ newer

namespace Attended

variable {fresh fresh' : Nat} {log : List Milestone} {f : Front} (h : f.Attended fresh log)
include h

theorem mono (hle : fresh ≤ fresh') : f.Attended fresh' log := by
  refine { h with
    numbered := fun id call hc => ?_
    logged := fun id hid => ?_
    draining := fun batch hb => ?_ }
  · obtain ⟨hid, hbatch⟩ := h.numbered id call hc
    exact ⟨hid.trans_le hle, fun batch hb => (hbatch batch hb).trans_le hle⟩
  · exact (h.logged id hid).trans_le hle
  · obtain ⟨⟨hlt, hpresent⟩, hcalls⟩ := h.draining batch hb
    exact ⟨⟨hlt.trans_le hle, hpresent⟩, hcalls⟩

theorem clock (time : Nat) : { f with clock := time }.Attended fresh log := { h with }

/-- Something is queued, and the worker will be woken. -/
theorem enqueue (delay : Nat) (n : Notification) : { f with
    queue := f.queue.insert n.key ⟨insertAscending n.property
      (((f.queue.get? n.key).map QueueEntry.names).getD []), f.clock + delay⟩
    woken := true }.Attended fresh (.queued n :: log) := by
  have hpending {id : Nat} : Pending (.queued n :: log) id ↔ Pending log id := by simp [Pending]
  refine { h with
    logged := fun id hid => h.logged id (by simpa using hid)
    pending := fun id hid => h.pending id (hpending.1 hid)
    calls := fun id call hc hcloses => hpending.2 (h.calls id call hc hcloses)
    stopped := fun hw => (h.stopped hw).imp (fun ⟨id, hid⟩ => ⟨id, hpending.2 hid⟩)
      fun ⟨id, hid⟩ => ⟨id, List.mem_cons_of_mem _ hid⟩
    armed := fun _ _ hwoken => (nomatch hwoken)
    late := fun newer id older hlog key e he name hname => ?_ }
  obtain ⟨newer, rfl, hrest⟩ := split_cons hlog nofun
  dsimp only at he
  rw [Table.get?_insert] at he
  by_cases hkey : n.key = key
  · subst hkey
    rw [if_pos rfl] at he
    cases he
    rcases mem_insertAscending.1 hname with rfl | hname
    · exact List.mem_cons_self
    · obtain ⟨e, hq, hname⟩ : ∃ e, f.queue.get? n.key = some e ∧ name ∈ e.names := by
        cases hq : f.queue.get? n.key with
        | none => simp [hq] at hname
        | some e => exact ⟨e, rfl, by simpa [hq] using hname⟩
      exact List.mem_cons_of_mem _ (h.late newer id older hrest _ e hq name hname)
  · rw [if_neg hkey] at he
    exact List.mem_cons_of_mem _ (h.late newer id older hrest key e he name hname)

theorem not_pending {id : Nat} {c : Call} (hc : f.calls.get? id = some c) (hcloses : ¬ c.Closes) :
    ¬ Pending log id := by
  intro hid
  obtain ⟨b, hb, hbc⟩ := h.pending id hid
  rw [hc] at hb
  cases hb
  exact hcloses hbc

/-- One call changes, and with it what is to become of the worker. -/
theorem changeCall {id : Nat} {b : Option Call} {calls : Table Nat Call} {log' : List Milestone}
    {stopRequested workerWaitable : Bool} (hcalls : calls.get? = Function.update f.calls.get? id b)
    (hle : fresh ≤ fresh')
    (hb : ∀ c, b = some c → id < fresh' ∧ (c = .shutdown ∨ c = .stopping → Pending log' id) ∧
      ∀ batch, c = .awaiting batch → batch < fresh' ∧ f.worker ≠ .draining batch)
    (hid : Pending log' id → ∃ c, b = some c ∧ c.Closes)
    (hpending : ∀ j, j ≠ id → (Pending log' j ↔ Pending log j))
    (hwaitable : stopRequested = false → workerWaitable = true)
    (hstopping : stopRequested = true → f.worker ≠ .stopped → b = some .stopping ∨
      f.calls.get? id ≠ some .stopping ∧ f.stopRequested = true)
    (hlogged : ∀ j, .asked j ∈ log' ∨ .emptied j ∈ log' → j < fresh')
    (hstopped : f.worker = .stopped → (∃ j, Pending log' j) ∨ ∃ j, .emptied j ∈ log')
    (hlate : ∀ newer j older, log' = newer ++ .emptied j :: older → ∀ key e,
      f.queue.get? key = some e → ∀ name ∈ e.names, .queued ⟨key, name⟩ ∈ newer) :
    { f with calls, stopRequested, workerWaitable }.Attended fresh' log' := by
  have hmono := h.mono hle
  have hother {j : Nat} (hj : j ≠ id) : calls.get? j = f.calls.get? j := by
    rw [hcalls, Function.update_of_ne hj]
  have hself : calls.get? id = b := by rw [hcalls, Function.update_self]
  constructor
  case numbered =>
    intro j c hc
    by_cases hj : j = id
    · subst hj
      obtain ⟨hlt, -, hawait⟩ := hb c (hself.symm.trans hc)
      exact ⟨hlt, fun batch hbatch => (hawait batch hbatch).1⟩
    · exact hmono.numbered j c ((hother hj).symm.trans hc)
  case logged => exact hlogged
  case pending =>
    intro j hj
    by_cases hne : j = id
    · subst hne
      obtain ⟨c, hc, hcloses⟩ := hid hj
      exact ⟨c, hself.trans hc, hcloses⟩
    · obtain ⟨c, hc, hcloses⟩ := h.pending j ((hpending j hne).1 hj)
      exact ⟨c, (hother hne).trans hc, hcloses⟩
  case calls =>
    intro j c hc hcloses
    by_cases hj : j = id
    · subst hj
      exact (hb c (hself.symm.trans hc)).2.1 hcloses
    · exact (hpending j hj).2 (h.calls j c ((hother hj).symm.trans hc) hcloses)
  case present => exact h.present
  case waitable => exact hwaitable
  case stopping =>
    intro hstop hw
    rcases hstopping hstop hw with hb | ⟨hne, hstop⟩
    · exact ⟨id, hself.trans hb⟩
    · obtain ⟨j, hj⟩ := h.stopping hstop hw
      refine ⟨j, (hother ?_).trans hj⟩
      rintro rfl
      exact hne hj
  case stopped => exact hstopped
  case armed => exact h.armed
  case draining =>
    intro batch hw
    refine ⟨(hmono.draining batch hw).1, fun j hj => ?_⟩
    by_cases hne : j = id
    · subst hne
      exact ((hb _ (hself.symm.trans hj)).2.2 batch rfl).2 hw
    · exact (h.draining batch hw).2 j ((hother hne).symm.trans hj)
  case late => exact hlate

/-- A call moves on that is not a shutdown's. -/
theorem setCall {id : Nat} {c c' : Call} (hc : f.calls.get? id = some c)
    (hid : ¬ Pending log id) (hcloses : ¬ c'.Closes)
    (hawait : ∀ batch, c' = .awaiting batch → batch < fresh ∧ f.worker ≠ .draining batch) :
    { f with calls := f.calls.insert id c' }.Attended fresh log := by
  refine h.changeCall (f.calls.get?_insert_eq_update id c') (Nat.le_refl _) ?_ (absurd · hid)
    (fun _ _ => .rfl) h.waitable (fun hstop _ => .inr ⟨fun hs => ?_, hstop⟩) h.logged h.stopped h.late
  · rintro _ ⟨⟩
    refine ⟨(h.numbered id c hc).1, ?_, hawait⟩
    rintro (rfl | rfl) <;> exact absurd trivial hcloses
  · exact hid (h.calls id _ hs (.inr rfl))

/-- Entries are taken off the queue for a new batch. -/
theorem drain (due : EntityKey → QueueEntry → Bool) : { f with
    queue := f.queue.filter fun key e => !due key e
    batches := Function.update f.batches fresh true }.Attended (fresh + 1) log := by
  have hsub {key : EntityKey} {e : QueueEntry}
      (he : (f.queue.filter fun key e => !due key e).get? key = some e) :
      f.queue.get? key = some e := by
    rw [Table.get?_filter] at he
    exact (Option.filter_eq_some_iff.1 he).1
  have hmono := h.mono (Nat.le_succ fresh)
  refine { hmono with
    armed := fun deadline hw hwoken key e he => h.armed deadline hw hwoken key e (hsub he)
    draining := fun batch hw => ?_
    late := fun newer id older hlog key e he => h.late newer id older hlog key e (hsub he) }
  obtain ⟨⟨hlt, hpresent⟩, hcalls⟩ := h.draining batch hw
  refine ⟨⟨hlt.trans (Nat.lt_succ_self fresh), ?_⟩, hcalls⟩
  dsimp only
  rw [Function.update_of_ne hlt.ne]
  exact hpresent

/-- A batch is done that the worker does not wait for. -/
theorem finish (batch : Nat) (hw : f.worker ≠ .draining batch) :
    { f with batches := Function.update f.batches batch false }.Attended fresh log := by
  refine { h with draining := fun b hb => ?_ }
  obtain ⟨⟨hlt, hpresent⟩, hcalls⟩ := h.draining b hb
  refine ⟨⟨hlt, ?_⟩, hcalls⟩
  dsimp only
  rw [Function.update_of_ne]
  · exact hpresent
  · rintro rfl
    exact hw hb

/-- The final drain of a shutdown has taken the queue. -/
theorem empty {id batch : Nat} {actor : String} (hc : f.calls.get? id = some (.flush none actor))
    (hqueue : ∀ key, f.queue.get? key = none) (hlt : batch < fresh)
    (hw : f.worker ≠ .draining batch) :
    { f with calls := f.calls.insert id (.awaiting batch) }.Attended fresh (.emptied id :: log) := by
  refine h.changeCall (f.calls.get?_insert_eq_update id _) (Nat.le_refl _) ?_
    (fun hid => absurd List.mem_cons_self hid.2) (fun j hj => by simp [Pending, hj]) h.waitable
    (fun hstop _ => .inr ⟨by simp [hc], hstop⟩) (fun j hj => ?_)
    (fun _ => .inr ⟨id, List.mem_cons_self⟩) fun _ _ _ _ key e he => ?_
  · rintro _ ⟨⟩
    refine ⟨(h.numbered id _ hc).1, by simp, ?_⟩
    rintro _ ⟨⟩
    exact ⟨hlt, hw⟩
  · by_cases hne : j = id
    · exact hne ▸ (h.numbered id _ hc).1
    · exact h.logged j (by simpa [hne] using hj)
  · rw [hqueue key] at he
    cases he

/-- Somebody makes another call than a shutdown; it gets the next number. -/
theorem begin {c : Call} (hcloses : ¬ (c = .shutdown ∨ c = .stopping))
    (hawait : ∀ batch, c ≠ .awaiting batch) :
    { f with calls := f.calls.insert fresh c }.Attended (fresh + 1) log := by
  have hmono := h.mono (Nat.le_succ fresh)
  refine h.changeCall (f.calls.get?_insert_eq_update fresh c) (Nat.le_succ _) ?_
    (fun hid => absurd (h.logged fresh (.inl hid.1)) (Nat.lt_irrefl _)) (fun _ _ => .rfl) h.waitable
    (fun hstop _ => .inr ⟨fun hs => ?_, hstop⟩) hmono.logged h.stopped h.late
  · rintro _ ⟨⟩
    exact ⟨Nat.lt_succ_self _, (absurd · hcloses), fun batch hb => absurd hb (hawait batch)⟩
  · exact Nat.lt_irrefl _ (h.numbered fresh _ hs).1

/-- Somebody calls a shutdown. -/
theorem ask : { f with calls := f.calls.insert fresh .shutdown }.Attended (fresh + 1)
    (.asked fresh :: log) := by
  have hmono := h.mono (Nat.le_succ fresh)
  have hnew : Pending (.asked fresh :: log) fresh := by
    refine ⟨List.mem_cons_self, fun hmem => ?_⟩
    exact Nat.lt_irrefl fresh (h.logged fresh (.inr (by simpa using hmem)))
  refine h.changeCall (f.calls.get?_insert_eq_update fresh _) (Nat.le_succ _) ?_
    (fun _ => ⟨.shutdown, rfl, trivial⟩) (fun j hj => by simp [Pending, hj]) h.waitable
    (fun hstop _ => .inr ⟨fun hs => ?_, hstop⟩) (fun j hj => ?_) (fun _ => .inl ⟨fresh, hnew⟩)
    fun newer j older hlog => ?_
  · rintro _ ⟨⟩
    exact ⟨Nat.lt_succ_self _, fun _ => hnew, nofun⟩
  · exact Nat.lt_irrefl _ (h.numbered fresh _ hs).1
  · by_cases hne : j = fresh
    · exact hne ▸ Nat.lt_succ_self _
    · exact hmono.logged j (by simpa [hne] using hj)
  · obtain ⟨newer, rfl, hrest⟩ := split_cons hlog nofun
    intro key e he name hname
    exact List.mem_cons_of_mem _ (h.late newer j older hrest key e he name hname)

/-- A shutdown goes on.  When it has told the worker to stop it waits for it, unless another one
    does. -/
theorem close {id : Nat} {c c' : Call} (hc : f.calls.get? id = some c)
    (hcloses : c'.Closes) (hid : Pending log id) (stopRequested workerWaitable : Bool)
    (hwaitable : stopRequested = false → workerWaitable = true)
    (hstopping : stopRequested = true → f.worker ≠ .stopped → c' = .stopping ∨
      c ≠ .stopping ∧ f.stopRequested = true) :
    { f with calls := f.calls.insert id c', stopRequested, workerWaitable }.Attended fresh log := by
  refine h.changeCall (f.calls.get?_insert_eq_update id c') (Nat.le_refl _) ?_
    (fun _ => ⟨c', rfl, hcloses⟩) (fun _ _ => .rfl) hwaitable (fun hstop hw => ?_) h.logged h.stopped
    h.late
  · rintro _ ⟨⟩
    refine ⟨(h.numbered id c hc).1, fun _ => hid, ?_⟩
    rintro batch rfl
    exact hcloses.elim
  · simpa [hc] using hstopping hstop hw

/-- A call that has returned is forgotten. -/
theorem forget {id : Nat} {report : DrainReport} (hc : f.calls.get? id = some (.returned report)) :
    { f with calls := f.calls.erase id }.Attended fresh log :=
  h.changeCall (f.calls.get?_erase_eq_update id) (Nat.le_refl _) nofun
    (fun hid => absurd hid (h.not_pending hc nofun)) (fun _ _ => .rfl) h.waitable
    (fun hstop _ => .inr ⟨by simp [hc], hstop⟩) h.logged h.stopped h.late

/-! ### The worker -/

theorem awake (woken : Bool) (hw : f.worker ≠ .stopped) :
    { f with worker := .awake, woken }.Attended fresh log :=
  { h with
    present := nofun
    stopping := fun hstop _ => h.stopping hstop hw
    stopped := nofun
    armed := nofun
    draining := nofun }

theorem stop (hstop : f.stopRequested = true) (hw : f.worker ≠ .stopped) :
    { f with worker := .stopped }.Attended fresh log := by
  refine { h with
    present := nofun, stopping := fun _ hw => absurd rfl hw, stopped := fun _ => ?_
    armed := nofun, draining := nofun }
  obtain ⟨id, hid⟩ := h.stopping hstop hw
  exact .inl ⟨id, h.calls id _ hid (.inr rfl)⟩

/-- The worker goes to sleep until the earliest deadline. -/
theorem sleep (hw : f.worker ≠ .stopped) :
    { f with worker := .armed (f.queue.values.map QueueEntry.deadline).min? }.Attended fresh log := by
  refine { h with
    present := nofun, stopping := fun hstop _ => h.stopping hstop hw, stopped := nofun
    armed := fun deadline hdeadline _ key e he => ?_
    draining := nofun }
  cases hdeadline
  exact exists_earliest he

theorem waitForDrain {batch : Nat} (hw : f.worker ≠ .stopped) (hlt : batch < fresh)
    (hb : f.batches batch = true) (hcalls : ∀ id, f.calls.get? id ≠ some (.awaiting batch)) :
    { f with worker := .draining batch }.Attended fresh log := by
  refine { h with
    present := nofun, stopping := fun hstop _ => h.stopping hstop hw, stopped := nofun
    armed := nofun, draining := fun b hbatch => ?_ }
  cases hbatch
  exact ⟨⟨hlt, hb⟩, hcalls⟩

end Attended

end Front

/-! ### Runs -/

theorem Ledger.Step.fresh_le {settings : Settings} {c d : Ledger} (hstep : Ledger.Step settings c d) :
    c.fresh ≤ d.fresh := by
  cases hstep with
  | number fresh hle => exact hle
  | notify | take | openBatch => exact Nat.le_succ _
  | _ => exact Nat.le_refl _

namespace Handler

variable {σ : Type} {engine : Engine σ} {s : σ} {h h' : Handler σ} {log : List Milestone}

theorem fresh_le_of_steps {settings : Settings} {log log' : List QueueEvent}
    (hsteps : ReflTransGen (Ledger.Step settings) (h.ledger log) (h'.ledger log')) :
    h.fresh ≤ h'.fresh := by
  have hle {c d : Ledger} (hsteps : ReflTransGen (Ledger.Step settings) c d) : c.fresh ≤ d.fresh := by
    induction hsteps with
    | refl => exact Nat.le_refl _
    | tail _ hstep ih => exact ih.trans hstep.fresh_le
  exact hle hsteps

theorem front_foldl_launch (actor : String) (batch : Nat) (es : List (EntityKey × QueueEntry))
    (h : Handler σ) : (es.foldl (launch actor batch) h).front = h.front ∧
      h.fresh ≤ (es.foldl (launch actor batch) h).fresh := by
  induction es generalizing h with
  | nil => exact ⟨rfl, Nat.le_refl _⟩
  | cons e rest ih =>
    obtain ⟨hfront, hfresh⟩ := ih (h.launch actor batch e)
    exact ⟨hfront, (Nat.le_succ _).trans hfresh⟩

theorem front_drain (due : EntityKey → QueueEntry → Bool) (actor : String) (h : Handler σ) :
    (h.drain due actor).2.front = { h.front with
      queue := h.queue.filter fun key e => !due key e
      batches := Function.update h.front.batches h.fresh true } ∧
    h.fresh + 1 ≤ (h.drain due actor).2.fresh := by
  obtain ⟨hfront, hfresh⟩ := front_foldl_launch actor h.fresh (h.queue.filter due).entries
    (h.opened due)
  refine ⟨(congrArg Handler.front (h.drain_eq due actor)).trans (hfront.trans ?_), hfresh⟩
  unfold opened front
  dsimp only
  congr 1
  funext batch
  unfold Table.contains
  rw [Table.get?_insert_eq_update, Function.update_apply, Function.update_apply]
  split <;> rfl

/-- A batch is forgotten. -/
theorem front_forgetBatch (batch : Nat) (h : Handler σ) :
    ({ h with batches := h.batches.erase batch } : Handler σ).front =
      { h.front with batches := Function.update h.front.batches batch false } := by
  unfold front
  dsimp only
  congr 1
  funext b
  unfold Table.contains
  rw [Table.get?_erase_eq_update, Function.update_apply, Function.update_apply]
  split <;> rfl

theorem milestones_call {id : Nat} {c : Call} (hc : h.calls.get? id = some c)
    (hflush : ∀ actor, c ≠ .flush none actor) : h.milestones log (.call id) = log := by
  simp only [milestones]
  rw [hc]
  split
  · rename_i actor heq
    exact absurd (Option.some.inj heq) (hflush actor)
  · rfl

section Keep

variable (hatt : h.front.Attended h.fresh log)
include hatt

theorem attended_stepTask {id : Nat} {t : Task} (ht : h.tasks.get? id = some t)
    (hstep : h.stepTask engine id t = some h') :
    h'.front.Attended h'.fresh (h.milestones log (.task id)) := by
  have hsteps : ReflTransGen (Ledger.Step engine.settings) (h.ledger [])
      (h'.ledger (h.logTask id t [])) :=
    steps_stepTask_ledger ht hstep
  have hfresh : h.fresh ≤ h'.fresh := fresh_le_of_steps hsteps
  have hfront := front_stepTask hstep
  have hlog : h.milestones log (.task id) = (t.queues?.map Milestone.queued).toList ++ log := by
    simp [milestones, ht]
  rw [hlog]
  cases hq : t.queues? with
  | none =>
    rw [hq] at hfront
    exact (hfront ▸ hatt).mono hfresh
  | some n =>
    rw [hq] at hfront
    rw [hfront]
    exact (hatt.enqueue engine.settings.recalc.batchDelay n).mono hfresh

theorem attended_stepWorker {cue : WorkerCue} (hstep : h.stepWorker engine cue = some h') :
    h'.front.Attended h'.fresh log := by
  cases stepWorker_cases hstep with
  | stop hw hstop => exact hatt.stop hstop (by simp [front, hw])
  | arm hw => exact hatt.sleep (by simp [front, hw])
  | heed hw | wake hw => exact hatt.awake _ (by simp [front, hw])
  | drain hw =>
    obtain ⟨hfront, hfresh⟩ := h.front_drain (fun _ e => e.deadline ≤ h.clock)
      engine.settings.recalc.systemActor
    have hdrained := hatt.drain fun _ e => e.deadline ≤ h.clock
    have hworker := hdrained.waitForDrain (by simp [front, hw]) (Nat.lt_succ_self h.fresh)
      (Function.update_self ..) fun id hid => Nat.lt_irrefl _ ((hatt.numbered id _ hid).2 h.fresh rfl)
    refine Front.Attended.mono ?_ hfresh
    show Front.Attended _ _ { (h.drain (fun _ e => e.deadline ≤ h.clock)
      engine.settings.recalc.systemActor).2.front with worker := .draining h.fresh }
    rw [hfront]
    exact hworker
  | @resume batch report hw =>
    have hawake := hatt.awake h.woken (by simp [front, hw])
    show Front.Attended h.fresh log
      { ({ h with batches := h.batches.erase batch } : Handler σ).front with worker := .awake }
    rw [front_forgetBatch]
    exact hawake.finish batch (by simp)

theorem attended_flush {id : Nat} {tenant : Option String} {actor : String}
    (hc : h.calls.get? id = some (.flush tenant actor))
    (hstep : h.stepCall engine id (.flush tenant actor) = some h') :
    h'.front.Attended h'.fresh (h.milestones log (.call id)) := by
  cases hstep
  obtain ⟨hfront, hfresh⟩ := h.front_drain (fun key _ => tenant.all fun t => key.tenant = t) actor
  have hdrained := hatt.drain fun key _ => tenant.all fun t => key.tenant = t
  have hawait (batch : Nat) (hbatch : Call.awaiting h.fresh = .awaiting batch) :
      batch < h.fresh + 1 ∧ h.front.worker ≠ .draining batch := by
    cases hbatch
    refine ⟨Nat.lt_succ_self _, fun hw => ?_⟩
    exact Nat.lt_irrefl _ (hatt.draining h.fresh hw).1.1
  refine Front.Attended.mono ?_ hfresh
  show Front.Attended _ _ (let f := (h.drain (fun key _ => tenant.all fun t => key.tenant = t) actor).2.front
    { f with calls := f.calls.insert id (.awaiting h.fresh) })
  rw [hfront]
  cases tenant with
  | some t =>
    rw [milestones_call hc nofun]
    exact hdrained.setCall hc (hatt.not_pending hc nofun) nofun hawait
  | none =>
    simp only [milestones, hc]
    split
    · refine hdrained.empty hc (fun key => ?_) (hawait h.fresh rfl).1 (hawait h.fresh rfl).2
      dsimp only
      rw [Table.get?_filter]
      cases (h.front.queue.get? key) <;> rfl
    · rename_i hasked
      exact hdrained.setCall hc (fun hid => hasked hid.1) nofun hawait

theorem attended_stepCall {id : Nat} {c : Call} (hc : h.calls.get? id = some c)
    (hstep : h.stepCall engine id c = some h') :
    h'.front.Attended h'.fresh (h.milestones log (.call id)) := by
  have hlast : (Call.flush none engine.settings.recalc.systemActor).Closes := trivial
  cases stepCall_cases hstep with
  | flush => exact attended_flush hatt hc hstep
  | @report batch report =>
    rw [milestones_call hc nofun]
    have hw : h.front.worker ≠ .draining batch := fun hw => (hatt.draining batch hw).2 id hc
    show Front.Attended h.fresh log
      (let f := ({ h with batches := h.batches.erase batch } : Handler σ).front
      { f with calls := f.calls.insert id (.returned report) })
    rw [front_forgetBatch]
    exact (hatt.finish batch hw).setCall hc (hatt.not_pending hc nofun) nofun nofun
  | tell =>
    rw [milestones_call hc nofun]
    have hcloses : Call.stopping.Closes := trivial
    exact hatt.close hc hcloses (hatt.calls id .shutdown hc (.inl rfl)) true false nofun
      fun _ _ => .inl rfl
  | pass hwaitable =>
    rw [milestones_call hc nofun]
    refine hatt.close hc hlast (hatt.calls id .shutdown hc (.inl rfl)) true h.workerWaitable nofun
      fun _ _ => .inr ⟨nofun, ?_⟩
    cases hstop : h.front.stopRequested with
    | true => rfl
    | false => exact absurd (hatt.waitable hstop) (Bool.eq_false_iff.1 hwaitable)
  | stopped hw =>
    rw [milestones_call hc nofun]
    exact hatt.close hc hlast (hatt.calls id .stopping hc (.inr rfl)) _ _ hatt.waitable
      fun _ hne => absurd hw hne
  | done =>
    rw [milestones_call hc nofun]
    exact hatt.setCall hc (hatt.not_pending hc nofun) nofun nofun
  | next n rest =>
    rw [milestones_call hc nofun]
    have hcall : Front.Attended h.fresh log
        { h.front with calls := h.front.calls.insert id (.consuming h.fresh rest) } :=
      hatt.setCall hc (hatt.not_pending hc nofun) nofun nofun
    exact hcall.mono (Nat.le_succ _)
  | handled | failed =>
    rw [milestones_call hc nofun]
    exact hatt.setCall hc (hatt.not_pending hc nofun) nofun nofun

/-- Whatever happens, somebody looks after the queue. -/
theorem attended_step {a : Action} (ha : a.Offered) (hstep : h.step engine a = some h') :
    h'.front.Attended h'.fresh (h.milestones log a) := by
  cases step_cases hstep with
  | notify => exact hatt.mono (Nat.le_succ _)
  | begin c =>
    cases c with
    | shutdown => exact hatt.ask
    | flush tenant actor => exact hatt.begin (by simp) nofun
    | consume rest => exact hatt.begin (by simp) nofun
    | awaiting | stopping | consuming | returned => exact ha.elim
  | task ht hstep => exact attended_stepTask hatt ht hstep
  | call hc hstep => exact attended_stepCall hatt hc hstep
  | worker hstep => exact attended_stepWorker hatt hstep
  | collect => exact hatt
  | report hc => exact hatt.forget hc
  | clock => exact hatt.clock _

end Keep

theorem Watched.attended (hmode : engine.settings.recalc.mode = .batched)
    (hr : Watched engine s h log) : h.front.Attended h.fresh log := by
  induction hr with
  | start =>
    have hstart : Handler.start engine.settings s = 
        { store := s, worker := .awake, workerWaitable := true } := by
      unfold Handler.start
      rw [hmode]
    rw [hstart]
    exact {
      numbered := nofun, logged := by simp, pending := fun _ hid => (nomatch hid.1), calls := nofun
      present := nofun, waitable := fun _ => rfl, stopping := nofun, stopped := nofun
      armed := nofun, draining := nofun, late := fun newer _ _ hlog => by simp at hlog }
  | act a ha _ hstep ih => exact attended_step ih ha hstep

end Handler

end EntityFormulas
