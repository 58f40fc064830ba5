/-
  EntityFormulas/Proofs/Recalculation/Turns.lean
  ==============================================
  **A client that waits its turn.**

  A client that notifies a handler of properties of one entity, and waits for
  the result each time, finds the handler at rest again (`Rests.turn`), and so
  does one that flushes it (`Rests.flush`).  In eager mode its notifications are
  passes one after another (`Handles.eagerly`).  In batched mode they mark the
  stored entity and queue their properties, with nothing lost or added
  (`Handles.queues`), and the flush is one pass over what is queued.

  The handler may take its time and its worker may look around; only timers do
  not fire.
-/
import EntityFormulas.Proofs.Computation.Postponement
import EntityFormulas.Proofs.Recalculation.Solitude

namespace EntityFormulas

open Relation (ReflTransGen)

namespace Handler

/-! ### Runs of one client -/

/-- The pass that the handling of a notification has led to, with what was stored when it came in. -/
def pass? (h : Handler MemoryStore) (n : Notification) : TaskResult → Option NotifiedPass
  | .ok (some outcome) => (h.store.get? n.key.tenant n.key.entity).map fun entity =>
    { table := h.store.table n.key.tenant, entity, property := n.property, outcome }
  | _ => none

/-- A client notifies a handler of properties of an entity, one after another, and takes each result
    before it goes on.  These are the passes that its notifications have led to. -/
inductive Handles (engine : Engine MemoryStore) (key : EntityKey) :
    Handler MemoryStore → List String → List NotifiedPass → Handler MemoryStore → Prop where
  | done (h : Handler MemoryStore) : Handles engine key h [] [] h
  | idle {h h' h'' : Handler MemoryStore} {ns : List String} {ps : List NotifiedPass}
    (hp : h.Proceeds engine h') (rest : Handles engine key h' ns ps h'') :
    Handles engine key h ns ps h''
  | turn {h h₁ h₂ h' : Handler MemoryStore} {n : String} {ns : List String}
    {ps : List NotifiedPass} {result : TaskResult} (hp : (h.notify ⟨key, n⟩).2.Proceeds engine h₁)
    (hc : h₁.collect h.fresh = some (result, h₂)) (rest : Handles engine key h₂ ns ps h') :
    Handles engine key h (n :: ns) ((h.pass? ⟨key, n⟩ result).toList ++ ps) h'

/-- A client flushes a handler and takes the report. -/
def Flushes {σ : Type} (engine : Engine σ) (actor : String) (h h' : Handler σ) : Prop :=
  ∃ h₁ report, (h.begin (.flush none actor)).2.Proceeds engine h₁ ∧
    h₁.report h.fresh = some (report, h')

end Handler

namespace Task.Queues

variable {t : Task} {plan : Plan} {q q' : Table EntityKey QueueEntry} (h : t.Queues plan q q')
include h

/-- A task queues its own property, or nothing. -/
theorem cases : q' = q ∧ (∀ name mark, t.job = .notification name → plan ≠ .enqueue mark) ∨
    ∃ name mark deadline, t.job = .notification name ∧ plan = .enqueue mark ∧ q' = q.insert t.key
      ⟨insertAscending name (((q.get? t.key).map QueueEntry.names).getD []), deadline⟩ := by
  unfold Queues at h
  split at h
  · rename_i name mark hj
    obtain ⟨deadline, hq⟩ := h
    exact .inr ⟨name, mark, deadline, hj, rfl, hq⟩
  · rename_i hno
    exact .inl ⟨h, fun name mark hj hplan => hno name mark hj hplan⟩

theorem get?_of_ne {other : EntityKey} (hne : other ≠ t.key) : q'.get? other = q.get? other := by
  rcases h.cases with ⟨rfl, -⟩ | ⟨name, mark, deadline, -, -, rfl⟩
  · rfl
  · exact (Table.get?_insert ..).trans (if_neg (Ne.symm hne))

theorem filled (hf : ∀ entry, q.get? t.key = some entry → entry.names ≠ []) (entry : QueueEntry)
    (hentry : q'.get? t.key = some entry) : entry.names ≠ [] := by
  rcases h.cases with ⟨rfl, -⟩ | ⟨name, mark, deadline, -, -, rfl⟩
  · exact hf entry hentry
  · rw [Table.get?_insert, if_pos rfl] at hentry
    cases hentry
    exact List.ne_nil_of_mem (mem_insertAscending.2 (.inl rfl))

end Task.Queues

namespace Handler

/-! ### Handlers at rest -/

/-- Nothing is going on, and no other entity is queued. -/
structure Rests (key : EntityKey) (h : Handler MemoryStore) : Prop where
  available : h.store.available = true
  tasks : ∀ id, h.tasks.get? id = none
  calls : ∀ id, h.calls.get? id = none
  others : ∀ other, other ≠ key → h.queue.get? other = none
  filled : ∀ entry, h.queue.get? key = some entry → entry.names ≠ []

variable {engine : Engine MemoryStore} {key : EntityKey} {s : MemoryStore}
  {q : Table EntityKey QueueEntry} {e : Entity} {t : Task} {id : Nat}
  {h h' h₁ h₂ : Handler MemoryStore}

theorem rests_start (settings : Settings) (ha : s.available = true) (key : EntityKey) :
    (start settings s).Rests key := by
  unfold start
  split <;> exact ⟨ha, fun _ => rfl, fun _ => rfl, fun _ _ => rfl, nofun⟩

/-- A handler at rest stays at rest by itself. -/
theorem Rests.proceeds (hr : h.Rests key) (hp : h.Proceeds engine h') :
    h'.Rests key ∧ h'.store = h.store ∧ h'.queue = h.queue := by
  induction hp with
  | refl => exact ⟨hr, rfl, rfl⟩
  | tail _ hstep ih =>
    obtain ⟨hrests, hstore, hqueue⟩ := ih
    obtain ⟨a, ha, hstep⟩ := hstep
    rcases calm_cases ha hstep with ⟨id, t, ht, -⟩ | ⟨id, call, hc, -⟩ | hstays
    · rw [hrests.tasks id] at ht
      cases ht
    · rw [hrests.calls id] at hc
      cases hc
    · refine ⟨⟨?_, ?_, ?_, ?_, ?_⟩, hstays.store.trans hstore, hstays.queue.trans hqueue⟩
      · rw [hstays.store]
        exact hrests.available
      · rw [hstays.tasks]
        exact hrests.tasks
      · rw [hstays.calls]
        exact hrests.calls
      · rw [hstays.queue]
        exact hrests.others
      · rw [hstays.queue]
        exact hrests.filled

/-! ### Turns of one task -/

/-- A task is alone since there was that store and that queue. -/
structure Turning (engine : Engine MemoryStore) (s : MemoryStore) (q : Table EntityKey QueueEntry)
    (e : Entity) (id : Nat) (t : Task) (h : Handler MemoryStore) : Prop where
  available : h.store.available = true
  stands : ∃ stage, h.Lone id { t with stage } ∧
    ({ t with stage } : Task).Stands engine.settings s q e h

theorem Turning.stays (ht : h.Turning engine s q e id t) (hs : h.Stays h') :
    h'.Turning engine s q e id t := by
  obtain ⟨ha, stage, hl, hstands⟩ := ht
  exact ⟨by rw [hs.store]; exact ha, stage, hl.stays hs, hstands.congr hs.store hs.queue⟩

/-- The task goes on, or it is the task of a drain and about to land. -/
theorem Turning.step (hengine : engine.store = MemoryStore.store) (hs : s.Stores e)
    (hkey : t.key = e.key) (ht : h.Turning engine s q e id t) {j : Nat} {u : Task}
    (hu : h.tasks.get? j = some u) (hstep : h.stepTask engine j u = some h') :
    (h'.Turning engine s q e id t ∧ h'.calls = h.calls ∧ h'.batches = h.batches) ∨
      ∃ r, j = id ∧ u = { t with stage := .landing r } ∧ t.Did engine.settings s q e r h := by
  obtain ⟨ha, stage, hl, hstands⟩ := ht
  obtain ⟨rfl, rfl⟩ := hl.eq hu
  by_cases hlanding : ∃ r, stage = .landing r
  · obtain ⟨r, rfl⟩ := hlanding
    exact .inr ⟨r, rfl, rfl, hstands⟩
  · obtain ⟨ha', stage', hm, hstands'⟩ := Task.Stands.step (t := { t with stage }) hengine ha hs
      hkey (fun r hr => hlanding ⟨r, hr⟩) hstands hstep
    exact .inl ⟨⟨ha', stage', hl.moves hm, hstands'⟩, hm.calls, hm.batches⟩

/-! ### Notifications -/

/-- The task that handles the notification of a property. -/
def turnOf (key : EntityKey) (n : String) : Task := { key, job := .notification n }

/-- A notification that is handled while nothing else goes on. -/
theorem Rests.turn (hengine : engine.store = MemoryStore.store) (hr : h.Rests key)
    (hs : h.store.Stores e) (hkey : e.key = key) {n : String} {result : TaskResult}
    (hp : (h.notify ⟨key, n⟩).2.Proceeds engine h₁)
    (hc : h₁.collect h.fresh = some (result, h₂)) :
    h₂.Rests key ∧ (turnOf key n).Did engine.settings h.store h.queue e result h₂ := by
  have hturning : h₁.Turning engine h.store h.queue e h.fresh (turnOf key n) ∧
      ∀ id, h₁.calls.get? id = none := by
    clear hc
    induction hp with
    | refl =>
      refine ⟨⟨hr.available, .arriving, ⟨?_, fun j hj => ?_⟩, rfl, rfl⟩, hr.calls⟩
      · exact (Table.get?_insert ..).trans (if_pos rfl)
      · exact (Table.get?_insert ..).trans ((if_neg (Ne.symm hj)).trans (hr.tasks j))
    | tail _ hstep ih =>
      obtain ⟨hturning, hcalls⟩ := ih
      obtain ⟨a, ha, hstep⟩ := hstep
      rcases calm_cases ha hstep with ⟨j, u, hu, hstep⟩ | ⟨j, call, hcall, -⟩ | hstays
      · rcases hturning.step hengine hs hkey.symm hu hstep with ⟨hnext, hcalls', -⟩ | ⟨r, -, rfl, -⟩
        · exact ⟨hnext, by rw [hcalls']; exact hcalls⟩
        · cases hstep
          exact ⟨hturning, hcalls⟩
      · rw [hcalls j] at hcall
        cases hcall
      · exact ⟨hturning.stays hstays, by rw [hstays.calls]; exact hcalls⟩
  obtain ⟨⟨ha, stage, hl, hstands⟩, hcalls⟩ := hturning
  unfold collect at hc
  rw [hl.task] at hc
  cases stage with
  | finished r =>
    cases hc
    have hdid : (turnOf key n).Did engine.settings h.store h.queue e result h₁ := hstands
    have htasks (id : Nat) : (h₁.tasks.erase h.fresh).get? id = none := by
      rw [Table.get?_erase]
      split
      · rfl
      · rename_i hne
        exact hl.others id (Ne.symm hne)
    refine ⟨⟨ha, htasks, hcalls, ?_, ?_⟩, hdid⟩ <;> obtain ⟨plan, -, -, hqueues, -⟩ := hdid
    · exact fun other hne => (hqueues.get?_of_ne hne).trans (hr.others other hne)
    · exact hqueues.filled hr.filled
  | _ => cases hc

/-- What a notification leaves that is handled while nothing else goes on. -/
theorem Rests.turn_stores (hengine : engine.store = MemoryStore.store) (hr : h.Rests key)
    (hs : h.store.Stores e) (hkey : e.key = key) {n : String} {result : TaskResult}
    (hp : (h.notify ⟨key, n⟩).2.Proceeds engine h₁)
    (hc : h₁.collect h.fresh = some (result, h₂)) :
    h₂.Rests key ∧ ∃ plan, (turnOf key n).Decides engine.settings h.store plan ∧
      result = .ok plan.outcome? ∧ (turnOf key n).Queues plan h.queue h₂.queue ∧
      h₂.store.Stores (e.written (plan.records e.id)) ∧
      (e.written (plan.records e.id)).key = key ∧
      (h.store.table e.tenant).SameAround e.id (h₂.store.table e.tenant) := by
  obtain ⟨hr₂, plan, hdecides, hresult, hqueues, hwrote⟩ := hr.turn hengine hs hkey hp hc
  subst hkey
  exact ⟨hr₂, plan, hdecides, hresult, hqueues, hs.wrote (hdecides.writable hs rfl) hwrote⟩

/-- In eager mode notifications lead to passes one after another. -/
theorem Handles.eagerly (hengine : engine.store = MemoryStore.store)
    (hmode : engine.settings.recalc.mode = .eager) {ns : List String} {ps : List NotifiedPass}
    (hh : Handles engine key h ns ps h') (hr : h.Rests key) (hs : h.store.Stores e)
    (hkey : e.key = key) {t : TenantTable}
    (ht : t.SameAround e.id (h.store.table e.tenant)) :
    ∃ e', h'.store.Stores e' ∧ e'.key = key ∧ Eagerly engine.settings t e ns ps e' := by
  induction hh generalizing e with
  | done h => exact ⟨e, hs, hkey, .done e⟩
  | idle hp rest ih =>
    obtain ⟨hr', hstore, -⟩ := hr.proceeds hp
    rw [← hstore] at hs ht
    exact ih hr' hs hkey ht
  | @turn h h₁ h₂ h' n ns ps result hp hc rest ih =>
    obtain ⟨hr₂, plan, hdecides, rfl, -, hs₂, -, haround⟩ :=
      hr.turn_stores hengine hs hkey hp hc
    subst hkey
    rcases hdecides.notification hs rfl rfl with ⟨hinert, hnone, houtcome, -⟩ | ⟨q, hq, hne, -, heager⟩
    · rw [hnone] at hs₂
      obtain ⟨e', hs', hkey', heagerly⟩ := ih hr₂ hs₂ rfl (ht.trans haround)
      rw [houtcome]
      exact ⟨e', hs', hkey', .leave hinert heagerly⟩
    · obtain ⟨o, rfl, ho⟩ := heager hmode
      obtain ⟨-, version, hwritten⟩ := ho.written hs.names e.id engine.settings.recalc.systemActor
      rw [show e.written ((Plan.pass o _).records e.id) = _ from hwritten] at hs₂
      obtain ⟨e', hs', hkey', heagerly⟩ := ih hr₂ hs₂ rfl (ht.trans haround)
      refine ⟨e', hs', hkey', ?_⟩
      have hpass : h.pass? ⟨e.key, n⟩ (.ok (some o)) =
          some ⟨h.store.table e.tenant, e, n, o⟩ := by
        show (h.store.get? e.tenant e.id).map _ = _
        rw [hs.entity]
        rfl
      show Eagerly engine.settings t e (n :: ns) ((h.pass? ⟨e.key, n⟩ (.ok (some o))).toList ++ ps) e'
      rw [hpass]
      exact Eagerly.pass (p := ⟨h.store.table e.tenant, e, n, o⟩) hq hne ⟨hs.keyed, hs.names, ho⟩ ht
        heagerly

end Handler

/-! ### Marks that are written -/

/-- A mark that is written leaves the definition and the value, and marking again changes nothing
    more. -/
theorem Property.withState_mark {p p' : Property} {entity name actor : String}
    (hg : p.goesStale = true)
    (h : p.withState (.statusOnly entity name .stale p.current actor) = some p') :
    p'.markStale.definition = p.markStale.definition ∧
      p'.markStale.status? = p.markStale.status? ∧ p'.markStale.current = p.markStale.current := by
  cases p with
  | literal p | measured p => cases h
  | computed p =>
    cases h
    refine ⟨rfl, ?_, rfl⟩
    show some Status.stale.marked = some p.status.marked
    rw [Status.marked, Status.marked, if_pos (show p.status.goesStale = true from hg)]
    rfl
  | inherited p =>
    cases h
    refine ⟨rfl, ?_, ?_⟩
    · show some Status.stale.marked = some p.status.marked
      rw [Status.marked, Status.marked, if_pos (show p.status.goesStale = true from hg)]
      rfl
    · show p.override.or (p.override.or p.resolved) = p.override.or p.resolved
      cases p.override <;> rfl

namespace Entity

theorem markStale_of_circular {p : Property} (h : p.status? = some .circular) : p.markStale = p := by
  refine Property.markStale_of_unselected fun s hs => ?_
  rw [p.status?_markStale, h] at hs
  cases hs
  rfl

/-- Marks of inert properties do not matter. -/
theorem markStale_congr {e : Entity} {names names' : List String}
    (h : ∀ name, ¬ e.Inert name → (name ∈ names ↔ name ∈ names')) :
    e.markStale names = e.markStale names' := by
  have hproperties : (e.markStale names).properties = (e.markStale names').properties := by
    refine Dict.ext_get? fun name => ?_
    rw [markStale_get?, markStale_get?]
    cases hp : e.properties.get? name with
    | none => rfl
    | some p =>
      rw [Option.map_some, Option.map_some]
      by_cases hinert : e.Inert name
      · rw [markStale_of_circular (hinert p hp), ite_self, ite_self]
      · rw [if_congr (h name hinert) rfl rfl]
  exact congrArg (fun properties => ({ e with properties } : Entity)) hproperties

theorem inert_markStale {e : Entity} {names : List String} {name : String} :
    (e.markStale names).Inert name ↔ e.Inert name := by
  unfold Inert
  rw [markStale_get?]
  cases e.properties.get? name with
  | none => simp
  | some p =>
    simp only [Option.map_some, Option.some.injEq, forall_eq']
    split
    · rw [p.status?_markStale]
      cases p.status? with
      | none => simp
      | some s => cases s <;> simp [Status.marked, Status.goesStale]
    · rfl

/-- A mark that is written and the same mark that is not. -/
theorem like_mark {e : Entity} {n actor : String} {p : Property} {names : List String}
    (hn : n ∈ names) (hp : e.properties.get? n = some p) (hg : p.goesStale = true) :
    (e.markStale names).Like
      ((e.written [.statusOnly e.id n .stale p.current actor]).markStale names) := by
  have hstate : ∃ p', p.withState (.statusOnly e.id n .stale p.current actor) = some p' := by
    cases p with
    | literal p | measured p => cases hg
    | computed p | inherited p => exact ⟨_, rfl⟩
  obtain ⟨p', hp'⟩ := hstate
  have hw : e.withState (.statusOnly e.id n .stale p.current actor) =
      .ok { e with properties := e.properties.insert n p', version := e.nextVersion } := by
    unfold withState property?
    dsimp only [StateRecord.statusOnly] at hp' ⊢
    rw [hp]
    dsimp only
    rw [hp']
  rw [written_cons hw]
  refine ⟨rfl, rfl, rfl, fun name => ?_⟩
  rw [markStale_get?, markStale_get?]
  by_cases hname : n = name
  · subst hname
    obtain ⟨hdefinition, hstatus, hcurrent⟩ := Property.withState_mark hg hp'
    show _ = (((e.properties.insert n p').get? n).map _).map _
    rw [Dict.get?_insert_self, hp]
    simp only [Option.map_some, if_pos hn, hdefinition, hstatus, hcurrent]
  · show _ = (((e.properties.insert n p').get? name).map _).map _
    rw [Dict.get?_insert, if_neg hname]

end Entity

namespace Handler

variable {engine : Engine MemoryStore} {key : EntityKey} {e : Entity}
  {h h₁ h₂ h' : Handler MemoryStore}

/-- What a task queues is queued. -/
theorem queued_of_queues {n : String} {mark : Option StateRecord}
    (hq : (turnOf key n).Queues (.enqueue mark) h.queue h'.queue) :
    h'.core.queued key = insertAscending n (h.core.queued key) := by
  obtain ⟨deadline, hq⟩ := hq
  show ((h'.queue.get? key).map QueueEntry.names).getD [] = _
  rw [hq, Table.get?_insert, if_pos (show (turnOf key n).key = key from rfl)]
  rfl

/-- In batched mode the turn of a notification marks its property if it can, and queues it if it is
    not inert. -/
theorem Rests.turn_queues (hengine : engine.store = MemoryStore.store)
    (hmode : engine.settings.recalc.mode = .batched) (hr : h.Rests key) (hs : h.store.Stores e)
    (hkey : e.key = key) {n : String} {result : TaskResult}
    (hp : (h.notify ⟨key, n⟩).2.Proceeds engine h₁)
    (hc : h₁.collect h.fresh = some (result, h₂)) :
    h₂.Rests key ∧ ∃ e', h₂.store.Stores e' ∧ e'.key = key ∧
      (h.store.table e.tenant).SameAround e.id (h₂.store.table e.tenant) ∧
      (∀ ns, (e.markStale (n :: ns ++ h.core.queued key)).Like
        (e'.markStale (ns ++ h₂.core.queued key))) ∧
      ∀ name, name ∈ h₂.core.queued key ↔
        name ∈ h.core.queued key ∨ (name = n ∧ ¬ e.Inert name) := by
  obtain ⟨hr₂, plan, hdecides, rfl, hqueues, hs₂, hkey₂, haround⟩ :=
    hr.turn_stores hengine hs hkey hp hc
  subst hkey
  rcases hdecides.notification hs rfl rfl with ⟨hinert, hnone, -, hno⟩ | ⟨q, hq, hne, hbatched, -⟩
  · rw [hnone] at hs₂
    have hqueued : h₂.core.queued = h.core.queued := by
      rcases hqueues.cases with ⟨hsame, -⟩ | ⟨_, mark, _, -, hmark, -⟩
      · unfold core
        rw [hsame]
      · exact absurd hmark (hno mark)
    rw [hqueued]
    refine ⟨hr₂, e, hs₂, rfl, haround, fun ns => ?_, fun name => ?_⟩
    · have hsame : e.markStale (n :: ns ++ h.core.queued e.key) =
          e.markStale (ns ++ h.core.queued e.key) := by
        refine Entity.markStale_congr fun name hname => ?_
        rw [List.cons_append, List.mem_cons, or_iff_right]
        rintro rfl
        exact hname hinert
      rw [hsame]
      exact .refl _
    · refine (or_iff_left ?_).symm
      rintro ⟨rfl, hnot⟩
      exact hnot hinert
  · obtain rfl := hbatched hmode
    have hmoved : ¬ e.Inert n := fun hi => hne (hi q hq)
    rw [queued_of_queues hqueues]
    refine ⟨hr₂, _, hs₂, hkey₂, haround, fun ns => ?_, fun name => ?_⟩
    · have hsame : e.markStale (n :: ns ++ h.core.queued e.key) =
          e.markStale (ns ++ insertAscending n (h.core.queued e.key)) := by
        refine Entity.markStale_congr fun name _ => ?_
        simp only [List.cons_append, List.mem_cons, List.mem_append, mem_insertAscending]
        exact or_left_comm
      have hn : n ∈ ns ++ insertAscending n (h.core.queued e.key) :=
        List.mem_append_right _ (mem_insertAscending.2 (.inl rfl))
      rw [hsame]
      by_cases hg : q.goesStale = true
      · rw [if_pos hg]
        exact Entity.like_mark hn hq hg
      · rw [if_neg hg]
        exact .refl _
    · rw [mem_insertAscending, or_comm]
      refine or_congr_right ⟨?_, And.left⟩
      rintro rfl
      exact ⟨rfl, hmoved⟩

/-- In batched mode notifications mark what they can and queue what is not inert. -/
theorem Handles.queues (hengine : engine.store = MemoryStore.store)
    (hmode : engine.settings.recalc.mode = .batched) {ns : List String} {ps : List NotifiedPass}
    (hh : Handles engine key h ns ps h') (hr : h.Rests key) (hs : h.store.Stores e)
    (hkey : e.key = key) : h'.Rests key ∧ ∃ e', h'.store.Stores e' ∧ e'.key = key ∧
      (h.store.table e.tenant).SameAround e.id (h'.store.table e.tenant) ∧
      (e.markStale (ns ++ h.core.queued key)).Like (e'.markStale (h'.core.queued key)) ∧
      ∀ name, name ∈ h'.core.queued key ↔
        name ∈ h.core.queued key ∨ (name ∈ ns ∧ ¬ e.Inert name) := by
  -- On the notifications.  What is still to be notified and what is queued is marked in the one entity
  -- and in the other one.
  induction hh generalizing e with
  | done h => exact ⟨hr, e, hs, hkey, .refl .., .refl _, by simp⟩
  | @idle h₁ h₂ h₃ ns ps hp rest ih =>
    obtain ⟨hr', hstore, hqueue⟩ := hr.proceeds hp
    have hqueued : h₁.core.queued = h₂.core.queued := by
      unfold core
      rw [hqueue]
    rw [← hstore] at hs ⊢
    rw [hqueued]
    exact ih hr' hs hkey
  | @turn h h₁ h₂ h' n ns ps result hp hc rest ih =>
    obtain ⟨hr₂, e₁, hs₁, hkey₁, haround, hlike, hmem⟩ :=
      hr.turn_queues hengine hmode hs hkey hp hc
    have hinert (name : String) : e₁.Inert name ↔ e.Inert name := by
      rw [← Entity.inert_markStale, ← Entity.inert_markStale (e := e)]
      exact ⟨(hlike []).symm.inert, (hlike []).inert⟩
    obtain ⟨hr', e', hs', hkey', haround', hlike', hmem'⟩ := ih hr₂ hs₁ hkey₁
    rw [← show e.id = e₁.id from (hlike []).id,
      ← show e.tenant = e₁.tenant from (hlike []).tenant] at haround'
    refine ⟨hr', e', hs', hkey', haround.trans haround', (hlike ns).trans hlike', fun name => ?_⟩
    rw [hmem', hmem, hinert, List.mem_cons]
    tauto

end Handler

/-! ### Flushes -/

theorem Table.entries_of_others {κ α : Type} [DecidableEq κ] {t : Table κ α} {key : κ}
    (ho : ∀ other, other ≠ key → t.get? other = none) :
    t.entries = ((t.get? key).map fun a => (key, a)).toList := by
  have hkey {k : κ} {a : α} (hmem : (k, a) ∈ t.entries) : k = key := by
    by_contra hne
    have hget := mem_entries_iff.1 hmem
    rw [ho k hne] at hget
    cases hget
  cases hentries : t.entries with
  | nil =>
    cases hget : t.get? key with
    | none => rfl
    | some a =>
      have hmem := mem_entries_iff.2 hget
      rw [hentries] at hmem
      exact absurd hmem List.not_mem_nil
  | cons first rest =>
    obtain ⟨k, a⟩ := first
    have hmem : (k, a) ∈ t.entries := hentries ▸ List.mem_cons_self
    obtain rfl := hkey hmem
    rw [mem_entries_iff.1 hmem]
    cases rest with
    | nil => rfl
    | cons second rest =>
      -- Its key would be the same.
      have hnodup := t.nodup
      rw [hentries] at hnodup
      have hsecond := hkey (hentries ▸ List.mem_cons_of_mem _ List.mem_cons_self :
        (second.1, second.2) ∈ t.entries)
      exact absurd (List.mem_map.2 ⟨second, List.mem_cons_self, hsecond⟩)
        (List.nodup_cons.1 hnodup).1

namespace Handler

variable {engine : Engine MemoryStore} {key : EntityKey} {e : Entity} {actor : String}
  {h h' h'' : Handler MemoryStore}

/-- What a flush takes off the queue of a handler at rest. -/
theorem Rests.taken (hr : h.Rests key) (due : EntityKey → QueueEntry → Bool)
    (hdue : ∀ k q, due k q = true) :
    (h.queue.filter due).entries = ((h.queue.get? key).map fun q => (key, q)).toList := by
  have hget (k : EntityKey) : (h.queue.filter due).get? k = h.queue.get? k := by
    rw [Table.get?_filter]
    cases h.queue.get? k with
    | none => rfl
    | some q => simp [Option.filter, hdue]
  rw [← hget key]
  exact Table.entries_of_others fun other hne => (hget other).trans (hr.others other hne)

/-- What a flush of a handler at rest has come to, from one state to the other. -/
def Flushed (engine : Engine MemoryStore) (key : EntityKey) (e : Entity) (h h' : Handler MemoryStore) :
    Prop :=
  match h.queue.get? key with
  | none => h'.store.tenants = h.store.tenants
  | some entry => ∃ actor batch q r,
    ({ key, job := .drain entry.names actor batch } : Task).Did engine.settings h.store q e r h'

/-- How far a flush has come, if there is no other call. -/
inductive Flushing (engine : Engine MemoryStore) (key : EntityKey) (e : Entity) (actor : String)
    (h h' : Handler MemoryStore) : Prop where
  | calling (hcall : h'.calls.get? h.fresh = some (.flush none actor))
    (ht : ∀ id, h'.tasks.get? id = none) (hstore : h'.store = h.store) (hqueue : h'.queue = h.queue)
  | draining {entry : QueueEntry} {batch id : Nat} {report : DrainReport}
    {q : Table EntityKey QueueEntry} (hentry : h.queue.get? key = some entry)
    (hcall : h'.calls.get? h.fresh = some (.awaiting batch))
    (hbatch : h'.batches.get? batch = some ⟨report, 1⟩)
    (hturning : h'.Turning engine h.store q e id { key, job := .drain entry.names actor batch })
  | ended {call : Call} (hcall : h'.calls.get? h.fresh = some call)
    (hc : (∃ batch, call = .awaiting batch) ∨ ∃ report, call = .returned report)
    (ht : ∀ id, h'.tasks.get? id = none) (hflushed : Flushed engine key e h h')

theorem Flushed.congr (hf : Flushed engine key e h h') (hstore : h''.store = h'.store)
    (hqueue : h''.queue = h'.queue) : Flushed engine key e h h'' := by
  unfold Flushed Task.Did at *
  rw [hstore, hqueue]
  exact hf

/-- The call takes what is queued off the queue, and starts a task if there is something. -/
theorem Rests.drained (hr : h.Rests key) (ht : ∀ id, h'.tasks.get? id = none)
    (hqueue : h'.queue = h.queue) {c : Nat}
    (hstep : h'.stepCall engine c (.flush none actor) = some h'') :
    (h''.calls = h'.calls.insert c (.awaiting h'.fresh) ∧ h''.store = h'.store) ∧
      ((h.queue.get? key = none ∧ (∀ id, h''.tasks.get? id = none) ∧
          h''.batches.get? h'.fresh = some ⟨{}, 0⟩) ∨
        ∃ entry, h.queue.get? key = some entry ∧
          h''.Lone (h'.fresh + 1) { key, job := .drain entry.names actor h'.fresh } ∧
          h''.batches.get? h'.fresh = some ⟨{}, 1⟩) := by
  have htaken := hr.taken (fun k _ => (none : Option String).all fun t => k.tenant = t)
    fun _ _ => rfl
  unfold stepCall drain at hstep
  dsimp only at hstep
  rw [hqueue, htaken] at hstep
  have hstep := Option.some.inj hstep
  subst hstep
  cases hentry : h.queue.get? key with
  | none => exact ⟨⟨rfl, rfl⟩, .inl ⟨rfl, ht, (Table.get?_insert ..).trans (if_pos rfl)⟩⟩
  | some entry =>
    refine ⟨⟨rfl, rfl⟩, .inr ⟨entry, rfl, ⟨?_, fun j hj => ?_⟩,
      (Table.get?_insert ..).trans (if_pos rfl)⟩⟩
    · exact (Table.get?_insert ..).trans (if_pos rfl)
    · exact (Table.get?_insert ..).trans ((if_neg (Ne.symm hj)).trans (ht j))

/-- Nor are the counts of tasks in flight. -/
theorem leaveFlight_books (key : EntityKey) (h : Handler MemoryStore) :
    ((h.leaveFlight key).store = h.store ∧ (h.leaveFlight key).queue = h.queue) ∧
      (h.leaveFlight key).tasks = h.tasks ∧ (h.leaveFlight key).calls = h.calls ∧
      (h.leaveFlight key).batches = h.batches := by
  obtain ⟨_, heq⟩ := h.leaveFlight_frame key
  rw [heq]
  exact ⟨⟨rfl, rfl⟩, rfl, rfl, rfl⟩

/-- The task of a flush takes it further, and to its end when it lands. -/
theorem Flushing.stepTask (hengine : engine.store = MemoryStore.store) (hs : h.store.Stores e)
    (hkey : e.key = key) (hf : Flushing engine key e actor h h') {id : Nat} {t : Task}
    (htask : h'.tasks.get? id = some t) (hstep : h'.stepTask engine id t = some h'') :
    Flushing engine key e actor h h'' ∧ h''.calls = h'.calls := by
  cases hf with
  | calling _ ht | ended _ _ ht =>
    rw [ht id] at htask
    cases htask
  | @draining entry batch _ report q hentry hc hbatch hturning =>
    rcases hturning.step hengine hs hkey.symm htask hstep with
      ⟨hnext, hcalls, hbatches⟩ | ⟨r, rfl, rfl, hdid⟩
    · exact ⟨.draining hentry (hcalls ▸ hc) (hbatches ▸ hbatch) hnext, hcalls⟩
    · -- The drain lands.
      cases hstep
      obtain ⟨_, stage, hl, -⟩ := hturning
      obtain ⟨⟨hstore, hqueue⟩, htasks, hcalls, -⟩ := h'.leaveFlight_books key
      refine ⟨.ended (hcalls ▸ hc) (.inl ⟨_, rfl⟩) (fun j => ?_) ?_, hcalls⟩
      · show ((h'.leaveFlight key).tasks.erase id).get? j = none
        rw [htasks, Table.get?_erase]
        split
        · rfl
        · rename_i hne
          exact hl.others j (Ne.symm hne)
      · unfold Flushed
        rw [hentry]
        exact ⟨actor, batch, q, r, Task.Did.congr hdid hstore hqueue⟩

/-- The call of a flush takes it further when there is no task. -/
theorem Flushing.stepCall (hr : h.Rests key) (hf : Flushing engine key e actor h h') {c : Call}
    (hc : h'.calls.get? h.fresh = some c) (hstep : h'.stepCall engine h.fresh c = some h'') :
    Flushing engine key e actor h h'' ∧ ∃ c', h''.calls = h'.calls.insert h.fresh c' := by
  cases hf with
  | calling hc' ht hstore hqueue =>
    cases hc.symm.trans hc'
    obtain ⟨⟨hcalls, hsame⟩, hdrained⟩ := hr.drained ht hqueue hstep
    refine ⟨?_, _, hcalls⟩
    have hawaiting : h''.calls.get? h.fresh = some (.awaiting h'.fresh) := by
      rw [hcalls, Table.get?_insert, if_pos rfl]
    rcases hdrained with ⟨hnone, htasks, -⟩ | ⟨entry, hentry, hl, hbatch⟩
    · refine .ended hawaiting (.inl ⟨_, rfl⟩) htasks ?_
      unfold Flushed
      rw [hnone]
      exact congrArg MemoryStore.tenants (hsame.trans hstore)
    · refine .draining hentry hawaiting hbatch ⟨?_, .arriving, hl, ?_, rfl⟩
      · exact (congrArg MemoryStore.available (hsame.trans hstore)).trans hr.available
      · exact congrArg MemoryStore.tenants (hsame.trans hstore)
  | draining hentry hc' hbatch hturning =>
    cases hc.symm.trans hc'
    cases stepCall_cases hstep with
    | report hb =>
      rw [hbatch] at hb
      cases hb
  | ended hc' hkind ht hflushed =>
    cases hc.symm.trans hc'
    rcases hkind with ⟨batch, rfl⟩ | ⟨report, rfl⟩
    · cases stepCall_cases hstep with
      | report => exact ⟨.ended ((Table.get?_insert ..).trans (if_pos rfl)) (.inr ⟨_, rfl⟩) ht
          hflushed, _, rfl⟩
    · cases hstep

theorem Flushing.stays (hf : Flushing engine key e actor h h') (hstays : h'.Stays h'') :
    Flushing engine key e actor h h'' := by
  cases hf with
  | calling hc ht hstore hqueue =>
    exact .calling (hstays.calls ▸ hc) (hstays.tasks ▸ ht) (hstays.store.trans hstore)
      (hstays.queue.trans hqueue)
  | draining hentry hc hbatch hturning =>
    exact .draining hentry (hstays.calls ▸ hc) (hstays.batches _ _ _ hbatch)
      (hturning.stays hstays)
  | ended hc hcall ht hflushed =>
    exact .ended (hstays.calls ▸ hc) hcall (hstays.tasks ▸ ht)
      (hflushed.congr hstays.store hstays.queue)

/-- Every calm step takes a flush further, if there is no other call. -/
theorem Flushing.step (hengine : engine.store = MemoryStore.store) (hr : h.Rests key)
    (hs : h.store.Stores e) (hkey : e.key = key) (hf : Flushing engine key e actor h h')
    (hcalls : ∀ id, id ≠ h.fresh → h'.calls.get? id = none) {a : Action} (ha : a.Calm)
    (hstep : h'.step engine a = some h'') :
    Flushing engine key e actor h h'' ∧ ∀ id, id ≠ h.fresh → h''.calls.get? id = none := by
  rcases calm_cases ha hstep with ⟨id, t, htask, hstep⟩ | ⟨id, c, hc, hstep⟩ | hstays
  · obtain ⟨hnext, hsame⟩ := hf.stepTask hengine hs hkey htask hstep
    exact ⟨hnext, hsame ▸ hcalls⟩
  · obtain rfl : id = h.fresh := by
      by_contra hne
      rw [hcalls id hne] at hc
      cases hc
    obtain ⟨hnext, c', hinsert⟩ := hf.stepCall hr hc hstep
    refine ⟨hnext, fun id hid => ?_⟩
    rw [hinsert, Table.get?_insert, if_neg (Ne.symm hid)]
    exact hcalls id hid
  · exact ⟨hf.stays hstays, hstays.calls ▸ hcalls⟩

/-- A flush of a handler at rest is one pass over the entity, if it is queued. -/
theorem Rests.flush (hengine : engine.store = MemoryStore.store) (hr : h.Rests key)
    (hs : h.store.Stores e) (hkey : e.key = key) (hf : h.Flushes engine actor h') :
    (h.queue.get? key = none ∧ h'.store.tenants = h.store.tenants) ∨
      ∃ entry o version, h.queue.get? key = some entry ∧
        (e.markStale entry.names).PassesTo engine.settings (h.store.table e.tenant) o ∧
        h'.store.get? e.tenant e.id = some { e with properties := o.properties, version } := by
  obtain ⟨h₁, report, hp, hreport⟩ := hf
  have hflushing : Flushing engine key e actor h h₁ ∧
      ∀ id, id ≠ h.fresh → h₁.calls.get? id = none := by
    clear hreport
    induction hp with
    | refl =>
      refine ⟨.calling ((Table.get?_insert ..).trans (if_pos rfl)) hr.tasks rfl rfl, fun id hid => ?_⟩
      exact (Table.get?_insert ..).trans ((if_neg (Ne.symm hid)).trans (hr.calls id))
    | tail _ hstep ih =>
      obtain ⟨a, ha, hstep⟩ := hstep
      exact ih.1.step hengine hr hs hkey ih.2 ha hstep
  unfold Handler.report at hreport
  split at hreport
  · rename_i hreturned
    cases hreport
    obtain ⟨hflushing, -⟩ := hflushing
    cases hflushing with
    | calling hcall | draining _ hcall =>
      rw [hreturned] at hcall
      cases hcall
    | ended _ _ _ hflushed =>
      unfold Flushed at hflushed
      cases hentry : h.queue.get? key with
      | none =>
        rw [hentry] at hflushed
        exact .inl ⟨rfl, hflushed⟩
      | some entry =>
        rw [hentry] at hflushed
        obtain ⟨actor, batch, q, r, plan, hdecides, -, -, hwrote⟩ := hflushed
        subst hkey
        obtain ⟨o, rfl, ho⟩ := hdecides.drain hs rfl rfl
        obtain ⟨-, version, hwritten⟩ := ho.written hs.names e.id actor
        refine .inr ⟨entry, o, version, rfl, ho, ?_⟩
        rw [← hwritten]
        exact hwrote.entity
  · cases hreport

/-! ### Clients come to an end -/

/-- The turn of a notification can be carried out. -/
theorem Rests.exists_turn {s : MemoryStore} (hreach : Reaches engine (start engine.settings s) h)
    (hr : h.Rests key) (n : String) : ∃ h₁ h₂ result, (h.notify ⟨key, n⟩).2.Proceeds engine h₁ ∧
      h₁.collect h.fresh = some (result, h₂) ∧ Reaches engine (start engine.settings s) h₂ := by
  have hl : (h.notify ⟨key, n⟩).2.Lone h.fresh { turnOf key n with stage := .arriving } := by
    refine ⟨(Table.get?_insert ..).trans (if_pos rfl), fun j hj => ?_⟩
    exact (Table.get?_insert ..).trans ((if_neg (Ne.symm hj)).trans (hr.tasks j))
  have hnotified : Reaches engine (start engine.settings s) (h.notify ⟨key, n⟩).2 :=
    hreach.step (.notify ⟨key, n⟩) rfl
  obtain ⟨h₁, r, hp, hl₁, -⟩ := hl.closes hnotified
  have hc : h₁.collect h.fresh = some (r, { h₁ with tasks := h₁.tasks.erase h.fresh }) :=
    collect_of_finished hl₁.task rfl
  refine ⟨h₁, _, r, hp, hc, (hnotified.proceeds hp).step (.collect h.fresh) ?_⟩
  show (h₁.collect h.fresh).map Prod.snd = _
  rw [hc]
  rfl

/-- Whatever a client notifies a handler of is handled. -/
theorem exists_handles {s : MemoryStore} (hengine : engine.store = MemoryStore.store)
    (hreach : Reaches engine (start engine.settings s) h) (hr : h.Rests key)
    (hs : h.store.Stores e) (hkey : e.key = key) (ns : List String) :
    ∃ ps h', Handles engine key h ns ps h' ∧ Reaches engine (start engine.settings s) h' ∧
      h'.Rests key := by
  induction ns generalizing h e with
  | nil => exact ⟨[], h, .done h, hreach, hr⟩
  | cons n ns ih =>
    obtain ⟨h₁, h₂, result, hp, hc, hreach₂⟩ := hr.exists_turn hreach n
    obtain ⟨hr₂, plan, -, -, -, hs₂, hkey₂, -⟩ := hr.turn_stores hengine hs hkey hp hc
    obtain ⟨ps, h', hh, hreach', hr'⟩ := ih hreach₂ hr₂ hs₂ hkey₂
    exact ⟨_, h', .turn hp hc hh, hreach', hr'⟩

theorem report_of_returned {c : Nat} {report : DrainReport}
    (hc : h.calls.get? c = some (.returned report)) :
    h.report c = some (report, { h with calls := h.calls.erase c }) := by
  unfold Handler.report
  rw [hc]

/-- A call whose drain is done returns. -/
theorem exists_report (engine : Engine MemoryStore) {c batch : Nat} {report : DrainReport}
    (hc : h.calls.get? c = some (.awaiting batch)) (hb : h.batches.get? batch = some ⟨report, 0⟩) :
    ∃ h₁ h₂, h.Proceeds engine h₁ ∧ h₁.report c = some (report, h₂) := by
  have hstep : h.step engine (.call c) =
      some ({ h with batches := h.batches.erase batch }.setCall c (.returned report)) := by
    simp only [step, hc, Option.bind_some, stepCall, finishBatch, hb]
    rfl
  have hreturned : ({ h with batches := h.batches.erase batch }.setCall c
      (.returned report)).calls.get? c = some (.returned report) :=
    (Table.get?_insert ..).trans (if_pos rfl)
  exact ⟨_, _, .single ⟨.call c, trivial, hstep⟩, report_of_returned hreturned⟩

/-- A drain that has given its lock back lands. -/
theorem Lone.lands (engine : Engine MemoryStore) {id batch : Nat} {names : List String}
    {r : TaskResult} {report : DrainReport}
    (hl : h.Lone id { key, job := .drain names actor batch, stage := .landing r })
    (hb : h.batches.get? batch = some ⟨report, 1⟩) : ∃ h' report, h.Proceeds engine h' ∧
      h'.calls = h.calls ∧ h'.batches.get? batch = some ⟨report, 0⟩ := by
  have hstep : h.step engine (.task id) = some (h.stepLanding id
      { key, job := .drain names actor batch, stage := .landing r } r) := by
    simp only [step, hl.task]
    rfl
  obtain ⟨-, -, hcalls, hbatches⟩ := h.leaveFlight_books key
  refine ⟨_, report.add (passResult r), .single ⟨.task id, trivial, hstep⟩, hcalls, ?_⟩
  show ((h.leaveFlight key).batches.modify batch _).get? batch = _
  rw [Table.get?_modify, if_pos rfl, hbatches, hb]
  rfl

/-- A handler at rest can be flushed. -/
theorem Rests.exists_flush {s : MemoryStore} (hreach : Reaches engine (start engine.settings s) h)
    (hr : h.Rests key) (actor : String) : ∃ h', h.Flushes engine actor h' := by
  have hcall : (h.begin (.flush none actor)).2.calls.get? h.fresh = some (.flush none actor) :=
    (Table.get?_insert ..).trans (if_pos rfl)
  obtain ⟨g, hg⟩ : ∃ g, (h.begin (.flush none actor)).2.stepCall engine h.fresh
      (.flush none actor) = some g := ⟨_, rfl⟩
  have hstep : (h.begin (.flush none actor)).2.step engine (.call h.fresh) = some g := by
    simp only [step, hcall, Option.bind_some]
    exact hg
  have hfirst : (h.begin (.flush none actor)).2.Proceeds engine g :=
    .single ⟨.call h.fresh, trivial, hstep⟩
  have hreach' := (hreach.step (.begin (.flush none actor)) rfl).step _ hstep
  have htasks : ∀ id, (h.begin (.flush none actor)).2.tasks.get? id = none := hr.tasks
  obtain ⟨⟨hcalls, -⟩, hdrained⟩ := hr.drained htasks rfl hg
  have hawaiting : g.calls.get? h.fresh = some (.awaiting (h.fresh + 1)) := by
    rw [hcalls, Table.get?_insert, if_pos rfl]
    rfl
  rcases hdrained with ⟨-, -, hbatch⟩ | ⟨entry, -, hl, hbatch⟩
  · obtain ⟨h₁, h₂, hp, hreport⟩ := exists_report engine hawaiting hbatch
    exact ⟨h₂, h₁, _, hfirst.trans hp, hreport⟩
  · obtain ⟨h₁, r, hp₁, hl₁, hcalls₁, hbatches₁⟩ :=
      Lone.closes (t := { key, job := .drain entry.names actor (h.fresh + 1) }) hreach' hl
    rw [← hbatches₁] at hbatch
    obtain ⟨h₂, report, hp₂, hcalls₂, hbatch₂⟩ := Lone.lands engine hl₁ hbatch
    rw [← hcalls₁, ← hcalls₂] at hawaiting
    obtain ⟨h₃, h₄, hp₃, hreport⟩ := exists_report engine hawaiting hbatch₂
    exact ⟨h₄, h₃, _, ((hfirst.trans hp₁).trans hp₂).trans hp₃, hreport⟩

end Handler

end EntityFormulas
