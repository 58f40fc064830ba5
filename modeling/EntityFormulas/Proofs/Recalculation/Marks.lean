/-
  EntityFormulas/Proofs/Recalculation/Marks.lean
  ==============================================
  **What a staleness mark leaves in the store.**

  In batched mode a notification writes at most one record, the mark.  While the
  notification is handled the handler may do whatever else leaves its entity
  alone (`Undisturbed`), and then the entity has changed in the one property and
  in its version (`Undisturbed.marks_property`).

  The record is meant to move only the status, as `Property.markStale` does, and
  for the readers of the property that is so.  But a record stands for all of
  the state: it has no error, and the value in it is the one that readers see.
  What is stored is therefore `Property.settled` with its status moved, which
  differs from the marked property where that has an error or an override
  (`quotient_not_marked`).
-/
import EntityFormulas.Proofs.Computation.Marking
import EntityFormulas.Proofs.Computation.WriteBack
import EntityFormulas.Proofs.Recalculation.Exclusion
import EntityFormulas.Proofs.Recalculation.Plans
import EntityFormulas.Proofs.Recalculation.Stages
import EntityFormulas.Proofs.Store.Writing

namespace EntityFormulas

/-! ### Marks as records -/

namespace Property

/-- What was found for the property, whether or not readers see it. -/
def found : Property → Option Value
  | .inherited p => p.resolved
  | p => p.current

/-- The property without an error, as if what its readers see had been found. -/
def settled : Property → Property
  | .inherited p => .inherited { p with resolved := p.override.or p.resolved, error := none }
  | .computed p => .computed { p with error := none }
  | p => p

/-- A mark that is written leaves nothing of the state but what readers see. -/
theorem withState_statusOnly {p : Property} (hg : p.goesStale = true)
    (entity name actor : String) :
    p.withState (.statusOnly entity name .stale p.current actor) = some p.settled.markStale := by
  have hmarked {s : Status} (hs : s.goesStale = true) : s.marked = .stale := if_pos hs
  cases p with
  | literal p | measured p => cases hg
  | computed p =>
    unfold settled markStale
    dsimp only
    rw [hmarked hg]
    rfl
  | inherited p =>
    unfold settled markStale
    dsimp only
    rw [hmarked hg]
    rfl

theorem settled_current (p : Property) : p.settled.current = p.current := by
  cases p with
  | inherited p =>
    show p.override.or (p.override.or p.resolved) = p.override.or p.resolved
    cases p.override <;> rfl
  | _ => rfl

theorem settled_status? (p : Property) : p.settled.status? = p.status? := by
  cases p <;> rfl

theorem markStale_of_not_goesStale {p : Property} (hg : p.goesStale = false) :
    p.markStale = p := by
  have hmarked {s : Status} (hs : s.goesStale = false) : s.marked = s := by
    unfold Status.marked
    rw [hs]
    rfl
  cases p with
  | literal p | measured p => rfl
  | computed p => exact congrArg (fun s => computed { p with status := s }) (hmarked hg)
  | inherited p => exact congrArg (fun s => inherited { p with status := s }) (hmarked hg)

/-- Nothing but the status differs where there is no error and readers see what was found. -/
theorem settled_markStale_iff (p : Property) :
    p.settled.markStale = p.markStale ↔ p.error? = none ∧ p.found = p.current := by
  cases p with
  | literal p | measured p => exact ⟨fun _ => ⟨rfl, rfl⟩, fun _ => rfl⟩
  | computed p =>
    constructor
    · intro h
      exact ⟨(congrArg error? h).symm, rfl⟩
    · rintro ⟨herror, -⟩
      have herror : p.error = none := herror
      unfold settled
      rw [← herror]
  | inherited p =>
    constructor
    · intro h
      exact ⟨(congrArg error? h).symm, (congrArg found h).symm⟩
    · rintro ⟨herror, hfound⟩
      have herror : p.error = none := herror
      have hfound : p.resolved = p.override.or p.resolved := hfound
      unfold settled
      dsimp only
      rw [← hfound, ← herror]

end Property

namespace Notification

/-- The mark of a stored property. -/
def mark (settings : Settings) (n : Notification) (p : Property) : StateRecord :=
  .statusOnly n.key.entity n.property .stale p.current settings.recalc.systemActor

/-- What the notification of a stored property leads to in batched mode. -/
def marking (settings : Settings) (n : Notification) (p : Property) : Plan :=
  if p.status? = some .circular then .skip
  else .enqueue (if p.goesStale then some (n.mark settings p) else none)

variable {settings : Settings} {n : Notification} {e : Entity} {p : Property}

theorem records_marking (entity : String) :
    (n.marking settings p).records entity =
      if p.goesStale then [n.mark settings p] else [] := by
  unfold marking
  split
  · rename_i hcircular
    have hg : p.goesStale = false := by
      unfold Property.goesStale
      rw [hcircular]
      rfl
    rw [hg]
    rfl
  · cases p.goesStale <;> rfl

/-- The entity changes in the one property and in its version. -/
theorem written_marking (settings : Settings) (hp : e.property? n.property = some p)
    (entity : String) :
    let e' := e.written ((n.marking settings p).records entity)
    e'.property? n.property = some (if p.goesStale then p.settled.markStale else p.markStale) ∧
      (∀ name, name ≠ n.property → e'.property? name = e.property? name) := by
  have hp' : e.properties.get? n.property = some p := hp
  rw [records_marking]
  cases hg : p.goesStale with
  | false =>
    rw [if_neg Bool.false_ne_true, if_neg Bool.false_ne_true, p.markStale_of_not_goesStale hg]
    exact ⟨hp, fun _ _ => rfl⟩
  | true =>
    rw [if_pos rfl, if_pos rfl]
    have hderived : p.status?.isSome := by
      cases p with
      | literal p | measured p => cases hg
      | inherited p | computed p => rfl
    obtain ⟨e', he'⟩ := Entity.exists_withState (r := n.mark settings p) hp' hderived
    rw [Entity.written_cons he']
    have hget (name : String) : e'.properties.get? name =
        if n.property = name then
          (e.properties.get? name).bind (Property.withState (n.mark settings p))
        else e.properties.get? name := Entity.get?_withState he' name
    refine ⟨?_, fun name hname => ?_⟩
    · show e'.properties.get? n.property = _
      rw [hget, if_pos rfl, hp']
      exact p.withState_statusOnly hg ..
    · show e'.properties.get? name = _
      rw [hget, if_neg fun heq => hname heq.symm]
      rfl

end Notification

namespace Task

variable {settings : Settings} {n : Notification} {e : Entity} {p : Property} {t : Task}

/-- In batched mode a notification is decided without further calls. -/
theorem decide_marking (hb : settings.recalc.mode = .batched) (hkey : t.key = n.key)
    (hjob : t.job = .notification n.property) (hp : e.property? n.property = some p)
    (now : String) : t.decide settings now e = pure (n.marking settings p) := by
  unfold decide Notification.marking
  rw [hjob, hkey]
  dsimp only
  rw [hp]
  dsimp only
  split
  · rfl
  · rw [hb]
    rfl

/-- What the task comes to with the answer of a store that has the entity: a failure or the mark. -/
theorem decided_marking (hb : settings.recalc.mode = .batched) (hkey : t.key = n.key)
    (hjob : t.job = .notification n.property) (hp : e.property? n.property = some p)
    (now : String) {s : MemoryStore} (hstored : s.get? n.key.tenant n.key.entity = some e) :
    let answer := (MemoryStore.store.fetch n.key.tenant [n.key.entity] s).1
    ∃ r, (match answer.bind (StoreError.pickEntity n.key.tenant n.key.entity) with
      | .ok e => (t.decide settings now e).run
      | .error err => .done (.error err)) = .done r ∧
        ∀ plan, r = .ok plan → plan = n.marking settings p := by
  obtain ⟨-, hfound⟩ := MemoryStore.fetch_found s n.key.tenant [n.key.entity]
  dsimp only
  cases hanswer : (MemoryStore.store.fetch n.key.tenant [n.key.entity] s).1 with
  | error err => exact ⟨_, rfl, fun plan h => nomatch h⟩
  | ok found =>
    have hsingle : found = [e] := by
      rw [hfound found hanswer]
      simp [hstored]
    rw [hsingle]
    dsimp only [Except.bind]
    by_cases hid : e.id = n.key.entity
    · rw [StoreError.pickEntity_single hid]
      dsimp only
      rw [t.decide_marking hb hkey hjob hp now]
      exact ⟨_, rfl, fun plan h => (Except.ok.inj h).symm⟩
    · have hmissing : StoreError.pickEntity n.key.tenant n.key.entity [e] =
          .error (.entityNotFound n.key.tenant n.key.entity) := by
        unfold StoreError.pickEntity
        rw [List.find?_cons_of_neg (by simpa using hid)]
        rfl
      rw [hmissing]
      exact ⟨_, rfl, fun plan h => nomatch h⟩

end Task

/-! ### One notification -/

/-- Where the task of a notification stands, given the property as it was before and what is stored
    now: the entity as it was until the mark is written, and then the one that the mark leaves. -/
def Stage.Marks (settings : Settings) (n : Notification) (e : Entity) (p : Property)
    (stored : Option Entity) : Stage → Prop
  | .arriving | .waiting _ => stored = some e
  | .reading _ _ program => stored = some e ∧
    ((∃ now, program = (n.plan settings now).run) ∨
      ∃ r, program = .done r ∧ ∀ plan, r = .ok plan → plan = n.marking settings p)
  | .writing _ plan rest => plan = n.marking settings p ∧
    (∀ r ∈ rest, r.entity = n.key.entity) ∧
    ∃ x, stored = some x ∧ x.written rest = e.written (plan.records n.key.entity)
  | .leaving _ r | .closing _ r | .finished r => ∀ o, r = .ok o →
    stored = some (e.written ((n.marking settings p).records n.key.entity))
  | .landing _ => False

/-- The task of that notification. -/
structure Task.Marks (settings : Settings) (n : Notification) (e : Entity) (p : Property)
    (stored : Option Entity) (t : Task) : Prop where
  key : t.key = n.key
  job : t.job = .notification n.property
  stage : t.stage.Marks settings n e p stored

namespace Task.Marks

variable {engine : Engine MemoryStore} {n : Notification} {e : Entity} {p : Property} {t : Task}
  {s s' : MemoryStore} {stage : Stage}

theorem goes (hstore : engine.store = MemoryStore.store)
    (hb : engine.settings.recalc.mode = .batched) (hp : e.property? n.property = some p)
    (hm : t.Marks engine.settings n e p (s.get? n.key.tenant n.key.entity))
    (hg : t.Goes engine s stage s') :
    Marks engine.settings n e p (s'.get? n.key.tenant n.key.entity) { t with stage } := by
  obtain ⟨hkey, hjob, hs⟩ := hm
  have hplan (now : String) :
      (n.plan engine.settings now).run = (t.plan engine.settings now).run := by
    unfold Task.plan
    rw [hjob, hkey]
  refine ⟨hkey, hjob, ?_⟩
  cases hg with
  | arrive hs' =>
    rw [hs'] at hs
    exact hs
  | @acquire lock resume now hs' =>
    rw [hs'] at hs
    exact ⟨hs, .inl ⟨now, (hplan now).symm⟩⟩
  | @fetch lock resume resume' tenant ids next hs' =>
    rw [hs'] at hs
    obtain ⟨hstored, ⟨now, hprogram⟩ | ⟨r, hprogram, -⟩⟩ := hs
    · rw [hplan, t.plan_run] at hprogram
      cases hprogram
      rw [hstore, hkey]
      obtain ⟨htenants, -⟩ := MemoryStore.fetch_found s n.key.tenant [n.key.entity]
      exact ⟨(MemoryStore.get?_of_tenants htenants ..).trans hstored,
        .inr (t.decided_marking hb hkey hjob hp now hstored)⟩
    · cases hprogram
  | relate hs' =>
    rw [hs'] at hs
    obtain ⟨-, ⟨now, hprogram⟩ | ⟨r, hprogram, -⟩⟩ := hs
    · rw [hplan, t.plan_run] at hprogram
      cases hprogram
    · cases hprogram
  | @decide lock resume plan hs' =>
    rw [hs'] at hs
    obtain ⟨hstored, ⟨now, hprogram⟩ | ⟨r, hprogram, hdecided⟩⟩ := hs
    · rw [hplan, t.plan_run] at hprogram
      cases hprogram
    · cases hprogram
      refine ⟨hdecided plan rfl, fun r hr => ?_, e, hstored, ?_⟩
      · rw [hdecided plan rfl, Notification.records_marking] at hr
        split at hr
        · rw [List.mem_singleton.1 hr]
          rfl
        · cases hr
      · show e.written (plan.records t.key.entity) = _
        rw [hkey]
  | abandon hs' => exact fun o ho => nomatch ho
  | @write lock plan r rest s' hs' hw =>
    rw [hs'] at hs
    rw [hstore, hkey] at hw
    obtain ⟨hdecided, hentity, x, hx, hwritten⟩ := hs
    obtain ⟨-, y, x', hy, hx', hwrote⟩ := MemoryStore.write_ok hw
    rw [hentity r List.mem_cons_self] at hy hwrote
    obtain rfl : y = x := Option.some.inj (hy.symm.trans hx)
    refine ⟨hdecided, fun r hr => hentity r (List.mem_cons_of_mem _ hr), x', hwrote.entity, ?_⟩
    rw [← hwritten, Entity.written_cons hx']
  | refuse hs' hw => exact fun o ho => nomatch ho
  | settle hs' =>
    rw [hs'] at hs
    obtain ⟨rfl, -, x, hx, hwritten⟩ := hs
    intro o _
    rw [hx, ← hwritten]
    rfl
  | release hs' =>
    rw [hs'] at hs
    exact hs
  | close hs' =>
    rw [hs'] at hs
    unfold Core.closed
    rw [hjob]
    exact hs

end Task.Marks

namespace Handler

variable {engine : Engine MemoryStore} {h h' : Handler MemoryStore} {key : EntityKey} {id : Nat}

/-- A task goes on, and whatever else happens leaves its entity as it is.  Others may use the store
    in the same way. -/
inductive Undisturbed (engine : Engine MemoryStore) (key : EntityKey) (id : Nat)
    (h : Handler MemoryStore) : Handler MemoryStore → Prop where
  | refl : Undisturbed engine key id h h
  | act {g g' : Handler MemoryStore} (a : Action) (hr : Undisturbed engine key id h g)
    (hstep : g.step engine a = some g')
    (hkeeps : a ≠ .task id →
      g'.store.get? key.tenant key.entity = g.store.get? key.tenant key.entity) :
    Undisturbed engine key id h g'
  | outside {g : Handler MemoryStore} (hr : Undisturbed engine key id h g) (s' : MemoryStore)
    (hkeeps : s'.get? key.tenant key.entity = g.store.get? key.tenant key.entity) :
    Undisturbed engine key id h { g with store := s' }

theorem marks_step {n : Notification} {e : Entity} {p : Property} {a : Action}
    (hstore : engine.store = MemoryStore.store) (hb : engine.settings.recalc.mode = .batched)
    (hp : e.property? n.property = some p) (hid : id < h.fresh)
    (hm : ∀ t, h.tasks.get? id = some t →
      t.Marks engine.settings n e p (h.store.get? n.key.tenant n.key.entity))
    (hstep : h.step engine a = some h')
    (hkeeps : a ≠ .task id → h'.store.get? n.key.tenant n.key.entity =
      h.store.get? n.key.tenant n.key.entity) :
    ∀ t, h'.tasks.get? id = some t →
      t.Marks engine.settings n e p (h'.store.get? n.key.tenant n.key.entity) := by
  intro t ht
  by_cases ha : a = .task id
  · subst ha
    obtain ⟨u, hu, hstep⟩ := Option.bind_eq_some_iff.1 hstep
    have hmu := hm u hu
    have hlanding (r : TaskResult) (hs : u.stage = .landing r) : False := by
      have hstage := hmu.stage
      rw [hs] at hstage
      exact hstage
    obtain ⟨stage, hg, hmoves⟩ := goes_stepTask hlanding hstep
    rw [hmoves.tasks, Table.get?_insert, if_pos rfl] at ht
    cases ht
    exact hmu.goes hstore hb hp hg
  · rw [hkeeps ha]
    exact hm t (get?_of_step hstep hid ha ht)

theorem Undisturbed.marks {n : Notification} {e : Entity} {p : Property}
    (hstore : engine.store = MemoryStore.store) (hb : engine.settings.recalc.mode = .batched)
    (hp : e.property? n.property = some p) (hr : Undisturbed engine n.key id h h')
    (hid : id < h.fresh) (hm : ∀ t, h.tasks.get? id = some t →
      t.Marks engine.settings n e p (h.store.get? n.key.tenant n.key.entity)) :
    id < h'.fresh ∧ ∀ t, h'.tasks.get? id = some t →
      t.Marks engine.settings n e p (h'.store.get? n.key.tenant n.key.entity) := by
  induction hr with
  | refl => exact ⟨hid, hm⟩
  | act a _ hstep hkeeps ih =>
    exact ⟨Nat.lt_of_lt_of_le ih.1 (fresh_step hstep),
      marks_step hstore hb hp ih.1 ih.2 hstep hkeeps⟩
  | outside _ s' hkeeps ih =>
    refine ⟨ih.1, fun t ht => ?_⟩
    rw [hkeeps]
    exact ih.2 t ht

/-- In batched mode a notification that is handled with success leaves the property with the mark
    and the value that `Property.markStale` gives it, and all others as they were.  It is the marked
    property itself exactly if it did not go stale, or had no error and readers see what was
    found. -/
theorem Undisturbed.marks_property {n : Notification} {o : Option PassOutcome} {e : Entity}
    {p : Property} (hstore : engine.store = MemoryStore.store)
    (hb : engine.settings.recalc.mode = .batched)
    (hr : Undisturbed engine n.key h.fresh (h.notify n).2 h')
    (hok : (h'.tasks.get? h.fresh).bind Task.result? = some (.ok o))
    (he : h.store.get? n.key.tenant n.key.entity = some e)
    (hp : e.property? n.property = some p) :
    ∃ e' p', h'.store.get? n.key.tenant n.key.entity = some e' ∧
      e'.property? n.property = some p' ∧
      (∀ name, name ≠ n.property → e'.property? name = e.property? name) ∧
      p' = (if p.goesStale then p.settled.markStale else p.markStale) ∧
      p'.status? = p.markStale.status? ∧ p'.current = p.markStale.current ∧
      (p' = p.markStale ↔
        (p.goesStale = true → p.error? = none ∧ p.found = p.current)) := by
  have hbegun (t : Task) (ht : (h.notify n).2.tasks.get? h.fresh = some t) :
      t.Marks engine.settings n e p ((h.notify n).2.store.get? n.key.tenant n.key.entity) := by
    have hnew : t = { key := n.key, job := .notification n.property } := by
      unfold notify at ht
      rw [Table.get?_insert, if_pos rfl] at ht
      exact (Option.some.inj ht).symm
    subst hnew
    exact ⟨rfl, rfl, he⟩
  obtain ⟨-, hmarks⟩ := hr.marks hstore hb hp (Nat.lt_succ_self _) hbegun
  obtain ⟨t, ht, hresult⟩ := Option.bind_eq_some_iff.1 hok
  have hstage := (hmarks t ht).stage
  rw [t.stage_of_result? hresult] at hstage
  obtain ⟨hproperty, hothers⟩ :=
    Notification.written_marking engine.settings hp n.key.entity
  refine ⟨_, _, hstage o rfl, hproperty, hothers, rfl, ?_⟩
  cases hg : p.goesStale with
  | false =>
    rw [if_neg Bool.false_ne_true]
    exact ⟨rfl, rfl, fun _ h => (nomatch h), fun _ => rfl⟩
  | true =>
    rw [if_pos rfl, p.settled_markStale_iff]
    refine ⟨?_, ?_, fun h _ => h, fun h => h rfl⟩
    · rw [p.settled.status?_markStale, p.status?_markStale, p.settled_status?]
    · rw [p.settled.markStale_current, p.markStale_current, p.settled_current]

/-- The task goes on, and nothing else happens. -/
theorem Undisturbed.tasks {count : Nat} {g g' : Handler MemoryStore}
    (hr : Undisturbed engine key id h g)
    (hrun : acts engine (List.replicate count (.task id)) g = some g') :
    Undisturbed engine key id h g' := by
  induction count generalizing g with
  | zero =>
    cases hrun
    exact hr
  | succ count ih =>
    obtain ⟨g₁, hstep, hrun⟩ := Option.bind_eq_some_iff.1 hrun
    exact ih (.act (.task id) hr hstep fun hne => absurd rfl hne) hrun

end Handler

/-- A property that is up to date. -/
def quotation : ComputedProperty :=
  { name := "a", expression := "\"X\"", cached := some (.text "X"), status := .valid }

/-- A property that has failed. -/
def quotient : ComputedProperty :=
  { name := "b", expression := "1 / 0", status := .error, error := some "boom" }

/-- An entity with both. -/
def halfFailed : Entity :=
  [.computed quotation, .computed quotient].foldl Entity.withProperty
    { id := "entity", typePath := "entity" }

theorem halfFailed_property? : halfFailed.property? "a" = some (.computed quotation) ∧
    halfFailed.property? "b" = some (.computed quotient) := by
  constructor <;>
    simp [halfFailed, Entity.property?, Entity.withProperty, Property.name, quotation, quotient,
      Dict.get?_insert]

namespace Handler

/-- A new handler on a store of that entity is notified of one of its properties. -/
def halfFailedNotified (name : String) : Handler MemoryStore :=
  ((start plainEngine.settings (MemoryStore.insert {} halfFailed)).notify ⟨halfFailed.key, name⟩).2

/-- The task comes to its end with success, and this is how it leaves the property. -/
theorem exists_handled (name : String) (test : Property → Bool)
    (hacts : (acts plainEngine (List.replicate 8 (.task 0)) (halfFailedNotified name)).any (fun h =>
      ((h.tasks.get? 0).bind Task.result?).any Except.toBool &&
        ((h.store.get? halfFailed.tenant halfFailed.id).bind (·.property? name)).any test) = true) :
    ∃ h' o e' p', Undisturbed plainEngine halfFailed.key 0 (halfFailedNotified name) h' ∧
      (h'.tasks.get? 0).bind Task.result? = some (.ok o) ∧
      h'.store.get? halfFailed.tenant halfFailed.id = some e' ∧ e'.property? name = some p' ∧
      test p' = true := by
  obtain ⟨h', hrun, hend⟩ := (Option.any_eq_true ..).1 hacts
  obtain ⟨hok, hleft⟩ := (Bool.and_eq_true ..).mp hend
  obtain ⟨r, hr, hr'⟩ := (Option.any_eq_true ..).1 hok
  obtain ⟨p', hp', htest⟩ := (Option.any_eq_true ..).1 hleft
  obtain ⟨e', he', hp'⟩ := Option.bind_eq_some_iff.1 hp'
  cases r with
  | error err => cases hr'
  | ok o => exact ⟨h', o, e', p', Undisturbed.refl.tasks hrun, hr, he', hp', htest⟩

theorem quotation_marks_property : ∃ h' o e' p',
    Undisturbed plainEngine halfFailed.key 0 (halfFailedNotified "a") h' ∧
      (h'.tasks.get? 0).bind Task.result? = some (.ok o) ∧
      h'.store.get? halfFailed.tenant halfFailed.id = some e' ∧
      e'.property? "b" = some (.computed quotient) ∧ e'.property? "a" = some p' ∧
      p'.status? = some .stale ∧ p' = (Property.computed quotation).markStale := by
  obtain ⟨h', o, -, -, hr, hok, -⟩ :=
    exists_handled "a" (fun _ => true) (by decide +kernel)
  have hstored : (start plainEngine.settings (MemoryStore.insert {} halfFailed)).store.get?
      halfFailed.tenant halfFailed.id = some halfFailed :=
    (MemoryStore.get?_insert ..).trans (if_pos ⟨rfl, rfl⟩)
  obtain ⟨e', p', he', hp', hothers, -, hstatus, -, hiff⟩ :=
    Undisturbed.marks_property
      (h := start plainEngine.settings (MemoryStore.insert {} halfFailed))
      (n := ⟨halfFailed.key, "a"⟩) rfl rfl hr hok hstored halfFailed_property?.1
  refine ⟨h', o, e', p', hr, hok, he', ?_, hp', hstatus, hiff.2 fun _ => ⟨rfl, rfl⟩⟩
  rw [hothers "b" (by decide), halfFailed_property?.2]

/-- The mark takes the error of the other property with it. -/
theorem quotient_not_marked : ∃ h' o e' p',
    Undisturbed plainEngine halfFailed.key 0 (halfFailedNotified "b") h' ∧
      (h'.tasks.get? 0).bind Task.result? = some (.ok o) ∧
      halfFailed.property? "b" = some (.computed quotient) ∧
      h'.store.get? halfFailed.tenant halfFailed.id = some e' ∧ e'.property? "b" = some p' ∧
      p'.error? = none ∧ p' ≠ (Property.computed quotient).markStale := by
  obtain ⟨h', o, e', p', hr, hok, he', hp', htest⟩ :=
    exists_handled "b" (fun p => p.error?.isNone) (by decide +kernel)
  have herror : p'.error? = none := Option.isNone_iff_eq_none.1 htest
  refine ⟨h', o, e', p', hr, hok, halfFailed_property?.2, he', hp', herror, ?_⟩
  rintro rfl
  cases herror

end Handler

end EntityFormulas
