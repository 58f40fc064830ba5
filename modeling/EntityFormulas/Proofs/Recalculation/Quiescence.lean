/-
  EntityFormulas/Proofs/Recalculation/Quiescence.lean
  ===================================================
  **What is stored when a batched handler has come to rest.**

  In a run of a batched handler others edit literal and measured values
  whenever they like, and notify the handler of what they have made stale.  As
  long as no notification is owed for an edit, the property of every earlier
  notification is seen to (`Run.seenTo`), wherever the work on it is.  So once
  the entity is quiet what is stored of the property is the answer of its
  formula over the stored values (`Run.answers_of_quiet`).
-/
import EntityFormulas.Proofs.Computation.Circularity
import EntityFormulas.Proofs.Recalculation.Pending

namespace EntityFormulas

open Relation (ReflTransGen)

/-! ### Edits -/

/-- `e'` is `e` with other literal and measured values at most: derived properties are the same. -/
structure Entity.Revises (e' e : Entity) : Prop where
  id : e'.id = e.id
  derived : ∀ name p, p.status?.isSome →
    (e'.properties.get? name = some p ↔ e.properties.get? name = some p)
  names : e.NamesAgree → e'.NamesAgree

namespace Entity

/-- A literal written under a name that no derived property has. -/
theorem revises_withProperty {e : Entity} {p : LiteralProperty}
    (h : ∀ q, e.properties.get? p.name = some q → q.status? = none) :
    (e.withProperty (.literal p)).Revises e := by
  have hget (name : String) : (e.withProperty (.literal p)).properties.get? name =
      if p.name = name then some (.literal p) else e.properties.get? name := Dict.get?_insert ..
  refine ⟨rfl, fun name q hq => ?_, fun hn name q hq => ?_⟩
  · rw [hget]
    split
    · rename_i hname
      subst hname
      constructor
      · intro heq
        cases heq
        exact nomatch hq
      · intro heq
        rw [h q heq] at hq
        exact nomatch hq
    · exact Iff.rfl
  · rw [hget] at hq
    split at hq
    · rename_i hname
      cases hq
      exact hname
    · exact hn name q hq

variable {e e' : Entity} (h : e'.Revises e)
include h

theorem Revises.writable {rs : List StateRecord} (hw : e.Writable rs) : e'.Writable rs := by
  intro r hr
  obtain ⟨p, hp, hs⟩ := hw r hr
  exact ⟨p, (h.derived _ p hs).2 hp, hs⟩

theorem Revises.exempt {name : String} (hx : e.Exempt name) : e'.Exempt name := by
  intro p hp
  exact hx p ((h.derived name (.computed p) rfl).1 hp)

/-- Whatever a task has planned for the entity still fits. -/
theorem Revises.sound {settings : Settings} {t : Task} (ht : t.Sound settings e) :
    t.Sound settings e' := by
  have hready {plan : Plan} {rest : List StateRecord} (hr : t.Ready e plan rest) :
      t.Ready e' plan rest :=
    ⟨h.writable hr.1, fun name hj => (hr.2 name hj).imp_right fun ⟨hrest, hx⟩ =>
      ⟨hrest, h.exempt hx⟩⟩
  unfold Task.Sound at ht ⊢
  split at ht
  · rcases ht with hinitial | halways
    · exact .inl hinitial
    · refine .inr (halways.mono fun r ⟨plan, hplan, hr⟩ => ⟨plan, hplan, hready hr⟩)
  · exact hready ht
  · trivial

end Entity

/-- Where the entity is stored. -/
def Entity.key (e : Entity) : EntityKey := ⟨e.tenant, e.id⟩

namespace Core

variable {settings : Settings} {key : EntityKey} {name : String} {c d : Core MemoryStore}

/-- Puts an entity in the place of the stored one. -/
def edit (e : Entity) (c : Core MemoryStore) : Core MemoryStore :=
  { c with store := c.store.insert e }

theorem entity?_edit (e : Entity) (c : Core MemoryStore) (key : EntityKey) :
    (c.edit e).entity? key = if e.key = key then some e else c.entity? key := by
  obtain ⟨tenant, id⟩ := key
  unfold entity? edit
  rw [MemoryStore.get?_insert]
  simp only [Entity.key, EntityKey.mk.injEq]

theorem Steady.edit (h : c.Steady settings key) {e e' : Entity}
    (he : c.entity? e'.key = some e) (hr : e'.Revises e) : (c.edit e').Steady settings key := by
  obtain ⟨horderly, hended, havailable, hnamed, haddressed, hsound⟩ := h
  have hstored {x : Entity} (hx : (c.edit e').entity? key = some x) :
      (e'.key = key ∧ x = e' ∧ c.entity? key = some e) ∨ c.entity? key = some x := by
    rw [entity?_edit] at hx
    split at hx
    · rename_i hkey
      cases hx
      exact .inl ⟨hkey, rfl, hkey ▸ he⟩
    · exact .inr hx
  refine ⟨horderly.withStore _ c.queued, hended, havailable, fun x hx => ?_, haddressed,
    fun id t ht hkey x hx => ?_⟩
  · rcases hstored hx with ⟨_, rfl, hold⟩ | hx
    · obtain ⟨hid, hn⟩ := hnamed e hold
      exact ⟨hr.id.trans hid, hr.names hn⟩
    · exact hnamed x hx
  · rcases hstored hx with ⟨_, rfl, hold⟩ | hx
    · exact hr.sound (hsound id t ht hkey e hold)
    · exact hsound id t ht hkey x hx

theorem SeenTo.edit (h : c.SeenTo settings key name) {e' : Entity} (hkey : e'.key ≠ key) :
    (c.edit e').SeenTo settings key name := by
  refine h.imp_right fun h => h.imp_right fun h e he => ?_
  rw [entity?_edit, if_neg hkey] at he
  exact h e he

/-! ### Notifications -/

theorem keeps_notify (h : c.Steady settings key) (n : Notification) :
    Keeps settings key c (c.notify n) := by
  have hd : Aside key c (c.notify n) c.fresh none
      (some { key := n.key, job := .notification n.property }) := by
    refine ⟨Table.changes_insert h.orderly.get?_fresh _, rfl, rfl, fun u hu => (nomatch hu), ?_, ?_⟩
    · intro u hu _
      cases hu
      rfl
    · intro u hu
      cases hu
      trivial
  exact keeps_aside h (h.orderly.notify n) (h.ended.arrive (d := c.notify n) rfl rfl) hd
    (fun name u hu => (nomatch hu)) fun name hq => .inr hq

/-- The task that handles a notification sees to its property. -/
theorem seenTo_notify (settings : Settings) (c : Core MemoryStore) (n : Notification) :
    (c.notify n).SeenTo settings n.key n.property := by
  refine .inl ⟨c.fresh, { key := n.key, job := .notification n.property }, ?_, rfl, rfl⟩
  show (c.tasks.insert c.fresh _).get? c.fresh = _
  rw [Table.get?_insert, if_pos rfl]

theorem keeps_issues (h : c.Steady settings key) (hissues : ReflTransGen Core.Issue c d) :
    Keeps settings key c d := by
  induction hissues with
  | refl => exact ⟨h, fun _ hs => hs⟩
  | tail _ hissue ih =>
    obtain ⟨hsteady, hseen⟩ := ih
    obtain ⟨hsteady', hseen'⟩ := hsteady.issue hissue
    exact ⟨hsteady', fun name hs => hseen' name (hseen name hs)⟩

/-- A handler starts in order, with nobody at work. -/
theorem steady_start (settings settings' : Settings) {s : MemoryStore} (hs : s.available = true)
    (hnamed : ∀ e, s.get? key.tenant key.entity = some e → e.id = key.entity ∧ e.NamesAgree) :
    (Handler.start settings' s).core.Steady settings key := by
  refine ⟨.start settings' s, .start settings' s, ?_, ?_, ?_, ?_⟩ <;> rw [Handler.core_start]
  · exact hs
  · exact hnamed
  · exact fun id t ht => (nomatch ht)
  · exact fun id t ht => (nomatch ht)

end Core

/-! ### Runs -/

/-- What has happened to an entity from outside. -/
inductive Incident where
  /-- Given values of the entity were edited. -/
  | edited (key : EntityKey)
  /-- The handler began to handle a notification. -/
  | notified (n : Notification)
deriving DecidableEq

/-- Whether the property has not been notified since its entity was last edited, if it ever was.
    The latest incident comes first. -/
def owed (key : EntityKey) (name : String) : List Incident → Bool
  | [] => false
  | .edited k :: past => k = key || owed key name past
  | .notified n :: past => n ≠ ⟨key, name⟩ && owed key name past

namespace Handler

/-- The runs of a handler on a store that others edit, with what has happened from outside: the
    latest incident comes first.  Any action may follow on any other, and so may any edit, but no
    pass runs out of levels. -/
inductive Run (engine : Engine MemoryStore) (s : MemoryStore) :
    List Incident → Handler MemoryStore → Prop where
  | start : Run engine s [] (start engine.settings s)
  | act {past : List Incident} {h h' : Handler MemoryStore} (a : Action) : Run engine s past h →
    h.core.Suffices → h.step engine a = some h' →
    Run engine s ((h.started a).map .notified ++ past) h'
  | edit {past : List Incident} {h : Handler MemoryStore} {e e' : Entity} : Run engine s past h →
    h.store.get? e'.tenant e'.id = some e → e'.Revises e →
    Run engine s (.edited e'.key :: past) { h with store := h.store.insert e' }

/-! ### Runs that are carried out -/

/-- What somebody does in a run. -/
inductive Move where
  | act (a : Action)
  /-- Writes a literal of an entity. -/
  | write (key : EntityKey) (p : LiteralProperty)

/-- Whether no pass whose results are being written has failed anywhere. -/
def faultless (h : Handler MemoryStore) : Bool :=
  h.tasks.values.all fun t =>
    match t.stage with
    | .writing _ (.pass o _) _ => o.results.all fun r => r.error.isNone
    | _ => true

/-- Makes a move, if it is possible. -/
def move (engine : Engine MemoryStore) (past : List Incident) (h : Handler MemoryStore) :
    Move → Option (List Incident × Handler MemoryStore)
  | .act a =>
    if h.faultless then
      (h.step engine a).map fun h' => ((h.started a).map .notified ++ past, h')
    else none
  | .write key p =>
    match h.store.get? key.tenant key.entity with
    | some e =>
      if e.key = key ∧ (e.properties.get? p.name).all (fun q => q.status?.isNone) then
        some (.edited key :: past,
          { h with store := h.store.insert (e.withProperty (.literal p)) })
      else none
    | none => none

/-- Makes one move after another. -/
def moves (engine : Engine MemoryStore) :
    List Move → List Incident × Handler MemoryStore → Option (List Incident × Handler MemoryStore)
  | [], x => some x
  | m :: ms, (past, h) => (h.move engine past m).bind (moves engine ms)

theorem suffices_of_faultless {h : Handler MemoryStore} (hf : h.faultless = true) :
    h.core.Suffices := by
  intro id t lock plan rest ht hs
  have ht : t ∈ h.tasks.values :=
    List.mem_map.2 ⟨(id, t), Table.mem_entries_iff.2 ht, rfl⟩
  have hall := List.all_eq_true.1 hf t ht
  rw [hs] at hall
  cases plan with
  | pass o actor =>
    rintro ⟨r, hr, limit, herror⟩
    have hnone := List.all_eq_true.1 hall r hr
    rw [herror] at hnone
    exact nomatch hnone
  | _ => exact not_false

section Moves

variable {engine : Engine MemoryStore} {s : MemoryStore} {past past' : List Incident}
  {h h' : Handler MemoryStore}

theorem Run.move (hrun : Run engine s past h) {m : Move}
    (hm : h.move engine past m = some (past', h')) : Run engine s past' h' := by
  cases m with
  | act a =>
    unfold Handler.move at hm
    dsimp only at hm
    split at hm
    · rename_i hf
      obtain ⟨h'', hstep, heq⟩ := Option.map_eq_some_iff.1 hm
      cases heq
      exact hrun.act a (suffices_of_faultless hf) hstep
    · exact nomatch hm
  | write key p =>
    unfold Handler.move at hm
    dsimp only at hm
    split at hm
    · rename_i e he
      split at hm
      · rename_i hwrite
        obtain ⟨rfl, hderived⟩ := hwrite
        cases hm
        have hrevises : (e.withProperty (.literal p)).Revises e := by
          apply Entity.revises_withProperty
          intro q hq
          rw [hq] at hderived
          simpa using hderived
        refine .edit hrun ?_ hrevises
        exact he
      · exact nomatch hm
    · exact nomatch hm

theorem Run.moves {ms : List Move} (hrun : Run engine s past h)
    (hm : Handler.moves engine ms (past, h) = some (past', h')) : Run engine s past' h' := by
  induction ms generalizing past h with
  | nil =>
    cases hm
    exact hrun
  | cons m ms ih =>
    obtain ⟨⟨past₁, h₁⟩, hfirst, hrest⟩ := Option.bind_eq_some_iff.1 hm
    exact ih (hrun.move hfirst) hrest

end Moves

/-! ### Quiet entities -/

/-- Nothing is going on about an entity: it is not queued, no drain of it is in flight, and every
    notification of it has been handled. -/
structure Quiet (h : Handler MemoryStore) (key : EntityKey) : Prop where
  idle : h.stateOf key = .idle
  handled : ∀ id t property, h.tasks.get? id = some t → t.key = key →
    t.job = .notification property → ∃ r, t.stage = .finished r

section Run

variable {engine : Engine MemoryStore} {s : MemoryStore} {key : EntityKey} {past : List Incident}
  {h : Handler MemoryStore} (hstore : engine.store = MemoryStore.store)
  (hb : engine.settings.recalc.mode = .batched) (hs : s.available = true)
  (hnamed : ∀ e, s.get? key.tenant key.entity = some e → e.id = key.entity ∧ e.NamesAgree)
include hstore hb hs hnamed

/-- In every state of a run everything about the entity is in order, and its notified properties are
    seen to unless a notification is owed for them. -/
theorem Run.seenTo (hrun : Run engine s past h) : h.core.Steady engine.settings key ∧
    ∀ name, .notified ⟨key, name⟩ ∈ past → owed key name past = false →
      h.core.SeenTo engine.settings key name := by
  -- On the run.  After an edit a notification is owed for every property, and nothing is claimed of
  -- them until one comes in; that starts a task which carries its property.
  induction hrun with
  | start =>
    exact ⟨Core.steady_start _ _ hs hnamed, fun _ hn => absurd hn List.not_mem_nil⟩
  | @act past h h' a _ hlevels hstep ih =>
    obtain ⟨hsteady, hseen⟩ := ih
    rcases h.step_core engine hstep with ⟨n, hstarted, hcore⟩ | ⟨hstarted, hsteps⟩
    · obtain ⟨hsteady', hkept⟩ := Core.keeps_notify hsteady n
      rw [hstarted, hcore]
      refine ⟨hsteady', fun name hn howed => ?_⟩
      by_cases hself : n = ⟨key, name⟩
      · subst hself
        exact Core.seenTo_notify engine.settings h.core ⟨key, name⟩
      · have hpast : .notified ⟨key, name⟩ ∈ past := by
          rcases List.mem_cons.1 hn with heq | hpast
          · cases heq
            exact absurd rfl hself
          · exact hpast
        have howed : (n ≠ ⟨key, name⟩ && owed key name past) = false := howed
        exact hkept name (hseen name hpast (by simpa [hself] using howed))
    · obtain ⟨hsteady', hkept⟩ := hsteps.elim (Core.keeps_issues hsteady)
        (hsteady.step hstore hb hlevels)
      rw [hstarted]
      exact ⟨hsteady', fun name hn howed => hkept name (hseen name hn howed)⟩
  | @edit past h e e' _ he hr ih =>
    obtain ⟨hsteady, hseen⟩ := ih
    refine ⟨Core.Steady.edit hsteady he hr, fun name hn howed => ?_⟩
    have howed : (decide (e'.key = key) || owed key name past) = false := howed
    rw [Bool.or_eq_false_iff, decide_eq_false_iff_not] at howed
    have hpast : .notified ⟨key, name⟩ ∈ past := (List.mem_cons.1 hn).resolve_left nofun
    exact (hseen name hpast howed.2).edit howed.1

/-- Once an entity is quiet the properties that are seen to are fresh. -/
theorem Run.fresh (hrun : Run engine s past h) (hquiet : h.Quiet key) {name : String}
    (hn : .notified ⟨key, name⟩ ∈ past) (howed : owed key name past = false) {e : Entity}
    (he : h.store.get? key.tenant key.entity = some e) : e.Fresh engine.settings name := by
  obtain ⟨hsteady, hseen⟩ := hrun.seenTo hstore hb hs hnamed
  have hidle : h.inFlight.get? key = none ∧ h.queue.get? key = none := by
    have hidle := hquiet.idle
    unfold stateOf at hidle
    split at hidle
    · cases hidle
    · rename_i hf
      split at hidle
      · cases hidle
      · rename_i hq
        simpa [Table.contains] using And.intro hf hq
  have hflight : h.core.inFlight key = 0 := by
    show (h.inFlight.get? key).getD 0 = 0
    rw [hidle.1]
    rfl
  -- No drain is in flight and all notifications are handled, so every task is finished.
  have hfinished {id : Nat} {t : Task} (ht : h.core.tasks.get? id = some t) (hk : t.key = key) :
      ∃ r, t.stage = .finished r := by
    cases hj : t.job with
    | notification property => exact hquiet.handled id t property ht hk hj
    | drain names actor batch =>
      have hdrains := hsteady.orderly.not_drained_of_idle hflight ht
      unfold Task.drains at hdrains
      rw [hj] at hdrains
      exact absurd hk (of_decide_eq_false hdrains)
  rcases hseen name hn howed with ⟨id, t, ht, hk, hcarries⟩ | hq | hleaves
  · obtain ⟨r, hr⟩ := hfinished ht hk
    unfold Task.Carries at hcarries
    rw [hr] at hcarries
    exact hcarries.elim
  · have hq : name ∈ ((h.queue.get? key).map QueueEntry.names).getD [] := hq
    rw [hidle.2] at hq
    exact absurd hq List.not_mem_nil
  · rcases hleaves e he with ⟨id, t, ht, hk, hholds, _⟩ | ⟨_, hfresh⟩
    · obtain ⟨r, hr⟩ := hfinished ht hk
      rw [hr] at hholds
      cases hholds
    · exact hfresh

/-- Once an entity is quiet, and no notification is owed for an edit of it, a notified property whose
    formula reads given values has the answer of the formula over the values that are stored. -/
theorem Run.answers_of_quiet (hrun : Run engine s past h) (hquiet : h.Quiet key) {name : String}
    (hn : .notified ⟨key, name⟩ ∈ past) (howed : owed key name past = false) {e : Entity}
    (he : h.store.get? key.tenant key.entity = some e) {p : ComputedProperty}
    (hp : e.properties.get? name = some (.computed p)) (hcircular : p.status ≠ .circular)
    (hreads : ∀ f, Expression.parse p.expression = .ok f → e.ReadsGiven engine.settings f)
    (hlevels : ∀ f limit, Expression.parse p.expression = .ok f →
      f.evaluate (.ofEntity engine.settings e) ≠ .error (.depthExceeded limit)) :
    match Expression.parse p.expression with
    | .error err => p.status = .error ∧ p.error = some err.report
    | .ok f => p.Answers (f.evaluate (.ofEntity engine.settings e)) := by
  have hfresh := hrun.fresh hstore hb hs hnamed hquiet hn howed he p hp hcircular
  cases hf : Expression.parse p.expression with
  | error err =>
    rw [hf] at hfresh
    exact hfresh
  | ok f =>
    rw [hf] at hfresh
    obtain ⟨r, hr⟩ := hreads f hf
    show p.Answers (f.evaluate (.ofEntity engine.settings e))
    rw [EvaluationContext.evaluate_of_given hr fun limit => hlevels f limit hf]
    exact hfresh r hr

end Run

end Handler

/-! ### A change during a drain -/

/-- An entity with a property that repeats a literal. -/
def echoing : Entity :=
  (Entity.ofFormulas [("y", "#x")]).withProperty (.literal { name := "x", value := .text "first" })

/-- A handler on a store in memory, with default settings. -/
def plainEngine : Engine MemoryStore := ⟨MemoryStore.store, {}, fun _ => "now"⟩

namespace Handler

/-- Somebody writes the literal and notifies when a drain has read it and has not written yet.  The
    drain writes what it has found, and another one follows. -/
def overtaken : List Move :=
  let key := echoing.key
  let task (id count : Nat) : List Move := List.replicate count (.act (.task id))
  [.act (.notify ⟨key, "y"⟩)] ++ task 0 7 ++ [.act (.begin (.flush none "user")), .act (.call 2)] ++
    task 4 3 ++ [.write key { name := "x", value := .text "second" }, .act (.notify ⟨key, "y"⟩)] ++
    task 4 6 ++ task 6 8 ++ [.act (.begin (.flush none "user")), .act (.call 8)] ++ task 10 9

/-- Whether everybody is done with an entity, and its property is notified, owes nothing and has a
    formula with a value over given values. -/
def restsAt (settings : Settings) (key : EntityKey) (name : String)
    (x : List Incident × Handler MemoryStore) : Bool :=
  x.2.stateOf key = .idle && (x.2.tasks.values.all fun t => t.result?.isSome) &&
    decide (.notified ⟨key, name⟩ ∈ x.1) && !owed key name x.1 &&
    (x.2.store.get? key.tenant key.entity).any fun e =>
      match e.properties.get? name with
      | some (.computed p) => p.status = .valid &&
        match Expression.parse p.expression with
        | .ok f => (e.given settings f).run.isOk && (f.evaluate (.ofEntity settings e)).isOk
        | .error _ => false
      | _ => false

theorem overtaken_answers :
    ∃ past h e p, Run plainEngine (MemoryStore.insert {} echoing) past h ∧ h.Quiet echoing.key ∧
      .notified ⟨echoing.key, "y"⟩ ∈ past ∧ owed echoing.key "y" past = false ∧
      h.store.get? echoing.key.tenant echoing.key.entity = some e ∧
      e.properties.get? "y" = some (.computed p) ∧ p.status ≠ .circular ∧
      match Expression.parse p.expression with
      | .error err => p.status = .error ∧ p.error = some err.report
      | .ok f => p.Answers (f.evaluate (.ofEntity plainEngine.settings e)) := by
  have hmoves : (moves plainEngine overtaken
      ([], start plainEngine.settings (MemoryStore.insert {} echoing))).any
        (restsAt plainEngine.settings echoing.key "y") = true := by
    decide +kernel
  obtain ⟨⟨past, h⟩, hmoves, hrests⟩ := (Option.any_eq_true ..).1 hmoves
  have hrun : Run plainEngine (MemoryStore.insert {} echoing) past h := Run.start.moves hmoves
  have hnamed : ∀ e, (MemoryStore.insert {} echoing).get? echoing.key.tenant echoing.key.entity =
      some e → e.id = echoing.key.entity ∧ e.NamesAgree := by
    intro e he
    rw [MemoryStore.get?_insert, if_pos ⟨rfl, rfl⟩] at he
    cases he
    exact ⟨rfl, Entity.namesAgree_iff.2 (by decide +kernel)⟩
  unfold restsAt at hrests
  simp only [Bool.and_eq_true, decide_eq_true_eq, Bool.not_eq_true', List.all_eq_true] at hrests
  obtain ⟨⟨⟨⟨hidle, hfinished⟩, hn⟩, howed⟩, hstored⟩ := hrests
  have hquiet : h.Quiet echoing.key := by
    refine ⟨hidle, fun id t property ht _ _ => ?_⟩
    obtain ⟨r, hr⟩ := Option.isSome_iff_exists.1
      (hfinished t (List.mem_map.2 ⟨(id, t), Table.mem_entries_iff.2 ht, rfl⟩))
    unfold Task.result? at hr
    split at hr
    · rename_i result hs
      exact ⟨result, hs⟩
    · exact nomatch hr
  obtain ⟨e, he, hproperty⟩ := (Option.any_eq_true ..).1 hstored
  split at hproperty
  · rename_i p hp
    obtain ⟨hvalid, hformula⟩ := (Bool.and_eq_true ..).mp hproperty
    have hcircular : p.status ≠ .circular := by
      rw [of_decide_eq_true hvalid]
      exact nofun
    refine ⟨past, h, e, p, hrun, hquiet, hn, howed, he, hp, hcircular, ?_⟩
    refine hrun.answers_of_quiet rfl rfl rfl hnamed hquiet hn howed he hp hcircular ?_ ?_
    · intro f hf
      rw [hf] at hformula
      obtain ⟨hgiven, _⟩ := (Bool.and_eq_true ..).mp hformula
      cases hr : (e.given plainEngine.settings f).run with
      | ok r => exact ⟨r, hr⟩
      | error q =>
        rw [hr] at hgiven
        exact nomatch hgiven
    · intro f limit hf hdeep
      rw [hf] at hformula
      obtain ⟨_, hok⟩ := (Bool.and_eq_true ..).mp hformula
      rw [hdeep] at hok
      exact nomatch hok
  · exact nomatch hproperty

end Handler

end EntityFormulas
