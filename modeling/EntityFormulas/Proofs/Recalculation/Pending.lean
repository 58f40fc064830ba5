/-
  EntityFormulas/Proofs/Recalculation/Pending.lean
  ================================================
  **Where the work on a property is.**

  A property that has been notified is seen to (`SeenTo`): a task carries it
  that has not queued or read it yet, it is queued, or whoever is at work on its
  entity leaves it fresh, which without anybody at work means that it is fresh.
  Every step of a handler keeps it so (`Steady.step`), because the tasks of an
  entity never overlap and each comes to a plan that fits (`Steady`).
-/
import EntityFormulas.Proofs.Recalculation.Locks
import EntityFormulas.Proofs.Recalculation.Plans
import EntityFormulas.Proofs.Store.Writing

namespace EntityFormulas

/-! ### Tasks -/

namespace Task

variable (settings : Settings) (e : Entity)

/-- What is left of the task's plan fits its entity: the records can be written, and a notification
    is going to queue its property unless there is nothing to compute. -/
def Ready (t : Task) (plan : Plan) (rest : List StateRecord) : Prop :=
  e.Writable rest ∧ ∀ name, t.job = .notification name →
    (∃ mark, plan = .enqueue mark) ∨ (rest = [] ∧ e.Exempt name)

/-- The task has not read its entity yet, or it comes to a plan that fits, or it has one. -/
def Sound (t : Task) : Prop :=
  match t.stage with
  | .reading _ _ program => (∃ now, program = (t.plan settings now).run) ∨
      program.Always Answered fun r =>
        ∃ plan, r = .ok plan ∧ t.Ready e plan (plan.records t.key.entity)
  | .writing _ plan rest => t.Ready e plan rest
  | _ => True

/-- The task writes to its own entity only. -/
def Addressed (t : Task) : Prop :=
  match t.stage with
  | .reading _ _ program => program.Always (fun _ => True) fun r =>
      ∀ plan, r = .ok plan → ∀ record ∈ plan.records t.key.entity, record.entity = t.key.entity
  | .writing _ _ rest => ∀ record ∈ rest, record.entity = t.key.entity
  | _ => True

/-- When the task has written what it is going to write, the property is fresh, unless its pass runs
    out of levels. -/
def Covers (name : String) (t : Task) : Prop :=
  match t.stage with
  | .reading _ _ program =>
    ((∃ now, program = (t.plan settings now).run) ∧ e.Fresh settings name) ∨
      program.Always Answered fun r => ∀ plan, r = .ok plan → ¬ plan.RanOut →
        (e.written (plan.records t.key.entity)).Fresh settings name
  | .writing _ plan rest => ¬ plan.RanOut → (e.written rest).Fresh settings name
  | _ => e.Fresh settings name

/-- The task is about the property. -/
def Concerns (name : String) (t : Task) : Prop :=
  match t.job with
  | .notification property => property = name
  | .drain names _ _ => name ∈ names

/-- The property depends on the task: it is to be queued by it, or read by it and then computed. -/
def Carries (name : String) (t : Task) : Prop :=
  match t.stage with
  | .arriving | .waiting _ => t.Concerns name
  | .reading _ _ program => t.job = .notification name ∨
      (t.Concerns name ∧ ∃ now, program = (t.plan settings now).run)
  | .writing .. => t.job = .notification name
  | _ => False

variable {settings e} {t : Task}

theorem sound_of_not_holds (h : t.stage.holds = false) : t.Sound settings e := by
  unfold Sound
  cases hs : t.stage with
  | reading lock resume program =>
    rw [hs] at h
    exact nomatch h
  | writing lock plan rest =>
    rw [hs] at h
    exact nomatch h
  | _ => trivial

theorem addressed_of_not_holds (h : t.stage.holds = false) : t.Addressed := by
  unfold Addressed
  cases hs : t.stage with
  | reading lock resume program =>
    rw [hs] at h
    exact nomatch h
  | writing lock plan rest =>
    rw [hs] at h
    exact nomatch h
  | _ => trivial

theorem Addressed.reading (h : t.Addressed) {lock resume : Nat}
    {program : Lookup (Except StoreError Plan)} (hs : t.stage = .reading lock resume program) :
    program.Always (fun _ => True) fun r =>
      ∀ plan, r = .ok plan → ∀ record ∈ plan.records t.key.entity, record.entity = t.key.entity := by
  unfold Addressed at h
  rw [hs] at h
  exact h

theorem Addressed.writing (h : t.Addressed) {lock : Nat} {plan : Plan} {rest : List StateRecord}
    (hs : t.stage = .writing lock plan rest) : ∀ record ∈ rest, record.entity = t.key.entity := by
  unfold Addressed at h
  rw [hs] at h
  exact h

/-- What depends on a task depends on its stage and its job only. -/
theorem Carries.at_stage {name : String} (h : t.Carries settings name) {stage : Stage}
    (hs : t.stage = stage) : ({ t with stage } : Task).Carries settings name := by
  subst hs
  exact h

theorem Fits.ready (hn : e.NamesAgree) {plan : Plan} (h : t.Fits settings e plan) :
    t.Ready e plan (plan.records t.key.entity) := by
  refine ⟨h.writable hn, fun name hj => ?_⟩
  unfold Fits at h
  rw [hj] at h
  rcases h with ⟨_, hrecords, hexempt⟩ | ⟨mark, rfl, _⟩
  · exact .inr ⟨hrecords, hexempt⟩
  · exact .inl ⟨mark, rfl⟩

end Task

/-! ### Tasks at work -/

namespace Task

variable {settings : Settings} {e : Entity} {t : Task} {name : String}

theorem covers_of_not_holds (h : t.stage.holds = false) :
    t.Covers settings e name ↔ e.Fresh settings name := by
  unfold Covers
  cases hs : t.stage with
  | reading lock resume program =>
    rw [hs] at h
    exact nomatch h
  | writing lock plan rest =>
    rw [hs] at h
    exact nomatch h
  | _ => exact Iff.rfl

/-- What a task starts with asks for entities first. -/
theorem exists_entities {program : Lookup (Except StoreError Plan)}
    (h : ∃ now, program = (t.plan settings now).run) :
    ∃ tenant ids next, program = .entities tenant ids next := by
  obtain ⟨now, rfl⟩ := h
  obtain ⟨next, hrun, _⟩ := exists_plan_run settings now t
  exact ⟨_, _, next, hrun⟩

section Reading

variable {lock resume resume' : Nat} {tenant : String} {ids : List String}
  {next : Except StoreError (List Entity) → Lookup (Except StoreError Plan)} {s : MemoryStore}

/-- A task starts with the entity that it works on. -/
theorem exists_decide {now : String} (h : .entities tenant ids next = (t.plan settings now).run)
    (hid : e.id = t.key.entity) (he : s.get? t.key.tenant t.key.entity = some e) :
    next (.ok (ids.filterMap (s.get? tenant))) = (t.decide settings now e).run := by
  obtain ⟨next', hrun, hnext⟩ := exists_plan_run settings now t
  rw [hrun] at h
  cases h
  rw [List.filterMap_cons_some he, List.filterMap_nil]
  exact hnext e hid

variable (hb : settings.recalc.mode = .batched) (hid : e.id = t.key.entity) (hn : e.NamesAgree)
  (he : s.get? t.key.tenant t.key.entity = some e)
  (hs : t.stage = .reading lock resume (.entities tenant ids next))
include hb hid hn he hs

theorem Sound.entities (h : t.Sound settings e) :
    ({ t with stage := .reading lock resume' (next (.ok (ids.filterMap (s.get? tenant)))) } :
      Task).Sound settings e := by
  unfold Sound at h ⊢
  rw [hs] at h
  rcases h with ⟨now, hinitial⟩ | halways
  · right
    rw [exists_decide hinitial hid he]
    apply (decide_fits hb now t e).mono
    exact fun plan hfits => hfits.ready hn
  · exact .inr (halways _ ⟨_, rfl⟩)

theorem Covers.entities (h : t.Carries settings name ∨ t.Covers settings e name) :
    let t' : Task :=
      { t with stage := .reading lock resume' (next (.ok (ids.filterMap (s.get? tenant)))) }
    t'.Covers settings e name ∨ t'.Carries settings name := by
  intro t'
  have hcarries (hj : t.job = .notification name) : t'.Carries settings name := .inl hj
  have hcovers {now : String} (hinitial : .entities tenant ids next = (t.plan settings now).run)
      (hname : match t.job with
        | .notification property => property ≠ name ∧ e.Fresh settings name
        | .drain names _ _ => name ∈ names ∨ e.Fresh settings name) : t'.Covers settings e name := by
    right
    rw [exists_decide hinitial hid he]
    apply Lookup.Always.mono _ (decide_fits hb now t e)
    rintro r ⟨plan, rfl, hfits⟩ plan' hplan hdeep
    cases hplan
    exact hfits.fresh hn hdeep hname
  unfold Carries Covers at h
  rw [hs] at h
  rcases h with (hj | ⟨hconcerns, now, hinitial⟩) | ⟨⟨now, hinitial⟩, hfresh⟩ | halways
  · exact .inr (hcarries hj)
  · unfold Concerns at hconcerns
    cases hj : t.job with
    | notification property =>
      rw [hj] at hconcerns
      exact .inr (hcarries (by rw [hj, hconcerns]))
    | drain names actor batch =>
      rw [hj] at hconcerns
      refine .inl (hcovers hinitial ?_)
      rw [hj]
      exact .inl hconcerns
  · cases hj : t.job with
    | notification property =>
      by_cases hp : property = name
      · exact .inr (hcarries (by rw [hj, hp]))
      · refine .inl (hcovers hinitial ?_)
        rw [hj]
        exact ⟨hp, hfresh⟩
    | drain names actor batch =>
      refine .inl (hcovers hinitial ?_)
      rw [hj]
      exact .inr hfresh
  · exact .inl (.inr (halways _ ⟨_, rfl⟩))

end Reading

section Related

variable {lock resume : Nat} {tenant entity : String}
  {next : Except StoreError Relationships → Lookup (Except StoreError Plan)}
  (hs : t.stage = .reading lock resume (.relationships tenant entity next))
  {r : Except StoreError Relationships}
include hs

theorem Sound.relationships (hr : Answered r) (h : t.Sound settings e) :
    ({ t with stage := .reading lock resume (next r) } : Task).Sound settings e := by
  unfold Sound at h ⊢
  rw [hs] at h
  rcases h with hinitial | halways
  · obtain ⟨_, _, _, heq⟩ := exists_entities hinitial
    exact nomatch heq
  · exact .inr (halways r hr)

theorem Covers.relationships (hr : Answered r)
    (h : t.Carries settings name ∨ t.Covers settings e name) :
    let t' : Task := { t with stage := .reading lock resume (next r) }
    t'.Covers settings e name ∨ t'.Carries settings name := by
  intro t'
  have hno (h : ∃ now, Lookup.relationships tenant entity next = (t.plan settings now).run) :
      False := by
    obtain ⟨_, _, _, heq⟩ := exists_entities h
    exact nomatch heq
  unfold Carries Covers at h
  rw [hs] at h
  rcases h with (hj | ⟨_, hinitial⟩) | ⟨hinitial, _⟩ | halways
  · exact .inr (.inl hj)
  · exact (hno hinitial).elim
  · exact (hno hinitial).elim
  · exact .inl (.inr (halways r hr))

end Related

section Decided

variable {lock resume : Nat} {plan : Plan}

theorem Sound.decide (hs : t.stage = .reading lock resume (.done (.ok plan)))
    (h : t.Sound settings e) :
    ({ t with stage := .writing lock plan (plan.records t.key.entity) } : Task).Sound settings e := by
  unfold Sound at h ⊢
  rw [hs] at h
  rcases h with hinitial | ⟨plan', hplan, hready⟩
  · obtain ⟨_, _, _, heq⟩ := exists_entities hinitial
    exact nomatch heq
  · cases hplan
    exact hready

theorem Covers.decide (hs : t.stage = .reading lock resume (.done (.ok plan)))
    (h : t.Carries settings name ∨ t.Covers settings e name) :
    let t' : Task := { t with stage := .writing lock plan (plan.records t.key.entity) }
    t'.Covers settings e name ∨ t'.Carries settings name := by
  intro t'
  have hno (h : ∃ now, Lookup.done (.ok plan) = (t.plan settings now).run) : False := by
    obtain ⟨_, _, _, heq⟩ := exists_entities h
    exact nomatch heq
  unfold Carries Covers at h
  rw [hs] at h
  rcases h with (hj | ⟨_, hinitial⟩) | ⟨hinitial, _⟩ | halways
  · exact .inr hj
  · exact (hno hinitial).elim
  · exact (hno hinitial).elim
  · exact .inl (halways plan rfl)

/-- As long as the store answers no task comes to an error. -/
theorem Sound.not_error {err : StoreError}
    (hs : t.stage = .reading lock resume (.done (.error err))) (h : t.Sound settings e) : False := by
  unfold Sound at h
  rw [hs] at h
  rcases h with hinitial | ⟨plan, hplan, _⟩
  · obtain ⟨_, _, _, heq⟩ := exists_entities hinitial
    exact nomatch heq
  · exact nomatch hplan

end Decided

section Writing

variable {lock : Nat} {plan : Plan} {r : StateRecord} {rest : List StateRecord} {e' : Entity}

theorem Sound.write (hs : t.stage = .writing lock plan (r :: rest)) (hw : e.withState r = .ok e')
    (h : t.Sound settings e) :
    ({ t with stage := .writing lock plan rest } : Task).Sound settings e' := by
  unfold Sound at h ⊢
  rw [hs] at h
  refine ⟨h.1.withState hw, fun name hj => ?_⟩
  rcases h.2 name hj with hmark | ⟨hnil, _⟩
  · exact .inl hmark
  · exact nomatch hnil

theorem Covers.write (hs : t.stage = .writing lock plan (r :: rest)) (hw : e.withState r = .ok e')
    (h : t.Carries settings name ∨ t.Covers settings e name) :
    let t' : Task := { t with stage := .writing lock plan rest }
    t'.Covers settings e' name ∨ t'.Carries settings name := by
  intro t'
  unfold Carries Covers at h
  rw [hs] at h
  rcases h with hj | hfresh
  · exact .inr hj
  · have hfresh : ¬ plan.RanOut → (e.written (r :: rest)).Fresh settings name := hfresh
    rw [Entity.written_cons hw] at hfresh
    exact .inl hfresh

theorem Sound.exists_withState (hs : t.stage = .writing lock plan (r :: rest))
    (h : t.Sound settings e) : ∃ e', e.withState r = .ok e' := by
  unfold Sound at h
  rw [hs] at h
  obtain ⟨p, hp, hd⟩ := h.1 r List.mem_cons_self
  exact Entity.exists_withState hp hd

/-- A task that has written everything and queues nothing leaves fresh what is, unless its pass ran
    out of levels. -/
theorem Covers.settle (hs : t.stage = .writing lock plan [])
    (hj : ∀ property mark, t.job = .notification property → plan ≠ .enqueue mark)
    (hdeep : ¬ plan.RanOut) (hsound : t.Sound settings e) (h : t.Carries settings name ∨ t.Covers settings e name) :
    e.Fresh settings name := by
  unfold Carries Covers at h
  rw [hs] at h
  rcases h with hjob | hfresh
  · unfold Sound at hsound
    rw [hs] at hsound
    rcases hsound.2 name hjob with ⟨mark, hplan⟩ | ⟨_, hexempt⟩
    · exact absurd hplan (hj name mark hjob)
    · exact hexempt.fresh settings
  · exact hfresh hdeep

end Writing

end Task

/-! ### What every handler keeps -/

namespace Core

/-- The stored entity of a key. -/
def entity? (c : Core MemoryStore) (key : EntityKey) : Option Entity :=
  c.store.get? key.tenant key.entity

/-- Everything about an entity is in order: the books are, its store serves, properties stand under
    their names, every task writes to its own entity only and those of the entity come to plans that
    fit. -/
structure Steady (settings : Settings) (key : EntityKey) (c : Core MemoryStore) : Prop where
  orderly : c.Orderly
  ended : c.Ended
  available : c.store.available = true
  named : ∀ e, c.entity? key = some e → e.id = key.entity ∧ e.NamesAgree
  addressed : ∀ id t, c.tasks.get? id = some t → t.Addressed
  sound : ∀ id t, c.tasks.get? id = some t → t.key = key → ∀ e, c.entity? key = some e →
    t.Sound settings e

/-- Whoever is at work on the entity leaves the property fresh, and if nobody is, it is fresh. -/
def Leaves (settings : Settings) (key : EntityKey) (name : String) (c : Core MemoryStore)
    (e : Entity) : Prop :=
  (∃ id t, c.tasks.get? id = some t ∧ t.key = key ∧ t.stage.holds = true ∧
    t.Covers settings e name) ∨
  ((∀ id t, c.tasks.get? id = some t → t.key = key → t.stage.holds = false) ∧
    e.Fresh settings name)

/-- The property depends on a task, is queued, or is left fresh. -/
def SeenTo (settings : Settings) (key : EntityKey) (name : String) (c : Core MemoryStore) : Prop :=
  (∃ id t, c.tasks.get? id = some t ∧ t.key = key ∧ t.Carries settings name) ∨
  name ∈ c.queued key ∨
  ∀ e, c.entity? key = some e → c.Leaves settings key name e

variable {settings : Settings} {key : EntityKey} {name : String} {c d : Core MemoryStore}

theorem entity?_of_tenants (h : d.store.tenants = c.store.tenants) : d.entity? = c.entity? :=
  funext fun key => MemoryStore.get?_of_tenants h key.tenant key.entity

/-- Writing to an entity leaves the others as they are. -/
theorem entity?_of_wrote {e : Entity} {rs : List StateRecord} {s : MemoryStore}
    (h : MemoryStore.Wrote key.tenant key.entity e rs c.store s) {other : EntityKey}
    (hne : other ≠ key) : s.get? other.tenant other.entity = c.entity? other := by
  refine h.others other.tenant other.entity fun heq => hne ?_
  obtain ⟨tenant, entity⟩ := other
  cases heq
  rfl

/-! #### Steps that nobody at work makes -/

/-- At most one task comes, goes or moves, and it is not at work on the entity. -/
structure Aside (key : EntityKey) (c d : Core MemoryStore) (id : Nat) (a b : Option Task) : Prop where
  tasks : c.tasks.Changes d.tasks id a b
  entity : d.entity? key = c.entity? key
  available : d.store.available = c.store.available
  before : ∀ t ∈ a, t.key = key → t.stage.holds = false
  after : ∀ t ∈ b, t.key = key → t.stage.holds = false
  addressed : ∀ t ∈ b, t.Addressed

theorem Aside.get? {id : Nat} {a b : Option Task} (h : Aside key c d id a b) {j : Nat} {u : Task}
    (hu : d.tasks.get? j = some u) : (j = id ∧ b = some u) ∨ (j ≠ id ∧ c.tasks.get? j = some u) := by
  rw [h.tasks.after, Function.update_apply] at hu
  by_cases hj : j = id
  · rw [if_pos hj] at hu
    exact .inl ⟨hj, hu⟩
  · rw [if_neg hj] at hu
    exact .inr ⟨hj, hu⟩

theorem Steady.aside (h : c.Steady settings key) {id : Nat} {a b : Option Task}
    (hd : Aside key c d id a b) (horderly : d.Orderly) (hended : d.Ended) :
    d.Steady settings key := by
  refine ⟨horderly, hended, hd.available.trans h.available, ?_, ?_, ?_⟩
  · rw [hd.entity]
    exact h.named
  · intro j u hu
    rcases hd.get? hu with ⟨_, hb⟩ | ⟨_, hu⟩
    · exact hd.addressed u hb
    · exact h.addressed j u hu
  · intro j u hu hkey e he
    rw [hd.entity] at he
    rcases hd.get? hu with ⟨_, hb⟩ | ⟨_, hu⟩
    · exact Task.sound_of_not_holds (hd.after u hb hkey)
    · exact h.sound j u hu hkey e he

theorem SeenTo.aside (h : c.SeenTo settings key name) {id : Nat} {a b : Option Task}
    (hd : Aside key c d id a b)
    (hcarry : ∀ t ∈ a, t.key = key → t.Carries settings name →
      (∃ u ∈ b, u.key = key ∧ u.Carries settings name) ∨ name ∈ d.queued key)
    (hqueued : name ∈ c.queued key →
      (∃ u ∈ b, u.key = key ∧ u.Carries settings name) ∨ name ∈ d.queued key) :
    d.SeenTo settings key name := by
  have hnew : (∃ u ∈ b, u.key = key ∧ u.Carries settings name) ∨ name ∈ d.queued key →
      d.SeenTo settings key name := by
    rintro (⟨u, hb, hkey, hcarries⟩ | hq)
    · refine .inl ⟨id, u, ?_, hkey, hcarries⟩
      rw [hd.tasks.after, Function.update_self]
      exact hb
    · exact .inr (.inl hq)
  have hsame {j : Nat} {u : Task} (hj : j ≠ id) (hu : c.tasks.get? j = some u) :
      d.tasks.get? j = some u := by
    rw [hd.tasks.after, Function.update_of_ne hj]
    exact hu
  rcases h with ⟨j, u, hu, hkey, hcarries⟩ | hq | hleaves
  · by_cases hj : j = id
    · rw [hj, hd.tasks.before] at hu
      exact hnew (hcarry u hu hkey hcarries)
    · exact .inl ⟨j, u, hsame hj hu, hkey, hcarries⟩
  · exact hnew (hqueued hq)
  · refine .inr (.inr fun e he => ?_)
    rw [hd.entity] at he
    rcases hleaves e he with ⟨j, u, hu, hkey, hholds, hcovers⟩ | ⟨hnobody, hfresh⟩
    · refine .inl ⟨j, u, hsame ?_ hu, hkey, hholds, hcovers⟩
      rintro rfl
      rw [hd.tasks.before] at hu
      rw [hd.before u hu hkey] at hholds
      exact nomatch hholds
    · refine .inr ⟨fun j u hu hkey => ?_, hfresh⟩
      rcases hd.get? hu with ⟨_, hb⟩ | ⟨_, hu⟩
      · exact hd.after u hb hkey
      · exact hnobody j u hu hkey

/-! #### Steps of the task at work -/

/-- A task that is at work on its entity moves to a stage. -/
structure Works (c d : Core MemoryStore) (id : Nat) (t : Task) (stage : Stage) : Prop where
  task : c.tasks.get? id = some t
  holds : t.stage.holds = true
  tasks : d.tasks = c.tasks.insert id { t with stage }
  available : d.store.available = true

section Works

variable {id : Nat} {t : Task} {stage : Stage} (hw : Works c d id t stage)
include hw

theorem Works.get? {j : Nat} {u : Task} (hu : d.tasks.get? j = some u) :
    (j = id ∧ u = { t with stage }) ∨ (j ≠ id ∧ c.tasks.get? j = some u) := by
  rw [hw.tasks, Table.get?_insert] at hu
  by_cases hj : id = j
  · rw [if_pos hj] at hu
    cases hu
    exact .inl ⟨hj.symm, rfl⟩
  · rw [if_neg hj] at hu
    exact .inr ⟨Ne.symm hj, hu⟩

variable (h : c.Steady settings t.key)
include h

/-- Nobody else is at work on the entity. -/
theorem Works.others {j : Nat} {u : Task} (hj : j ≠ id) (hu : c.tasks.get? j = some u)
    (hkey : u.key = t.key) : u.stage.holds = false := by
  rw [← Bool.not_eq_true]
  exact fun hholds => hj (h.orderly.exclusive hu hw.task hkey hholds hw.holds)

theorem Steady.work (horderly : d.Orderly) (hended : d.Ended)
    (haddressed : ({ t with stage } : Task).Addressed)
    (hentity : ∀ e', d.entity? t.key = some e' → e'.id = t.key.entity ∧ e'.NamesAgree ∧
      ({ t with stage } : Task).Sound settings e') : d.Steady settings t.key := by
  refine ⟨horderly, hended, hw.available, ?_, ?_, ?_⟩
  · intro e' he'
    obtain ⟨hid, hn, _⟩ := hentity e' he'
    exact ⟨hid, hn⟩
  · intro j u hu
    rcases hw.get? hu with ⟨_, rfl⟩ | ⟨_, hu⟩
    · exact haddressed
    · exact h.addressed j u hu
  · intro j u hu hkey e' he'
    rcases hw.get? hu with ⟨_, rfl⟩ | ⟨hj, hu⟩
    · exact (hentity e' he').2.2
    · exact Task.sound_of_not_holds (hw.others h hj hu hkey)

/-- What the task at work leaves behind is seen to, or still goes with it. -/
theorem SeenTo.work (hs : c.SeenTo settings t.key name)
    (hqueued : name ∈ c.queued t.key → name ∈ d.queued t.key)
    (hnext : ∀ e', d.entity? t.key = some e' → ∃ e, c.entity? t.key = some e ∧
      (t.Carries settings name ∨ t.Covers settings e name →
        ({ t with stage } : Task).Covers settings e' name ∨
          ({ t with stage } : Task).Carries settings name ∨ name ∈ d.queued t.key)) :
    d.SeenTo settings t.key name := by
  have hself : d.tasks.get? id = some { t with stage } := by
    rw [hw.tasks, Table.get?_insert, if_pos rfl]
  cases hd : d.entity? t.key with
  | none => exact .inr (.inr fun e' he' => by rw [hd] at he'; exact nomatch he')
  | some e' =>
    obtain ⟨e, he, hnext⟩ := hnext e' hd
    have hdone (hmine : t.Carries settings name ∨ t.Covers settings e name) :
        d.SeenTo settings t.key name := by
      rcases hnext hmine with hcovers | hcarries | hq
      · refine .inr (.inr fun e'' he'' => ?_)
        rw [hd] at he''
        cases he''
        cases hholds : stage.holds with
        | true => exact .inl ⟨id, _, hself, rfl, hholds, hcovers⟩
        | false =>
          refine .inr ⟨fun j u hu hkey => ?_, (Task.covers_of_not_holds hholds).1 hcovers⟩
          rcases hw.get? hu with ⟨_, rfl⟩ | ⟨hj, hu⟩
          · exact hholds
          · exact hw.others h hj hu hkey
      · exact .inl ⟨id, _, hself, rfl, hcarries⟩
      · exact .inr (.inl hq)
    rcases hs with ⟨j, u, hu, hkey, hcarries⟩ | hq | hleaves
    · by_cases hj : j = id
      · rw [hj, hw.task] at hu
        cases hu
        exact hdone (.inl hcarries)
      · refine .inl ⟨j, u, ?_, hkey, hcarries⟩
        rw [hw.tasks, Table.get?_insert, if_neg (Ne.symm hj)]
        exact hu
    · exact .inr (.inl (hqueued hq))
    · rcases hleaves e he with ⟨j, u, hu, hkey, hholds, hcovers⟩ | ⟨hnobody, _⟩
      · have hj := h.orderly.exclusive hu hw.task hkey hholds hw.holds
        rw [hj, hw.task] at hu
        cases hu
        exact hdone (.inr hcovers)
      · have hidle := hnobody id t hw.task rfl
        rw [hw.holds] at hidle
        exact nomatch hidle

end Works

/-! #### All steps -/

/-- What is in order stays so, and what is seen to stays seen to. -/
def Keeps (settings : Settings) (key : EntityKey) (c d : Core MemoryStore) : Prop :=
  d.Steady settings key ∧ ∀ name, c.SeenTo settings key name → d.SeenTo settings key name

section Keeps

variable (h : c.Steady settings key) (horderly : d.Orderly) (hended : d.Ended)
include h horderly hended

theorem keeps_aside {id : Nat} {a b : Option Task} (hd : Aside key c d id a b)
    (hcarry : ∀ name, ∀ t ∈ a, t.key = key → t.Carries settings name →
      (∃ u ∈ b, u.key = key ∧ u.Carries settings name) ∨ name ∈ d.queued key)
    (hqueued : ∀ name ∈ c.queued key,
      (∃ u ∈ b, u.key = key ∧ u.Carries settings name) ∨ name ∈ d.queued key) :
    Keeps settings key c d :=
  ⟨h.aside hd horderly hended, fun name hs => hs.aside hd (hcarry name) (hqueued name)⟩

/-- A task that is at work on an entity, this one or another, makes a step. -/
theorem keeps_work {id : Nat} {t : Task} {stage : Stage} (hw : Works c d id t stage)
    (hothers : ∀ k, k ≠ t.key → d.entity? k = c.entity? k)
    (hqueued : ∀ k, c.queued k ⊆ d.queued k) (haddressed : ({ t with stage } : Task).Addressed)
    (hnext : t.key = key → ∀ e', d.entity? key = some e' → ∃ e, c.entity? key = some e ∧
      e'.id = key.entity ∧ e'.NamesAgree ∧ ({ t with stage } : Task).Sound settings e' ∧
      ∀ name, t.Carries settings name ∨ t.Covers settings e name →
        ({ t with stage } : Task).Covers settings e' name ∨
          ({ t with stage } : Task).Carries settings name ∨ name ∈ d.queued key) :
    Keeps settings key c d := by
  by_cases hkey : t.key = key
  · subst hkey
    refine ⟨h.work hw horderly hended haddressed fun e' he' => ?_, fun name hs => ?_⟩
    · obtain ⟨_, _, hid, hn, hsound, _⟩ := hnext rfl e' he'
      exact ⟨hid, hn, hsound⟩
    · refine hs.work hw h (fun hq => hqueued _ hq) fun e' he' => ?_
      obtain ⟨e, he, _, _, _, hnext⟩ := hnext rfl e' he'
      exact ⟨e, he, hnext name⟩
  · have hd : Aside key c d id (some t) (some { t with stage }) := by
      refine ⟨?_, hothers key (Ne.symm hkey), hw.available.trans h.available.symm, ?_, ?_, ?_⟩
      · rw [hw.tasks]
        exact Table.changes_insert hw.task _
      · intro u hu hk
        cases hu
        exact absurd hk hkey
      · intro u hu hk
        cases hu
        exact absurd hk hkey
      · intro u hu
        cases hu
        exact haddressed
    refine keeps_aside h horderly hended hd (fun name u hu hk => ?_) fun name hq => ?_
    · cases hu
      exact absurd hk hkey
    · exact .inr (hqueued key hq)

end Keeps

/-- A task begins to work on its entity. -/
theorem keeps_acquire (h : c.Steady settings key) (horderly : d.Orderly) (hended : d.Ended) {id : Nat} {t : Task}
    {lock resume : Nat} {now : String} (ht : c.tasks.get? id = some t)
    (hs : t.stage = .waiting lock)
    (hd : d = (c.setHeld lock true).setStage id t
      (.reading lock resume (t.plan settings now).run)) : Keeps settings key c d := by
  have haddressed : ({ t with stage := .reading lock resume (t.plan settings now).run } :
      Task).Addressed := t.plan_addressed settings now
  have hget {j : Nat} {u : Task} (hu : d.tasks.get? j = some u) :
      (j = id ∧ u = { t with stage := .reading lock resume (t.plan settings now).run }) ∨
        (j ≠ id ∧ c.tasks.get? j = some u) := by
    rw [hd] at hu
    exact of_get?_setStage hu
  have hself : d.tasks.get? id =
      some { t with stage := .reading lock resume (t.plan settings now).run } := by
    rw [hd]
    show (c.tasks.insert id _).get? id = _
    rw [Table.get?_insert, if_pos rfl]
  have hentity : d.entity? key = c.entity? key := by rw [hd]; rfl
  refine ⟨⟨horderly, hended, by rw [hd]; exact h.available, by rw [hentity]; exact h.named, ?_, ?_⟩,
    fun name hseen => ?_⟩
  · intro j u hu
    rcases hget hu with ⟨_, rfl⟩ | ⟨_, hu⟩
    · exact haddressed
    · exact h.addressed j u hu
  · intro j u hu hkey e he
    rcases hget hu with ⟨_, rfl⟩ | ⟨_, hu⟩
    · exact .inl ⟨now, rfl⟩
    · exact h.sound j u hu hkey e (hentity ▸ he)
  · rcases hseen with ⟨j, u, hu, hkey, hcarries⟩ | hq | hleaves
    · by_cases hj : j = id
      · rw [hj, ht] at hu
        cases hu
        unfold Task.Carries at hcarries
        rw [hs] at hcarries
        exact .inl ⟨id, _, hself, hkey, .inr ⟨hcarries, now, rfl⟩⟩
      · refine .inl ⟨j, u, ?_, hkey, hcarries⟩
        rw [hd]
        show (c.tasks.insert id _).get? j = _
        rw [Table.get?_insert, if_neg (Ne.symm hj)]
        exact hu
    · exact .inr (.inl (by rw [hd]; exact hq))
    · refine .inr (.inr fun e he => ?_)
      rw [hentity] at he
      rcases hleaves e he with ⟨j, u, hu, hkey, hholds, hcovers⟩ | ⟨hnobody, hfresh⟩
      · refine .inl ⟨j, u, ?_, hkey, hholds, hcovers⟩
        have hj : j ≠ id := by
          rintro rfl
          rw [ht] at hu
          cases hu
          rw [hs] at hholds
          exact nomatch hholds
        rw [hd]
        show (c.tasks.insert id _).get? j = _
        rw [Table.get?_insert, if_neg (Ne.symm hj)]
        exact hu
      · by_cases hkey : t.key = key
        · exact .inl ⟨id, _, hself, hkey, rfl, .inl ⟨⟨now, rfl⟩, hfresh⟩⟩
        · refine .inr ⟨fun j u hu hk => ?_, hfresh⟩
          rcases hget hu with ⟨_, rfl⟩ | ⟨_, hu⟩
          · exact absurd hk hkey
          · exact hnobody j u hu hk

theorem closed_not_holds (t : Task) (result : TaskResult) : (closed t result).holds = false := by
  unfold closed
  cases t.job <;> rfl

theorem closeLock_keeps {σ : Type} (c : Core σ) (k : EntityKey) (lock : Nat) :
    (c.closeLock k lock).store = c.store ∧ (c.closeLock k lock).queued = c.queued ∧
      (c.closeLock k lock).tasks = c.tasks := by
  unfold closeLock
  dsimp only
  split
  · split <;> exact ⟨rfl, rfl, rfl⟩
  · exact ⟨rfl, rfl, rfl⟩

section Step

variable (h : c.Steady settings key) (horderly : d.Orderly) (hended : d.Ended) {id : Nat} {t : Task}
  {stage : Stage} (ht : c.tasks.get? id = some t)
include h horderly hended ht

/-- A task that is not at work goes to a stage where it still is not. -/
theorem keeps_idle (hholds : t.stage.holds = false) (hholds' : stage.holds = false)
    (htasks : d.tasks = c.tasks.insert id { t with stage }) (hstore : d.store = c.store)
    (hqueued : d.queued = c.queued)
    (hcarry : ∀ name, t.Carries settings name → ({ t with stage } : Task).Carries settings name) :
    Keeps settings key c d := by
  have hd : Aside key c d id (some t) (some { t with stage }) := by
    refine ⟨?_, ?_, by rw [hstore], ?_, ?_, ?_⟩
    · rw [htasks]
      exact Table.changes_insert ht _
    · unfold entity?
      rw [hstore]
    · intro u hu _
      cases hu
      exact hholds
    · intro u hu _
      cases hu
      exact hholds'
    · intro u hu
      cases hu
      exact Task.addressed_of_not_holds hholds'
  refine keeps_aside h horderly hended hd (fun name u hu hk hcarries => ?_) fun name hq => ?_
  · cases hu
    exact .inl ⟨_, rfl, hk, hcarry name hcarries⟩
  · exact .inr (by rw [hqueued]; exact hq)

/-- A task that nothing depends on goes. -/
theorem keeps_depart (hholds : t.stage.holds = false) (hcarry : ∀ name, ¬ t.Carries settings name)
    (htasks : d.tasks = c.tasks.erase id) (hstore : d.store = c.store)
    (hqueued : d.queued = c.queued) : Keeps settings key c d := by
  have hd : Aside key c d id (some t) none := by
    refine ⟨?_, ?_, by rw [hstore], ?_, fun u hu => (nomatch hu), fun u hu => (nomatch hu)⟩
    · rw [htasks]
      exact Table.changes_erase ht
    · unfold entity?
      rw [hstore]
    · intro u hu _
      cases hu
      exact hholds
  refine keeps_aside h horderly hended hd (fun name u hu _ hcarries => ?_) fun name hq => ?_
  · cases hu
    exact absurd hcarries (hcarry name)
  · exact .inr (by rw [hqueued]; exact hq)

/-- A task at work moves on while its entity stays as it is. -/
theorem keeps_still (hholds : t.stage.holds = true)
    (htasks : d.tasks = c.tasks.insert id { t with stage })
    (htenants : d.store.tenants = c.store.tenants) (havailable : d.store.available = true)
    (hqueued : ∀ k, c.queued k ⊆ d.queued k) (haddressed : ({ t with stage } : Task).Addressed)
    (hnext : t.key = key → ∀ e, c.entity? key = some e → e.id = key.entity → e.NamesAgree →
      t.Sound settings e → ({ t with stage } : Task).Sound settings e ∧
      ∀ name, t.Carries settings name ∨ t.Covers settings e name →
        ({ t with stage } : Task).Covers settings e name ∨
          ({ t with stage } : Task).Carries settings name ∨ name ∈ d.queued key) :
    Keeps settings key c d := by
  have hentity := entity?_of_tenants htenants
  refine keeps_work h horderly hended ⟨ht, hholds, htasks, havailable⟩
    (fun k _ => congrFun hentity k) hqueued haddressed fun hk e he => ?_
  rw [hentity] at he
  obtain ⟨hid, hn⟩ := h.named e he
  obtain ⟨hsound, hnext⟩ := hnext hk e he hid hn (h.sound id t ht hk e he)
  exact ⟨e, he, hid, hn, hsound, hnext⟩

/-- A record is written. -/
theorem keeps_write {lock : Nat} {plan : Plan} {r : StateRecord} {rest : List StateRecord}
    {s : MemoryStore} (hs : t.stage = .writing lock plan (r :: rest))
    (hw : MemoryStore.store.write t.key.tenant r c.store = (.ok (), s))
    (hd : d = ({ c with store := s } : Core MemoryStore).setStage id t (.writing lock plan rest)) :
    Keeps settings key c d := by
  subst hd
  have haddressed := (h.addressed id t ht).writing hs
  obtain ⟨havailable, e, e', he, he', hwrote⟩ := MemoryStore.write_ok hw
  rw [haddressed r List.mem_cons_self] at he hwrote
  -- Other entities stay as they are, and the task covers the entity that the record has changed.
  refine keeps_work h horderly hended ⟨ht, by rw [hs]; rfl, rfl, havailable.trans h.available⟩
    (fun k hk => entity?_of_wrote hwrote hk) (fun _ _ hq => hq)
    (fun record hrecord => haddressed record (List.mem_cons_of_mem _ hrecord)) ?_
  rintro rfl x hx
  rw [show x = e' from Option.some.inj (hx.symm.trans hwrote.entity)]
  obtain ⟨hid, hn⟩ := h.named e he
  exact ⟨e, he, (Entity.withState_id he').1.trans hid, hn.withState he',
    (h.sound id t ht rfl e he).write hs he',
    fun name hmine => (Task.Covers.write hs he' hmine).imp_right .inl⟩

/-- The store refuses no record of the entity that a task is at work on. -/
theorem keeps_refuse {lock : Nat} {plan : Plan} {r : StateRecord} {rest : List StateRecord}
    {err : PassError} {s : MemoryStore} (hs : t.stage = .writing lock plan (r :: rest))
    (hw : MemoryStore.store.write t.key.tenant r c.store = (.error err, s))
    (hd : d = ({ c with store := s } : Core MemoryStore).setStage id t (.leaving lock (.error err))) :
    Keeps settings key c d := by
  subst hd
  obtain ⟨rfl, hrefused⟩ := MemoryStore.write_error hw
  refine keeps_still h horderly hended ht (by rw [hs]; rfl) rfl rfl h.available
    (fun _ _ hq => hq) trivial ?_
  rintro rfl e he _ _ hsound
  obtain ⟨e', he'⟩ := hsound.exists_withState hs
  have hrefused := hrefused h.available
  rw [(h.addressed id t ht).writing hs r List.mem_cons_self] at hrefused
  exact absurd he' (hrefused e he e')

/-- A notification queues its property. -/
theorem keeps_enqueue {lock : Nat} {mark : Option StateRecord} {property : String}
    (hs : t.stage = .writing lock (.enqueue mark) []) (hj : t.job = .notification property)
    (hd : d = (c.enqueue t.key property).setStage id t (.leaving lock (.ok none))) :
    Keeps settings key c d := by
  subst hd
  have hqueued (k : EntityKey) : c.queued k ⊆ (c.enqueue t.key property).queued k := by
    intro n hn
    show n ∈ Function.update c.queued t.key (insertAscending property (c.queued t.key)) k
    rw [Function.update_apply]
    split
    · rename_i hk
      exact mem_insertAscending.2 (.inr (hk ▸ hn))
    · exact hn
  refine keeps_still h horderly hended ht (by rw [hs]; rfl) rfl rfl h.available hqueued trivial ?_
  rintro rfl e _ _ _ _
  refine ⟨trivial, fun name hmine => ?_⟩
  unfold Task.Carries Task.Covers at hmine
  rw [hs] at hmine
  rcases hmine with hjob | hfresh
  · rw [hj] at hjob
    cases hjob
    refine .inr (.inr ?_)
    show property ∈ Function.update c.queued t.key (insertAscending property (c.queued t.key)) t.key
    rw [Function.update_self]
    exact mem_insertAscending.2 (.inl rfl)
  · exact .inl (hfresh not_false)

end Step

/-- Starting tasks keeps in order what is and seen to what is. -/
theorem Steady.issue (h : c.Steady settings key) (hissue : c.Issue d) : Keeps settings key c d := by
  have horderly := h.orderly.issue hissue
  have hended := h.ended.issue hissue
  cases hissue with
  | number fresh hle =>
    exact ⟨⟨horderly, hended, h.available, h.named, h.addressed, h.sound⟩, fun name hs => hs⟩
  | launch k actor batch =>
    -- The drain carries what it takes out of the queue.
    have hd : Aside key c (c.launch k actor batch) c.fresh none
        (some { key := k, job := .drain (c.queued k) actor batch }) := by
      refine ⟨Table.changes_insert h.orderly.get?_fresh _, rfl, rfl, fun u hu => (nomatch hu), ?_, ?_⟩
      · intro u hu _
        cases hu
        rfl
      · intro u hu
        cases hu
        trivial
    refine keeps_aside h horderly hended hd (fun name u hu => (nomatch hu)) fun name hq => ?_
    by_cases hk : k = key
    · subst hk
      exact .inl ⟨_, rfl, rfl, hq⟩
    · right
      show name ∈ Function.update c.queued k [] key
      rw [Function.update_of_ne (Ne.symm hk)]
      exact hq

/-- No pass whose results are being written ran out of levels. -/
def Suffices (c : Core MemoryStore) : Prop :=
  ∀ id t lock plan rest, c.tasks.get? id = some t → t.stage = .writing lock plan rest →
    ¬ plan.RanOut

/-- Every step keeps in order what is and seen to what is, as long as there are enough levels. -/
theorem Steady.step {engine : Engine MemoryStore} (hstore : engine.store = MemoryStore.store)
    (hb : engine.settings.recalc.mode = .batched) (h : c.Steady engine.settings key)
    (hlevels : c.Suffices) (hstep : c.Step engine d) : Keeps engine.settings key c d := by
  have horderly := h.orderly.step h.ended hstep
  have hended := h.ended.step hstep
  obtain ⟨store, settings, stamp⟩ := engine
  dsimp only at hstore hb h ⊢
  subst hstore
  cases hstep with
  | @forget id t result ht hs =>
    exact keeps_depart h horderly hended ht (by rw [hs]; rfl) (fun name hc => hc.at_stage hs) rfl rfl
      rfl
  | @land id t names actor batch result ht hs hj =>
    exact keeps_depart h horderly hended ht (by rw [hs]; rfl) (fun name hc => hc.at_stage hs) rfl rfl
      rfl
  | @join id t lock ht hs hl =>
    exact keeps_idle h horderly hended ht (by rw [hs]; rfl) rfl rfl rfl rfl
      fun name hc => show t.Concerns name from hc.at_stage hs
  | @make id t ht hs hl =>
    exact keeps_idle h horderly hended ht (by rw [hs]; rfl) rfl rfl rfl rfl
      fun name hc => show t.Concerns name from hc.at_stage hs
  | acquire ht hs hl resume now => exact keeps_acquire h horderly hended ht hs rfl
  | @fetch id t lock resume tenant ids next ht hs resume' =>
    obtain ⟨hanswer, htenants, havailable⟩ := MemoryStore.fetch_eq h.available tenant ids
    refine keeps_still h horderly hended ht (by rw [hs]; rfl) rfl htenants havailable
      (fun _ _ hq => hq) ((h.addressed id t ht).reading hs _ trivial) ?_
    rintro rfl e he hid hn hsound
    rw [hanswer]
    exact ⟨hsound.entities hb hid hn he hs, fun name hmine =>
      (Task.Covers.entities hb hid hn he hs hmine).imp_right .inl⟩
  | @relate id t lock resume tenant entity next ht hs =>
    obtain ⟨hanswered, htenants, havailable⟩ := MemoryStore.relationships_eq h.available tenant entity
    refine keeps_still h horderly hended ht (by rw [hs]; rfl) rfl htenants havailable
      (fun _ _ hq => hq) ((h.addressed id t ht).reading hs _ trivial) ?_
    intro _ e _ _ _ hsound
    exact ⟨hsound.relationships hs hanswered, fun name hmine =>
      (Task.Covers.relationships hs hanswered hmine).imp_right .inl⟩
  | @decide id t lock resume plan ht hs =>
    refine keeps_still h horderly hended ht (by rw [hs]; rfl) rfl rfl h.available
      (fun _ _ hq => hq) ((h.addressed id t ht).reading hs plan rfl) ?_
    intro _ e _ _ _ hsound
    exact ⟨hsound.decide hs, fun name hmine => (Task.Covers.decide hs hmine).imp_right .inl⟩
  | @abandon id t lock resume err ht hs =>
    refine keeps_still h horderly hended ht (by rw [hs]; rfl) rfl rfl h.available
      (fun _ _ hq => hq) trivial ?_
    intro _ e _ _ _ hsound
    exact (hsound.not_error hs).elim
  | write ht hs hw => exact keeps_write h horderly hended ht hs hw rfl
  | refuse ht hs hw => exact keeps_refuse h horderly hended ht hs hw rfl
  | enqueue ht hs hj => exact keeps_enqueue h horderly hended ht hs hj rfl
  | @settle id t lock plan ht hs hj =>
    refine keeps_still h horderly hended ht (by rw [hs]; rfl) rfl rfl h.available
      (fun _ _ hq => hq) trivial ?_
    intro _ e _ _ _ hsound
    exact ⟨trivial, fun name hmine =>
      .inl (Task.Covers.settle hs hj (hlevels id t lock plan [] ht hs) hsound hmine)⟩
  | @release id t lock result ht hs =>
    refine keeps_still h horderly hended ht (by rw [hs]; rfl) rfl rfl h.available
      (fun _ _ hq => hq) trivial ?_
    intro _ e _ _ _ _
    refine ⟨trivial, fun name hmine => ?_⟩
    unfold Task.Carries Task.Covers at hmine
    rw [hs] at hmine
    exact .inl (hmine.resolve_left fun h => h)
  | @close id t lock result ht hs =>
    obtain ⟨hstore, hqueued, htasks⟩ := closeLock_keeps c t.key lock
    refine keeps_idle h horderly hended ht (by rw [hs]; rfl) (closed_not_holds t result) ?_ hstore
      hqueued fun name hc => (hc.at_stage hs).elim
    show (c.closeLock t.key lock).tasks.insert id _ = _
    rw [htasks]

end Core

end EntityFormulas
