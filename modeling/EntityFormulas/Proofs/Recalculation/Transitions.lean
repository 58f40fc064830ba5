/-
  EntityFormulas/Proofs/Recalculation/Transitions.lean
  ====================================================
  **Stored statuses follow the table of allowed moves.**

  A store in memory writes any status that a record has.  That each record of a
  handler moves its property as `Status.canBecome` allows is due to the tasks: a
  mark is for what a pass has settled, a pass leaves out what lies on a cycle,
  and its verdicts may follow on every other status (`decide_lawful`).  What a
  task has read is still so when it writes, since nobody else works on the
  entity in the meantime, and its own records are about different properties
  (`Lawful`).

  Nothing is asked of the mode or of the store, which may stop answering and
  start again at any time.
-/
import EntityFormulas.Proofs.Computation.WriteBack
import EntityFormulas.Proofs.Recalculation.Exclusion

namespace EntityFormulas

open Relation (ReflTransGen)

/-! ### Statuses along a history -/

/-- The statuses of the derived properties of a tenant, by entity and name. -/
abbrev Statuses := String × String → Option Status

namespace Statuses

/-- The statuses after some records, if every one of them moves its property as is allowed. -/
def follow (st : Statuses) : List StateRecord → Option Statuses
  | [] => some st
  | r :: rest =>
    if (st (r.entity, r.property)).any (·.canBecome r.status) then
      follow (Function.update st (r.entity, r.property) (some r.status)) rest
    else none

variable {st st' : Statuses}

theorem follow_append (rs rs' : List StateRecord) :
    st.follow (rs ++ rs') = (st.follow rs).bind fun st => st.follow rs' := by
  induction rs generalizing st with
  | nil => rfl
  | cons r rest ih =>
    rw [List.cons_append, follow, follow]
    split
    · exact ih
    · rfl

/-- Nothing leaves a cycle. -/
theorem circular_of_follow {rs : List StateRecord} (h : st.follow rs = some st')
    {x : String × String} (hx : st x = some .circular) :
    st' x = some .circular ∧ ∀ r ∈ rs, (r.entity, r.property) ≠ x := by
  induction rs generalizing st with
  | nil =>
    cases h
    exact ⟨hx, fun r hr => absurd hr List.not_mem_nil⟩
  | cons r rest ih =>
    rw [follow] at h
    split at h
    · rename_i hallowed
      have hne : (r.entity, r.property) ≠ x := by
        rintro rfl
        rw [hx] at hallowed
        exact nomatch hallowed
      obtain ⟨hx', hrest⟩ := ih h (by rw [Function.update_of_ne hne.symm]; exact hx)
      refine ⟨hx', fun r' hr' => ?_⟩
      rcases List.mem_cons.1 hr' with rfl | hr'
      · exact hne
      · exact hrest r' hr'
    · exact nomatch h

end Statuses

namespace MemoryStore

/-- The statuses that a store has for a tenant. -/
def statuses (s : MemoryStore) (tenant : String) : Statuses := fun x =>
  ((s.get? tenant x.1).bind (·.property? x.2)).bind Property.status?

/-- What has been written from the one state to the other moves properties as is allowed. -/
def Progresses (s s' : MemoryStore) : Prop :=
  ∀ tenant, ∃ records, s'.history tenant = s.history tenant ++ records ∧
    (s.statuses tenant).follow records = some (s'.statuses tenant)

variable {s s' s'' : MemoryStore}

theorem Progresses.of_tenants (h : s'.tenants = s.tenants) : s.Progresses s' := by
  have htable : s'.table = s.table := by
    unfold table
    rw [h]
  intro tenant
  unfold history statuses get?
  rw [htable]
  exact ⟨[], (List.append_nil _).symm, rfl⟩

theorem Progresses.trans (h : s.Progresses s') (h' : s'.Progresses s'') : s.Progresses s'' := by
  intro tenant
  obtain ⟨rs, hhistory, hfollow⟩ := h tenant
  obtain ⟨rs', hhistory', hfollow'⟩ := h' tenant
  refine ⟨rs ++ rs', ?_, ?_⟩
  · rw [hhistory', hhistory, List.append_assoc]
  · rw [Statuses.follow_append, hfollow]
    exact hfollow'

end MemoryStore

/-! ### Records that an entity allows -/

/-- What a pass comes to may follow on everything that is not on a cycle. -/
theorem Status.canBecome_of_computed {before after : Status} (hb : before ≠ .circular)
    (ha : after.needsRecompute = false) : before.canBecome after = true := by
  cases after with
  | pending | stale => exact nomatch ha
  | valid | error | circular =>
    cases before with
    | circular => exact absurd rfl hb
    | pending | valid | stale | error => rfl

/-- The records are about different derived properties, each of which may move to the status of its
    record. -/
structure Entity.Allows (e : Entity) (rs : List StateRecord) : Prop where
  distinct : rs.Pairwise fun r r' => r.property ≠ r'.property
  allowed : ∀ r ∈ rs, ∃ p s, e.properties.get? r.property = some p ∧ p.status? = some s ∧
    s.canBecome r.status = true

namespace Entity

variable {e e' : Entity} {r : StateRecord} {rest : List StateRecord}

theorem allows_nil : e.Allows [] := ⟨.nil, fun _ hr => absurd hr List.not_mem_nil⟩

/-- The other records are about other properties. -/
theorem Allows.withState (h : e.Allows (r :: rest)) (hw : e.withState r = .ok e') :
    e'.Allows rest := by
  obtain ⟨hfirst, hrest⟩ := List.pairwise_cons.1 h.distinct
  refine ⟨hrest, fun r' hr' => ?_⟩
  obtain ⟨p, s, hp, hs⟩ := h.allowed r' (List.mem_cons_of_mem _ hr')
  exact ⟨p, s, by rw [get?_withState hw, if_neg (hfirst r' hr'), hp], hs⟩

theorem status?_withState (hw : e.withState r = .ok e') (name : String) :
    (e'.property? name).bind Property.status? =
      if r.property = name then some r.status else (e.property? name).bind Property.status? := by
  unfold property?
  rw [get?_withState hw]
  split
  · rename_i hname
    subst hname
    unfold withState property? at hw
    cases hp : e.properties.get? r.property with
    | none =>
      rw [hp] at hw
      exact nomatch hw
    | some p =>
      rw [hp] at hw
      cases p with
      | literal p => exact nomatch hw
      | measured p => exact nomatch hw
      | computed p => rfl
      | inherited p => rfl
  · rfl

/-- A mark is allowed for what goes stale. -/
theorem allows_mark {property : String} {p : Property} (hp : e.properties.get? property = some p)
    (hstale : p.goesStale = true) (hr : r.property = property) (hstatus : r.status = .stale) :
    e.Allows [r] := by
  refine ⟨List.pairwise_singleton _ _, fun r' hr' => ?_⟩
  rw [List.mem_singleton.1 hr', hr, hstatus]
  unfold Property.goesStale at hstale
  cases hs : p.status? with
  | none =>
    rw [hs] at hstale
    exact nomatch hstale
  | some s =>
    rw [hs] at hstale
    refine ⟨p, s, hp, hs, ?_⟩
    cases s with
    | valid | error => rfl
    | pending | stale | circular => exact nomatch hstale

/-- What a pass finds out is allowed for the entity as it is stored. -/
theorem Judged.allows {request : Request} {vs : List (String × Verdict)} {o : PassOutcome}
    (h : (request.prepare e).Judged request.scope vs o) (entity actor : String) :
    e.Allows (o.records entity actor) := by
  refine ⟨h.records_distinct entity actor, fun r hr => ?_⟩
  obtain ⟨v, p, hv, hp, hrecord⟩ := h.mem_records.1 hr
  obtain ⟨q, s, hq, hprepared, hs, hsel⟩ := h.exists_stored hv
  rw [hp] at hprepared
  cases hprepared
  have hcircular := Scope.ne_circular_of_selects hsel
  obtain ⟨s', hs', hcomputed⟩ := v.exists_applied_status hs hcircular
  have hstatus : r.status = s' := by
    rw [hrecord]
    show (v.applied (request.readied r.property q)).status?.getD .error = s'
    rw [hs']
    rfl
  have hstored : ∃ before, q.status? = some before ∧ before ≠ .circular := by
    rcases request.readied_eq q with hsame | ⟨-, hmarked⟩
    · exact ⟨s, hsame ▸ hs, hcircular⟩
    · rw [hmarked, q.status?_markStale] at hs
      obtain ⟨before, hbefore, rfl⟩ := Option.map_eq_some_iff.1 hs
      refine ⟨before, hbefore, ?_⟩
      rintro rfl
      exact hcircular rfl
  obtain ⟨before, hbefore, hne⟩ := hstored
  rw [hstatus]
  exact ⟨q, before, hq, hbefore, Status.canBecome_of_computed hne hcomputed⟩

end Entity

/-- Writing a record that an entity allows moves the property as is allowed. -/
theorem MemoryStore.Wrote.progresses {s s' : MemoryStore} {tenant id : String} {e e' : Entity}
    {r : StateRecord} {rest : List StateRecord} (hwrote : Wrote tenant id e' [r] s s')
    (he : s.get? tenant id = some e) (hid : r.entity = id) (he' : e.withState r = .ok e')
    (hallows : e.Allows (r :: rest)) : s.Progresses s' := by
  subst hid
  intro tenant'
  by_cases htenant : tenant' = tenant
  · subst htenant
    refine ⟨[r], hwrote.history, ?_⟩
    obtain ⟨p, before, hp, hbefore, hallowed⟩ := hallows.allowed r List.mem_cons_self
    have hstatus : s.statuses tenant' (r.entity, r.property) = some before := by
      unfold statuses
      rw [he]
      exact (congrArg (Option.bind · Property.status?) hp).trans hbefore
    rw [Statuses.follow, hstatus, Option.any_some, if_pos hallowed, Statuses.follow]
    congr 1
    funext ⟨entity, name⟩
    rw [Function.update_apply]
    unfold statuses
    dsimp only
    by_cases hentity : entity = r.entity
    · subst hentity
      rw [hwrote.entity, he, Option.bind_some, Option.bind_some, Entity.status?_withState he']
      by_cases hname : r.property = name
      · rw [if_pos (by rw [hname]), if_pos hname]
      · rw [if_neg fun heq => hname (Prod.mk.inj heq).2.symm, if_neg hname]
    · rw [if_neg fun heq => hentity (Prod.mk.inj heq).1,
        hwrote.others tenant' entity fun heq => hentity (Prod.mk.inj heq).2]
  · refine ⟨[], by rw [List.append_nil]; exact hwrote.histories tenant' htenant, ?_⟩
    rw [Statuses.follow]
    congr 1
    funext x
    unfold statuses
    rw [hwrote.others tenant' x.1 fun heq => htenant (Prod.mk.inj heq).1]

/-! ### Tasks -/

namespace Task

/-- What the task writes is allowed for its entity, if the task has read it. -/
def Lawful (settings : Settings) (e : Entity) (t : Task) : Prop :=
  match t.stage with
  | .reading _ _ program => (∃ now, program = (t.plan settings now).run) ∨
      program.Always (fun _ => True) fun r =>
        ∀ plan, r = .ok plan → e.Allows (plan.records t.key.entity)
  | .writing _ _ rest => e.Allows rest
  | _ => True

variable {settings : Settings} {e : Entity} {t : Task}

theorem lawful_of_not_holds (h : t.stage.holds = false) : t.Lawful settings e := by
  unfold Lawful
  cases hs : t.stage with
  | reading lock resume program =>
    rw [hs] at h
    exact nomatch h
  | writing lock plan rest =>
    rw [hs] at h
    exact nomatch h
  | _ => trivial

/-- Whatever the store answers, a task decides to do what is allowed. -/
theorem decide_lawful {acceptable : {γ : Type} → Except StoreError γ → Prop} (hn : e.NamesAgree)
    (now : String) : Fetch.Always acceptable (fun plan => e.Allows (plan.records t.key.entity))
      (t.decide settings now e) := by
  have hpass (names : List String) (actor : String) :
      Fetch.Always acceptable (fun plan => e.Allows (plan.records t.key.entity))
        (do return .pass (← ExceptT.lift ((e.markStale names).recompute settings now .stale)) actor :
          Fetch Plan) := by
    apply Fetch.always_bind
    apply Fetch.always_lift
    refine (Entity.recompute_judged (hn.markStale names) settings now .stale).mono ?_
    rintro o ⟨vs, ho⟩
    have hjudged : ((Request.marked names).prepare e).Judged (Request.marked names).scope vs o := ho
    exact Fetch.always_pure (hjudged.allows _ actor)
  unfold decide
  cases t.job with
  | drain names actor batch => exact hpass names actor
  | notification property =>
    dsimp only
    split
    · exact Fetch.always_pure Entity.allows_nil
    · rename_i p hp
      split
      · exact Fetch.always_pure Entity.allows_nil
      · split
        · apply Fetch.always_pure
          split
          · rename_i hstale
            exact Entity.allows_mark hp hstale rfl rfl
          · exact Entity.allows_nil
        · exact hpass [property] _

section Reading

variable {lock resume resume' : Nat} {tenant : String}

/-- A task reads its entity first, and what it reads then does not matter. -/
theorem Lawful.entities {ids : List String}
    {next : Except StoreError (List Entity) → Lookup (Except StoreError Plan)} {s : MemoryStore}
    (hn : e.NamesAgree) (he : s.get? t.key.tenant t.key.entity = some e)
    (hs : t.stage = .reading lock resume (.entities tenant ids next)) (h : t.Lawful settings e)
    {r : Except StoreError (List Entity)}
    (hr : ∀ found, r = .ok found → found = ids.filterMap (s.get? tenant)) :
    ({ t with stage := .reading lock resume' (next r) } : Task).Lawful settings e := by
  unfold Lawful at h ⊢
  rw [hs] at h
  rcases h with ⟨now, hinitial⟩ | halways
  · right
    rw [t.plan_run settings now] at hinitial
    cases hinitial
    dsimp only
    split
    · rename_i e' hpick
      cases r with
      | error err => exact nomatch hpick
      | ok found =>
        have hfound := hr found rfl
        rw [List.filterMap_cons_some he, List.filterMap_nil] at hfound
        subst hfound
        -- Another entity in the place of this one would not be found.
        have hsame : e' = e := by
          unfold Except.bind StoreError.pickEntity at hpick
          dsimp only at hpick
          split at hpick
          · rename_i x hx
            cases hpick
            exact List.mem_singleton.1 (List.mem_of_find?_eq_some hx)
          · exact nomatch hpick
        rw [hsame]
        exact decide_lawful hn now
    · exact fun plan hplan => nomatch hplan
  · exact .inr (halways _ trivial)

theorem Lawful.relationships {entity : String}
    {next : Except StoreError Relationships → Lookup (Except StoreError Plan)}
    (hs : t.stage = .reading lock resume (.relationships tenant entity next))
    (h : t.Lawful settings e) (r : Except StoreError Relationships) :
    ({ t with stage := .reading lock resume' (next r) } : Task).Lawful settings e := by
  unfold Lawful at h ⊢
  rw [hs] at h
  rcases h with hinitial | halways
  · obtain ⟨_, _, _, heq⟩ := exists_entities hinitial
    exact nomatch heq
  · exact .inr (halways r trivial)

theorem Lawful.decide {plan : Plan} (hs : t.stage = .reading lock resume (.done (.ok plan)))
    (h : t.Lawful settings e) :
    ({ t with stage := .writing lock plan (plan.records t.key.entity) } : Task).Lawful settings e := by
  unfold Lawful at h ⊢
  rw [hs] at h
  rcases h with hinitial | halways
  · obtain ⟨_, _, _, heq⟩ := exists_entities hinitial
    exact nomatch heq
  · exact halways plan rfl

theorem Lawful.writing {plan : Plan} {rest : List StateRecord}
    (hs : t.stage = .writing lock plan rest) (h : t.Lawful settings e) : e.Allows rest := by
  unfold Lawful at h
  rw [hs] at h
  exact h

end Reading

end Task

/-! ### What every handler keeps -/

namespace Core

/-- The books are in order, stored properties are under their names, and every task writes what is
    allowed, to its own entity. -/
structure Lawful (settings : Settings) (c : Core MemoryStore) : Prop where
  orderly : c.Orderly
  ended : c.Ended
  named : ∀ key e, c.entity? key = some e → e.NamesAgree
  addressed : ∀ id t, c.tasks.get? id = some t → t.Addressed
  lawful : ∀ id t, c.tasks.get? id = some t → ∀ e, c.entity? t.key = some e → t.Lawful settings e

variable {settings : Settings} {c d : Core MemoryStore}

section Still

variable (h : c.Lawful settings) (horderly : d.Orderly) (hended : d.Ended)
  (htenants : d.store.tenants = c.store.tenants)
include h horderly hended htenants

/-- No table changes, and a task that is new or has moved is lawful. -/
theorem Lawful.still (htasks : ∀ id t, d.tasks.get? id = some t → c.tasks.get? id = some t ∨
      t.Addressed ∧ ∀ e, c.entity? t.key = some e → t.Lawful settings e) : d.Lawful settings := by
  have hentity := entity?_of_tenants htenants
  refine ⟨horderly, hended, by rw [hentity]; exact h.named, fun id t ht => ?_, fun id t ht => ?_⟩
  · rcases htasks id t ht with ht | ⟨haddressed, -⟩
    · exact h.addressed id t ht
    · exact haddressed
  · rw [hentity]
    rcases htasks id t ht with ht | ⟨-, hlawful⟩
    · exact h.lawful id t ht
    · exact hlawful

/-- A task comes or moves to another stage. -/
theorem Lawful.insert {id : Nat} {t : Task} (htasks : d.tasks = c.tasks.insert id t)
    (haddressed : t.Addressed)
    (hlawful : ∀ e, c.entity? t.key = some e → t.Lawful settings e) : d.Lawful settings := by
  refine h.still horderly hended htenants fun j u hu => ?_
  rw [htasks, Table.get?_insert] at hu
  split at hu
  · cases hu
    exact .inr ⟨haddressed, hlawful⟩
  · exact .inl hu

/-- The task is not at work on its entity. -/
theorem Lawful.insert_idle {id : Nat} {t : Task} (htasks : d.tasks = c.tasks.insert id t)
    (hholds : t.stage.holds = false) : d.Lawful settings :=
  h.insert horderly hended htenants htasks (Task.addressed_of_not_holds hholds)
    fun _ _ => Task.lawful_of_not_holds hholds

theorem Lawful.depart {id : Nat} (htasks : d.tasks = c.tasks.erase id) : d.Lawful settings := by
  refine h.still horderly hended htenants fun j u hu => ?_
  rw [htasks, Table.get?_erase] at hu
  split at hu
  · cases hu
  · exact .inl hu

end Still

/-- A record is written. -/
theorem Lawful.write (h : c.Lawful settings) (horderly : d.Orderly) (hended : d.Ended) {id : Nat}
    {t : Task} {lock : Nat} {plan : Plan} {r : StateRecord} {rest : List StateRecord}
    {s : MemoryStore} (ht : c.tasks.get? id = some t)
    (hs : t.stage = .writing lock plan (r :: rest))
    (hw : MemoryStore.store.write t.key.tenant r c.store = (.ok (), s))
    (hd : d = ({ c with store := s } : Core MemoryStore).setStage id t (.writing lock plan rest)) :
    d.Lawful settings ∧ c.store.Progresses d.store := by
  subst hd
  have haddressed := (h.addressed id t ht).writing hs
  obtain ⟨-, e, e', he, he', hwrote⟩ := MemoryStore.write_ok hw
  rw [haddressed r List.mem_cons_self] at he hwrote
  have hallows := (h.lawful id t ht e he).writing hs
  have hother {key : EntityKey} (hkey : key ≠ t.key) :
      s.get? key.tenant key.entity = c.entity? key := entity?_of_wrote hwrote hkey
  refine ⟨⟨horderly, hended, fun key x hx => ?_, fun j u hu => ?_, fun j u hu x hx => ?_⟩,
    hwrote.progresses he (haddressed r List.mem_cons_self) he' hallows⟩
  · by_cases hkey : key = t.key
    · subst hkey
      rw [show x = e' from Option.some.inj (hx.symm.trans hwrote.entity)]
      exact (h.named _ e he).withState he'
    · exact h.named key x ((hother hkey).symm.trans hx)
  · rcases of_get?_setStage hu with ⟨-, rfl⟩ | ⟨-, hu⟩
    · exact fun record hrecord => haddressed record (List.mem_cons_of_mem _ hrecord)
    · exact h.addressed j u hu
  · rcases of_get?_setStage hu with ⟨-, rfl⟩ | ⟨hj, hu⟩
    · rw [show x = e' from Option.some.inj (hx.symm.trans hwrote.entity)]
      exact hallows.withState he'
    · by_cases hkey : u.key = t.key
      · -- Nobody else works on the entity.
        refine Task.lawful_of_not_holds ?_
        rw [← Bool.not_eq_true]
        intro hholds
        exact hj (h.orderly.exclusive hu ht hkey hholds (by rw [hs]; rfl))
      · exact h.lawful j u hu x ((hother hkey).symm.trans hx)

/-- Every step keeps tasks lawful, and what it writes moves properties as is allowed. -/
theorem Lawful.step {engine : Engine MemoryStore} (hstore : engine.store = MemoryStore.store)
    (h : c.Lawful engine.settings) (hstep : c.Step engine d) :
    d.Lawful engine.settings ∧ c.store.Progresses d.store := by
  have horderly := h.orderly.step h.ended hstep
  have hended := h.ended.step hstep
  obtain ⟨store, settings, stamp⟩ := engine
  dsimp only at hstore h ⊢
  subst hstore
  have still (htenants : d.store.tenants = c.store.tenants) (hlawful : d.Lawful settings) :
      d.Lawful settings ∧ c.store.Progresses d.store := ⟨hlawful, .of_tenants htenants⟩
  cases hstep with
  | write ht hs hw => exact h.write horderly hended ht hs hw rfl
  | forget | land => exact still rfl (h.depart horderly hended rfl rfl)
  | join | make | release => exact still rfl (h.insert_idle horderly hended rfl rfl rfl)
  | abandon | enqueue | settle =>
    exact still rfl (h.insert horderly hended rfl rfl trivial fun _ _ => trivial)
  | refuse ht hs hw =>
    obtain ⟨rfl, -⟩ := MemoryStore.write_error hw
    exact still rfl (h.insert horderly hended rfl rfl trivial fun _ _ => trivial)
  | @acquire id t lock handles ht hs hl resume now =>
    exact still rfl (h.insert horderly hended rfl rfl (t.plan_addressed settings now)
      fun _ _ => .inl ⟨now, rfl⟩)
  | @fetch id t lock resume tenant ids next ht hs resume' =>
    obtain ⟨htenants, hfound⟩ := c.store.fetch_found tenant ids
    refine still htenants (h.insert horderly hended htenants rfl
      ((h.addressed id t ht).reading hs _ trivial) fun e he => ?_)
    have he : c.entity? t.key = some e := he
    exact (h.lawful id t ht e he).entities (h.named _ e he) he hs hfound
  | @relate id t lock resume tenant entity next ht hs =>
    have htenants := c.store.relationships_tenants tenant entity
    exact still htenants (h.insert horderly hended htenants rfl
      ((h.addressed id t ht).reading hs _ trivial)
      fun e he => (h.lawful id t ht e he).relationships hs _)
  | @decide id t lock resume plan ht hs =>
    exact still rfl (h.insert horderly hended rfl rfl ((h.addressed id t ht).reading hs plan rfl)
      fun e he => (h.lawful id t ht e he).decide hs)
  | @close id t lock result ht hs =>
    obtain ⟨hstore, -, htasks⟩ := closeLock_keeps c t.key lock
    have htenants : (c.closeLock t.key lock).store.tenants = c.store.tenants := by rw [hstore]
    have hmoved : ((c.closeLock t.key lock).setStage id t (closed t result)).tasks =
        c.tasks.insert id { t with stage := closed t result } := by
      rw [← htasks]
      rfl
    exact still htenants (h.insert_idle horderly hended htenants hmoved (closed_not_holds t result))

theorem Lawful.notify (h : c.Lawful settings) (n : Notification) : (c.notify n).Lawful settings :=
  h.insert_idle (h.orderly.notify n) (h.ended.arrive (d := c.notify n) rfl rfl) rfl rfl rfl

theorem Lawful.issues (h : c.Lawful settings) (hissues : ReflTransGen Core.Issue c d) :
    d.Lawful settings ∧ d.store = c.store := by
  induction hissues with
  | refl => exact ⟨h, rfl⟩
  | @tail b d' _ hissue ih =>
    obtain ⟨hlawful, hsame⟩ := ih
    have horderly := hlawful.orderly.issue hissue
    have hended := hlawful.ended.issue hissue
    cases hissue with
    | number fresh hle =>
      exact ⟨hlawful.still horderly hended rfl fun _ _ ht => .inl ht, hsame⟩
    | launch key actor batch => exact ⟨hlawful.insert_idle horderly hended rfl rfl rfl, hsame⟩

end Core

/-! ### Runs -/

namespace Handler

/-- The states that a handler comes to while nobody else writes to its store.  The store may become
    unavailable and available, and answer faster or slower. -/
inductive Alone (engine : Engine MemoryStore) (h : Handler MemoryStore) :
    Handler MemoryStore → Prop where
  | refl : Alone engine h h
  | step {h' h'' : Handler MemoryStore} (a : Action) (hrun : Alone engine h h')
    (hstep : h'.step engine a = some h'') : Alone engine h h''
  | outage {h' : Handler MemoryStore} (store : MemoryStore) (hrun : Alone engine h h')
    (htenants : store.tenants = h'.store.tenants) : Alone engine h { h' with store }

variable {engine : Engine MemoryStore} {s : MemoryStore} {h h' : Handler MemoryStore}

theorem Reaches.alone (hr : Reaches engine h h') : Alone engine h h' := by
  induction hr with
  | refl => exact .refl
  | step a _ hstep ih => exact .step a ih hstep

theorem Alone.progresses (hstore : engine.store = MemoryStore.store) (hr : Alone engine h h')
    (hlawful : h.core.Lawful engine.settings) :
    h'.core.Lawful engine.settings ∧ h.store.Progresses h'.store := by
  induction hr with
  | refl => exact ⟨hlawful, .of_tenants rfl⟩
  | @step h₁ h₂ a _ hstep ih =>
    obtain ⟨hlawful, hprogress⟩ := ih
    have still {d : Core MemoryStore} (hd : d.Lawful engine.settings ∧ d.store = h₁.store) :
        d.Lawful engine.settings ∧ h.store.Progresses d.store :=
      ⟨hd.1, by rw [hd.2]; exact hprogress⟩
    rcases h₁.step_core engine hstep with ⟨n, -, hcore⟩ | ⟨-, hissues | hstep⟩
    · exact still (by rw [hcore]; exact ⟨hlawful.notify n, rfl⟩)
    · exact still (hlawful.issues hissues)
    · obtain ⟨hlawful', hprogress'⟩ := hlawful.step hstore hstep
      exact ⟨hlawful', hprogress.trans hprogress'⟩
  | @outage h₁ store _ htenants ih =>
    obtain ⟨hlawful, hprogress⟩ := ih
    refine ⟨hlawful.still (d := { h₁.core with store }) ?_ hlawful.ended htenants
      fun _ _ ht => .inl ht, hprogress.trans (.of_tenants htenants)⟩
    exact hlawful.orderly.withStore store h₁.core.queued

theorem lawful_start (settings settings' : Settings)
    (hnamed : ∀ tenant id e, s.get? tenant id = some e → e.NamesAgree) :
    (start settings' s).core.Lawful settings := by
  refine ⟨.start settings' s, .start settings' s, ?_, ?_, ?_⟩ <;> rw [core_start]
  · exact fun key => hnamed key.tenant key.entity
  · exact fun _ _ ht => (nomatch ht)
  · exact fun _ _ ht => (nomatch ht)

/-- From any moment to any later one, each record that a handler writes moves its property as is
    allowed from the status that it has by then, and a property on a cycle is not written any
    more. -/
theorem Alone.follows (hstore : engine.store = MemoryStore.store)
    (hnamed : ∀ tenant id e, s.get? tenant id = some e → e.NamesAgree)
    (hr : Alone engine (start engine.settings s) h) (hr' : Alone engine h h') (tenant : String) :
    ∃ records, h'.store.history tenant = h.store.history tenant ++ records ∧
      (h.store.statuses tenant).follow records = some (h'.store.statuses tenant) ∧
      ∀ entity property, h.store.statuses tenant (entity, property) = some .circular →
        h'.store.statuses tenant (entity, property) = some .circular ∧
        ∀ r ∈ records, (r.entity, r.property) ≠ (entity, property) := by
  obtain ⟨hlawful, -⟩ := hr.progresses hstore (lawful_start engine.settings engine.settings hnamed)
  obtain ⟨records, hhistory, hfollow⟩ := (hr'.progresses hstore hlawful).2 tenant
  exact ⟨records, hhistory, hfollow, fun _ _ hx => Statuses.circular_of_follow hfollow hx⟩

/-! ### A property that is computed twice -/

/-- An entity that repeats a literal and has a property on a cycle. -/
def guarded : Entity := echoing.withProperty
  (.computed { name := "z", expression := "#z", status := .circular })

/-- The first computation of the property: a notification, and a drain. -/
def settling : List Action :=
  [.notify ⟨guarded.key, "y"⟩] ++ List.replicate 7 (.task 0) ++
    [.begin (.flush none "user"), .call 2] ++ List.replicate 9 (.task 4)

/-- Both properties are notified, and what is queued is drained. -/
def revisiting : List Action :=
  [.notify ⟨guarded.key, "y"⟩, .notify ⟨guarded.key, "z"⟩] ++ List.replicate 8 (.task 6) ++
    List.replicate 7 (.task 7) ++ [.begin (.flush none "user"), .call 10] ++
    List.replicate 9 (.task 12)

theorem guarded_follows : ∃ h h' records,
    Alone plainEngine (start plainEngine.settings (MemoryStore.insert {} guarded)) h ∧
      Alone plainEngine h h' ∧
      h'.store.history guarded.tenant = h.store.history guarded.tenant ++ records ∧
      (h.store.statuses guarded.tenant).follow records = some (h'.store.statuses guarded.tenant) ∧
      records.map (fun r => (r.property, r.status)) = [("y", .stale), ("y", .valid)] ∧
      h.store.statuses guarded.tenant (guarded.id, "z") = some .circular ∧
      h'.store.statuses guarded.tenant (guarded.id, "z") = some .circular := by
  have hacts : ((acts plainEngine settling
      (start plainEngine.settings (MemoryStore.insert {} guarded))).bind fun h =>
        (acts plainEngine revisiting h).map (h, ·)).any (fun (h, h') =>
          ((h'.store.history guarded.tenant).drop (h.store.history guarded.tenant).length).map
              (fun r => (r.property, r.status)) = [("y", .stale), ("y", .valid)] ∧
            h.store.statuses guarded.tenant (guarded.id, "z") = some .circular) = true := by
    decide +kernel
  obtain ⟨⟨h, h'⟩, hruns, hboth⟩ := (Option.any_eq_true ..).1 hacts
  obtain ⟨h₁, hsettled, hrevisited⟩ := Option.bind_eq_some_iff.1 hruns
  obtain ⟨h₂, hrevisited, heq⟩ := Option.map_eq_some_iff.1 hrevisited
  cases heq
  obtain ⟨hmoves, hcircular⟩ := of_decide_eq_true hboth
  have hr : Alone plainEngine (start plainEngine.settings (MemoryStore.insert {} guarded)) h :=
    ((Reaches.refl _).acts hsettled).alone
  have hr' : Alone plainEngine h h' := ((Reaches.refl _).acts hrevisited).alone
  have hnamed (tenant id : String) (e : Entity)
      (he : (MemoryStore.insert {} guarded).get? tenant id = some e) : e.NamesAgree := by
    rw [MemoryStore.get?_insert] at he
    split at he
    · cases he
      exact Entity.namesAgree_iff.2 (by decide +kernel)
    · exact nomatch he
  obtain ⟨records, hhistory, hfollow, hstays⟩ := hr.follows rfl hnamed hr' guarded.tenant
  rw [hhistory, List.drop_left] at hmoves
  exact ⟨h, h', records, hr, hr', hhistory, hfollow, hmoves, hcircular,
    (hstays guarded.id "z" hcircular).1⟩

end Handler

end EntityFormulas
