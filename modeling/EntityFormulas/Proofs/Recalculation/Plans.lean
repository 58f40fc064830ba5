/-
  EntityFormulas/Proofs/Recalculation/Plans.lean
  ==============================================
  **What tasks decide to do.**

  A task reads its entity first and then whatever its formulas need.  As long as
  the store answers it comes to a plan that fits the entity it has read
  (`decide_fits`): a notification queues its property unless there is nothing to
  compute, and the task of a drain makes a pass.
-/
import EntityFormulas.Proofs.Computation.Verdicts
import EntityFormulas.Recalculation.Task

namespace EntityFormulas

/-- In a store that answers, a pass over marked properties has an outcome. -/
theorem Entity.recompute_yields (settings : Settings) (now : String) (e : Entity)
    (names : List String) :
    ((e.markStale names).recompute settings now .stale).Always Answered (e.Outcome settings names) := by
  refine Lookup.Always.mono ?_ ((e.markStale names).recompute_grows settings now .stale)
  rintro o ⟨ctx, hgrows, rfl⟩
  refine ⟨now, ctx, hgrows.properties, ⟨hgrows.strict, ?_, ?_⟩, rfl⟩
  · rw [hgrows.entity]
  · rw [hgrows.entity]

/-! ### Plans -/

/-- The task makes a pass that runs out of levels. -/
def Plan.RanOut : Plan → Prop
  | .pass o _ => o.RanOut
  | _ => False

/-- There is nothing to compute: no computed property of that name, or one on a cycle. -/
def Entity.Exempt (e : Entity) (name : String) : Prop :=
  ∀ p, e.properties.get? name = some (.computed p) → p.status = .circular

theorem Entity.Exempt.fresh {e : Entity} {name : String} (h : e.Exempt name) (settings : Settings) :
    e.Fresh settings name := fun p hp hcircular => absurd (h p hp) hcircular

namespace Task

/-- What a task decides once it has read its entity. -/
def decide (settings : Settings) (now : String) (t : Task) (e : Entity) : Fetch Plan :=
  match t.job with
  | .notification property =>
    match e.property? property with
    | none => return .ignore
    | some p =>
      if p.status? = some .circular then return .skip
      else match settings.recalc.mode with
        | .batched =>
          let mark := StateRecord.statusOnly t.key.entity property .stale p.current
            settings.recalc.systemActor
          return .enqueue (if p.goesStale then some mark else none)
        | .eager => do
          let o ← ExceptT.lift ((e.markStale [property]).recompute settings now .stale)
          return .pass o settings.recalc.systemActor
  | .drain names actor _ => do
    let o ← ExceptT.lift ((e.markStale names).recompute settings now .stale)
    return .pass o actor

theorem plan_eq (settings : Settings) (now : String) (t : Task) :
    t.plan settings now =
      (do t.decide settings now (← Fetch.entity t.key.tenant t.key.entity)) := by
  unfold plan decide
  cases t.job with
  | notification property => rfl
  | drain names actor batch =>
    unfold EntityKey.drainPlan Request.compute
    dsimp only
    rw [bind_assoc]

/-- A plan that fits what a task is for and the entity that it has read. -/
def Fits (settings : Settings) (e : Entity) (t : Task) (plan : Plan) : Prop :=
  match t.job with
  | .notification property =>
    ((∀ mark, plan ≠ .enqueue mark) ∧ plan.records t.key.entity = [] ∧ e.Exempt property) ∨
      ∃ mark, plan = .enqueue mark ∧ ∀ r ∈ mark, r.property = property ∧
        ∃ p, e.properties.get? property = some p ∧ p.status?.isSome
  | .drain names actor _ => ∃ o, plan = .pass o actor ∧ e.Outcome settings names o

/-- In batched mode tasks come to plans that fit. -/
theorem decide_fits {settings : Settings} (hb : settings.recalc.mode = .batched) (now : String)
    (t : Task) (e : Entity) : (t.decide settings now e).Yields (t.Fits settings e) := by
  unfold decide Fits
  cases t.job with
  | drain names actor batch =>
    have hlift : Fetch.Yields (e.Outcome settings names)
        (ExceptT.lift ((e.markStale names).recompute settings now .stale)) := by
      apply Lookup.always_bind.2
      apply Lookup.Always.mono _ (e.recompute_yields settings now names)
      intro o ho
      exact ⟨o, rfl, ho⟩
    apply hlift.bind
    intro o ho
    exact Fetch.yields_pure ⟨o, rfl, ho⟩
  | notification property =>
    dsimp only
    split
    · rename_i hp
      apply Fetch.yields_pure
      refine .inl ⟨fun _ h => (nomatch h), rfl, fun p hp' => ?_⟩
      rw [show e.properties.get? property = none from hp] at hp'
      exact nomatch hp'
    · rename_i p hp
      have hp : e.properties.get? property = some p := hp
      split
      · rename_i hcircular
        apply Fetch.yields_pure
        refine .inl ⟨fun _ h => (nomatch h), rfl, fun q hq => ?_⟩
        rw [hp] at hq
        cases hq
        exact Option.some.inj hcircular
      · rw [hb]
        apply Fetch.yields_pure
        refine .inr ⟨_, rfl, fun r hr => ?_⟩
        split at hr
        · rename_i hstale
          cases hr
          refine ⟨rfl, p, hp, ?_⟩
          unfold Property.goesStale at hstale
          cases hs : p.status? with
          | none =>
            rw [hs] at hstale
            exact nomatch hstale
          | some s => rfl
        · exact nomatch hr

/-- All records of a task are about its own entity. -/
theorem decide_addressed {acceptable : {γ : Type} → Except StoreError γ → Prop} (settings : Settings)
    (now : String) (t : Task) (e : Entity) :
    Fetch.Always acceptable (fun plan => ∀ r ∈ plan.records t.key.entity, r.entity = t.key.entity)
      (t.decide settings now e) := by
  have hpass (o : Lookup PassOutcome) (actor : String) :
      Fetch.Always acceptable (fun plan => ∀ r ∈ plan.records t.key.entity, r.entity = t.key.entity)
        (do return .pass (← ExceptT.lift o) actor : Fetch Plan) := by
    apply Fetch.always_bind
    apply Lookup.always_of_forall
    intro r o _
    apply Fetch.always_pure
    intro record hrecord
    obtain ⟨x, _, rfl⟩ := List.mem_map.1 hrecord
    rfl
  unfold decide
  cases t.job with
  | drain names actor batch => exact hpass _ actor
  | notification property =>
    dsimp only
    split
    · exact Fetch.always_pure fun r hr => nomatch hr
    · split
      · exact Fetch.always_pure fun r hr => nomatch hr
      · split
        · apply Fetch.always_pure
          intro r hr
          have hr := Option.mem_toList.1 hr
          split at hr
          · cases hr
            rfl
          · exact nomatch hr
        · exact hpass _ _

theorem plan_addressed {acceptable : {γ : Type} → Except StoreError γ → Prop} (settings : Settings)
    (now : String) (t : Task) :
    Fetch.Always acceptable (fun plan => ∀ r ∈ plan.records t.key.entity, r.entity = t.key.entity)
      (t.plan settings now) := by
  rw [plan_eq]
  apply Fetch.always_bind
  apply Lookup.always_of_forall
  intro r e _
  exact t.decide_addressed settings now e

/-- A task asks for its entity first, and comes to an error if it does not find it. -/
theorem plan_run (settings : Settings) (now : String) (t : Task) :
    (t.plan settings now).run = .entities t.key.tenant [t.key.entity] fun r =>
      match r.bind (StoreError.pickEntity t.key.tenant t.key.entity) with
      | .ok e => (t.decide settings now e).run
      | .error err => .done (.error err) := by
  rw [plan_eq]
  refine congrArg (Lookup.entities t.key.tenant [t.key.entity]) (funext fun r => ?_)
  cases r with
  | error err => rfl
  | ok found =>
    show (liftExcept (StoreError.pickEntity t.key.tenant t.key.entity found) : Fetch Entity).run.bind
      (ExceptT.bindCont fun e => t.decide settings now e) = _
    dsimp only [Except.bind]
    cases StoreError.pickEntity t.key.tenant t.key.entity found with
    | error err => rfl
    | ok e => rfl

theorem exists_plan_run (settings : Settings) (now : String) (t : Task) :
    ∃ next, (t.plan settings now).run = .entities t.key.tenant [t.key.entity] next ∧
      ∀ e, e.id = t.key.entity → next (.ok [e]) = (t.decide settings now e).run := by
  refine ⟨_, t.plan_run settings now, fun e he => ?_⟩
  dsimp only [Except.bind]
  rw [StoreError.pickEntity_single he]

/-! ### What fitting plans write -/

variable {settings : Settings} {e : Entity} {t : Task} {plan : Plan}

theorem Fits.writable (hn : e.NamesAgree) (h : t.Fits settings e plan) :
    e.Writable (plan.records t.key.entity) := by
  unfold Fits at h
  split at h
  · rcases h with ⟨_, hrecords, _⟩ | ⟨mark, rfl, hmark⟩
    · rw [hrecords]
      exact fun r hr => absurd hr List.not_mem_nil
    · intro r hr
      obtain ⟨hproperty, hp⟩ := hmark r (Option.mem_toList.1 hr)
      rw [hproperty]
      exact hp
  · obtain ⟨o, rfl, ho⟩ := h
    exact Entity.writable_pass hn ho _ _

/-- A task keeps fresh what is, other than the property that it marks, and makes fresh what it is to
    drain, unless its pass runs out of levels. -/
theorem Fits.fresh (hn : e.NamesAgree) (h : t.Fits settings e plan) (hdeep : ¬ plan.RanOut)
    {name : String}
    (hname : match t.job with
      | .notification property => property ≠ name ∧ e.Fresh settings name
      | .drain names _ _ => name ∈ names ∨ e.Fresh settings name) :
    (e.written (plan.records t.key.entity)).Fresh settings name := by
  have hw := h.writable hn
  unfold Fits at h
  split at h
  · rename_i property hj
    rw [hj] at hname
    obtain ⟨hne, hfresh⟩ := hname
    rcases h with ⟨_, hrecords, _⟩ | ⟨mark, rfl, hmark⟩
    · rw [hrecords]
      exact hfresh
    · intro q hq
      obtain ⟨p, hp⟩ := Entity.computed_of_written hw hq
      have hother : ∀ r ∈ (Plan.enqueue mark).records t.key.entity, r.property = name → False := by
        intro r hr hrname
        exact hne ((hmark r (Option.mem_toList.1 hr)).1.symm.trans hrname)
      obtain ⟨q', hq', hfresh'⟩ := Entity.written_computed
        (P := ComputedProperty.FreshIn settings e) hw hp
        (fun r hr hrname => absurd hrname (hother r hr)) (.inl (hfresh p hp))
      rw [hq] at hq'
      cases hq'
      exact hfresh'.congr (Entity.sameGiven_written hw) rfl rfl rfl rfl
  · rename_i names actor batch hj
    rw [hj] at hname
    obtain ⟨o, rfl, ho⟩ := h
    exact Entity.fresh_written_pass hn ho _ _ hdeep hname

end Task

end EntityFormulas
