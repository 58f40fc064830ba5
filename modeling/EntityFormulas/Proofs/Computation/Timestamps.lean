/-
  EntityFormulas/Proofs/Computation/Timestamps.lean
  =================================================
  **Nothing depends on times on record.**

  A pass puts the time of a successful evaluation on record and never looks at
  one.  So it commutes with any change of timestamps (`restamp`): a pass at
  another time over a store with other timestamps does the same, with the
  timestamps changed in the same way (`MemoryStore.recompute_restamp`).

  A lookup only says how it goes on with an answer, so `Lookup.Restamps` compares
  two lookups call by call, the second one getting the answers with the changed
  timestamps.
-/
import EntityFormulas.Proofs.Evaluation.Agreement
import EntityFormulas.Proofs.Store.Operations

namespace EntityFormulas

variable (f : String → String)

/-! ### Changed timestamps -/

def ComputedProperty.restamp (p : ComputedProperty) : ComputedProperty :=
  { p with cachedAt := p.cachedAt.map f }

def Property.restamp : Property → Property
  | .computed p => .computed (p.restamp f)
  | p => p

def Entity.restamp (e : Entity) : Entity :=
  { e with properties := e.properties.map fun _ => Property.restamp f }

def StateRecord.restamp (r : StateRecord) : StateRecord :=
  { r with evaluatedAt := r.evaluatedAt.map f }

def TenantTable.restamp (t : TenantTable) : TenantTable where
  entities := t.entities.map fun _ => Entity.restamp f
  relationships := t.relationships
  history := t.history.map (StateRecord.restamp f)

def MemoryStore.restamp (s : MemoryStore) : MemoryStore :=
  { s with tenants := s.tenants.map fun _ => TenantTable.restamp f }

def PropertyResult.restamp (r : PropertyResult) : PropertyResult :=
  { r with evaluatedAt := r.evaluatedAt.map f }

def PassOutcome.restamp (o : PassOutcome) : PassOutcome where
  properties := o.properties.map fun _ => Property.restamp f
  results := o.results.map (PropertyResult.restamp f)

def Verdict.restamp : Verdict → Verdict
  | .valid value time => .valid value (f time)
  | v => v

def EvaluationContext.restamp (ctx : EvaluationContext) : EvaluationContext :=
  { ctx with
    entity := ctx.entity.restamp f
    properties := ctx.properties.map fun _ => Property.restamp f
    entities := ctx.entities.map fun _ => Entity.restamp f }

/-! ### Maps -/

namespace Dict

variable {α β : Type}

theorem map_insert (g : α → β) (d : Dict α) (key : String) (a : α) :
    (d.insert key a).map (fun _ => g) = (d.map fun _ => g).insert key (g a) := by
  refine ext_get? fun k => ?_
  rw [get?_map, get?_insert, get?_insert, get?_map]
  split
  · rfl
  · rfl

theorem map_modify (g : α → β) (d : Dict α) (key : String) {h : α → α} {h' : β → β}
    (hh : ∀ a, h' (g a) = g (h a)) :
    (d.modify key h).map (fun _ => g) = (d.map fun _ => g).modify key h' := by
  refine ext_get? fun k => ?_
  rw [get?_map, get?_modify, get?_modify, get?_map, get?_map]
  split
  · cases d.get? key with
    | none => rfl
    | some a => exact congrArg some (hh a).symm
  · rfl

theorem contains_map (g : α → β) (d : Dict α) (key : String) :
    (d.map fun _ => g).contains key = d.contains key := by
  unfold contains
  rw [get?_map, Option.isSome_map]

theorem values_map (g : α → β) (d : Dict α) : (d.map fun _ => g).values = d.values.map g := by
  unfold values map
  rw [List.map_map, List.map_map]
  rfl

end Dict

/-! ### Properties -/

theorem ComputedProperty.restamp_marks (p : ComputedProperty) :
    (∀ value time, (p.restamp f).markValid value (f time) =
      (p.markValid value time).map (ComputedProperty.restamp f)) ∧
    (∀ m, (p.restamp f).markError m = (p.markError m).map (ComputedProperty.restamp f)) ∧
    ∀ m, (p.restamp f).markCircular m = (p.markCircular m).map (ComputedProperty.restamp f) := by
  have hstatus : (p.restamp f).status = p.status := rfl
  refine ⟨fun value time => ?_, fun m => ?_, fun m => ?_⟩
  · unfold markValid
    rw [hstatus]
    cases p.status.become .valid <;> rfl
  · unfold markError
    rw [hstatus]
    cases p.status.become .error <;> rfl
  · unfold markCircular
    rw [hstatus]
    cases p.status.become .circular <;> rfl

namespace Property

theorem restamp_views (p : Property) : (p.restamp f).current = p.current ∧
    (p.restamp f).status? = p.status? ∧ (p.restamp f).asInherited? = p.asInherited? ∧
    (p.restamp f).asComputed? = p.asComputed?.map (ComputedProperty.restamp f) := by
  cases p <;> exact ⟨rfl, rfl, rfl, rfl⟩

theorem restamp_current (p : Property) : (p.restamp f).current = p.current := (p.restamp_views f).1

theorem restamp_markStale (p : Property) : (p.restamp f).markStale = p.markStale.restamp f := by
  cases p <;> rfl

theorem restamp_withState (r : StateRecord) (p : Property) :
    (p.restamp f).withState (r.restamp f) = (p.withState r).map (Property.restamp f) := by
  cases p with
  | computed p =>
    have htime : (r.evaluatedAt.map f).or (p.cachedAt.map f) =
        (r.evaluatedAt.or p.cachedAt).map f := Option.map_or.symm
    show some (Property.computed _) = some (Property.computed _)
    rw [show (r.restamp f).evaluatedAt.or (p.restamp f).cachedAt = _ from htime]
    rfl
  | inherited p => rfl
  | literal p => rfl
  | measured p => rfl

theorem restamp_moved (v : Verdict) (p : Property) :
    (v.restamp f).moved (p.restamp f) = (v.moved p).map (Property.restamp f) := by
  cases p with
  | literal p => cases v <;> rfl
  | measured p => cases v <;> rfl
  | inherited p =>
    have hsame (x : Except InvalidTransition InheritedProperty) :
        x.map Property.inherited = (x.map Property.inherited).map (Property.restamp f) := by
      cases x <;> rfl
    cases v <;> exact hsame _
  | computed p =>
    have hmap (x : Except InvalidTransition ComputedProperty) :
        (x.map (ComputedProperty.restamp f)).map Property.computed =
          (x.map Property.computed).map (Property.restamp f) := by
      cases x <;> rfl
    obtain ⟨hvalid, herror, hcircular⟩ := p.restamp_marks f
    cases v with
    | valid value time => exact (congrArg _ (hvalid value time)).trans (hmap _)
    | failed m => exact (congrArg _ (herror m)).trans (hmap _)
    | circular m => exact (congrArg _ (hcircular m)).trans (hmap _)

theorem restamp_applied (v : Verdict) (p : Property) :
    (v.restamp f).applied (p.restamp f) = (v.applied p).restamp f := by
  unfold Verdict.applied
  rw [restamp_moved]
  cases v.moved p <;> rfl

end Property

/-! ### Entities -/

namespace Entity

theorem property?_restamp (e : Entity) (name : String) :
    (e.restamp f).property? name = (e.property? name).map (Property.restamp f) :=
  Dict.get?_map ..

theorem inherited_restamp (e : Entity) : (e.restamp f).inherited = e.inherited := by
  unfold inherited restamp
  rw [Dict.values_map, List.filterMap_map]
  congr 1
  funext p
  exact (p.restamp_views f).2.2.1

theorem computed_restamp (e : Entity) :
    (e.restamp f).computed = e.computed.map (ComputedProperty.restamp f) := by
  unfold computed restamp
  rw [Dict.values_map, List.filterMap_map, List.map_filterMap]
  congr 1
  funext p
  exact (p.restamp_views f).2.2.2

theorem markStale_restamp (e : Entity) (names : List String) :
    (e.restamp f).markStale names = (e.markStale names).restamp f := by
  have hfold (ps : Dict Property) :
      names.foldl (fun ps name => ps.modify name Property.markStale)
        (ps.map fun _ => Property.restamp f) =
      (names.foldl (fun ps name => ps.modify name Property.markStale) ps).map
        fun _ => Property.restamp f := by
    induction names generalizing ps with
    | nil => rfl
    | cons name rest ih =>
      rw [List.foldl_cons, List.foldl_cons,
        ← Dict.map_modify _ _ _ (Property.restamp_markStale f), ih]
  unfold markStale restamp
  dsimp only
  rw [hfold]

theorem withState_restamp (r : StateRecord) (e : Entity) :
    (e.restamp f).withState (r.restamp f) = (e.withState r).map (Entity.restamp f) := by
  have hname : (r.restamp f).property = r.property := rfl
  unfold withState
  rw [property?_restamp, hname]
  cases e.property? r.property with
  | none => rfl
  | some p =>
    dsimp only [Option.map_some]
    rw [Property.restamp_withState]
    cases p.withState r with
    | none => rfl
    | some p' =>
      have hinsert := Dict.map_insert (Property.restamp f) e.properties r.property p'
      show Except.ok _ = Except.ok _
      congr 1
      unfold restamp
      dsimp only
      rw [hinsert]
      rfl

end Entity

/-! ### Lookups -/

/-- The second lookup makes the same calls as the first one, and where it gets the answers with
    changed timestamps it ends with the changed result. -/
inductive Lookup.Restamps {α β : Type} (g : α → β) : Lookup α → Lookup β → Prop where
  | done (a : α) : Restamps g (.done a) (.done (g a))
  | entities {tenant : String} {ids : List String}
    {next : Except StoreError (List Entity) → Lookup α}
    {next' : Except StoreError (List Entity) → Lookup β}
    (h : ∀ r, Restamps g (next r) (next' (r.map (List.map (Entity.restamp f))))) :
    Restamps g (.entities tenant ids next) (.entities tenant ids next')
  | relationships {tenant id : String} {next : Except StoreError Relationships → Lookup α}
    {next' : Except StoreError Relationships → Lookup β} (h : ∀ r, Restamps g (next r) (next' r)) :
    Restamps g (.relationships tenant id next) (.relationships tenant id next')

theorem Lookup.Restamps.bind {α β γ δ : Type} {g : α → β} {g' : γ → δ} {m : Lookup α}
    {m' : Lookup β} (hm : m.Restamps f g m') {k : α → Lookup γ} {k' : β → Lookup δ}
    (hk : ∀ a, (k a).Restamps f g' (k' (g a))) : (m.bind k).Restamps f g' (m'.bind k') := by
  induction hm with
  | done a => exact hk a
  | entities _ ih => exact .entities ih
  | relationships _ ih => exact .relationships ih

/-- Two lookups that a failed call ends are compared by their results. -/
def Fetch.Restamps {α β : Type} (g : α → β) (m : Fetch α) (m' : Fetch β) : Prop :=
  m.run.Restamps f (Except.map g) m'.run

namespace Fetch

variable {f} {α β γ δ : Type} {g : α → β} {g' : γ → δ}

theorem restamps_pure (a : α) : Restamps f g (pure a : Fetch α) (pure (g a)) :=
  Lookup.Restamps.done (Except.ok a)

theorem Restamps.bind {m : Fetch α} {m' : Fetch β} (hm : Restamps f g m m') {k : α → Fetch γ}
    {k' : β → Fetch δ} (hk : ∀ a, Restamps f g' (k a) (k' (g a))) :
    Restamps f g' (m >>= k) (m' >>= k') := by
  refine Lookup.Restamps.bind f hm fun r => ?_
  cases r with
  | ok a => exact hk a
  | error e => exact Lookup.Restamps.done (Except.error e)

theorem restamps_lift {m : Lookup α} {m' : Lookup β} (h : m.Restamps f g m') :
    Restamps f g (ExceptT.lift m) (ExceptT.lift m') :=
  Lookup.Restamps.bind f h fun a => Lookup.Restamps.done (Except.ok a)

theorem restamps_entities (tenant : String) (ids : List String) :
    Restamps f (List.map (Entity.restamp f)) (entities tenant ids) (entities tenant ids) :=
  .entities fun r => .done r

theorem restamps_relationships (tenant id : String) :
    Restamps f (fun r : Relationships => r) (relationships tenant id) (relationships tenant id) :=
  .relationships fun r => by cases r <;> exact .done _

theorem restamps_entity (tenant id : String) :
    Restamps f (Entity.restamp f) (entity tenant id) (entity tenant id) := by
  refine (restamps_entities tenant [id]).bind fun found => ?_
  have hfind : (found.map (Entity.restamp f)).find? (fun e => e.id = id) =
      (found.find? fun e => e.id = id).map (Entity.restamp f) := List.find?_map
  unfold StoreError.pickEntity
  rw [hfind]
  cases found.find? fun e => e.id = id with
  | none => exact .done _
  | some e => exact restamps_pure e

end Fetch

/-! ### Contexts -/

namespace EvaluationContext

variable (ctx : EvaluationContext)

theorem entity?_restamp (id : String) :
    (ctx.restamp f).entity? id = (ctx.entity? id).map (Entity.restamp f) := by
  unfold entity?
  rw [show (ctx.restamp f).entity.id = ctx.entity.id from rfl]
  split
  · rfl
  · exact Dict.get?_map ..

theorem hasProperty_restamp (id name : String) :
    (ctx.restamp f).hasProperty id name = ctx.hasProperty id name := by
  unfold hasProperty
  rw [entity?_restamp]
  cases ctx.entity? id with
  | none => rfl
  | some e => exact Dict.contains_map ..

theorem stepTargets_restamp (id step : String) :
    (ctx.restamp f).stepTargets id step = ctx.stepTargets id step := by
  have hcurrent : (((ctx.restamp f).entity? id).bind (·.property? step)).bind Property.current =
      ((ctx.entity? id).bind (·.property? step)).bind Property.current := by
    rw [entity?_restamp]
    cases ctx.entity? id with
    | none => rfl
    | some e =>
      show ((e.restamp f).property? step).bind Property.current = _
      rw [Entity.property?_restamp]
      cases hp : e.property? step with
      | none => simp [hp]
      | some p => simp [hp, Property.restamp_current]
  unfold stepTargets
  rw [hcurrent]
  rfl

theorem missing_restamp (ids : List String) : (ctx.restamp f).missing ids = ctx.missing ids := by
  unfold missing
  congr 1
  funext id
  rw [entity?_restamp, Option.isNone_map]

theorem foldl_withEntity_restamp (found : List Entity) :
    (found.map (Entity.restamp f)).foldl withEntity (ctx.restamp f) =
      (found.foldl withEntity ctx).restamp f := by
  induction found generalizing ctx with
  | nil => rfl
  | cons e rest ih =>
    have hfirst : (ctx.restamp f).withEntity (e.restamp f) = (ctx.withEntity e).restamp f := by
      unfold withEntity restamp
      dsimp only
      rw [Dict.map_insert]
      rfl
    rw [List.map_cons, List.foldl_cons, List.foldl_cons, hfirst, ih]

theorem restamps_fetchMissing (ids : List String) :
    Fetch.Restamps f (restamp f) (ctx.fetchMissing ids) ((ctx.restamp f).fetchMissing ids) := by
  unfold fetchMissing
  rw [missing_restamp]
  cases ctx.missing ids with
  | nil => exact Fetch.restamps_pure ctx
  | cons id rest =>
    refine (Fetch.restamps_entities ctx.entity.tenant (id :: rest)).bind fun found => ?_
    rw [foldl_withEntity_restamp]
    exact Fetch.restamps_pure _

theorem restamps_fetchRelationships (ids : List String) :
    Fetch.Restamps f (restamp f) (ctx.fetchRelationships ids)
      ((ctx.restamp f).fetchRelationships ids) := by
  induction ids generalizing ctx with
  | nil => exact Fetch.restamps_pure ctx
  | cons id rest ih =>
    refine (Fetch.restamps_relationships ctx.entity.tenant id).bind fun r => ?_
    have hwith : (ctx.restamp f).withRelationships id r =
        (ctx.withRelationships id r).restamp f := by
      unfold withRelationships
      split <;> rfl
    rw [hwith]
    exact ih _

end EvaluationContext

namespace Trail

theorem unowned_restamp (ctx : EvaluationContext) : unowned (ctx.restamp f) = unowned ctx := by
  funext t
  unfold unowned
  simp only [EvaluationContext.hasProperty_restamp]

theorem reached_restamp (ctx : EvaluationContext) : reached (ctx.restamp f) = reached ctx := by
  funext t
  unfold reached
  simp only [EvaluationContext.stepTargets_restamp]

theorem advance?_restamp (ctx : EvaluationContext) : advance? (ctx.restamp f) = advance? ctx := by
  funext t
  unfold advance?
  rw [reached_restamp]

theorem ends_restamp (ctx : EvaluationContext) : ends (ctx.restamp f) = ends ctx := by
  funext t
  unfold ends
  rw [reached_restamp]

theorem start?_restamp (e : Entity) : start? (e.restamp f) = start? e := by
  funext t
  unfold start?
  have hvalue (name : String) : ((e.restamp f).property? name).bind Property.current =
      (e.property? name).bind Property.current := by
    rw [Entity.property?_restamp]
    cases e.property? name with
    | none => rfl
    | some p => exact p.restamp_current f
  simp only [hvalue]
  rfl

theorem restamps_follow (depth : Nat) (asked tail : List String) (trails : List Trail)
    (ctx : EvaluationContext) :
    Fetch.Restamps f (EvaluationContext.restamp f) (follow depth asked tail trails ctx)
      (follow depth asked tail trails (ctx.restamp f)) := by
  induction depth generalizing asked tail trails ctx with
  | zero => exact ctx.restamps_fetchMissing f _
  | succ depth ih =>
    cases trails with
    | nil => exact ctx.restamps_fetchMissing f _
    | cons t rest =>
      unfold follow
      refine (ctx.restamps_fetchMissing f _).bind fun ctx => ?_
      rw [unowned_restamp]
      refine (ctx.restamps_fetchRelationships f _).bind fun ctx => ?_
      rw [ends_restamp, advance?_restamp]
      exact ih _ _ _ _

end Trail

theorem EvaluationContext.restamps_gather (settings : Settings) (e : Entity)
    (formulas : List Expression) :
    Fetch.Restamps f (restamp f) (gather settings e formulas)
      (gather settings (e.restamp f) formulas) := by
  have hdirect : (e.restamp f).directIds formulas = e.directIds formulas := by
    unfold Entity.directIds
    rw [Entity.inherited_restamp]
  unfold gather
  rw [hdirect, Trail.start?_restamp]
  exact ((ofEntity settings e).restamps_fetchMissing f _).bind fun ctx =>
    Trail.restamps_follow f _ _ _ _ ctx

/-! ### Evaluation -/

namespace EvaluationContext

open Evaluation

variable (ctx : EvaluationContext)

theorem restamp_alike : (ctx.restamp f).Alike ctx := ⟨rfl, rfl, rfl⟩

theorem current_restamp (name : String) :
    ((ctx.restamp f).properties.get? name).map Property.current =
      (ctx.properties.get? name).map Property.current := by
  show ((ctx.properties.map fun _ => Property.restamp f).get? name).map _ = _
  rw [Dict.get?_map, Option.map_map]
  congr 1
  funext p
  exact p.restamp_current f

section Reads

variable {m : Type → Type} [Monad m] [MonadExceptOf EvalError m]

theorem entityRef_restamp (id : String) :
    (entityRef (ctx.restamp f) id : m _) = entityRef ctx id := by
  unfold entityRef
  rw [entity?_restamp]
  cases ctx.entity? id with
  | none => rfl
  | some e => rfl

theorem entityMember_restamp (own : String → m (Option Value)) (id name : String) :
    entityMember own (ctx.restamp f) id name = entityMember own ctx id name := by
  have hhas : (ctx.restamp f).hasOwnProperty name = ctx.hasOwnProperty name := by
    unfold hasOwnProperty
    rw [contains_congr (ctx.current_restamp f name)]
    rfl
  have hother : ((ctx.restamp f).entities.get? id).bind (·.property? name) =
      ((ctx.entities.get? id).bind (·.property? name)).map (Property.restamp f) := by
    show ((ctx.entities.map fun _ => Entity.restamp f).get? id).bind _ = _
    rw [Dict.get?_map]
    cases ctx.entities.get? id with
    | none => rfl
    | some e => exact e.property?_restamp f name
  unfold entityMember
  rw [hhas, hother]
  cases (ctx.entities.get? id).bind (·.property? name) with
  | none => rfl
  | some p =>
    dsimp only [Option.map_some]
    rw [Property.restamp_current]
    rfl

theorem level_restamp [LawfulMonad m] (ev : Expression → m (Option Value))
    (own : String → m (Option Value)) (e : Expression) :
    level ev (contextReads own (ctx.restamp f)) (ctx.restamp f) e =
      level ev (contextReads own ctx) ctx e :=
  (Simulation.equality m).level (ctx.restamp_alike f) e (fun _ _ => rfl) (fun _ _ => rfl)
    (fun id _ => ctx.entityRef_restamp f id)
    fun _ name _ _ _ id _ => ctx.entityMember_restamp f own id name

end Reads

theorem ownProperty_restamp (ev : Expression → Eval (Option Value)) :
    Eval.ownProperty ev (ctx.restamp f) = Eval.ownProperty ev ctx := by
  funext name s
  rcases Eval.ownProperty_cases ev (ctx.restamp f) name s with ⟨r, hr, heq⟩ | ⟨hr, hmem, heq⟩ |
    ⟨hr, hmem, hp, heq⟩ | ⟨e, hr, hmem, hp, heq⟩
  · rw [heq, Eval.ownProperty_resolved hr]
  · rw [heq, Eval.ownProperty_inProgress hr hmem]
  · have hp' : ctx.pending.get? name = none := hp
    rw [heq, Eval.ownProperty_stored hr hmem hp',
      storedProperty_congr (ctx.restamp_alike f) (ctx.current_restamp f name)]
  · have hp' : ctx.pending.get? name = some e := hp
    rw [heq, Eval.ownProperty_pending hr hmem hp']

theorem evaluateWithin_restamp (left : Nat) :
    Eval.evaluateWithin (ctx.restamp f) left = Eval.evaluateWithin ctx left := by
  induction left with
  | zero => rfl
  | succ left ih =>
    funext e
    rw [Eval.evaluateWithin_succ, Eval.evaluateWithin_succ, ih, ownProperty_restamp, level_restamp]

theorem property_restamp (name : String) :
    Eval.property (ctx.restamp f) name = Eval.property ctx name := by
  funext s
  rw [Eval.property_eq, Eval.property_eq, evaluateWithin_restamp, ownProperty_restamp]
  rfl

end EvaluationContext

/-! ### Passes -/

namespace Verdict

theorem ofAnswer_restamp (now name : String) (a : EvalResult) :
    ofAnswer (f now) name a = (ofAnswer now name a).restamp f := by
  cases a with
  | ok v => rfl
  | error e =>
    unfold ofAnswer
    dsimp only
    split <;> rfl

theorem ofSource_restamp (now : String) (ctx : EvaluationContext) (p : InheritedProperty) :
    ofSource (f now) (ctx.restamp f) p = (ofSource now ctx p).restamp f := by
  unfold ofSource
  cases p.override with
  | some v => rfl
  | none =>
    dsimp only
    rw [EvaluationContext.entity?_restamp]
    cases ctx.entity? p.source with
    | none => rfl
    | some e =>
      dsimp only [Option.map_some]
      rw [Entity.property?_restamp]
      cases e.property? p.sourceProperty with
      | none => rfl
      | some q =>
        dsimp only [Option.map_some]
        rw [Property.restamp_current]
        rfl

theorem result_restamp (name : String) (v : Verdict) (after : Option Property) :
    (v.restamp f).result name (after.map (Property.restamp f)) =
      (v.result name after).restamp f := by
  have hstatus : (after.map (Property.restamp f)).bind Property.status? =
      after.bind Property.status? := by
    cases after with
    | none => rfl
    | some p => exact (p.restamp_views f).2.1
  have hcurrent : (after.map (Property.restamp f)).bind Property.current =
      after.bind Property.current := by
    cases after with
    | none => rfl
    | some p => exact p.restamp_current f
  have herror : (v.restamp f).error? = v.error? := by cases v <;> rfl
  have htime : (v.restamp f).time? = v.time?.map f := by cases v <;> rfl
  unfold result PropertyResult.restamp
  dsimp only
  rw [hstatus, hcurrent, herror, htime]
  split <;> rfl

end Verdict

namespace PassOutcome

variable (o : PassOutcome)

theorem conclude_restamp (name : String) (v : Verdict) :
    (o.restamp f).conclude name (v.restamp f) = (o.conclude name v).restamp f := by
  have hproperties : (o.restamp f).properties.modify name (v.restamp f).applied =
      (o.properties.modify name v.applied).map fun _ => Property.restamp f :=
    (Dict.map_modify _ _ _ (Property.restamp_applied f v)).symm
  unfold conclude
  rw [hproperties]
  show PassOutcome.mk _ _ = PassOutcome.mk _ _
  congr 1
  show o.results.map _ ++ [_] = (o.results ++ [_]).map _
  rw [Dict.get?_map, Verdict.result_restamp, List.map_append]
  rfl

theorem inOrder_restamp : (o.restamp f).inOrder = o.inOrder.restamp f := by
  have hsort := List.map_mergeSort (r := fun a b : PropertyResult => decide (a.name ≤ b.name))
    (s := fun a b : PropertyResult => decide (a.name ≤ b.name)) (f := PropertyResult.restamp f)
    (l := o.results) fun a _ b _ => rfl
  unfold inOrder restamp
  dsimp only
  rw [hsort]

theorem records_restamp (entity actor : String) :
    (o.restamp f).records entity actor = (o.records entity actor).map (StateRecord.restamp f) := by
  have hvalue (name : String) : ((o.restamp f).properties.get? name).bind Property.current =
      (o.properties.get? name).bind Property.current := by
    show ((o.properties.map fun _ => Property.restamp f).get? name).bind _ = _
    rw [Dict.get?_map]
    cases o.properties.get? name with
    | none => rfl
    | some p => exact p.restamp_current f
  unfold records
  show (o.results.map (PropertyResult.restamp f)).map _ = _
  rw [List.map_map, List.map_map]
  refine List.map_congr_left fun r _ => ?_
  show StateRecord.mk _ _ _ _ _ _ _ = StateRecord.mk _ _ _ _ _ _ _
  rw [show (PropertyResult.restamp f r).name = r.name from rfl, hvalue]
  rfl

end PassOutcome

namespace Selection

/-- The selection with changed timestamps. -/
def restamp (s : Selection) : Selection :=
  { s with computed := s.computed.map (ComputedProperty.restamp f) }

theorem ofEntity_restamp (scope : Scope) (e : Entity) :
    ofEntity scope (e.restamp f) = (ofEntity scope e).restamp f := by
  unfold ofEntity restamp
  rw [Entity.computed_restamp, Entity.inherited_restamp, List.filter_map]
  rfl

variable (s : Selection) (now : String)

theorem isEmpty_restamp : (s.restamp f).isEmpty = s.isEmpty := by
  unfold isEmpty restamp
  rw [List.isEmpty_map]

theorem formulas_restamp : (s.restamp f).formulas = s.formulas := by
  unfold formulas restamp
  rw [List.map_map]
  rfl

theorem pending_restamp : (s.restamp f).pending = s.pending := by
  unfold pending
  rw [formulas_restamp]

theorem resolve_restamp (ps : List InheritedProperty) (ctx : EvaluationContext) (o : PassOutcome) :
    resolve (f now) ps (ctx.restamp f) (o.restamp f) =
      ((resolve now ps ctx o).1.restamp f, (resolve now ps ctx o).2.restamp f) := by
  induction ps generalizing ctx o with
  | nil => rfl
  | cons p rest ih =>
    unfold resolve
    dsimp only
    rw [Verdict.ofSource_restamp, PassOutcome.conclude_restamp]
    have hget : ((o.conclude p.name (.ofSource now ctx p)).restamp f).properties.get? p.name =
        ((o.conclude p.name (.ofSource now ctx p)).properties.get? p.name).map
          (Property.restamp f) := Dict.get?_map ..
    rw [hget]
    cases (o.conclude p.name (.ofSource now ctx p)).properties.get? p.name with
    | none => exact ih ctx _
    | some q =>
      have hinsert := Dict.map_insert (Property.restamp f) ctx.properties p.name q
      exact (congrArg (fun properties => resolve (f now) rest { ctx.restamp f with properties } _)
        hinsert.symm).trans (ih { ctx with properties := ctx.properties.insert p.name q } _)

theorem evaluate_restamp (ctx : EvaluationContext)
    (formulas : List (String × Except ParseError Expression)) (st : EvalState) (o : PassOutcome) :
    evaluate (f now) (ctx.restamp f) formulas st (o.restamp f) =
      (evaluate now ctx formulas st o).restamp f := by
  induction formulas generalizing st o with
  | nil => rfl
  | cons entry rest ih =>
    obtain ⟨name, formula⟩ := entry
    cases formula with
    | error e =>
      unfold evaluate
      rw [← ih, ← PassOutcome.conclude_restamp]
      rfl
    | ok e =>
      unfold evaluate
      rw [EvaluationContext.property_restamp]
      obtain ⟨answer, st'⟩ := Eval.property ctx name st
      dsimp only
      rw [← ih, ← PassOutcome.conclude_restamp, Verdict.ofAnswer_restamp]

theorem compute_restamp (ctx : EvaluationContext) (o : PassOutcome) :
    (s.restamp f).compute (f now) (ctx.restamp f) (o.restamp f) =
      (s.compute now ctx o).restamp f := by
  have hresolve := resolve_restamp f now s.inherited { ctx with pending := s.pending } o
  unfold compute
  dsimp only
  rw [pending_restamp, formulas_restamp, ← evaluate_restamp]
  exact congrArg (fun x => evaluate (f now) x.1 s.formulas.entries {} x.2) hresolve

theorem failed_restamp (message : String) (o : PassOutcome) :
    (s.restamp f).failed message (o.restamp f) = (s.failed message o).restamp f := by
  have hnames : (s.restamp f).computed.map ComputedProperty.name =
      s.computed.map ComputedProperty.name := List.map_map
  have hinherited : (s.restamp f).inherited = s.inherited := rfl
  unfold failed
  rw [hnames, hinherited]
  dsimp only
  generalize s.computed.map ComputedProperty.name ++ s.inherited.map InheritedProperty.name = names
  induction names generalizing o with
  | nil => rfl
  | cons name rest ih =>
    rw [List.foldl_cons, List.foldl_cons, ← ih, ← PassOutcome.conclude_restamp]
    rfl

end Selection

theorem Entity.restamps_recompute (settings : Settings) (now : String) (scope : Scope)
    (e : Entity) : (e.recompute settings now scope).Restamps f (PassOutcome.restamp f)
      ((e.restamp f).recompute settings (f now) scope) := by
  unfold recompute
  dsimp only
  rw [Selection.ofEntity_restamp, Selection.isEmpty_restamp, Selection.pending_restamp]
  split
  · exact .done _
  · refine Lookup.Restamps.bind f (EvaluationContext.restamps_gather f settings e _)
      fun gathered => ?_
    cases gathered with
    | ok ctx =>
      have hend := Selection.compute_restamp f (Selection.ofEntity scope e) now ctx
        ⟨e.properties, []⟩
      have horder := (congrArg PassOutcome.inOrder hend).trans (PassOutcome.inOrder_restamp f _)
      exact (congrArg (Lookup.Restamps f (PassOutcome.restamp f) _ ∘ pure) horder).mpr (.done _)
    | error err =>
      have hend := Selection.failed_restamp f (Selection.ofEntity scope e) err.message
        ⟨e.properties, []⟩
      have horder := (congrArg PassOutcome.inOrder hend).trans (PassOutcome.inOrder_restamp f _)
      exact (congrArg (Lookup.Restamps f (PassOutcome.restamp f) _ ∘ pure) horder).mpr (.done _)

theorem Request.restamps_compute (settings : Settings) (now tenant entity : String)
    (request : Request) : Fetch.Restamps f (PassOutcome.restamp f)
      (request.compute settings now tenant entity)
      (request.compute settings (f now) tenant entity) := by
  refine (Fetch.restamps_entity tenant entity).bind fun e => ?_
  cases request with
  | asStored scope => exact Fetch.restamps_lift (e.restamps_recompute f settings now scope)
  | marked names =>
    dsimp only
    rw [Entity.markStale_restamp]
    exact Fetch.restamps_lift ((e.markStale names).restamps_recompute f settings now .stale)

/-! ### Stores -/

namespace MemoryStore

variable (s : MemoryStore) (tenant : String)

theorem table_restamp : (s.restamp f).table tenant = (s.table tenant).restamp f := by
  show ((s.tenants.map fun _ => TenantTable.restamp f).get? tenant).getD {} = _
  unfold table
  rw [Dict.get?_map]
  cases s.tenants.get? tenant with
  | none => rfl
  | some t => rfl

theorem history_restamp :
    (s.restamp f).history tenant = (s.history tenant).map (StateRecord.restamp f) :=
  congrArg TenantTable.history (table_restamp f s tenant)

theorem get?_restamp (id : String) :
    (s.restamp f).get? tenant id = (s.get? tenant id).map (Entity.restamp f) := by
  unfold get?
  rw [table_restamp]
  exact Dict.get?_map ..

theorem fetch_restamp (ids : List String) : fetch tenant ids (s.restamp f) =
    ((s.fetch tenant ids).1.map (List.map (Entity.restamp f)),
      (s.fetch tenant ids).2.restamp f) := by
  have htable : ((s.table tenant).restamp f).fetch ids =
      ((s.table tenant).fetch ids).map (Entity.restamp f) := by
    unfold TenantTable.fetch
    rw [List.map_filterMap]
    exact congrArg (List.filterMap · ids) (funext fun id => Dict.get?_map ..)
  have havailable : (s.restamp f).available = s.available := rfl
  unfold fetch
  rw [havailable, table_restamp, htable]
  split <;> rfl

theorem fetchRelationships_restamp (id : String) : fetchRelationships tenant id (s.restamp f) =
    ((s.fetchRelationships tenant id).1, (s.fetchRelationships tenant id).2.restamp f) := by
  have havailable : (s.restamp f).available = s.available := rfl
  unfold fetchRelationships
  rw [havailable, table_restamp]
  split <;> rfl

theorem insert_restamp (e : Entity) :
    (s.restamp f).insert (e.restamp f) = (s.insert e).restamp f := by
  have htable : ((s.table e.tenant).restamp f).insert (e.restamp f) =
      ((s.table e.tenant).insert e).restamp f := by
    unfold TenantTable.insert TenantTable.restamp
    dsimp only
    rw [Dict.map_insert]
    rfl
  unfold insert
  rw [show (e.restamp f).tenant = e.tenant from rfl, table_restamp, htable]
  unfold restamp
  dsimp only
  rw [Dict.map_insert]

theorem relate_restamp (source type target : String) :
    (s.restamp f).relate tenant source type target =
      (s.relate tenant source type target).restamp f := by
  unfold relate
  rw [table_restamp]
  unfold restamp
  dsimp only
  rw [Dict.map_insert]
  rfl

theorem persist_restamp (r : StateRecord) : persist tenant (r.restamp f) (s.restamp f) =
    ((s.persist tenant r).1, (s.persist tenant r).2.restamp f) := by
  have htable : ((s.table tenant).restamp f).persist tenant (r.restamp f) =
      ((s.table tenant).persist tenant r).map (TenantTable.restamp f) := by
    unfold TenantTable.persist
    rw [show ((s.table tenant).restamp f).entities.get? (r.restamp f).entity =
      ((s.table tenant).entities.get? r.entity).map (Entity.restamp f) from Dict.get?_map ..]
    cases (s.table tenant).entities.get? r.entity with
    | none => rfl
    | some e =>
      dsimp only [Option.map_some]
      rw [Entity.withState_restamp]
      cases e.withState r with
      | error err => rfl
      | ok e' =>
        show Except.ok _ = Except.ok _
        congr 1
        unfold TenantTable.restamp
        dsimp only
        rw [Dict.map_insert, List.map_append]
        rfl
  have havailable : (s.restamp f).available = s.available := rfl
  unfold persist
  rw [havailable, table_restamp, htable]
  split
  · cases (s.table tenant).persist tenant r with
    | error err => rfl
    | ok t =>
      dsimp only [Except.map]
      unfold restamp
      dsimp only
      rw [Dict.map_insert]
  · rfl

variable {f} in
theorem run_restamp {α β : Type} {g : α → β} {m : Lookup α} {m' : Lookup β}
    (h : m.Restamps f g m') : m'.run store (s.restamp f) =
      (g (m.run store s).1, (m.run store s).2.restamp f) := by
  induction h generalizing s with
  | done a => rfl
  | @entities tenant ids next next' _ ih =>
    have hfetch := s.fetch_restamp f tenant ids
    unfold Lookup.run
    exact (congrArg (fun x => (next' x.1).run store x.2) hfetch).trans (ih _ _)
  | @relationships tenant id next next' _ ih =>
    have hfetch := s.fetchRelationships_restamp f tenant id
    unfold Lookup.run
    exact (congrArg (fun x => (next' x.1).run store x.2) hfetch).trans (ih _ _)

theorem writeAll_restamp (rs : List StateRecord) :
    store.writeAll tenant (rs.map (StateRecord.restamp f)) (s.restamp f) =
      ((store.writeAll tenant rs s).1, (store.writeAll tenant rs s).2.restamp f) := by
  induction rs generalizing s with
  | nil => rfl
  | cons r rest ih =>
    have hwrite : store.write tenant (r.restamp f) (s.restamp f) =
        ((store.write tenant r s).1, (store.write tenant r s).2.restamp f) := by
      have hpersist := s.persist_restamp f tenant r
      exact congrArg (fun x => (x.1.mapError (PassError.persist r.entity r.property), x.2)) hpersist
    rw [List.map_cons]
    unfold EntityStore.writeAll
    rw [hwrite]
    obtain ⟨answer, s'⟩ := store.write tenant r s
    cases answer with
    | error err => rfl
    | ok _ => exact ih s'

/-- A pass at another time over a store with other timestamps does the same up to timestamps. -/
theorem recompute_restamp (settings : Settings) (now entity actor : String) (request : Request) :
    store.recompute settings (f now) tenant entity actor request (s.restamp f) =
      ((store.recompute settings now tenant entity actor request s).1.map (PassOutcome.restamp f),
        (store.recompute settings now tenant entity actor request s).2.restamp f) := by
  have hrun := s.run_restamp (request.restamps_compute f settings now tenant entity)
  unfold EntityStore.recompute
  rw [hrun]
  obtain ⟨answer, s'⟩ := (request.compute settings now tenant entity).run.run store s
  cases answer with
  | error err => rfl
  | ok o =>
    dsimp only [Except.map]
    rw [PassOutcome.records_restamp, writeAll_restamp]
    obtain ⟨written, s''⟩ := store.writeAll tenant (o.records entity actor) s'
    cases written with
    | error err => rfl
    | ok _ => rfl

end MemoryStore

end EntityFormulas
