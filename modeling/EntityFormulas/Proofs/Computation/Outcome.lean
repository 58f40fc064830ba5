/-
  EntityFormulas/Proofs/Computation/Outcome.lean
  ==============================================
  **What a pass leaves behind.**

  A pass is a list of verdicts, those on inherited properties first, that are
  applied one after another (`compute_eq`).  Where properties stand under their
  own names no two verdicts are about the same property, so each property moves
  by its own verdict and the others stay (`compute_computed`,
  `compute_inherited`, `compute_unselected`).
-/
import EntityFormulas.Computation.Pass

namespace EntityFormulas

/-! ### Derived properties by name -/

namespace Entity

theorem mem_computed_iff {e : Entity} {p : ComputedProperty} :
    p ∈ e.computed ↔ ∃ name, e.properties.get? name = some (.computed p) := by
  constructor
  · intro h
    obtain ⟨q, hq, hp⟩ := List.mem_filterMap.1 h
    obtain ⟨name, hname⟩ := Dict.mem_values_iff.1 hq
    cases q with
    | computed q =>
      cases hp
      exact ⟨name, hname⟩
    | _ => exact nomatch hp
  · intro ⟨name, h⟩
    exact List.mem_filterMap.2 ⟨_, Dict.mem_values_iff.2 ⟨name, h⟩, rfl⟩

theorem mem_inherited_iff {e : Entity} {p : InheritedProperty} :
    p ∈ e.inherited ↔ ∃ name, e.properties.get? name = some (.inherited p) := by
  constructor
  · intro h
    obtain ⟨q, hq, hp⟩ := List.mem_filterMap.1 h
    obtain ⟨name, hname⟩ := Dict.mem_values_iff.1 hq
    cases q with
    | inherited q =>
      cases hp
      exact ⟨name, hname⟩
    | _ => exact nomatch hp
  · intro ⟨name, h⟩
    exact List.mem_filterMap.2 ⟨_, Dict.mem_values_iff.2 ⟨name, h⟩, rfl⟩

theorem namesAgree_iff {e : Entity} :
    e.NamesAgree ↔ ∀ x ∈ e.properties.entries, x.2.name = x.1 :=
  ⟨fun h x hx => h x.1 x.2 (Dict.mem_entries_iff.1 hx),
    fun h name p hp => h (name, p) (Dict.mem_entries_iff.2 hp)⟩

namespace NamesAgree

variable {e : Entity} (h : e.NamesAgree)
include h

theorem computed_iff {p : ComputedProperty} :
    p ∈ e.computed ↔ e.properties.get? p.name = some (.computed p) := by
  rw [mem_computed_iff]
  constructor
  · intro ⟨name, hname⟩
    have hn : p.name = name := h name _ hname
    exact hn ▸ hname
  · exact fun hp => ⟨p.name, hp⟩

theorem inherited_iff {p : InheritedProperty} :
    p ∈ e.inherited ↔ e.properties.get? p.name = some (.inherited p) := by
  rw [mem_inherited_iff]
  constructor
  · intro ⟨name, hname⟩
    have hn : p.name = name := h name _ hname
    exact hn ▸ hname
  · exact fun hp => ⟨p.name, hp⟩

/-- The names of properties of a kind ascend with the names they stand under. -/
theorem ascending_filterMap {α : Type} {kind : Property → Option α} {name : α → String}
    (hkind : ∀ p a, kind p = some a → name a = p.name) :
    (e.properties.values.filterMap kind).Pairwise fun a b => name a < name b := by
  unfold Dict.values
  rw [List.filterMap_map, List.pairwise_filterMap]
  refine List.Pairwise.imp_of_mem (fun {x y} hx hy hlt a ha b hb => ?_) e.properties.ascending
  have hname := namesAgree_iff.1 h
  rw [hkind x.2 a ha, hkind y.2 b hb, hname x hx, hname y hy]
  exact hlt

theorem computed_ascending : e.computed.Pairwise fun p q => p.name < q.name := by
  refine h.ascending_filterMap fun p q hq => ?_
  cases p with
  | computed p =>
    cases hq
    rfl
  | _ => exact nomatch hq

theorem inherited_ascending : e.inherited.Pairwise fun p q => p.name < q.name := by
  refine h.ascending_filterMap fun p q hq => ?_
  cases p with
  | inherited p =>
    cases hq
    rfl
  | _ => exact nomatch hq

end NamesAgree

end Entity

/-! ### Moves of properties -/

/-- The property reports that evaluation ran out of levels. -/
def ComputedProperty.RanOut (p : ComputedProperty) : Prop :=
  ∃ limit, p.error = some (EvalError.depthExceeded limit).message

namespace Scope

theorem selects_all_iff {s : Status} : Scope.all.selects s = true ↔ s ≠ .circular := by
  cases s <;> decide

theorem ne_circular_of_selects {scope : Scope} {s : Status} (h : scope.selects s = true) :
    s ≠ .circular := by
  rintro rfl
  cases scope <;> exact nomatch h

end Scope

namespace Verdict

section Computed

variable {p : ComputedProperty} (h : p.status ≠ .circular)
include h

theorem valid_applied (v : Option Value) (t : String) :
    (valid v t).applied (.computed p) =
      .computed { p with status := .valid, cached := v, cachedAt := some t, error := none } := by
  obtain ⟨name, expression, dependencies, cached, cachedAt, status, error⟩ := p
  cases status with
  | circular => exact absurd rfl h
  | _ => rfl

theorem failed_applied (m : String) :
    (failed m).applied (.computed p) = .computed { p with status := .error, error := some m } := by
  obtain ⟨name, expression, dependencies, cached, cachedAt, status, error⟩ := p
  cases status with
  | circular => exact absurd rfl h
  | _ => rfl

theorem circular_applied (m : String) :
    (circular m).applied (.computed p) =
      .computed { p with status := .circular, error := some m } := by
  obtain ⟨name, expression, dependencies, cached, cachedAt, status, error⟩ := p
  cases status with
  | circular => exact absurd rfl h
  | _ => rfl

/-- A property becomes circular by an answer that reports it as a member of a cycle. -/
theorem ofAnswer_applied_status_iff (now name : String) (r : EvalResult) :
    ((ofAnswer now name r).applied (.computed p)).status? = some .circular ↔
      ∃ e, r = .error e ∧ e.isCycleMember name = true := by
  cases r with
  | ok v =>
    rw [ofAnswer, valid_applied h]
    exact ⟨fun h => (nomatch h), fun ⟨e, he, _⟩ => (nomatch he)⟩
  | error e =>
    rw [ofAnswer]
    by_cases he : e.isCycleMember name = true
    · rw [if_pos he, circular_applied h]
      exact ⟨fun _ => ⟨e, rfl, he⟩, fun _ => rfl⟩
    · rw [if_neg he, failed_applied h]
      refine ⟨fun h => (nomatch h), fun ⟨e', he', hmem⟩ => ?_⟩
      cases he'
      exact absurd hmem he

theorem ofAnswer_applied_error (now name : String) (e : EvalError) :
    ((ofAnswer now name (.error e)).applied (.computed p)).error? = some e.message := by
  rw [ofAnswer]
  split
  · rw [circular_applied h]
    rfl
  · rw [failed_applied h]
    rfl

/-- A failure leaves the value that a property has. -/
theorem ofAnswer_applied_current (now name : String) (e : EvalError) :
    ((ofAnswer now name (.error e)).applied (.computed p)).current = p.cached := by
  rw [ofAnswer]
  split
  · rw [circular_applied h]
    rfl
  · rw [failed_applied h]
    rfl

/-- A property becomes valid by an answer with a value, which it then has. -/
theorem ofAnswer_eq_ok (now name : String) {r : EvalResult}
    (hv : ((ofAnswer now name r).applied (.computed p)).status? = some .valid) :
    r = .ok ((ofAnswer now name r).applied (.computed p)).current := by
  cases r with
  | ok v =>
    rw [ofAnswer, valid_applied h]
    rfl
  | error e =>
    rw [ofAnswer] at hv
    split at hv
    · rw [circular_applied h] at hv
      exact nomatch hv
    · rw [failed_applied h] at hv
      exact nomatch hv

/-- A computed property that is not on a cycle reports what its verdict does. -/
theorem applied_computed (v : Verdict) :
    ∃ q, v.applied (.computed p) = .computed q ∧ q.expression = p.expression ∧
      q.error = v.error? := by
  cases v with
  | valid value time =>
    rw [valid_applied h]
    exact ⟨_, rfl, rfl, rfl⟩
  | failed m =>
    rw [failed_applied h]
    exact ⟨_, rfl, rfl, rfl⟩
  | circular m =>
    rw [circular_applied h]
    exact ⟨_, rfl, rfl, rfl⟩

end Computed

theorem applied_name (v : Verdict) (p : Property) : (v.applied p).name = p.name := by
  cases p with
  | literal p | measured p => rfl
  | computed p =>
    obtain ⟨name, expression, dependencies, cached, cachedAt, status, error⟩ := p
    cases v <;> cases status <;> rfl
  | inherited p =>
    obtain ⟨name, source, sourceName, override, resolved, status, error⟩ := p
    cases v <;> cases status <;> rfl

theorem inherited_applied (v : Verdict) (p : InheritedProperty) :
    ∃ q, v.applied (.inherited p) = .inherited q := by
  have hmap (r : Except InvalidTransition InheritedProperty)
      (hr : v.moved (.inherited p) = r.map .inherited) :
      ∃ q, v.applied (.inherited p) = .inherited q := by
    unfold applied
    rw [hr]
    cases r with
    | ok q => exact ⟨q, rfl⟩
    | error t => exact ⟨p, rfl⟩
  cases v with
  | valid value time => exact hmap (p.markResolved value) rfl
  | failed m | circular m => exact hmap (p.markError m) rfl

theorem valid_applied_inherited {p : InheritedProperty} (h : p.status ≠ .circular)
    (v : Option Value) (t : String) : (valid v t).applied (.inherited p) =
      .inherited { p with status := .valid, resolved := v, error := none } := by
  obtain ⟨name, source, sourceName, override, resolved, status, error⟩ := p
  cases status with
  | circular => exact absurd rfl h
  | _ => rfl

theorem failed_applied_inherited {p : InheritedProperty} (h : p.status ≠ .circular) (m : String) :
    (failed m).applied (.inherited p) = .inherited { p with status := .error, error := some m } := by
  obtain ⟨name, source, sourceName, override, resolved, status, error⟩ := p
  cases status with
  | circular => exact absurd rfl h
  | _ => rfl

/-- An inherited property stays or becomes valid only by a value that is found. -/
theorem exists_valid_of_inherited {v : Verdict} {p : InheritedProperty} (h : p.status ≠ .circular)
    (hv : (v.applied (.inherited p)).status? = some .valid) : ∃ w t, v = .valid w t := by
  obtain ⟨name, source, sourceName, override, resolved, status, error⟩ := p
  cases v with
  | valid w t => exact ⟨w, t, rfl⟩
  | failed m | circular m =>
    cases status with
    | circular => exact absurd rfl h
    | _ => exact nomatch hv

/-- The value of an inherited property is its override, or else that of the property it comes
    from. -/
theorem ofSource_eq_valid_iff {now t : String} {ctx : EvaluationContext} {p : InheritedProperty}
    {v : Option Value} : ofSource now ctx p = .valid v t ↔ now = t ∧
      (p.override.map some).or (((ctx.entity? p.source).bind (·.property? p.sourceProperty)).map
        Property.current) = some v := by
  unfold ofSource
  cases p.override with
  | some w => simp [and_comm]
  | none =>
    cases ctx.entity? p.source with
    | none => simp
    | some e =>
      cases hq : e.property? p.sourceProperty with
      | none => simp [hq]
      | some q => simp [hq, and_comm]

end Verdict

/-! ### Verdicts one after another -/

namespace PassOutcome

/-- Applies verdicts in their order. -/
def concludeAll (o : PassOutcome) (vs : List (String × Verdict)) : PassOutcome :=
  vs.foldl (fun o v => o.conclude v.1 v.2) o

theorem concludeAll_append (o : PassOutcome) (vs ws : List (String × Verdict)) :
    o.concludeAll (vs ++ ws) = (o.concludeAll vs).concludeAll ws := List.foldl_append

theorem get?_conclude (o : PassOutcome) (name key : String) (v : Verdict) :
    (o.conclude name v).properties.get? key =
      if name = key then (o.properties.get? name).map v.applied else o.properties.get? key :=
  Dict.get?_modify ..

theorem get?_concludeAll_of_not_mem {vs : List (String × Verdict)} {name : String}
    (h : ∀ v ∈ vs, v.1 ≠ name) (o : PassOutcome) :
    (o.concludeAll vs).properties.get? name = o.properties.get? name := by
  induction vs generalizing o with
  | nil => rfl
  | cons w rest ih =>
    have hrest := ih (fun v hv => h v (List.mem_cons_of_mem _ hv)) (o.conclude w.1 w.2)
    refine hrest.trans ?_
    rw [get?_conclude, if_neg (h w List.mem_cons_self)]

/-- A property moves by its own verdict, where no other verdict has its name. -/
theorem get?_concludeAll {vs : List (String × Verdict)} (hn : vs.Pairwise fun v w => v.1 ≠ w.1)
    {name : String} {v : Verdict} (hv : (name, v) ∈ vs) (o : PassOutcome) :
    (o.concludeAll vs).properties.get? name = (o.properties.get? name).map v.applied := by
  induction vs generalizing o with
  | nil => exact absurd hv List.not_mem_nil
  | cons w rest ih =>
    obtain ⟨hw, hrest⟩ := List.pairwise_cons.1 hn
    rcases List.mem_cons.1 hv with rfl | hv
    · have hnot := get?_concludeAll_of_not_mem (fun u hu => (hw u hu).symm) (o.conclude name v)
      refine hnot.trans ?_
      rw [get?_conclude, if_pos rfl]
    · refine (ih hrest hv (o.conclude w.1 w.2)).trans ?_
      rw [get?_conclude, if_neg (hw _ hv)]

/-- Verdicts neither add nor remove properties. -/
theorem contains_concludeAll (vs : List (String × Verdict)) (o : PassOutcome) (name : String) :
    (o.concludeAll vs).properties.contains name = o.properties.contains name := by
  induction vs generalizing o with
  | nil => rfl
  | cons v rest ih =>
    refine (ih (o.conclude v.1 v.2)).trans ?_
    unfold Dict.contains
    rw [get?_conclude]
    split
    · rename_i heq
      rw [Option.isSome_map, heq]
    · rfl

theorem results_concludeAll {vs : List (String × Verdict)} (hn : vs.Pairwise fun v w => v.1 ≠ w.1)
    (o : PassOutcome) :
    (o.concludeAll vs).results = o.results ++
      vs.map fun v => v.2.result v.1 ((o.properties.get? v.1).map v.2.applied) := by
  induction vs generalizing o with
  | nil => exact (List.append_nil _).symm
  | cons w rest ih =>
    obtain ⟨hw, hrest⟩ := List.pairwise_cons.1 hn
    have hmap : (rest.map fun v => v.2.result v.1
          (((o.conclude w.1 w.2).properties.get? v.1).map v.2.applied)) =
        rest.map fun v => v.2.result v.1 ((o.properties.get? v.1).map v.2.applied) := by
      refine List.map_congr_left fun v hv => ?_
      rw [get?_conclude, if_neg (hw v hv)]
    refine (ih hrest (o.conclude w.1 w.2)).trans ?_
    rw [hmap, List.map_cons]
    show (o.results ++ [w.2.result w.1 ((o.conclude w.1 w.2).properties.get? w.1)]) ++ _ = _
    rw [get?_conclude, if_pos rfl, List.append_assoc]
    rfl

end PassOutcome

/-! ### What a pass selects -/

namespace Selection

/-- The formula of a selected computed property is read or found unreadable. -/
theorem get?_formulas_iff {scope : Scope} {e : Entity} (h : e.NamesAgree) {name : String}
    {f : Except ParseError Expression} :
    (ofEntity scope e).formulas.get? name = some f ↔
      ∃ p, e.properties.get? name = some (.computed p) ∧ scope.selects p.status = true ∧
        Expression.parse p.expression = f := by
  have hmem {g : Except ParseError Expression}
      (hg : (name, g) ∈ (ofEntity scope e).computed.map
        fun p => (p.name, Expression.parse p.expression)) :
      ∃ p, e.properties.get? name = some (.computed p) ∧ scope.selects p.status = true ∧
        Expression.parse p.expression = g := by
    obtain ⟨p, hp, heq⟩ := List.mem_map.1 hg
    obtain ⟨hcomp, hsel⟩ := List.mem_filter.1 hp
    cases heq
    exact ⟨p, h.computed_iff.1 hcomp, hsel, rfl⟩
  constructor
  · exact fun hf => hmem (Dict.mem_of_get?_ofList hf)
  · rintro ⟨p, hp, hsel, rfl⟩
    have hname : p.name = name := h name _ hp
    refine Dict.get?_ofList_of_unique ?_ fun g hg => ?_
    · have hcomp : p ∈ e.computed := Entity.mem_computed_iff.2 ⟨name, hp⟩
      exact List.mem_map.2 ⟨p, List.mem_filter.2 ⟨hcomp, hsel⟩, by rw [hname]⟩
    · obtain ⟨q, hq, _, rfl⟩ := hmem hg
      rw [hp] at hq
      cases hq
      rfl

/-- The pending formulas are those that could be read. -/
theorem get?_pending_iff (s : Selection) {name : String} {f : Expression} :
    s.pending.get? name = some f ↔ s.formulas.get? name = some (.ok f) := by
  have hmem {g : Expression}
      (hg : (name, g) ∈ s.formulas.entries.filterMap fun x => x.2.toOption.map (x.1, ·)) :
      s.formulas.get? name = some (.ok g) := by
    obtain ⟨⟨k, r⟩, hr, heq⟩ := List.mem_filterMap.1 hg
    cases r with
    | error err => cases heq
    | ok r =>
      cases heq
      exact Dict.mem_entries_iff.1 hr
  constructor
  · exact fun hf => hmem (Dict.mem_of_get?_ofList hf)
  · intro hf
    refine Dict.get?_ofList_of_unique ?_ fun g hg => ?_
    · exact List.mem_filterMap.2 ⟨_, Dict.mem_entries_iff.2 hf, rfl⟩
    · have := hmem hg
      rw [hf] at this
      cases this
      rfl

/-- Pending properties are properties of the entity. -/
theorem pending_or_contains {scope : Scope} {e : Entity} (h : e.NamesAgree) (name : String) :
    ((ofEntity scope e).pending.contains name || e.properties.contains name) =
      e.properties.contains name := by
  cases hf : (ofEntity scope e).pending.get? name with
  | none =>
    unfold Dict.contains
    rw [hf]
    rfl
  | some f =>
    obtain ⟨p, hp, _⟩ := (get?_formulas_iff h).1 ((get?_pending_iff _).1 hf)
    unfold Dict.contains
    rw [hp, Option.isSome_some, Bool.or_true]

/-! ### The verdicts of a pass -/

/-- The verdicts on inherited properties. -/
def sourceVerdicts (now : String) (ctx : EvaluationContext) (s : Selection) :
    List (String × Verdict) :=
  s.inherited.map fun p => (p.name, .ofSource now ctx p)

/-- The verdicts on formulas that are evaluated one after another. -/
def formulaVerdicts (now : String) (ctx : EvaluationContext) :
    List (String × Except ParseError Expression) → EvalState → List (String × Verdict)
  | [], _ => []
  | (name, .error e) :: rest, s => (name, .failed e.report) :: formulaVerdicts now ctx rest s
  | (name, .ok _) :: rest, s =>
    (name, .ofAnswer now name (Eval.property ctx name s).1) ::
      formulaVerdicts now ctx rest (Eval.property ctx name s).2

/-- What formulas are evaluated in: the selected ones are pending, and inherited properties have
    their new values. -/
def passContext (now : String) (s : Selection) (ctx : EvaluationContext) : EvaluationContext :=
  { ctx with
    pending := s.pending
    properties := (PassOutcome.concludeAll ⟨ctx.properties, []⟩ (s.sourceVerdicts now ctx)).properties }

theorem evaluate_eq (now : String) (ctx : EvaluationContext)
    (fs : List (String × Except ParseError Expression)) (st : EvalState) (o : PassOutcome) :
    evaluate now ctx fs st o = o.concludeAll (formulaVerdicts now ctx fs st) := by
  induction fs generalizing st o with
  | nil => rfl
  | cons f rest ih =>
    obtain ⟨name, r⟩ := f
    cases r with
    | error err => exact ih st _
    | ok f => exact ih _ _

theorem properties_concludeAll (vs : List (String × Verdict)) {o o' : PassOutcome}
    (h : o.properties = o'.properties) :
    (o.concludeAll vs).properties = (o'.concludeAll vs).properties := by
  induction vs generalizing o o' with
  | nil => exact h
  | cons v rest ih =>
    refine ih ?_
    show o.properties.modify v.1 v.2.applied = o'.properties.modify v.1 v.2.applied
    rw [h]

/-- The entities that a context knows do not change with the properties in it. -/
theorem ofSource_congr {ctx ctx' : EvaluationContext} (hentity : ctx.entity = ctx'.entity)
    (hentities : ctx.entities = ctx'.entities) (now : String) (p : InheritedProperty) :
    Verdict.ofSource now ctx p = Verdict.ofSource now ctx' p := by
  unfold Verdict.ofSource EvaluationContext.entity?
  rw [hentity, hentities]

/-- The context's copy of the properties moves with those of the outcome. -/
theorem resolve_cons (now : String) (p : InheritedProperty) (rest : List InheritedProperty)
    {ctx : EvaluationContext} {o : PassOutcome} (h : ctx.properties = o.properties) :
    resolve now (p :: rest) ctx o = resolve now rest
      { ctx with properties := (o.conclude p.name (.ofSource now ctx p)).properties }
      (o.conclude p.name (.ofSource now ctx p)) := by
  have hmodify : (o.conclude p.name (.ofSource now ctx p)).properties =
      o.properties.modify p.name (Verdict.ofSource now ctx p).applied := rfl
  rw [resolve, PassOutcome.get?_conclude, if_pos rfl, hmodify, h]
  unfold Dict.modify
  cases o.properties.get? p.name with
  | some q => rfl
  | none => rfl

theorem resolve_eq (now : String) (ps : List InheritedProperty) {ctx : EvaluationContext}
    {o : PassOutcome} (h : ctx.properties = o.properties) :
    resolve now ps ctx o =
      ({ ctx with properties :=
          (o.concludeAll (ps.map fun p => (p.name, .ofSource now ctx p))).properties },
        o.concludeAll (ps.map fun p => (p.name, .ofSource now ctx p))) := by
  induction ps generalizing ctx o with
  | nil =>
    obtain ⟨entity, properties, entities, relationships, pending, strict, limit⟩ := ctx
    cases h
    rfl
  | cons p rest ih =>
    rw [resolve_cons now p rest h, ih rfl]
    have hsame : (rest.map fun q => (q.name, Verdict.ofSource now { ctx with properties :=
        (o.conclude p.name (.ofSource now ctx p)).properties } q)) =
        rest.map fun q => (q.name, Verdict.ofSource now ctx q) :=
      List.map_congr_left fun q _ => congrArg (q.name, ·) (ofSource_congr rfl rfl now q)
    rw [hsame]
    rfl

/-- A pass applies its verdicts in order. -/
theorem compute_eq (now : String) (s : Selection) {ctx : EvaluationContext} {o : PassOutcome}
    (h : ctx.properties = o.properties) :
    s.compute now ctx o = o.concludeAll (s.sourceVerdicts now ctx ++
      formulaVerdicts now (s.passContext now ctx) s.formulas.entries {}) := by
  unfold compute
  rw [resolve_eq now s.inherited (show ({ ctx with pending := s.pending } :
    EvaluationContext).properties = o.properties from h)]
  dsimp only
  rw [evaluate_eq, PassOutcome.concludeAll_append]
  have hsame : (s.inherited.map fun p => (p.name,
      Verdict.ofSource now { ctx with pending := s.pending } p)) = s.sourceVerdicts now ctx :=
    List.map_congr_left fun p _ => congrArg (p.name, ·) (ofSource_congr rfl rfl now p)
  rw [hsame]
  have hprops : (o.concludeAll (s.sourceVerdicts now ctx)).properties =
      (PassOutcome.concludeAll ⟨ctx.properties, []⟩ (s.sourceVerdicts now ctx)).properties :=
    properties_concludeAll _ h.symm
  rw [hprops]
  rfl

theorem formulaVerdicts_names (now : String) (ctx : EvaluationContext)
    (fs : List (String × Except ParseError Expression)) (st : EvalState) :
    (formulaVerdicts now ctx fs st).map Prod.fst = fs.map Prod.fst := by
  induction fs generalizing st with
  | nil => rfl
  | cons f rest ih =>
    obtain ⟨name, r⟩ := f
    cases r with
    | error err => exact congrArg (name :: ·) (ih st)
    | ok f => exact congrArg (name :: ·) (ih _)

/-- The verdict on a formula comes from a state that the reads before it have led to, at whatever
    time the pass runs. -/
theorem mem_formulaVerdicts {P : EvalState → Prop} {ctx : EvaluationContext}
    (hP : ∀ name s, P s → P (Eval.property ctx name s).2) {name : String}
    {f : Expression} {fs : List (String × Except ParseError Expression)}
    (hf : (name, .ok f) ∈ fs) {st : EvalState} (hst : P st) :
    ∃ s, P s ∧ ∀ now, (name, Verdict.ofAnswer now name (Eval.property ctx name s).1) ∈
      formulaVerdicts now ctx fs st := by
  induction fs generalizing st with
  | nil => exact absurd hf List.not_mem_nil
  | cons g rest ih =>
    obtain ⟨key, r⟩ := g
    rcases List.mem_cons.1 hf with heq | hrest
    · cases heq
      exact ⟨st, hst, fun _ => List.mem_cons_self⟩
    · cases r with
      | error err =>
        obtain ⟨s, hs, hmem⟩ := ih hrest hst
        exact ⟨s, hs, fun now => List.mem_cons_of_mem _ (hmem now)⟩
      | ok g =>
        obtain ⟨s, hs, hmem⟩ := ih hrest (hP key st hst)
        exact ⟨s, hs, fun now => List.mem_cons_of_mem _ (hmem now)⟩

/-- Contexts that answer all reads alike lead to the same verdicts. -/
theorem formulaVerdicts_congr {P : EvalState → Prop} {ctx ctx' : EvaluationContext}
    (hP : ∀ name s, P s → Eval.property ctx name s = Eval.property ctx' name s ∧
      P (Eval.property ctx' name s).2) (now : String)
    (fs : List (String × Except ParseError Expression)) {st : EvalState} (hst : P st) :
    formulaVerdicts now ctx fs st = formulaVerdicts now ctx' fs st := by
  induction fs generalizing st with
  | nil => rfl
  | cons f rest ih =>
    obtain ⟨name, r⟩ := f
    cases r with
    | error err => exact congrArg _ (ih hst)
    | ok f =>
      obtain ⟨heq, hnext⟩ := hP name st hst
      unfold formulaVerdicts
      rw [heq, ih hnext]

theorem mem_formulaVerdicts_of_error (now : String) (ctx : EvaluationContext) {name : String}
    {err : ParseError} {fs : List (String × Except ParseError Expression)}
    (hf : (name, .error err) ∈ fs) (st : EvalState) :
    (name, Verdict.failed err.report) ∈ formulaVerdicts now ctx fs st := by
  induction fs generalizing st with
  | nil => exact absurd hf List.not_mem_nil
  | cons g rest ih =>
    obtain ⟨key, r⟩ := g
    rcases List.mem_cons.1 hf with heq | hrest
    · cases heq
      exact List.mem_cons_self
    · cases r with
      | error err => exact List.mem_cons_of_mem _ (ih hrest st)
      | ok g => exact List.mem_cons_of_mem _ (ih hrest _)

/-! ### Single properties -/

/-- All verdicts of a pass. -/
def verdicts (now : String) (s : Selection) (ctx : EvaluationContext) : List (String × Verdict) :=
  s.sourceVerdicts now ctx ++ formulaVerdicts now (s.passContext now ctx) s.formulas.entries {}

section Properties

variable {e : Entity} (h : e.NamesAgree) (now : String) (scope : Scope) (ctx : EvaluationContext)
include h

theorem mem_sourceVerdicts {name : String} {v : Verdict} :
    (name, v) ∈ (ofEntity scope e).sourceVerdicts now ctx ↔
      ∃ p, e.properties.get? name = some (.inherited p) ∧ scope.selects p.status = true ∧
        v = .ofSource now ctx p := by
  constructor
  · intro hv
    obtain ⟨p, hp, heq⟩ := List.mem_map.1 hv
    obtain ⟨hinh, hsel⟩ := List.mem_filter.1 hp
    cases heq
    exact ⟨p, h.inherited_iff.1 hinh, hsel, rfl⟩
  · rintro ⟨p, hp, hsel, rfl⟩
    have hname : p.name = name := h name _ hp
    have hinh : p ∈ e.inherited := Entity.mem_inherited_iff.2 ⟨name, hp⟩
    exact List.mem_map.2 ⟨p, List.mem_filter.2 ⟨hinh, hsel⟩, by rw [hname]⟩

/-- A verdict is about a derived property that is selected. -/
theorem selected_of_mem_verdicts {name : String} {v : Verdict}
    (hv : (name, v) ∈ (ofEntity scope e).verdicts now ctx) :
    ∃ p s, e.properties.get? name = some p ∧ p.status? = some s ∧ scope.selects s = true := by
  rcases List.mem_append.1 hv with hv | hv
  · obtain ⟨p, hp, hsel, _⟩ := (mem_sourceVerdicts h now scope ctx).1 hv
    exact ⟨_, _, hp, rfl, hsel⟩
  · have hname : name ∈ (ofEntity scope e).formulas.entries.map Prod.fst := by
      rw [← formulaVerdicts_names now ((ofEntity scope e).passContext now ctx) _ {}]
      exact List.mem_map_of_mem hv
    obtain ⟨⟨key, f⟩, hf, rfl⟩ := List.mem_map.1 hname
    obtain ⟨p, hp, hsel, _⟩ := (get?_formulas_iff h).1 (Dict.mem_entries_iff.1 hf)
    exact ⟨_, _, hp, rfl, hsel⟩

/-- Every property that is selected has a verdict. -/
theorem exists_verdict {name : String} {p : Property} {s : Status}
    (hp : e.properties.get? name = some p) (hs : p.status? = some s)
    (hsel : scope.selects s = true) : ∃ v, (name, v) ∈ (ofEntity scope e).verdicts now ctx := by
  cases p with
  | literal p => exact nomatch hs
  | measured p => exact nomatch hs
  | inherited p =>
    cases hs
    exact ⟨_, List.mem_append_left _
      ((mem_sourceVerdicts h now scope ctx).2 ⟨p, hp, hsel, rfl⟩)⟩
  | computed p =>
    cases hs
    have hnames : name ∈ ((ofEntity scope e).verdicts now ctx).map Prod.fst := by
      unfold verdicts
      rw [List.map_append, formulaVerdicts_names]
      refine List.mem_append_right _ (List.mem_map.2 ⟨(name, Expression.parse p.expression), ?_, rfl⟩)
      exact Dict.mem_entries_iff.2 ((get?_formulas_iff h).2 ⟨p, hp, hsel, rfl⟩)
    obtain ⟨⟨n, v⟩, hv, rfl⟩ := List.mem_map.1 hnames
    exact ⟨v, hv⟩

theorem verdicts_distinct :
    ((ofEntity scope e).verdicts now ctx).Pairwise fun v w => v.1 ≠ w.1 := by
  refine List.pairwise_append.2 ⟨?_, ?_, ?_⟩
  · refine List.pairwise_map.2 (List.Pairwise.imp ?_ (List.Pairwise.filter _ h.inherited_ascending))
    intro p q hlt heq
    have heq : p.name = q.name := heq
    exact String.lt_irrefl _ (heq ▸ hlt)
  · rw [← List.pairwise_map (f := Prod.fst) (R := (· ≠ ·)), formulaVerdicts_names, List.pairwise_map]
    refine List.Pairwise.imp ?_ (ofEntity scope e).formulas.ascending
    intro a b hlt heq
    exact String.lt_irrefl _ (heq ▸ hlt)
  · intro v hv w hw heq
    obtain ⟨p, hp, _, _⟩ := (mem_sourceVerdicts h now scope ctx).1 (show (v.1, v.2) ∈ _ from hv)
    have hname : w.1 ∈ (ofEntity scope e).formulas.entries.map Prod.fst := by
      rw [← formulaVerdicts_names now ((ofEntity scope e).passContext now ctx) _ {}]
      exact List.mem_map_of_mem hw
    obtain ⟨⟨key, f⟩, hf, hkey⟩ := List.mem_map.1 hname
    obtain ⟨q, hq, _, _⟩ := (get?_formulas_iff h).1 (Dict.mem_entries_iff.1 hf)
    have hkey : key = v.1 := hkey.trans heq.symm
    rw [hkey, hp] at hq
    exact nomatch hq

/-- The values of properties in which formulas are evaluated, as long as the inherited ones keep
    theirs. -/
theorem passContext_current (hctx : ctx.properties = e.properties)
    (hkeep : ∀ name p, e.properties.get? name = some (.inherited p) →
      scope.selects p.status = true →
      ((Verdict.ofSource now ctx p).applied (.inherited p)).current = (Property.inherited p).current)
    (name : String) :
    (((ofEntity scope e).passContext now ctx).properties.get? name).map Property.current =
      (e.properties.get? name).map Property.current := by
  unfold passContext
  dsimp only
  rw [hctx]
  by_cases hv : ∃ v, (name, v) ∈ (ofEntity scope e).sourceVerdicts now ctx
  · obtain ⟨v, hv⟩ := hv
    obtain ⟨p, hp, hsel, rfl⟩ := (mem_sourceVerdicts h now scope ctx).1 hv
    have hdistinct := (List.pairwise_append.1 (verdicts_distinct h now scope ctx)).1
    rw [PassOutcome.get?_concludeAll hdistinct hv, hp]
    exact congrArg some (hkeep name p hp hsel)
  · rw [PassOutcome.get?_concludeAll_of_not_mem]
    rintro ⟨n, v⟩ hmem rfl
    exact hv ⟨v, hmem⟩

variable {ctx} (hctx : ctx.properties = e.properties) {name : String}
include hctx

/-- A property moves by its verdict. -/
theorem get?_compute {v : Verdict} (hv : (name, v) ∈ (ofEntity scope e).verdicts now ctx) :
    ((ofEntity scope e).compute now ctx ⟨e.properties, []⟩).properties.get? name =
      (e.properties.get? name).map v.applied := by
  rw [compute_eq now (ofEntity scope e) (show ctx.properties =
    (⟨e.properties, []⟩ : PassOutcome).properties from hctx)]
  exact PassOutcome.get?_concludeAll (verdicts_distinct h now scope ctx) hv _

theorem compute_inherited {p : InheritedProperty}
    (hp : e.properties.get? name = some (.inherited p)) (hsel : scope.selects p.status = true) :
    ((ofEntity scope e).compute now ctx ⟨e.properties, []⟩).properties.get? name =
      some ((Verdict.ofSource now ctx p).applied (.inherited p)) := by
  have hv : (name, Verdict.ofSource now ctx p) ∈ (ofEntity scope e).verdicts now ctx :=
    List.mem_append_left _ ((mem_sourceVerdicts h now scope ctx).2 ⟨p, hp, hsel, rfl⟩)
  rw [get?_compute h now scope hctx hv, hp]
  rfl

/-- A computed property moves by the answer that its formula has in a state that reads of other
    properties have led to. -/
theorem compute_computed {P : EvalState → Prop}
    (hP : ∀ name s, P s → P (Eval.property ((ofEntity scope e).passContext now ctx) name s).2)
    (hstart : P {}) {p : ComputedProperty} {f : Expression}
    (hp : e.properties.get? name = some (.computed p)) (hsel : scope.selects p.status = true)
    (hf : Expression.parse p.expression = .ok f) :
    ∃ s, P s ∧ ((ofEntity scope e).compute now ctx ⟨e.properties, []⟩).properties.get? name =
      some ((Verdict.ofAnswer now name
        (Eval.property ((ofEntity scope e).passContext now ctx) name s).1).applied (.computed p)) := by
  have hentry : (name, .ok f) ∈ (ofEntity scope e).formulas.entries :=
    Dict.mem_entries_iff.2 ((get?_formulas_iff h).2 ⟨p, hp, hsel, hf⟩)
  obtain ⟨s, hs, hv⟩ := mem_formulaVerdicts hP hentry hstart
  refine ⟨s, hs, ?_⟩
  rw [get?_compute h now scope hctx (List.mem_append_right _ (hv now)), hp]
  rfl

theorem compute_unreadable {p : ComputedProperty} {err : ParseError}
    (hp : e.properties.get? name = some (.computed p)) (hsel : scope.selects p.status = true)
    (hf : Expression.parse p.expression = .error err) :
    ((ofEntity scope e).compute now ctx ⟨e.properties, []⟩).properties.get? name =
      some ((Verdict.failed err.report).applied (.computed p)) := by
  have hentry : (name, .error err) ∈ (ofEntity scope e).formulas.entries :=
    Dict.mem_entries_iff.2 ((get?_formulas_iff h).2 ⟨p, hp, hsel, hf⟩)
  have hv := mem_formulaVerdicts_of_error now ((ofEntity scope e).passContext now ctx) hentry {}
  rw [get?_compute h now scope hctx (List.mem_append_right _ hv), hp]
  rfl

/-- What is not selected stays as it is. -/
theorem compute_unselected
    (hn : ∀ p s, e.properties.get? name = some p → p.status? = some s → scope.selects s = false) :
    ((ofEntity scope e).compute now ctx ⟨e.properties, []⟩).properties.get? name =
      e.properties.get? name := by
  rw [compute_eq now (ofEntity scope e) (show ctx.properties =
    (⟨e.properties, []⟩ : PassOutcome).properties from hctx)]
  refine PassOutcome.get?_concludeAll_of_not_mem (fun v hv hname => ?_) _
  obtain ⟨p, s, hp, hs, hsel⟩ :=
    selected_of_mem_verdicts h now scope ctx (show (v.1, v.2) ∈ _ from hv)
  rw [hn p s (hname ▸ hp) hs] at hsel
  exact nomatch hsel

end Properties

theorem compute_of_isEmpty {s : Selection} (hs : s.isEmpty = true) (now : String)
    (ctx : EvaluationContext) (o : PassOutcome) : s.compute now ctx o = o := by
  obtain ⟨hc, hi⟩ := Bool.and_eq_true_iff.1 hs
  obtain ⟨computed, inherited⟩ := s
  rw [List.isEmpty_iff] at hc hi
  cases hc
  cases hi
  rfl

end Selection

/-- A pass that can fetch its context ends with the outcome of its selection. -/
theorem Entity.recompute_run {σ : Type} {store : EntityStore σ} {s : σ} {settings : Settings}
    (now : String) {scope : Scope} {e : Entity} {ctx : EvaluationContext}
    (hg : ((EvaluationContext.gather settings e
      (Selection.ofEntity scope e).pending.values).run.run store s).1 = .ok ctx) :
    ((e.recompute settings now scope).run store s).1 =
      ((Selection.ofEntity scope e).compute now ctx ⟨e.properties, []⟩).inOrder := by
  unfold recompute
  dsimp only
  split
  · rename_i hempty
    rw [Selection.compute_of_isEmpty hempty]
    unfold PassOutcome.inOrder
    rw [List.mergeSort_nil]
    rfl
  · show ((Lookup.bind _ _).run store s).1 = _
    rw [Lookup.run_bind, hg]
    rfl

end EntityFormulas
