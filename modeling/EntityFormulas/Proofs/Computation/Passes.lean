/-
  EntityFormulas/Proofs/Computation/Passes.lean
  =============================================
  **What a pass leaves, in a context that has everything.**

  A pass evaluates formulas in a context that was gathered for them, over the
  properties as they are once inherited ones have been resolved.  Neither has to
  be known to say what the pass leaves: as far as gathering tracks what the
  formulas read, they have the answers that they have in the context with all
  the tenant has, over the properties that the pass leaves itself (`Passed.answer`).
  So passes are compared by what they leave.
-/
import EntityFormulas.Proofs.Computation.FullContext
import EntityFormulas.Proofs.Computation.PassAnswers

namespace EntityFormulas

open EvaluationContext

/-! ### What a pass makes of single properties -/

namespace Verdict

/-- The verdict on an inherited property, when it is asked for again where the source has the same
    value. -/
theorem ofSource_again {now now' : String} {ctx ctx' : EvaluationContext} {p p' : InheritedProperty}
    (hoverride : p'.override = p.override) (hsource : p'.source = p.source)
    (hproperty : p'.sourceProperty = p.sourceProperty)
    (hfound : p.override = none →
      (ctx.entity? p.source).isSome = (ctx'.entity? p.source).isSome ∧
      ((ctx.entity? p.source).bind (·.property? p.sourceProperty)).map Property.current =
        ((ctx'.entity? p.source).bind (·.property? p.sourceProperty)).map Property.current) :
    (∃ v, ofSource now ctx p = .valid v now ∧ ofSource now' ctx' p' = .valid v now') ∨
      ∃ m, ofSource now ctx p = .failed m ∧ ofSource now' ctx' p' = .failed m := by
  unfold ofSource
  rw [hoverride, hsource, hproperty]
  cases ho : p.override with
  | some v => exact .inl ⟨some v, rfl, rfl⟩
  | none =>
    obtain ⟨hsome, hcurrent⟩ := hfound ho
    cases he : ctx.entity? p.source with
    | none =>
      rw [he] at hsome
      rw [Option.isNone_iff_eq_none.1 (Option.isSome_eq_false_iff.1 hsome.symm)]
      exact .inr ⟨_, rfl, rfl⟩
    | some x =>
      rw [he] at hsome hcurrent
      obtain ⟨y, hy⟩ := Option.isSome_iff_exists.1 hsome.symm
      rw [hy] at hcurrent ⊢
      rw [Option.bind_some, Option.bind_some] at hcurrent
      dsimp only
      cases hx : x.property? p.sourceProperty with
      | none =>
        rw [hx] at hcurrent
        rw [Option.map_eq_none_iff.1 hcurrent.symm]
        exact .inr ⟨_, rfl, rfl⟩
      | some q =>
        rw [hx] at hcurrent
        obtain ⟨q', hq', heq⟩ := Option.map_eq_some_iff.1 hcurrent.symm
        rw [hq']
        exact .inl ⟨q.current, rfl, by rw [← heq]⟩

end Verdict

namespace Selection

variable {e : Entity} (h : e.NamesAgree) (now : String) (scope : Scope) {ctx : EvaluationContext}
  (hctx : ctx.properties = e.properties)
include h hctx

/-- A property stays as it is or moves by a verdict, if it has a status that lets it. -/
theorem compute_moves (name : String) :
    ((ofEntity scope e).compute now ctx ⟨e.properties, []⟩).properties.get? name =
        e.properties.get? name ∨
      ∃ p s, ∃ v : Verdict, e.properties.get? name = some p ∧ p.status? = some s ∧ scope.selects s = true ∧
        ((ofEntity scope e).compute now ctx ⟨e.properties, []⟩).properties.get? name =
          some (v.applied p) := by
  by_cases hv : ∃ v, (name, v) ∈ (ofEntity scope e).verdicts now ctx
  · obtain ⟨v, hv⟩ := hv
    obtain ⟨p, s, hp, hs, hsel⟩ := selected_of_mem_verdicts h now scope ctx hv
    refine .inr ⟨p, s, v, hp, hs, hsel, ?_⟩
    rw [get?_compute h now scope hctx hv, hp]
    rfl
  · left
    rw [compute_eq now (ofEntity scope e) (show ctx.properties =
      (⟨e.properties, []⟩ : PassOutcome).properties from hctx)]
    refine PassOutcome.get?_concludeAll_of_not_mem (fun v hmem hname => hv ⟨v.2, ?_⟩) _
    rw [← hname]
    exact hmem

omit h in
theorem contains_compute (name : String) :
    ((ofEntity scope e).compute now ctx ⟨e.properties, []⟩).properties.contains name =
      e.properties.contains name := by
  rw [compute_eq now (ofEntity scope e) (show ctx.properties =
    (⟨e.properties, []⟩ : PassOutcome).properties from hctx)]
  exact PassOutcome.contains_concludeAll _ _ name

/-- Formulas see every property that is not pending with the value that the pass leaves it. -/
theorem passContext_leaves {name : String} (hn : (ofEntity scope e).pending.get? name = none) :
    (((ofEntity scope e).passContext now ctx).properties.get? name).map Property.current =
      (((ofEntity scope e).compute now ctx ⟨e.properties, []⟩).properties.get? name).map
        Property.current := by
  by_cases hv : ∃ r, (ofEntity scope e).formulas.get? name = some r
  · obtain ⟨r, hr⟩ := hv
    cases r with
    | ok f =>
      rw [(get?_pending_iff _).2 hr] at hn
      exact nomatch hn
    | error err =>
      obtain ⟨p, hp, hsel, hf⟩ := (get?_formulas_iff h).1 hr
      rw [compute_unreadable h now scope hctx hp hsel hf,
        Verdict.failed_applied (Scope.ne_circular_of_selects hsel)]
      have hget : ((ofEntity scope e).passContext now ctx).properties.get? name =
          e.properties.get? name := by
        unfold passContext
        dsimp only
        rw [hctx]
        refine PassOutcome.get?_concludeAll_of_not_mem (fun v hv hname => ?_) _
        obtain ⟨q, hq, _⟩ := (mem_sourceVerdicts h now scope ctx).1 (show (v.1, v.2) ∈ _ from hv)
        rw [hname, hp] at hq
        exact nomatch hq
      rw [hget, hp]
      rfl
  · rw [compute_eq now (ofEntity scope e) (show ctx.properties =
      (⟨e.properties, []⟩ : PassOutcome).properties from hctx), PassOutcome.concludeAll_append]
    have hnot : ∀ v ∈ formulaVerdicts now ((ofEntity scope e).passContext now ctx)
        (ofEntity scope e).formulas.entries {}, v.1 ≠ name := by
      intro v hmem hname
      have hnames : name ∈ (ofEntity scope e).formulas.entries.map Prod.fst := by
        rw [← formulaVerdicts_names now ((ofEntity scope e).passContext now ctx) _ {}, ← hname]
        exact List.mem_map_of_mem hmem
      obtain ⟨⟨key, r⟩, hr, rfl⟩ := List.mem_map.1 hnames
      exact hv ⟨r, Dict.mem_entries_iff.1 hr⟩
    rw [PassOutcome.get?_concludeAll_of_not_mem hnot]
    unfold passContext
    dsimp only
    rw [hctx]

end Selection

/-! ### The context that has everything -/

namespace Scope

variable (scope : Scope) (settings : Settings) (t : TenantTable) (e : Entity)

/-- What a pass over an entity gathers for. -/
def gathering : Gathering := ⟨settings, t, e, (Selection.ofEntity scope e).pending.values⟩

/-- The context that has everything that the tenant has, for the formulas of a pass and these
    properties. -/
def everything (properties : Dict Property) : EvaluationContext :=
  (scope.gathering settings t e).full (Selection.ofEntity scope e).pending properties

/-- Gathering tracks what the formulas of a pass read that leaves these properties. -/
def Tracks (properties : Dict Property) : Prop :=
  (scope.gathering settings t e).Tracked (Selection.ofEntity scope e).pending properties

section Everything

variable (properties : Dict Property)

theorem everything_pending : (scope.everything settings t e properties).pending =
    (Selection.ofEntity scope e).pending :=
  (scope.gathering settings t e).full_pending _ _

theorem everything_properties : (scope.everything settings t e properties).properties = properties :=
  (scope.gathering settings t e).full_properties _ _

theorem everything_strict : (scope.everything settings t e properties).strict = settings.strict :=
  ((scope.gathering settings t e).full_grows _ _).strict

theorem everything_entity : (scope.everything settings t e properties).entity = e :=
  (scope.gathering settings t e).full_entity _ _

end Everything

end Scope

/-! ### Passes -/

namespace Selection

/-- What a pass over an entity leaves, in a context that has been gathered for it. -/
structure Passed (scope : Scope) (settings : Settings) (t : TenantTable) (e : Entity) (now : String)
    (ctx : EvaluationContext) (properties : Dict Property) : Prop where
  keyed : t.Keyed
  names : e.NamesAgree
  gathered : Gathered t settings e (ofEntity scope e).pending.values ctx
  outcome : properties = ((ofEntity scope e).compute now ctx ⟨e.properties, []⟩).properties

namespace Passed

variable {scope : Scope} {settings : Settings} {t : TenantTable} {e : Entity} {now : String}
  {ctx : EvaluationContext} {ps : Dict Property} (hp : Passed scope settings t e now ctx ps)
include hp

theorem properties : ctx.properties = e.properties := hp.gathered.grows.properties

theorem moves (name : String) : ps.get? name = e.properties.get? name ∨
    ∃ p s, ∃ v : Verdict, e.properties.get? name = some p ∧ p.status? = some s ∧
      scope.selects s = true ∧ ps.get? name = some (v.applied p) := by
  rw [hp.outcome]
  exact compute_moves hp.names now scope hp.properties name

theorem contains (name : String) : ps.contains name = e.properties.contains name := by
  rw [hp.outcome]
  exact contains_compute now scope hp.properties name

/-- What an inherited property is resolved to. -/
theorem inherited {name : String} {p : InheritedProperty}
    (hget : e.properties.get? name = some (.inherited p)) (hsel : scope.selects p.status = true) :
    ps.get? name = some ((Verdict.ofSource now ctx p).applied (.inherited p)) := by
  rw [hp.outcome]
  exact compute_inherited hp.names now scope hp.properties hget hsel

/-- A source of inherited properties is known to the pass. -/
theorem source_known {name : String} {p : InheritedProperty}
    (hget : e.properties.get? name = some (.inherited p)) :
    ctx.entity? p.source = t.known e p.source :=
  hp.gathered.covers.direct p.source (List.mem_append_right _
    (List.mem_map_of_mem (Entity.mem_inherited_iff.2 ⟨name, hget⟩)))

/-- A property whose formula cannot be read fails. -/
theorem unreadable {name : String} {p : ComputedProperty} {err : ParseError}
    (hget : e.properties.get? name = some (.computed p)) (hsel : scope.selects p.status = true)
    (hf : Expression.parse p.expression = .error err) :
    ps.get? name = some ((Verdict.failed err.report).applied (.computed p)) := by
  rw [hp.outcome]
  exact compute_unreadable hp.names now scope hp.properties hget hsel hf

/-- The first formula is evaluated by a fresh evaluator. -/
theorem first {name : String} {f : Expression} {rest : List (String × Except ParseError Expression)}
    (hfirst : (ofEntity scope e).formulas.entries = (name, .ok f) :: rest) :
    ps.get? name = (e.properties.get? name).map (Verdict.ofAnswer now name
      (Eval.property ((ofEntity scope e).passContext now ctx) name {}).1).applied := by
  rw [hp.outcome]
  refine get?_compute hp.names now scope hp.properties (List.mem_append_right _ ?_)
  rw [hfirst]
  exact List.mem_cons_self

section Tracked

variable (ht : scope.Tracks settings t e ps)
include ht

theorem serves : Serves (fun d => ∃ f ∈ (ofEntity scope e).pending.values, d ∈ f.parts)
    { ctx with pending := (ofEntity scope e).pending, properties := ps }
    (scope.everything settings t e ps) :=
  Gathering.serves (g := scope.gathering settings t e) hp.keyed hp.gathered.faithful
    hp.gathered.grows hp.gathered.covers (fun n _ hf => Dict.mem_values_iff.2 ⟨n, hf⟩)
    (fun name hn => (hp.contains name).trans hn) ht

omit ht in
theorem readsAs : ((ofEntity scope e).passContext now ctx).ReadsAs
    { ctx with pending := (ofEntity scope e).pending, properties := ps } := by
  refine ⟨⟨rfl, rfl, rfl⟩, rfl, rfl, rfl, rfl, fun name => ?_, fun name hn => ?_⟩
  · show (PassOutcome.concludeAll ⟨ctx.properties, []⟩ _).properties.contains name = _
    rw [PassOutcome.contains_concludeAll, hp.contains, ← hp.properties]
  · show _ = (ps.get? name).map Property.current
    rw [hp.outcome]
    exact passContext_leaves hp.names now scope hp.properties hn

/-- The pass finds the same answers as in the context that has everything. -/
theorem verdicts_eq : formulaVerdicts now ((ofEntity scope e).passContext now ctx)
      (ofEntity scope e).formulas.entries {} =
    formulaVerdicts now (scope.everything settings t e ps) (ofEntity scope e).formulas.entries {} := by
  refine formulaVerdicts_congr (P := (·.Remembers (scope.everything settings t e ps).Sound))
    (fun name s hs => ⟨?_, (property_sound hs name).1⟩) now _ (EvalState.remembers_start _)
  rw [hp.readsAs.property]
  exact (hp.serves ht).property name hs

theorem get?_of_verdict {name : String} {v : Verdict} (hv : (name, v) ∈ formulaVerdicts now
      (scope.everything settings t e ps) (ofEntity scope e).formulas.entries {}) :
    ps.get? name = (e.properties.get? name).map v.applied := by
  rw [← hp.verdicts_eq ht] at hv
  rw [hp.outcome]
  exact get?_compute hp.names now scope hp.properties (List.mem_append_right _ hv)

omit hp ht in
/-- Each pending property has an answer, from a state that reads before it have led to. -/
theorem exists_answer {name : String} {f : Expression}
    (hf : (ofEntity scope e).pending.get? name = some f) :
    ∃ s, (scope.everything settings t e ps).Between s ∧ ∀ now, (name, Verdict.ofAnswer now name
        (Eval.property (scope.everything settings t e ps) name s).1) ∈
      formulaVerdicts now (scope.everything settings t e ps) (ofEntity scope e).formulas.entries {} :=
  mem_formulaVerdicts (P := (scope.everything settings t e ps).Between)
    (fun name _ hs => hs.property name) (Dict.mem_entries_iff.2 ((get?_pending_iff _).1 hf))
    (between_start _)

/-- A pending property moves by an answer that is traced and sound where everything is known. -/
theorem answer {name : String} {f : Expression}
    (hf : (ofEntity scope e).pending.get? name = some f) :
    ∃ p r, e.properties.get? name = some (.computed p) ∧ p.status ≠ .circular ∧
      (scope.everything settings t e ps).Traced name r ∧
      (scope.everything settings t e ps).Sound name r ∧
      ps.get? name = some ((Verdict.ofAnswer now name r).applied (.computed p)) := by
  obtain ⟨p, hget, hsel, -⟩ := (get?_formulas_iff hp.names).1 ((get?_pending_iff _).1 hf)
  obtain ⟨s, hs, hv⟩ : ∃ s, (scope.everything settings t e ps).Between s ∧ _ := exists_answer hf
  have hps := hp.get?_of_verdict ht (hv now)
  rw [hget] at hps
  exact ⟨p, _, hget, Scope.ne_circular_of_selects hsel,
    (property_traced hs.traced hs.idle name).1, (property_sound hs.sound name).2, hps⟩

end Tracked

end Passed

end Selection

/-! ### Outcomes -/

/-- The outcome of a pass over stale properties, in a context gathered for it. -/
def Entity.PassesTo (settings : Settings) (t : TenantTable) (e : Entity) (o : PassOutcome) : Prop :=
  ∃ now ctx, Gathered t settings e (Selection.ofEntity .stale e).pending.values ctx ∧
    o = ((Selection.ofEntity .stale e).compute now ctx ⟨e.properties, []⟩).inOrder

/-- What a pass comes to that reads from tables. -/
theorem Entity.recompute_passesTo {tables : String → TenantTable} (e : Entity)
    (hk : (tables e.tenant).Keyed) (settings : Settings) (now : String) :
    e.PassesTo settings (tables e.tenant) ((e.recompute settings now .stale).answer tables) := by
  obtain ⟨ctx, hanswer, hgathered⟩ : ∃ ctx, (gather settings e _).answer tables = .ok ctx ∧ _ :=
    gather_covers tables rfl hk settings (Selection.ofEntity .stale e).pending.values
  refine ⟨now, ctx, hgathered, ?_⟩
  unfold recompute
  dsimp only
  split
  · rename_i hempty
    rw [Selection.compute_of_isEmpty hempty, PassOutcome.inOrder, List.mergeSort_nil]
    rfl
  · refine (Lookup.answer_bind tables _ _).trans ?_
    rw [show (gather settings e _).run.answer tables = _ from hanswer]
    rfl

end EntityFormulas
