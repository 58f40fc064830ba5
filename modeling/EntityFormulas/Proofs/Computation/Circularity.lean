/-
  EntityFormulas/Proofs/Computation/Circularity.lean
  ==================================================
  **Which properties a pass leaves circular.**

  A pass over all properties evaluates them one after another with one
  evaluator.  A property ends up circular exactly when its own failed reads come
  back to it, and not whenever it lies on a cycle of reads
  (`status_circular_iff`, `shadowed_not_circular`).
-/
import EntityFormulas.Proofs.Computation.PassAnswers
import EntityFormulas.Proofs.Computation.Reach
import EntityFormulas.Proofs.Evaluation.ReadGraph

namespace EntityFormulas

open Evaluation

/-! ### Passes over all properties -/

/-- Values that the properties have which a pass leaves valid; the others may have any. -/
def PassOutcome.Leaves (o : PassOutcome) (values : String → Option Value) : Prop :=
  ∀ name p, o.properties.get? name = some (.computed p) → p.status = .valid → values name = p.cached

namespace Selection

/-- The selected formulas make the same reads of each other in every run, all by name, and none of
    them fails by itself, with what the pass leaves valid. -/
structure Regular (s : Selection) (ctx : EvaluationContext) (o : PassOutcome) : Prop where
  unconditional : ∀ name f, s.pending.get? name = some f → f.Unconditional
  faultless : ∀ name f, s.pending.get? name = some f →
    ∀ values, o.Leaves values → ctx.Faultless values f

section Properties

variable {e : Entity} (h : e.NamesAgree) (now : String) {ctx : EvaluationContext}
  (hctx : ctx.properties = e.properties)
include h hctx

/-- What a pass leaves valid has its cached value as meaning. -/
theorem leaves_meantValue :
    ((ofEntity .all e).compute now ctx ⟨e.properties, []⟩).Leaves
      ((ofEntity .all e).passContext now ctx).meantValue := by
  intro name q hq hvalid
  have hkept (hn : ∀ p s, e.properties.get? name = some p → p.status? = some s →
      Scope.all.selects s = false) : e.properties.get? name = some (.computed q) := by
    rw [← hq]
    exact (compute_unselected h now .all hctx hn).symm
  have hderived : ∃ p s, e.properties.get? name = some p ∧ p.status? = some s ∧
      Scope.all.selects s = true := by
    by_contra hno
    have hsame := hkept fun p s hp hs => by
      by_contra hsel
      exact hno ⟨p, s, hp, hs, by simpa using hsel⟩
    refine hno ⟨_, _, hsame, rfl, Scope.selects_all_iff.2 ?_⟩
    rw [hvalid]
    decide
  obtain ⟨p, s, hp, hs, hsel⟩ := hderived
  cases p with
  | literal p => exact nomatch hs
  | measured p => exact nomatch hs
  | inherited p =>
    cases hs
    rw [compute_inherited h now .all hctx hp hsel] at hq
    obtain ⟨p', hp'⟩ := Verdict.inherited_applied (Verdict.ofSource now ctx p) p
    rw [hp'] at hq
    exact nomatch hq
  | computed p =>
    cases hs
    have hsel' := Scope.selects_all_iff.1 hsel
    cases hf : Expression.parse p.expression with
    | error err =>
      rw [compute_unreadable h now .all hctx hp hsel hf, Verdict.failed_applied hsel'] at hq
      cases hq
      exact nomatch hvalid
    | ok f =>
      obtain ⟨r, _, hsound, hget⟩ := compute_answer h now .all hctx hp hsel hf
      rw [hget] at hq
      have hq := Option.some.inj hq
      have hr := Verdict.ofAnswer_eq_ok hsel' now name (by rw [hq]; exact congrArg some hvalid)
      rw [hq] at hr
      subst hr
      rw [EvaluationContext.meantValue, hsound trivial]
      rfl

/-- A selected property ends up circular exactly when the way along first failing reads comes back
    to it. -/
theorem compute_circular_iff
    (hr : (ofEntity .all e).Regular ((ofEntity .all e).passContext now ctx)
      ((ofEntity .all e).compute now ctx ⟨e.properties, []⟩))
    {name : String} (hname : ((ofEntity .all e).pending.get? name).isSome) :
    ∃ p, ((ofEntity .all e).compute now ctx ⟨e.properties, []⟩).properties.get? name = some p ∧
      ((∀ limit, p.error? ≠ some (EvalError.depthExceeded limit).message) →
        (p.status? = some .circular ↔
          Relation.TransGen (ReadGraph.FirstDoomed (ofEntity .all e).pending) name name)) := by
  obtain ⟨f, hf⟩ := Option.isSome_iff_exists.1 hname
  obtain ⟨p, hp, hsel, hparse⟩ := (get?_formulas_iff h).1 ((get?_pending_iff _).1 hf)
  obtain ⟨r, htraced, _, hget⟩ := compute_answer h now .all hctx hp hsel hparse
  have hsel := Scope.selects_all_iff.1 hsel
  refine ⟨_, hget, fun hdepth => ?_⟩
  have hregular : ((ofEntity .all e).passContext now ctx).Regular :=
    ⟨hr.unconditional, fun q g hg => hr.faultless q g hg _ (leaves_meantValue h now hctx)⟩
  have hdeep : ¬ TooDeep r := by
    intro hd
    cases r with
    | ok v => exact hd
    | error err =>
      cases err with
      | depthExceeded limit => exact hdepth limit (Verdict.ofAnswer_applied_error hsel now name _)
      | _ => exact hd
  have hleads : ((ofEntity .all e).passContext now ctx).Leads =
      ReadGraph.FirstDoomed (ofEntity .all e).pending := by
    funext a b
    exact propext (EvaluationContext.leads_iff_firstDoomed hregular)
  rw [Verdict.ofAnswer_applied_status_iff hsel, htraced.isCycleMember_iff hdeep, hleads]

end Properties

end Selection

/-! ### Lists of properties -/

/-- The list of own properties. -/
def Expression.listing (names : List String) : Expression := .list (names.map .selfProperty)

/-- The names in a list of own properties. -/
def Expression.listed? : Expression → Option (List String)
  | .list items => items.mapM ownName?
  | _ => none

theorem Expression.eq_listing {e : Expression} {names : List String} (h : e.listed? = some names) :
    e = listing names := by
  cases e with
  | list items =>
    have h : items.mapM ownName? = some names := h
    unfold listing
    congr 1
    induction items generalizing names with
    | nil =>
      cases h
      rfl
    | cons e rest ih =>
      rw [List.mapM_cons] at h
      obtain ⟨name, hname, h⟩ := Option.bind_eq_some_iff.1 h
      obtain ⟨names', hnames, h⟩ := Option.bind_eq_some_iff.1 h
      cases h
      rw [List.map_cons, ih hnames hnames]
      cases e with
      | selfProperty n =>
        cases hname
        rfl
      | _ => exact nomatch hname
  | _ => exact nomatch h

theorem Expression.listing_unconditional (names : List String) : (listing names).Unconditional := by
  intro d hd
  rw [parts_eq] at hd
  rcases List.mem_cons.1 hd with rfl | hd
  · rfl
  · obtain ⟨c, hc, hd⟩ := List.mem_flatMap.1 hd
    obtain ⟨name, _, rfl⟩ := List.mem_map.1 hc
    rw [List.mem_singleton.1 hd]
    rfl

theorem EvaluationContext.listing_faultless {ctx : EvaluationContext} {names : List String}
    (h : ∀ name ∈ names, ctx.pending.contains name = true) (values : String → Option Value) :
    ctx.Faultless values (.listing names) := by
  have hitems : (names.map Expression.selfProperty).mapM (answer (ctx.valueReads values) ctx) =
      (.ok (names.map values) : Except EvalError _) := by
    induction names with
    | nil => rfl
    | cons name rest ih =>
      have hname : answer (ctx.valueReads values) ctx (.selfProperty name) = .ok (values name) :=
        if_pos (h name List.mem_cons_self)
      rw [List.map_cons, List.mapM_cons, hname, ih fun n hn => h n (List.mem_cons_of_mem _ hn)]
      rfl
  unfold Faultless
  rw [answer_eq]
  refine ⟨some (.ofItems ((names.map values).filterMap id)), ?_⟩
  show ((names.map Expression.selfProperty).mapM (answer (ctx.valueReads values) ctx) >>= _) = _
  rw [hitems]
  rfl

/-- Lists of selected properties are among the formulas that the statement is about. -/
theorem Selection.regular_of_listed {s : Selection} (now : String) (ctx : EvaluationContext)
    (o : PassOutcome)
    (h : ∀ f ∈ s.pending.values, f.listed?.any (fun names => names.all s.pending.contains) = true) :
    s.Regular (s.passContext now ctx) o := by
  have hlisting {name : String} {f : Expression} (hf : s.pending.get? name = some f) :
      ∃ names, f = .listing names ∧ ∀ n ∈ names, s.pending.contains n = true := by
    obtain ⟨names, hnames, hall⟩ :=
      (Option.any_eq_true ..).1 (h f (Dict.mem_values_iff.2 ⟨name, hf⟩))
    exact ⟨names, Expression.eq_listing hnames, List.all_eq_true.1 hall⟩
  constructor
  · intro name f hf
    obtain ⟨names, rfl, _⟩ := hlisting hf
    exact Expression.listing_unconditional names
  · intro name f hf values _
    obtain ⟨names, rfl, hnames⟩ := hlisting hf
    exact EvaluationContext.listing_faultless hnames values

/-! ### Recomputing an entity -/

/-- A pass over all properties that can fetch its context leaves a property circular exactly when
    the way along first failing reads comes back to it, unless evaluation ran out of levels. -/
theorem Entity.recompute_circular_iff {σ : Type} {store : EntityStore σ} {s : σ} {settings : Settings}
    {e : Entity} (h : e.NamesAgree) (now : String) {ctx : EvaluationContext}
    (hg : ((EvaluationContext.gather settings e
      (Selection.ofEntity .all e).pending.values).run.run store s).1 = .ok ctx)
    (hr : (Selection.ofEntity .all e).Regular ((Selection.ofEntity .all e).passContext now ctx)
      ((e.recompute settings now .all).run store s).1)
    {name : String} (hname : ((Selection.ofEntity .all e).pending.get? name).isSome) :
    ∃ p, ((e.recompute settings now .all).run store s).1.properties.get? name = some p ∧
      ((∀ limit, p.error? ≠ some (EvalError.depthExceeded limit).message) →
        (p.status? = some .circular ↔ Relation.TransGen
          (ReadGraph.FirstDoomed (Selection.ofEntity .all e).pending) name name)) := by
  have hctx : ctx.properties = e.properties :=
    ((EvaluationContext.gather_grows settings e _).run store s ctx hg).properties
  rw [recompute_run now hg] at hr ⊢
  exact Selection.compute_circular_iff h now hctx ⟨hr.unconditional, hr.faultless⟩ hname

/-- An entity with computed properties only. -/
def Entity.ofFormulas (formulas : List (String × String)) : Entity :=
  formulas.foldl (fun e f => e.withProperty (.computed { name := f.1, expression := f.2 }))
    { id := "entity", typePath := "entity" }

/-- Two properties that read each other. -/
def mutualPair : Entity := .ofFormulas [("a", "[#b]"), ("b", "[#a]")]

theorem mutualPair_circular_iff :
    ∃ p, ((mutualPair.recompute {} "now" .all).run MemoryStore.store {}).1.properties.get? "a" =
        some p ∧
      ((∀ limit, p.error? ≠ some (EvalError.depthExceeded limit).message) →
        (p.status? = some .circular ↔ Relation.TransGen
          (ReadGraph.FirstDoomed (Selection.ofEntity .all mutualPair).pending) "a" "a")) := by
  have hnames : mutualPair.NamesAgree := Entity.namesAgree_iff.2 (by decide +kernel)
  have hname : ((Selection.ofEntity .all mutualPair).pending.get? "a").isSome := by decide +kernel
  obtain ⟨ctx, hg, _⟩ := EvaluationContext.exists_gathered (s := {}) rfl {} mutualPair
    (fun _ _ h => (nomatch h)) (Selection.ofEntity .all mutualPair).pending.values
  have hr := (Selection.ofEntity .all mutualPair).regular_of_listed "now" ctx
    ((mutualPair.recompute {} "now" .all).run MemoryStore.store {}).1 (by decide +kernel)
  exact Entity.recompute_circular_iff hnames "now" hg hr hname

/-- A property that lies on a cycle with another one, which has an earlier read on a cycle. -/
def shadowed : Entity := .ofFormulas [("a", "[#b, #c]"), ("b", "[#a]"), ("c", "[#a]")]

/-- The property lies on a cycle of reads and is left with an error, about another cycle, and not
    as circular. -/
theorem shadowed_not_circular :
    shadowed.NamesAgree ∧
    (∀ ctx o, (Selection.ofEntity .all shadowed).Regular
      ((Selection.ofEntity .all shadowed).passContext "now" ctx) o) ∧
    Relation.TransGen (ReadGraph.Edge (Selection.ofEntity .all shadowed).pending) "c" "c" ∧
    (((shadowed.recompute {} "now" .all).run MemoryStore.store {}).1.properties.get? "c").map
      (fun p => (p.status?, p.error?)) = some (some .error, some "circular reference: a -> b -> a") := by
  refine ⟨Entity.namesAgree_iff.2 (by decide +kernel), fun ctx o => ?_, ?_, by decide +kernel⟩
  · exact Selection.regular_of_listed "now" ctx o (by decide +kernel)
  · have hca : ReadGraph.Edge (Selection.ofEntity .all shadowed).pending "c" "a" := by decide +kernel
    have hac : ReadGraph.Edge (Selection.ofEntity .all shadowed).pending "a" "c" := by decide +kernel
    exact .tail (.single hca) hac

end EntityFormulas
