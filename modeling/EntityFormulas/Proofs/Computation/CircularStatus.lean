/-
  EntityFormulas/Proofs/Computation/CircularStatus.lean
  =====================================================
  **Circular properties lie on cycles.**

  A pass makes a property circular on the word of its evaluator, which may have
  found the cycle while it evaluated another property.  The evaluator reports
  cycles of pending formulas only (`Eval.Call.answer_genuine`), and what is
  pending in a pass are the formulas that it has selected and could read.  So a
  property that a pass makes circular lies on a cycle of these, whatever the
  store answers (`Entity.recompute_circular`).

  The converse does not hold: a property on a cycle may end with an error, and
  `Circularity.lean` says when.
-/
import EntityFormulas.Proofs.Computation.Circularity
import EntityFormulas.Proofs.Computation.Verdicts
import EntityFormulas.Proofs.Evaluation.ReportedCycles

namespace EntityFormulas

/-- Whether the formula of a computed property that a pass selects can be read, and mentions
    another property. -/
def Entity.Calls (scope : Scope) (e : Entity) (x y : String) : Prop :=
  ∃ p f, e.properties.get? x = some (.computed p) ∧ scope.selects p.status = true ∧
    Expression.parse p.expression = .ok f ∧ f.Mentions y

namespace Selection

variable {e : Entity} (h : e.NamesAgree) (scope : Scope)
include h

/-- What is pending in a pass is what it selects. -/
theorem calls_of_passContext {now : String} {ctx : EvaluationContext} {x y : String}
    (hcalls : ((ofEntity scope e).passContext now ctx).Calls x y) : e.Calls scope x y := by
  obtain ⟨f, hf, hy⟩ := hcalls
  obtain ⟨p, hp, hsel, hparse⟩ := (get?_formulas_iff h).1 ((get?_pending_iff _).1 hf)
  exact ⟨p, f, hp, hsel, hparse, hy⟩

/-- A pass that has found its context. -/
theorem compute_circular (now : String) {ctx : EvaluationContext}
    (hctx : ctx.properties = e.properties) {name : String} {p : ComputedProperty}
    (hp : e.properties.get? name = some (.computed p)) (hsel : scope.selects p.status = true)
    {q : Property} (hq : ((ofEntity scope e).compute now ctx ⟨e.properties, []⟩).properties.get? name =
      some q) (hcircular : q.status? = some .circular) :
    ∃ path, name ∈ path ∧ Circuit (e.Calls scope) path := by
  have hstatus := Scope.ne_circular_of_selects hsel
  cases hparse : Expression.parse p.expression with
  | error err =>
    rw [compute_unreadable h now scope hctx hp hsel hparse, Verdict.failed_applied hstatus] at hq
    cases hq
    exact nomatch hcircular
  | ok f =>
    -- The evaluator goes through the properties one after another; between two there is nothing
    -- under evaluation.
    obtain ⟨s, ⟨hs, hidle⟩, hget⟩ := compute_computed (P := fun s =>
        ((ofEntity scope e).passContext now ctx).Chained s ∧ s.inProgress = []) h now scope hctx
      (fun name s hs => by
        obtain ⟨hs', hidle, -⟩ := (Eval.Call.property name).run_genuine hs.1 hs.2
        exact ⟨hs', hidle⟩)
      ⟨Eval.Call.after_chained [], rfl⟩ hp hsel hparse
    rw [hget] at hq
    cases hq
    obtain ⟨err, hr, hmem⟩ := (Verdict.ofAnswer_applied_status_iff hstatus now name _).1 hcircular
    obtain ⟨-, -, hgenuine⟩ := (Eval.Call.property name).run_genuine hs hidle
    cases err with
    | circular path =>
      refine ⟨path, of_decide_eq_true hmem, ?_⟩
      exact (hgenuine path hr).mono fun x y => calls_of_passContext h scope
    | _ => exact nomatch hmem

end Selection

namespace Entity

/-- What becomes circular is a computed property with that verdict. -/
theorem Judged.exists_circular {scope : Scope} {e : Entity} {vs : List (String × Verdict)}
    {o : PassOutcome} (h : e.Judged scope vs o) {name : String} {q : Property}
    (hq : o.properties.get? name = some q) (hcircular : q.status? = some .circular)
    (hbefore : ∀ p, e.properties.get? name = some p → p.status? ≠ some .circular) :
    ∃ p m, e.properties.get? name = some (.computed p) ∧ scope.selects p.status = true ∧
      (name, .circular m) ∈ vs := by
  by_cases hsel : ∃ v, (name, v) ∈ vs
  · obtain ⟨v, hv⟩ := hsel
    obtain ⟨p, s, hp, hs, hsel⟩ := (h.selects name).1 ⟨v, hv⟩
    have hstatus := (v.settles hs (Scope.ne_circular_of_selects hsel)).status
    rw [h.get? hv, hp, Option.map_some] at hq
    cases hq
    rw [hstatus, Option.some.injEq, Verdict.status_eq_circular_iff] at hcircular
    obtain ⟨⟨m, rfl⟩, p, rfl⟩ := hcircular
    cases hs
    exact ⟨p, m, hp, hsel, hv⟩
  · rw [h.get?_unselected fun p s hp hs => by
      by_contra hno
      exact hsel ((h.selects name).2 ⟨p, s, hp, hs, by simpa using hno⟩)] at hq
    exact absurd hcircular (hbefore q hq)

/-- A pass makes computed properties circular only, and these lie on cycles of the formulas that it
    has selected. -/
theorem recompute_circular {σ : Type} (store : EntityStore σ) (s : σ) (settings : Settings)
    (now : String) (scope : Scope) {e : Entity} (h : e.NamesAgree) {name : String} {q : Property}
    (hq : ((e.recompute settings now scope).run store s).1.properties.get? name = some q)
    (hcircular : q.status? = some .circular)
    (hbefore : ∀ p, e.properties.get? name = some p → p.status? ≠ some .circular) :
    ∃ path, name ∈ path ∧ Circuit (e.Calls scope) path := by
  rcases (e.recompute_ends settings now scope).run store s with ⟨ctx, hctx, ho⟩ | ⟨message, ho⟩ <;>
    rw [ho] at hq
  · obtain ⟨p, m, hp, hsel, -⟩ :=
      (Selection.judged_compute h scope now hctx).exists_circular hq hcircular hbefore
    exact Selection.compute_circular h scope now hctx hp hsel hq hcircular
  · obtain ⟨p, m, -, -, hv⟩ :=
      (Selection.judged_failed h scope message).exists_circular hq hcircular hbefore
    obtain ⟨n, -, heq⟩ := List.mem_map.1 hv
    exact nomatch heq

end Entity

/-! ### Reports and statuses -/

/-- A cycle that a call reports, whatever calls came before it, goes round once through pending
    formulas, each of which mentions the next name; and what a pass makes circular lies on such a
    cycle of the formulas that it has selected. -/
theorem cycles_genuine :
    (∀ (ctx : EvaluationContext) (calls : List Eval.Call) (c : Eval.Call) (path : List String),
      (c.run ctx (Eval.Call.after ctx calls)).1 = .error (.circular path) →
        Circuit ctx.Calls path ∧ ∀ name ∈ path, ∃ f, ctx.pending.get? name = some f) ∧
    ∀ {σ : Type} (store : EntityStore σ) (s : σ) (settings : Settings) (now : String)
      (scope : Scope) (e : Entity), e.NamesAgree → ∀ name q,
      ((e.recompute settings now scope).run store s).1.properties.get? name = some q →
      q.status? = some .circular →
      (∀ p, e.properties.get? name = some p → p.status? ≠ some .circular) →
      ∃ path, name ∈ path ∧ Circuit (e.Calls scope) path := by
  constructor
  · intro ctx calls c path hpath
    have hcircuit : Circuit ctx.Calls path := c.answer_genuine calls path hpath
    refine ⟨hcircuit, ?_⟩
    intro name hname
    obtain ⟨y, f, hf, -⟩ := hcircuit.exists_next hname
    exact ⟨f, hf⟩
  · intro σ store s settings now scope e h name q hq hcircular hbefore
    exact Entity.recompute_circular store s settings now scope h hq hcircular hbefore

/-- Two properties that read each other, and one that reads the first of them. -/
def twoAndOne : EvaluationContext where
  entity := { id := "entity", typePath := "entity" }
  properties := .empty
  pending := ((Dict.empty.insert "a" (.unary .not (.selfProperty "b"))).insert "b"
    (.selfProperty "a")).insert "c" (.selfProperty "a")
  strict := false
  recursionLimit := 5

/-- The cycle was found while another property was read, and the property that it is reported for
    is not on it. -/
theorem shadowed_cycles :
    Circuit twoAndOne.Calls ["a", "b", "a"] ∧
    ((Eval.Call.property "c").run twoAndOne
      (Eval.Call.after twoAndOne [.property "a"])).1 = .error (.circular ["a", "b", "a"]) ∧
    ∃ path, "b" ∈ path ∧ Circuit (shadowed.Calls .all) path := by
  have hanswer : ((Eval.Call.property "c").run twoAndOne
      (Eval.Call.after twoAndOne [.property "a"])).1 =
        .error (.circular ["a", "b", "a"]) := by rfl
  refine ⟨?_, hanswer, ?_⟩
  · exact (cycles_genuine.1 twoAndOne [.property "a"] (.property "c") _ hanswer).1
  · have hstatus : (((shadowed.recompute {} "now" .all).run MemoryStore.store {}).1.properties.get?
        "b").any (fun q => q.status? = some .circular) = true := by decide +kernel
    obtain ⟨q, hq, hcircular⟩ := (Option.any_eq_true ..).1 hstatus
    refine cycles_genuine.2 MemoryStore.store {} {} "now" .all shadowed
      (Entity.namesAgree_iff.2 (by decide +kernel)) "b" q hq (of_decide_eq_true hcircular) ?_
    intro p hp hno
    have hpending : (shadowed.properties.get? "b").any (fun p => p.status? = some .circular) =
        false := by decide +kernel
    rw [hp, Option.any_some, hno] at hpending
    exact absurd hpending (by decide)

end EntityFormulas
