/-
  EntityFormulas/Proofs/Computation/Repetition.lean
  =================================================
  **A full pass after a full pass.**

  The second pass starts from what the first one has left.  It finds inherited
  properties as they are and formulas with the meanings that they have, so it
  leaves everything in the state in which it found it, with one exception
  (`recompute_again`): properties that the first pass finds on a cycle are not
  evaluated again but read as they are stored.  A property that only reads them
  gets a value then, and others may come to run out of levels, or no longer.
-/
import EntityFormulas.Proofs.Computation.Circularity
import EntityFormulas.Proofs.Computation.Marking
import EntityFormulas.Proofs.Computation.Passes
import EntityFormulas.Proofs.Evaluation.Caching

namespace EntityFormulas

open EvaluationContext

/-! ### What a pass makes of single properties -/

namespace Verdict

/-- A verdict leaves where an inherited property comes from. -/
theorem applied_inherited (v : Verdict) {p : InheritedProperty} (h : p.status ≠ .circular) :
    ∃ q, v.applied (.inherited p) = .inherited q ∧ q.status ≠ .circular ∧
      q.override = p.override ∧ q.source = p.source ∧ q.sourceProperty = p.sourceProperty := by
  obtain ⟨name, source, sourceName, override, resolved, status, error⟩ := p
  cases v <;> cases status <;> first | exact absurd rfl h | exact ⟨_, rfl, nofun, rfl, rfl, rfl⟩

end Verdict

/-! ### One full pass -/

/-- The property failed since it reads a cycle that it is not on. -/
def ComputedProperty.ReadsCycle (p : ComputedProperty) : Prop :=
  p.status = .error ∧ ∃ path, p.error = some (EvalError.circular path).message ∧ p.name ∉ path

namespace Verdict

variable {p q : ComputedProperty} (h : p.status ≠ .circular) {now now' name : String}
include h

/-- A property that gets the answer again that it got stays in its state. -/
theorem ofAnswer_again {r : EvalResult} (hq : (ofAnswer now name r).applied (.computed p) = .computed q)
    (hne : q.status ≠ .circular) : ∃ q', (ofAnswer now' name r).applied (.computed q) = .computed q' ∧
      q'.status = q.status ∧ q'.cached = q.cached := by
  cases r with
  | ok v =>
    rw [ofAnswer, valid_applied h] at hq
    rw [ofAnswer, valid_applied hne]
    cases hq
    exact ⟨_, rfl, rfl, rfl⟩
  | error err =>
    rw [ofAnswer] at hq ⊢
    by_cases hmem : err.isCycleMember name = true
    · rw [if_pos hmem, circular_applied h] at hq
      cases hq
      exact absurd rfl hne
    · rw [if_neg hmem, failed_applied h] at hq
      rw [if_neg hmem, failed_applied hne]
      cases hq
      exact ⟨_, rfl, rfl, rfl⟩

/-- A property that gets a cycle for an answer is on it, or only reads it. -/
theorem readsCycle_of_circular {path : List String}
    (hq : (ofAnswer now name (.error (.circular path))).applied (.computed p) = .computed q)
    (hname : p.name = name) (hne : q.status ≠ .circular) : q.ReadsCycle := by
  rw [ofAnswer] at hq
  by_cases hmem : (EvalError.circular path).isCycleMember name = true
  · rw [if_pos hmem, circular_applied h] at hq
    cases hq
    exact absurd rfl hne
  · rw [if_neg hmem, failed_applied h] at hq
    cases hq
    exact ⟨rfl, path, rfl, fun hin => hmem (decide_eq_true (hname ▸ hin))⟩

end Verdict

namespace Entity

/-- The entity with the properties that a pass leaves. -/
def after (e : Entity) (o : PassOutcome) : Entity := { e with properties := o.properties }

/-- The pass finds a property on a cycle that has not been found there before. -/
def FindsCycle (e : Entity) (o : PassOutcome) : Prop :=
  ∃ name, (o.properties.get? name).bind Property.status? = some .circular ∧
    (e.properties.get? name).bind Property.status? ≠ some .circular

end Entity

namespace Selection

/-- What a full pass over an entity gathers for. -/
def gathering (settings : Settings) (t : TenantTable) (e : Entity) : Gathering :=
  ⟨settings, t, e, (ofEntity .all e).pending.values⟩

/-- The context that has everything that the tenant has, for the formulas of a full pass and the
    values that it leaves. -/
def everything (settings : Settings) (t : TenantTable) (e : Entity) (o : PassOutcome) :
    EvaluationContext :=
  (gathering settings t e).full (ofEntity .all e).pending o.properties

section Everything

variable (settings : Settings) (t : TenantTable) (e : Entity) (o o' : PassOutcome)

theorem everything_pending : (everything settings t e o).pending = (ofEntity .all e).pending :=
  (gathering settings t e).full_pending _ _

theorem everything_properties : (everything settings t e o).properties = o.properties :=
  (gathering settings t e).full_properties _ _

theorem everything_limit : (everything settings t e o).recursionLimit = settings.recursionLimit :=
  ((gathering settings t e).full_grows _ _).limit

theorem everything_alike :
    (everything settings t e o).Alike (everything settings t (e.after o) o') := by
  have hgrow := (gathering settings t e).full_grows (ofEntity .all e).pending o.properties
  have hgrow' := (gathering settings t (e.after o)).full_grows (ofEntity .all (e.after o)).pending
    o'.properties
  refine ⟨hgrow.strict.trans hgrow'.strict.symm, ?_, ?_⟩
  · exact (congrArg Entity.id hgrow.entity).trans (congrArg Entity.id hgrow'.entity).symm
  · exact (congrArg Entity.typePath hgrow.entity).trans (congrArg Entity.typePath hgrow'.entity).symm

theorem everything_entities (hk : t.Keyed) :
    (everything settings t e o).entities = (everything settings t (e.after o) o').entities :=
  Dict.ext_get? fun id => ((gathering settings t e).full_entities _ _ hk id).trans
    ((gathering settings t (e.after o)).full_entities _ _ hk id).symm

theorem everything_relationships : (everything settings t e o).relationships =
    (everything settings t (e.after o) o').relationships :=
  Dict.ext_get? fun id => ((gathering settings t e).full_relationships _ _ id).trans
    ((gathering settings t (e.after o)).full_relationships _ _ id).symm

end Everything

/-- Gathering tracks what the formulas of a full pass read. -/
def Tracks (settings : Settings) (t : TenantTable) (e : Entity) (o : PassOutcome) : Prop :=
  (gathering settings t e).Tracked (ofEntity .all e).pending o.properties

/-- A full pass over an entity in a context that has been gathered for it, and what it leaves. -/
structure Leaves (settings : Settings) (t : TenantTable) (e : Entity) (now : String)
    (ctx : EvaluationContext) (o : PassOutcome) : Prop where
  keyed : t.Keyed
  names : e.NamesAgree
  gathered : Gathered t settings e (ofEntity .all e).pending.values ctx
  tracks : Tracks settings t e o
  outcome : o.properties = ((ofEntity .all e).compute now ctx ⟨e.properties, []⟩).properties

namespace Leaves

variable {settings : Settings} {t : TenantTable} {e : Entity} {now : String}
  {ctx : EvaluationContext} {o : PassOutcome} (hp : Leaves settings t e now ctx o)
include hp

theorem passed : Passed .all settings t e now ctx o.properties :=
  ⟨hp.keyed, hp.names, hp.gathered, hp.outcome⟩

theorem properties : ctx.properties = e.properties := hp.passed.properties

theorem moves (name : String) : o.properties.get? name = e.properties.get? name ∨
    ∃ p s, ∃ v : Verdict, e.properties.get? name = some p ∧ p.status? = some s ∧ s ≠ .circular ∧
      o.properties.get? name = some (v.applied p) := by
  refine (hp.passed.moves name).imp_right ?_
  rintro ⟨p, s, v, hget, hs, hsel, ho⟩
  exact ⟨p, s, v, hget, hs, Scope.selects_all_iff.1 hsel, ho⟩

theorem contains (name : String) : o.properties.contains name = e.properties.contains name :=
  hp.passed.contains name

theorem namesAgree : (e.after o).NamesAgree := by
  intro name p hget
  rcases hp.moves name with heq | ⟨q, _, v, hq, _, _, heq⟩
  · exact hp.names name p (heq ▸ hget)
  · rw [show o.properties.get? name = some p from hget] at heq
    cases heq
    rw [v.applied_name, hp.names name q hq]

/-- Every formula is there again, except for those of properties on a cycle. -/
theorem formulas_after {name : String} {r : Except ParseError Expression} :
    (ofEntity .all (e.after o)).formulas.get? name = some r ↔
      (ofEntity .all e).formulas.get? name = some r ∧
        (o.properties.get? name).bind Property.status? ≠ some .circular := by
  rw [get?_formulas_iff hp.namesAgree, get?_formulas_iff hp.names]
  show (∃ p, o.properties.get? name = some (.computed p) ∧ _) ↔ _
  constructor
  · rintro ⟨q, hq, hsel, hparse⟩
    have hstatus : (o.properties.get? name).bind Property.status? ≠ some .circular := by
      rw [hq]
      exact fun h => Scope.selects_all_iff.1 hsel (Option.some.inj h)
    refine ⟨?_, hstatus⟩
    rcases hp.moves name with heq | ⟨p, s, v, hget, hs, hne, heq⟩
    · exact ⟨q, heq ▸ hq, hsel, hparse⟩
    · rw [hq] at heq
      cases p with
      | literal p | measured p => exact nomatch hs
      | inherited p =>
        obtain ⟨q', hq'⟩ := v.inherited_applied p
        rw [hq'] at heq
        exact nomatch heq
      | computed p =>
        cases hs
        obtain ⟨q', hq', hexpression, _⟩ := v.applied_computed hne
        rw [hq'] at heq
        cases heq
        exact ⟨p, hget, Scope.selects_all_iff.2 hne, hexpression ▸ hparse⟩
  · rintro ⟨⟨p, hget, hsel, hparse⟩, hstatus⟩
    rcases hp.moves name with heq | ⟨p', s, v, hget', hs, hne, heq⟩
    · exact ⟨p, heq.trans hget, hsel, hparse⟩
    · rw [hget] at hget'
      cases hget'
      obtain ⟨q, hq, hexpression, _⟩ := v.applied_computed (Scope.selects_all_iff.1 hsel)
      rw [hq] at heq
      rw [heq] at hstatus
      exact ⟨q, heq, Scope.selects_all_iff.2 fun h => hstatus (congrArg some h),
        hexpression ▸ hparse⟩

theorem pending_after {name : String} {f : Expression} :
    (ofEntity .all (e.after o)).pending.get? name = some f ↔
      (ofEntity .all e).pending.get? name = some f ∧
        (o.properties.get? name).bind Property.status? ≠ some .circular := by
  rw [get?_pending_iff, get?_pending_iff, hp.formulas_after]

/-! #### Answers in the context that has everything -/

theorem get?_of_verdict {name : String} {v : Verdict} (hv : (name, v) ∈ formulaVerdicts now
      (everything settings t e o) (ofEntity .all e).formulas.entries {}) :
    o.properties.get? name = (e.properties.get? name).map v.applied :=
  hp.passed.get?_of_verdict hp.tracks hv

omit hp in
theorem exists_answer {name : String} {f : Expression}
    (hf : (ofEntity .all e).pending.get? name = some f) :
    ∃ s, (everything settings t e o).Between s ∧ ∀ now, (name, Verdict.ofAnswer now name
        (Eval.property (everything settings t e o) name s).1) ∈
      formulaVerdicts now (everything settings t e o) (ofEntity .all e).formulas.entries {} :=
  Passed.exists_answer hf

/-- A property has no meaning that the pass finds on a cycle. -/
theorem not_settled_of_circular {name : String} {f : Expression}
    (hf : (ofEntity .all e).pending.get? name = some f)
    (hc : (o.properties.get? name).bind Property.status? = some .circular) :
    ¬ Settled ((everything settings t e o).ownMeaning name) := by
  obtain ⟨p, r, -, hne, htraced, -, ho⟩ := hp.passed.answer hp.tracks hf
  have htraced : (everything settings t e o).Traced name r := htraced
  rw [ho] at hc
  obtain ⟨err, hr, hmem⟩ := (Verdict.ofAnswer_applied_status_iff hne now name r).1 hc
  intro hsettled
  rcases htraced.1 hsettled with hans | hdeep
  · rw [hr] at hans
    rw [← hans] at hsettled
    cases err with
    | circular path => exact hsettled trivial
    | _ => exact nomatch hmem
  · rw [hr] at hdeep
    cases err with
    | depthExceeded limit => exact nomatch hmem
    | _ => exact hdeep

end Leaves

/-! ### Two full passes -/

section Twice

variable {settings : Settings} {t : TenantTable} {e : Entity} {now now' : String}
  {ctx ctx' : EvaluationContext} {o o' : PassOutcome} (hp : Leaves settings t e now ctx o)
  (hp' : Leaves settings t (e.after o) now' ctx' o')
  (hself : ∀ name p, e.properties.get? name = some (.inherited p) → p.override = none →
    p.source = e.id → (o.properties.get? p.sourceProperty).map Property.current =
      (e.properties.get? p.sourceProperty).map Property.current)
include hp hp' hself

/-- The second pass finds inherited properties as they are. -/
theorem inherited_again {name : String} {p : InheritedProperty}
    (hget : e.properties.get? name = some (.inherited p)) (hne : p.status ≠ .circular) :
    o'.properties.get? name = o.properties.get? name := by
  have ho : o.properties.get? name = some ((Verdict.ofSource now ctx p).applied (.inherited p)) :=
    hp.passed.inherited hget (Scope.selects_all_iff.2 hne)
  obtain ⟨q, hq, hne', hoverride, hsource, hproperty⟩ :=
    (Verdict.ofSource now ctx p).applied_inherited hne
  have hget' : (e.after o).properties.get? name = some (.inherited q) := hq ▸ ho
  have ho' : o'.properties.get? name =
      some ((Verdict.ofSource now' ctx' q).applied (.inherited q)) :=
    hp'.passed.inherited hget' (Scope.selects_all_iff.2 hne')
  have hknown : ctx.entity? p.source = t.known e p.source := hp.passed.source_known hget
  have hknown' : ctx'.entity? p.source = t.known (e.after o) p.source :=
    hsource ▸ hp'.passed.source_known hget'
  have hfound : p.override = none →
      (ctx.entity? p.source).isSome = (ctx'.entity? p.source).isSome ∧
      ((ctx.entity? p.source).bind (·.property? p.sourceProperty)).map Property.current =
        ((ctx'.entity? p.source).bind (·.property? p.sourceProperty)).map Property.current := by
    intro hnone
    rw [hknown, hknown']
    unfold TenantTable.known
    by_cases hid : p.source = e.id
    · rw [if_pos hid, if_pos (show p.source = (e.after o).id from hid)]
      exact ⟨rfl, (hself name p hget hnone hid).symm⟩
    · rw [if_neg hid, if_neg (show ¬ p.source = (e.after o).id from hid)]
      exact ⟨rfl, rfl⟩
  rw [ho', ho]
  rcases Verdict.ofSource_again hoverride hsource hproperty hfound with
    ⟨v, hv, hv'⟩ | ⟨m, hm, hm'⟩
  · rw [hv', hv, Verdict.valid_applied_inherited hne', Verdict.valid_applied_inherited hne]
    rw [hv, Verdict.valid_applied_inherited hne] at hq
    cases hq
    rfl
  · rw [hm', hm, Verdict.failed_applied_inherited hne', Verdict.failed_applied_inherited hne]
    rw [hm, Verdict.failed_applied_inherited hne] at hq
    cases hq
    rfl

/-- What has no formula to evaluate the second time stays as it is. -/
theorem unevaluated_again {name : String}
    (hn : (ofEntity .all (e.after o)).pending.get? name = none) :
    o'.properties.get? name = o.properties.get? name := by
  rcases hp'.moves name with heq | ⟨q, st, v, hq, hst, hne, heq⟩
  · exact heq
  · have hq : o.properties.get? name = some q := hq
    cases q with
    | literal q | measured q => exact nomatch hst
    | inherited q =>
      -- it was an inherited property before as well, on no cycle
      cases hst
      rcases hp.moves name with hsame | ⟨p, st, w, hget, hst, hne', hmove⟩
      · exact inherited_again hp hp' hself (hsame ▸ hq) hne
      · cases p with
        | literal p | measured p => exact nomatch hst
        | inherited p =>
          cases hst
          exact inherited_again hp hp' hself hget hne'
        | computed p =>
          cases hst
          obtain ⟨q', hq', _⟩ := w.applied_computed hne'
          rw [hq, hq'] at hmove
          exact nomatch hmove
    | computed q =>
      cases hst
      have hsel : Scope.all.selects q.status = true := Scope.selects_all_iff.2 hne
      cases hf : Expression.parse q.expression with
      | ok f =>
        rw [(get?_pending_iff _).2 ((get?_formulas_iff hp'.names).2 ⟨q, hq, hsel, hf⟩)] at hn
        exact nomatch hn
      | error err =>
        obtain ⟨hformula, _⟩ :=
          hp.formulas_after.1 ((get?_formulas_iff hp'.names).2 ⟨q, hq, hsel, hf⟩)
        obtain ⟨p, hget, hsel', hf'⟩ := (get?_formulas_iff hp.names).1 hformula
        have ho := compute_unreadable hp.names now .all hp.properties hget hsel' hf'
        rw [← hp.outcome, hq, Verdict.failed_applied (Scope.selects_all_iff.1 hsel')] at ho
        rw [hp'.outcome, compute_unreadable hp'.names now' .all hp'.properties hq hsel hf,
          Verdict.failed_applied hne, hq]
        cases ho
        rfl

/-- Formulas have the meanings again that they have. -/
theorem caches_again :
    (everything settings t e o).Caches (everything settings t (e.after o) o') := by
  have halike := everything_alike settings t e o o'
  refine ⟨halike, everything_entities settings t e o o' hp.keyed,
    everything_relationships settings t e o o', fun name => ?_, fun name f hf => ?_,
    fun name hn hs => ?_⟩
  · unfold EvaluationContext.hasOwnProperty
    rw [everything_pending, everything_properties, everything_pending, everything_properties,
      hp.contains, pending_or_contains hp.names, hp'.contains, pending_or_contains hp'.names]
    exact (hp.contains name).symm
  · rw [everything_pending] at hf ⊢
    exact (hp.pending_after.1 hf).1
  · rw [everything_pending] at hn
    have hstored : Evaluation.storedProperty (everything settings t (e.after o) o') name =
        (Evaluation.storedProperty (everything settings t e o) name : EvalResult) := by
      refine (storedProperty_congr halike ?_).symm
      rw [everything_properties, everything_properties, unevaluated_again hp hp' hself hn]
    rw [hstored]
    cases hf : (ofEntity .all e).pending.get? name with
    | none =>
      exact (ownMeaning_stored (by rw [everything_pending, hf])).symm
    | some f =>
      -- it is not evaluated again since it has turned out to be on a cycle
      have hcircular : (o.properties.get? name).bind Property.status? = some .circular := by
        by_contra hne
        rw [hp.pending_after.2 ⟨hf, hne⟩] at hn
        exact nomatch hn
      exact absurd hs (hp.not_settled_of_circular hf hcircular)

/-- Without new cycles the second pass evaluates the same formulas to the same answers. -/
theorem verdicts_again (hno : ¬ e.FindsCycle o) :
    formulaVerdicts now' (everything settings t (e.after o) o')
        (ofEntity .all (e.after o)).formulas.entries {} =
      formulaVerdicts now' (everything settings t e o) (ofEntity .all e).formulas.entries {} := by
  have hformulas : (ofEntity .all (e.after o)).formulas = (ofEntity .all e).formulas := by
    refine Dict.ext_get? fun name => Option.ext fun r => hp.formulas_after.trans ?_
    refine and_iff_left_of_imp fun hr hcircular => hno ⟨name, hcircular, fun hbefore => ?_⟩
    obtain ⟨p, hget, hsel, _⟩ := (get?_formulas_iff hp.names).1 hr
    rw [hget] at hbefore
    exact Scope.selects_all_iff.1 hsel (Option.some.inj hbefore)
  have hpending : (ofEntity .all (e.after o)).pending = (ofEntity .all e).pending := by
    unfold pending
    rw [hformulas]
  have hreads : (everything settings t e o).ReadsAs (everything settings t (e.after o) o') := by
    refine ⟨everything_alike settings t e o o', everything_entities settings t e o o' hp.keyed,
      everything_relationships settings t e o o', ?_, ?_, fun name => ?_, fun name hn => ?_⟩
    · rw [everything_pending, everything_pending, hpending]
    · rw [everything_limit, everything_limit]
    · rw [everything_properties, everything_properties]
      exact (hp'.contains name).symm
    · rw [everything_pending, ← hpending] at hn
      rw [everything_properties, everything_properties, unevaluated_again hp hp' hself hn]
  rw [hformulas]
  exact (formulaVerdicts_congr (P := fun _ => True)
    (fun name _ _ => ⟨by rw [hreads.property], trivial⟩) now' _ trivial).symm

/-- A formula that is evaluated again leaves its property as it is, unless the first pass found a
    new cycle. -/
theorem evaluated_again {name : String} {f : Expression}
    (hf : (ofEntity .all (e.after o)).pending.get? name = some f) :
    ∃ p q, o.properties.get? name = some (.computed p) ∧
      o'.properties.get? name = some (.computed q) ∧
      (q.status = p.status ∧ q.cached = p.cached ∨
        e.FindsCycle o ∧ (p.ReadsCycle ∨ p.RanOut ∨ q.RanOut)) := by
  obtain ⟨hf₀, hstatus⟩ := hp.pending_after.1 hf
  obtain ⟨p₀, hget₀, hsel, _⟩ := (get?_formulas_iff hp.names).1 ((get?_pending_iff _).1 hf₀)
  have hne₀ := Scope.selects_all_iff.1 hsel
  obtain ⟨s, hs, hv⟩ : ∃ s, (everything settings t e o).Between s ∧ _ := Leaves.exists_answer hf₀
  have ho := hp.get?_of_verdict (hv now)
  obtain ⟨p, hmove, _, _⟩ := (Verdict.ofAnswer now name
    (Eval.property (everything settings t e o) name s).1).applied_computed hne₀
  rw [hget₀, Option.map_some, hmove] at ho
  have hne : p.status ≠ .circular := by
    intro h
    rw [ho] at hstatus
    exact hstatus (congrArg some h)
  by_cases hcycle : e.FindsCycle o
  · obtain ⟨s', hs', hv'⟩ : ∃ s, (everything settings t (e.after o) o').Between s ∧ _ :=
      Leaves.exists_answer hf
    have ho' := hp'.get?_of_verdict (hv' now')
    obtain ⟨q, hmove', _, _⟩ := (Verdict.ofAnswer now' name
      (Eval.property (everything settings t (e.after o) o') name s').1).applied_computed hne
    rw [show (e.after o).properties.get? name = some (.computed p) from ho, Option.map_some,
      hmove'] at ho'
    refine ⟨p, q, ho, ho', ?_⟩
    have htraced := (property_traced hs.traced hs.idle name).1
    have htraced' := (property_traced hs'.traced hs'.idle name).1
    by_cases hsettled : Settled ((everything settings t e o).ownMeaning name)
    · have hagain := (caches_again hp hp' hself).ownMeaning hsettled
      rcases htraced.1 hsettled with hr | hdeep
      · rcases htraced'.1 (hagain ▸ hsettled) with hr' | hdeep'
        · rw [hr', hagain, ← hr] at hmove'
          obtain ⟨q', hq', hsame⟩ := Verdict.ofAnswer_again hne₀ hmove hne
          rw [hmove'] at hq'
          cases hq'
          exact .inl hsame
        · exact .inr ⟨hcycle, .inr (.inr (Verdict.ranOut_of_tooDeep hne hdeep' hmove'))⟩
      · exact .inr ⟨hcycle, .inr (.inl (Verdict.ranOut_of_tooDeep hne₀ hdeep hmove))⟩
    · rcases htraced.2 hsettled with hdeep | ⟨path, hr, _⟩
      · exact .inr ⟨hcycle, .inr (.inl (Verdict.ranOut_of_tooDeep hne₀ hdeep hmove))⟩
      · rw [hr] at hmove
        exact .inr ⟨hcycle, .inl (Verdict.readsCycle_of_circular hne₀ hmove
          (hp.names name _ hget₀) hne)⟩
  · have hv' := hv now'
    rw [← verdicts_again hp hp' hself hcycle] at hv'
    have ho' := hp'.get?_of_verdict hv'
    obtain ⟨q, hq, hsame⟩ := Verdict.ofAnswer_again hne₀ hmove hne
    rw [show (e.after o).properties.get? name = some (.computed p) from ho, Option.map_some,
      hq] at ho'
    exact ⟨p, q, ho, ho', .inl hsame⟩

end Twice

end Selection

/-! ### Recomputing once more -/

/-- A second full pass leaves every property in the state in which the first one left it, as far as
    gathering tracks what their formulas read and inherited properties do not come from properties
    of the same entity that the first pass changed.  Only where the first pass found a new cycle,
    properties may change that read it without being on it, and properties may run out of levels in
    one pass and not in the other. -/
theorem Entity.recompute_again {s : MemoryStore} (hs : s.available = true) {settings : Settings}
    {e : Entity} (hk : (s.table e.tenant).Keyed) (h : e.NamesAgree) {now now' : String}
    {o o' : PassOutcome} (ho : ((e.recompute settings now .all).run MemoryStore.store s).1 = o)
    (ho' : (((e.after o).recompute settings now' .all).run MemoryStore.store s).1 = o')
    (hself : ∀ name p, e.properties.get? name = some (.inherited p) → p.override = none →
      p.source = e.id → (o.properties.get? p.sourceProperty).map Property.current =
        (e.properties.get? p.sourceProperty).map Property.current)
    (ht : Selection.Tracks settings (s.table e.tenant) e o)
    (ht' : Selection.Tracks settings (s.table e.tenant) (e.after o) o') (name : String) :
    (o'.properties.get? name).map (fun p => (p.status?, p.current)) =
        (o.properties.get? name).map (fun p => (p.status?, p.current)) ∨
      e.FindsCycle o ∧ ∃ p q, o.properties.get? name = some (.computed p) ∧
        o'.properties.get? name = some (.computed q) ∧ (p.ReadsCycle ∨ p.RanOut ∨ q.RanOut) := by
  obtain ⟨ctx, hans, hg⟩ := exists_gathered hs settings e hk (Selection.ofEntity .all e).pending.values
  obtain ⟨ctx', hans', hg'⟩ := exists_gathered hs settings (e.after o) hk
    (Selection.ofEntity .all (e.after o)).pending.values
  rw [recompute_run now hans] at ho
  rw [recompute_run now' hans'] at ho'
  have hp : Selection.Leaves settings (s.table e.tenant) e now ctx o :=
    ⟨hk, h, hg, ht, by rw [← ho]; rfl⟩
  have hp' : Selection.Leaves settings (s.table e.tenant) (e.after o) now' ctx' o' :=
    ⟨hk, hp.namesAgree, hg', ht', by rw [← ho']; rfl⟩
  cases hf : (Selection.ofEntity .all (e.after o)).pending.get? name with
  | none =>
    left
    rw [Selection.unevaluated_again hp hp' hself hf]
  | some f =>
    obtain ⟨p, q, hget, hget', hagain⟩ := Selection.evaluated_again hp hp' hself hf
    rcases hagain with ⟨hstatus, hcached⟩ | ⟨hcycle, hwhy⟩
    · left
      rw [hget, hget', Option.map_some, Option.map_some]
      show some (some q.status, q.cached) = some (some p.status, p.cached)
      rw [hstatus, hcached]
    · exact .inr ⟨hcycle, p, q, hget, hget', hwhy⟩

/-- What two full passes one after the other leave, for an entity that is alone. -/
def Entity.recomputedTwice (settings : Settings) (e : Entity) : PassOutcome × PassOutcome :=
  let o := ((e.recompute settings "now" .all).run MemoryStore.store {}).1
  (o, (((e.after o).recompute settings "later" .all).run MemoryStore.store {}).1)

/-- A property that reads itself, and another one that reads it. -/
def bystander : Entity := .ofFormulas [("a", "#a"), ("d", "#a")]

theorem bystander_recompute_again :
    ((bystander.recomputedTwice {}).2.properties.get? "d").map (fun p => (p.status?, p.current)) =
        ((bystander.recomputedTwice {}).1.properties.get? "d").map
          (fun p => (p.status?, p.current)) ∨
      bystander.FindsCycle (bystander.recomputedTwice {}).1 ∧
        ∃ p q, (bystander.recomputedTwice {}).1.properties.get? "d" = some (.computed p) ∧
          (bystander.recomputedTwice {}).2.properties.get? "d" = some (.computed q) ∧
          (p.ReadsCycle ∨ p.RanOut ∨ q.RanOut) := by
  have hnames : bystander.NamesAgree := Entity.namesAgree_iff.2 (by decide +kernel)
  have hinherited : bystander.inherited.isEmpty = true := by decide +kernel
  have hown : ∀ f ∈ (Selection.ofEntity .all bystander).pending.values, ∀ d ∈ f.parts,
      d.readsOwn = true := by decide +kernel
  have hown' : ∀ f ∈ (Selection.ofEntity .all
      (bystander.after (bystander.recomputedTwice {}).1)).pending.values, ∀ d ∈ f.parts,
      d.readsOwn = true := by decide +kernel
  refine Entity.recompute_again (s := {}) rfl (fun _ _ h => (nomatch h)) hnames rfl rfl
    (fun name p hp => ?_) (Gathering.tracked_of_readsOwn hown _ _)
    (Gathering.tracked_of_readsOwn hown' _ _) "d"
  have hmem := Entity.mem_inherited_iff.2 ⟨name, hp⟩
  rw [List.isEmpty_iff.1 hinherited] at hmem
  exact absurd hmem List.not_mem_nil

/-- The bystander of a cycle fails in the first pass and has a value in the second. -/
theorem bystander_not_again :
    (∀ x ∈ bystander.properties.entries, x.2.name = x.1) ∧
    ((bystander.recomputedTwice {}).1.properties.get? "d").bind Property.status? = some .error ∧
    ((bystander.recomputedTwice {}).2.properties.get? "d").bind Property.status? = some .valid := by
  decide +kernel

/-- A property that the formula on a cycle reads before the cycle, and a formula that reads it
    deeper down. -/
def sheltered : Entity := .ofFormulas [("a", "[#r, #a]"), ("q", "[[#r]]"), ("r", "1")]

/-- The second pass does not evaluate the formula on the cycle and runs out of levels. -/
theorem sheltered_exceeds :
    ((sheltered.recomputedTwice { recursionLimit := 3 }).1.properties.get? "q").bind
      Property.status? = some .valid ∧
    ((sheltered.recomputedTwice { recursionLimit := 3 }).2.properties.get? "q").bind
      Property.error? = some (EvalError.depthExceeded 3).message := by
  decide +kernel

/-- A formula that fails at a cycle before it reads a property, and one that reads it deeper down. -/
def obstructed : Entity :=
  .ofFormulas [("a", "#a"), ("c", "[#a, #r]"), ("q", "[[#r]]"), ("r", "1")]

/-- The first pass runs out of levels, and the second one does not. -/
theorem obstructed_recovers :
    ((obstructed.recomputedTwice { recursionLimit := 3 }).1.properties.get? "q").bind
      Property.error? = some (EvalError.depthExceeded 3).message ∧
    ((obstructed.recomputedTwice { recursionLimit := 3 }).2.properties.get? "q").bind
      Property.status? = some .valid := by
  decide +kernel

/-- A property that takes its value from a computed one of the same entity. -/
def selfish : Entity :=
  (Entity.ofFormulas [("c", "\"X\"")]).withProperty
    (.inherited { name := "i", source := "entity", sourceName := some "c" })

/-- It is resolved before formulas are evaluated, so it is one pass behind. -/
theorem selfish_lags :
    (((selfish.recomputedTwice {}).1.properties.get? "i").bind Property.current).isNone = true ∧
    (((selfish.recomputedTwice {}).2.properties.get? "i").bind Property.current).bind
      Value.asText? = some "X" := by
  decide +kernel

end EntityFormulas
