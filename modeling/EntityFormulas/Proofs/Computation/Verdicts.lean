/-
  EntityFormulas/Proofs/Computation/Verdicts.lean
  ===============================================
  **Every outcome is a list of verdicts.**

  Whatever a store answers, a pass gives one verdict on each property that it
  selects: on each source and each formula if it has found a context, and that
  all have failed if it has not (`recompute_judged`).  An outcome that is
  `Judged` so says all about its results and records: they come in the order of
  the names, one for each verdict, and a record says of its property what the
  verdict has made of it (`mem_records`).
-/
import EntityFormulas.Proofs.Computation.Reach
import EntityFormulas.Proofs.Computation.Records

namespace EntityFormulas

/-! ### What verdicts do -/

/-- What is not on a cycle may get any status of which there is nothing to recompute. -/
theorem Status.become_settled {s next : Status} (hs : s ≠ .circular)
    (hnext : next.needsRecompute = false) : s.become next = .ok next := by
  cases next with
  | pending => exact nomatch hnext
  | stale => exact nomatch hnext
  | _ =>
    cases s with
    | circular => exact absurd rfl hs
    | _ => rfl

/-- When the value of a property was computed. -/
def Property.cachedAt? : Property → Option String
  | .computed p => p.cachedAt
  | _ => none

namespace Verdict

/-- The status after a verdict.  Only computed properties are put on cycles. -/
def status : Verdict → Property → Status
  | .valid .., _ => .valid
  | .circular _, .computed _ => .circular
  | _, _ => .error

theorem status_eq_valid_iff {v : Verdict} {p : Property} :
    v.status p = .valid ↔ v.error? = none := by
  cases v with
  | valid value time => simp [status, error?]
  | failed m => simp [status, error?]
  | circular m => cases p <;> simp [status, error?]

theorem status_eq_circular_iff {v : Verdict} {p : Property} :
    v.status p = .circular ↔ (∃ m, v = .circular m) ∧ ∃ c, p = .computed c := by
  cases v with
  | valid value time => simp [status]
  | failed m => simp [status]
  | circular m => cases p <;> simp [status]

theorem needsRecompute_status (v : Verdict) (p : Property) :
    (v.status p).needsRecompute = false := by
  cases v with
  | valid value time => rfl
  | failed m => rfl
  | circular m => cases p <;> rfl

/-- The move of a property by a verdict: it is allowed, the property then says what the verdict
    does, and after a failure its value and when that was computed are what they were. -/
structure Settles (v : Verdict) (p q : Property) : Prop where
  moved : v.moved p = .ok q
  status : q.status? = some (v.status p)
  error : q.error? = v.error?
  current : v.error? ≠ none → q.current = p.current
  cachedAt : v.error? ≠ none → q.cachedAt? = p.cachedAt?

theorem Settles.applied_eq {v : Verdict} {p q : Property} (h : v.Settles p q) :
    v.applied p = q := by
  rw [applied, h.moved]

/-- A derived property that is not on a cycle moves by every verdict. -/
theorem settles {p : Property} {s : Status} (hs : p.status? = some s) (hcircular : s ≠ .circular)
    (v : Verdict) : v.Settles p (v.applied p) := by
  suffices ∃ q, v.Settles p q by
    obtain ⟨q, h⟩ := this
    rw [h.applied_eq]
    exact h
  cases p with
  | literal p => exact nomatch hs
  | measured p => exact nomatch hs
  | computed p =>
    cases hs
    cases v with
    | valid value time =>
      refine ⟨.computed { p with
        status := .valid, cached := value, cachedAt := some time, error := none }, ?_, rfl, rfl,
        fun h => absurd rfl h, fun h => absurd rfl h⟩
      simp only [moved, ComputedProperty.markValid]
      rw [Status.become_settled hcircular rfl]
      rfl
    | failed m =>
      refine ⟨.computed { p with status := .error, error := some m }, ?_, rfl, rfl, fun _ => rfl,
        fun _ => rfl⟩
      simp only [moved, ComputedProperty.markError]
      rw [Status.become_settled hcircular rfl]
      rfl
    | circular m =>
      refine ⟨.computed { p with status := .circular, error := some m }, ?_, rfl, rfl, fun _ => rfl,
        fun _ => rfl⟩
      simp only [moved, ComputedProperty.markCircular]
      rw [Status.become_settled hcircular rfl]
      rfl
  | inherited p =>
    cases hs
    have hfailed (m : String) : (p.markError m).map Property.inherited =
        .ok (.inherited { p with status := .error, error := some m }) := by
      rw [InheritedProperty.markError, Status.become_settled hcircular rfl]
      rfl
    cases v with
    | valid value time =>
      refine ⟨.inherited { p with status := .valid, resolved := value, error := none }, ?_, rfl,
        rfl, fun h => absurd rfl h, fun h => absurd rfl h⟩
      simp only [moved, InheritedProperty.markResolved]
      rw [Status.become_settled hcircular rfl]
      rfl
    | failed m => exact ⟨_, hfailed m, rfl, rfl, fun _ => rfl, fun _ => rfl⟩
    | circular m => exact ⟨_, hfailed m, rfl, rfl, fun _ => rfl, fun _ => rfl⟩

/-- After a verdict there is nothing to recompute in a property that is not on a cycle. -/
theorem exists_applied_status {p : Property} {s : Status} (hs : p.status? = some s)
    (hcircular : s ≠ .circular) (v : Verdict) :
    ∃ s', (v.applied p).status? = some s' ∧ s'.needsRecompute = false :=
  ⟨v.status p, (v.settles hs hcircular).status, v.needsRecompute_status p⟩

/-- The record that reports the verdict on a property, which is given as it is afterwards. -/
def record (entity actor name : String) (v : Verdict) (after : Property) : StateRecord where
  entity
  property := name
  status := after.status?.getD .error
  value := after.current
  evaluatedAt := v.time?
  error := v.error?
  actor

end Verdict

/-! ### Outcomes of verdicts -/

/-- The outcome comes of these verdicts, one on each property that is selected. -/
structure Entity.Judged (scope : Scope) (e : Entity) (vs : List (String × Verdict))
    (o : PassOutcome) : Prop where
  distinct : vs.Pairwise fun v w => v.1 ≠ w.1
  selects : ∀ name, (∃ v, (name, v) ∈ vs) ↔
    ∃ p s, e.properties.get? name = some p ∧ p.status? = some s ∧ scope.selects s = true
  outcome : o = (PassOutcome.concludeAll ⟨e.properties, []⟩ vs).inOrder

namespace Entity.Judged

variable {scope : Scope} {e : Entity} {vs : List (String × Verdict)} {o : PassOutcome}
  (h : e.Judged scope vs o) {name : String}
include h

theorem get? {v : Verdict} (hv : (name, v) ∈ vs) :
    o.properties.get? name = (e.properties.get? name).map v.applied := by
  rw [h.outcome]
  exact PassOutcome.get?_concludeAll h.distinct hv _

theorem get?_unselected (hn : ∀ p s, e.properties.get? name = some p → p.status? = some s →
    scope.selects s = false) : o.properties.get? name = e.properties.get? name := by
  rw [h.outcome]
  refine PassOutcome.get?_concludeAll_of_not_mem (fun v hv hname => ?_) _
  obtain ⟨p, s, hp, hs, hsel⟩ := (h.selects v.1).1 ⟨v.2, hv⟩
  rw [hn p s (hname ▸ hp) hs] at hsel
  exact nomatch hsel

/-- The results are those of the verdicts, put in order. -/
theorem results_eq : o.results = (vs.map fun v => v.2.result v.1
    ((e.properties.get? v.1).map v.2.applied)).mergeSort fun a b => a.name ≤ b.name := by
  rw [h.outcome]
  exact congrArg (·.mergeSort fun a b => decide (a.name ≤ b.name))
    ((PassOutcome.results_concludeAll h.distinct _).trans (List.nil_append _))

/-- No two results are about one property, and they come in the order of the names. -/
theorem ascending : (o.results.map PropertyResult.name).Pairwise (· < ·) := by
  rw [h.results_eq, List.pairwise_map]
  have hordered := @List.pairwise_mergeSort _ (fun a b : PropertyResult => decide (a.name ≤ b.name))
    (fun a b c hab hbc => by
      rw [decide_eq_true_eq] at *
      exact String.le_trans hab hbc)
    (fun a b => by
      rw [Bool.or_eq_true, decide_eq_true_eq, decide_eq_true_eq]
      exact String.le_total a.name b.name)
    (vs.map fun v => v.2.result v.1 ((e.properties.get? v.1).map v.2.applied))
  have hdistinct : (vs.map fun v => v.2.result v.1
      ((e.properties.get? v.1).map v.2.applied)).Pairwise fun a b => a.name ≠ b.name :=
    List.pairwise_map.2 h.distinct
  rw [← List.Perm.pairwise_iff Ne.symm (List.mergeSort_perm _ fun a b => decide (a.name ≤ b.name))]
    at hdistinct
  refine (hordered.and hdistinct).imp fun {a b} hab => ?_
  by_contra hlt
  exact hab.2 (String.le_antisymm (of_decide_eq_true hab.1) (String.not_lt.1 hlt))

/-- A record is about a selected property and says what its verdict has made of it. -/
theorem mem_records {entity actor : String} {r : StateRecord} :
    r ∈ o.records entity actor ↔ ∃ v p, (r.property, v) ∈ vs ∧
      e.properties.get? r.property = some p ∧ r = v.record entity actor r.property (v.applied p) := by
  have hrecord {name : String} {v : Verdict} (hv : (name, v) ∈ vs) :
      ∃ p, e.properties.get? name = some p ∧ ∃ s, (v.applied p).status? = some s ∧
        o.properties.get? name = some (v.applied p) := by
    obtain ⟨p, s, hp, hs, hsel⟩ := (h.selects name).1 ⟨v, hv⟩
    obtain ⟨s', hs', _⟩ := v.exists_applied_status hs (Scope.ne_circular_of_selects hsel)
    exact ⟨p, hp, s', hs', by rw [h.get? hv, hp, Option.map_some]⟩
  unfold PassOutcome.records
  rw [List.mem_map]
  constructor
  · rintro ⟨x, hx, rfl⟩
    rw [h.results_eq, List.mem_mergeSort, List.mem_map] at hx
    obtain ⟨⟨name, v⟩, hv, rfl⟩ := hx
    obtain ⟨p, hp, s, hs, hget⟩ := hrecord hv
    refine ⟨v, p, hv, hp, ?_⟩
    simp [Verdict.record, Verdict.result, hp, hget, hs]
  · rintro ⟨v, p, hv, hp, hr⟩
    obtain ⟨p', hp', s, hs, hget⟩ := hrecord hv
    rw [hp] at hp'
    cases hp'
    refine ⟨v.result r.property ((e.properties.get? r.property).map v.applied), ?_, ?_⟩
    · rw [h.results_eq, List.mem_mergeSort]
      exact List.mem_map.2 ⟨(r.property, v), hv, rfl⟩
    · rw [hr]
      simp [Verdict.record, Verdict.result, hp, hget, hs]

end Entity.Judged

/-! ### Passes -/

namespace Selection

variable {e : Entity} (h : e.NamesAgree) (scope : Scope)
include h

theorem judged_compute (now : String) {ctx : EvaluationContext}
    (hctx : ctx.properties = e.properties) :
    e.Judged scope ((ofEntity scope e).verdicts now ctx)
      ((ofEntity scope e).compute now ctx ⟨e.properties, []⟩).inOrder where
  distinct := verdicts_distinct h now scope ctx
  selects name := by
    constructor
    · rintro ⟨v, hv⟩
      exact selected_of_mem_verdicts h now scope ctx hv
    · rintro ⟨p, s, hp, hs, hsel⟩
      exact exists_verdict h now scope ctx hp hs hsel
  outcome := by
    rw [compute_eq now (ofEntity scope e) (show ctx.properties =
      (⟨e.properties, []⟩ : PassOutcome).properties from hctx)]
    rfl

/-- Without a context all that is selected fails. -/
theorem judged_failed (message : String) :
    e.Judged scope
      (((ofEntity scope e).computed.map ComputedProperty.name ++
        (ofEntity scope e).inherited.map InheritedProperty.name).map fun name =>
          (name, .failed message))
      ((ofEntity scope e).failed message ⟨e.properties, []⟩).inOrder where
  distinct := by
    have hne {a b : String} (hlt : a < b) : a ≠ b := by
      rintro rfl
      exact String.lt_irrefl _ hlt
    rw [List.pairwise_map]
    refine List.pairwise_append.2 ⟨?_, ?_, ?_⟩
    · exact List.pairwise_map.2 ((h.computed_ascending.filter _).imp hne)
    · exact List.pairwise_map.2 ((h.inherited_ascending.filter _).imp hne)
    · intro a ha b hb heq
      obtain ⟨p, hp, rfl⟩ := List.mem_map.1 ha
      obtain ⟨q, hq, rfl⟩ := List.mem_map.1 hb
      have hp := h.computed_iff.1 (List.mem_filter.1 hp).1
      have hq := h.inherited_iff.1 (List.mem_filter.1 hq).1
      have heq : p.name = q.name := heq
      rw [heq, hq] at hp
      exact nomatch hp
  selects name := by
    constructor
    · rintro ⟨v, hv⟩
      obtain ⟨n, hn, heq⟩ := List.mem_map.1 hv
      cases heq
      rcases List.mem_append.1 hn with hn | hn
      · obtain ⟨p, hp, rfl⟩ := List.mem_map.1 hn
        obtain ⟨hp, hsel⟩ := List.mem_filter.1 hp
        exact ⟨_, _, h.computed_iff.1 hp, rfl, hsel⟩
      · obtain ⟨p, hp, rfl⟩ := List.mem_map.1 hn
        obtain ⟨hp, hsel⟩ := List.mem_filter.1 hp
        exact ⟨_, _, h.inherited_iff.1 hp, rfl, hsel⟩
    · rintro ⟨p, s, hp, hs, hsel⟩
      refine ⟨.failed message, List.mem_map.2 ⟨name, ?_, rfl⟩⟩
      have hname : p.name = name := h name p hp
      cases p with
      | literal p => exact nomatch hs
      | measured p => exact nomatch hs
      | computed p =>
        have hp : p ∈ e.computed := Entity.mem_computed_iff.2 ⟨name, hp⟩
        have hselected : p ∈ (ofEntity scope e).computed := by
          cases hs
          exact List.mem_filter.2 ⟨hp, hsel⟩
        exact List.mem_append_left _ (List.mem_map.2 ⟨p, hselected, hname⟩)
      | inherited p =>
        have hp : p ∈ e.inherited := Entity.mem_inherited_iff.2 ⟨name, hp⟩
        have hselected : p ∈ (ofEntity scope e).inherited := by
          cases hs
          exact List.mem_filter.2 ⟨hp, hsel⟩
        exact List.mem_append_right _ (List.mem_map.2 ⟨p, hselected, hname⟩)
  outcome := by
    unfold failed PassOutcome.concludeAll
    rw [List.foldl_map]

end Selection

/-- Whatever the store answers, a pass comes to the outcome of its selection, or all that it selects
    fails with what kept it from its context. -/
theorem Entity.recompute_ends {acceptable : {γ : Type} → Except StoreError γ → Prop}
    (settings : Settings) (now : String) (scope : Scope) (e : Entity) :
    (e.recompute settings now scope).Always acceptable fun o =>
      (∃ ctx, ctx.properties = e.properties ∧
        o = ((Selection.ofEntity scope e).compute now ctx ⟨e.properties, []⟩).inOrder) ∨
      ∃ message, o = ((Selection.ofEntity scope e).failed message ⟨e.properties, []⟩).inOrder := by
  unfold recompute
  dsimp only
  split
  · rename_i hempty
    refine .inl ⟨.ofEntity settings e, rfl, ?_⟩
    rw [Selection.compute_of_isEmpty hempty]
    unfold PassOutcome.inOrder
    rw [List.mergeSort_nil]
  · have hgrows := @EvaluationContext.gather_grows acceptable settings e
      (Selection.ofEntity scope e).pending.values
    -- How the context is gathered does not matter any more.
    generalize EvaluationContext.gather settings e (Selection.ofEntity scope e).pending.values = m
      at hgrows
    refine Fetch.always_attempt hgrows (fun ctx hctx => ?_) fun err => ?_
    · exact .inl ⟨ctx, hctx.properties, rfl⟩
    · exact .inr ⟨err.message, rfl⟩

/-- Whatever the store answers, a pass comes to an outcome of verdicts. -/
theorem Entity.recompute_judged {acceptable : {γ : Type} → Except StoreError γ → Prop} {e : Entity}
    (h : e.NamesAgree) (settings : Settings) (now : String) (scope : Scope) :
    (e.recompute settings now scope).Always acceptable fun o => ∃ vs, e.Judged scope vs o := by
  refine Lookup.Always.mono ?_ (e.recompute_ends settings now scope)
  rintro o (⟨ctx, hctx, rfl⟩ | ⟨message, rfl⟩)
  · exact ⟨_, Selection.judged_compute h scope now hctx⟩
  · exact ⟨_, Selection.judged_failed h scope message⟩

/-- In a store that answers a pass finds a context. -/
theorem Entity.recompute_grows (settings : Settings) (now : String) (scope : Scope) (e : Entity) :
    (e.recompute settings now scope).Always Answered fun o =>
      ∃ ctx, (EvaluationContext.ofEntity settings e).Grows ctx ∧
        o = ((Selection.ofEntity scope e).compute now ctx ⟨e.properties, []⟩).inOrder := by
  unfold recompute
  dsimp only
  split
  · rename_i hempty
    refine ⟨.ofEntity settings e, .refl _, ?_⟩
    rw [Selection.compute_of_isEmpty hempty]
    unfold PassOutcome.inOrder
    rw [List.mergeSort_nil]
  · have hyields := EvaluationContext.gather_yields settings e
      (Selection.ofEntity scope e).pending.values
    -- How the context is gathered does not matter any more.
    generalize EvaluationContext.gather settings e (Selection.ofEntity scope e).pending.values = m
      at hyields
    refine Lookup.always_bind.2 (Lookup.Always.mono ?_ hyields)
    rintro r ⟨ctx, rfl, hgrows⟩
    exact ⟨ctx, hgrows, rfl⟩

end EntityFormulas
