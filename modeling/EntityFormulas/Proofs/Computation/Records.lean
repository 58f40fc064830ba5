/-
  EntityFormulas/Proofs/Computation/Records.lean
  ==============================================
  **What a pass writes back.**

  A property is fresh when what is stored of it is what evaluating its formula
  over the given values comes to.  The records of a pass over stale properties
  make every property fresh that was marked for the pass, and leave those fresh
  that were (`fresh_written_pass`), whatever else the pass selects and in
  whatever context it evaluates, as long as it does not run out of levels.
-/
import EntityFormulas.Proofs.Computation.Marking
import EntityFormulas.Proofs.Computation.PassAnswers
import EntityFormulas.Proofs.Evaluation.GivenReads

namespace EntityFormulas

open EvaluationContext

/-! ### Fresh properties -/

namespace ComputedProperty

/-- The property has this answer: the value if there is one, or else the message. -/
def Answers (p : ComputedProperty) : EvalResult → Prop
  | .ok v => p.status = .valid ∧ p.cached = v
  | .error err => p.status = .error ∧ p.error = some err.message

/-- What is stored of a property is what its formula comes to over the given values of an entity.
    Nothing is said of properties on a cycle. -/
def FreshIn (settings : Settings) (e : Entity) (p : ComputedProperty) : Prop :=
  p.status ≠ .circular →
    match Expression.parse p.expression with
    | .error err => p.status = .error ∧ p.error = some err.report
    | .ok f => ∀ r, (e.given settings f).run = .ok r → p.Answers r

theorem FreshIn.congr {settings : Settings} {e e' : Entity} {p q : ComputedProperty}
    (h : p.FreshIn settings e) (he : e.SameGiven e') (hexpression : q.expression = p.expression)
    (hstatus : q.status = p.status) (hcached : q.cached = p.cached) (herror : q.error = p.error) :
    q.FreshIn settings e' := by
  unfold FreshIn at *
  rw [hexpression, hstatus]
  intro hcircular
  have h := h hcircular
  cases hf : Expression.parse p.expression with
  | error err =>
    rw [hf] at h
    dsimp only at h ⊢
    rw [herror]
    exact h
  | ok f =>
    rw [hf] at h
    intro r hr
    rw [← he.given] at hr
    have h := h r hr
    unfold Answers at *
    rw [hstatus, hcached, herror]
    exact h

end ComputedProperty

/-- The computed property of that name, if there is one, is fresh. -/
def Entity.Fresh (settings : Settings) (e : Entity) (name : String) : Prop :=
  ∀ p, e.properties.get? name = some (.computed p) → p.FreshIn settings e

/-! ### Writing records -/

namespace Entity

/-- The entity after the records that are not refused have been written to it. -/
def written (e : Entity) : List StateRecord → Entity
  | [] => e
  | r :: rest => written ((e.withState r).toOption.getD e) rest

/-- The records are about derived properties that the entity has, so none is refused. -/
def Writable (e : Entity) (rs : List StateRecord) : Prop :=
  ∀ r ∈ rs, ∃ p, e.properties.get? r.property = some p ∧ p.status?.isSome

variable {e e' : Entity} {r : StateRecord} {rest : List StateRecord}

theorem exists_withState {p : Property} (hp : e.properties.get? r.property = some p)
    (hd : p.status?.isSome) : ∃ e', e.withState r = .ok e' := by
  unfold withState property?
  rw [hp]
  cases p with
  | literal p => exact nomatch hd
  | measured p => exact nomatch hd
  | inherited p => exact ⟨_, rfl⟩
  | computed p => exact ⟨_, rfl⟩

/-- A record changes nothing but the state of its own property. -/
theorem get?_withState (h : e.withState r = .ok e') (name : String) :
    e'.properties.get? name = if r.property = name then (e.properties.get? name).bind
      (Property.withState r) else e.properties.get? name := by
  unfold withState property? at h
  split at h
  · exact nomatch h
  · rename_i p hp
    split at h
    · exact nomatch h
    · rename_i q hq
      cases h
      show (e.properties.insert r.property q).get? name = _
      rw [Dict.get?_insert]
      by_cases hn : r.property = name
      · rw [if_pos hn, if_pos hn, ← hn, hp]
        exact hq.symm
      · rw [if_neg hn, if_neg hn]

theorem withState_id (h : e.withState r = .ok e') : e'.id = e.id ∧ e'.typePath = e.typePath := by
  unfold withState at h
  split at h
  · exact nomatch h
  · split at h
    · exact nomatch h
    · cases h
      exact ⟨rfl, rfl⟩

theorem sameGiven_withState (h : e.withState r = .ok e') : e.SameGiven e' := by
  refine ⟨(withState_id h).1.symm, (withState_id h).2.symm, fun name => ?_⟩
  unfold given?
  rw [get?_withState h]
  by_cases hn : r.property = name
  · rw [if_pos hn]
    cases hp : e.properties.get? name with
    | none => rfl
    | some p =>
      cases p with
      | inherited p => rfl
      | computed p => rfl
      | literal p =>
        unfold withState property? at h
        rw [hn, hp] at h
        exact nomatch h
      | measured p =>
        unfold withState property? at h
        rw [hn, hp] at h
        exact nomatch h
  · rw [if_neg hn]

theorem NamesAgree.withState (hn : e.NamesAgree) (h : e.withState r = .ok e') : e'.NamesAgree := by
  intro name p hp
  rw [get?_withState h] at hp
  split at hp
  · obtain ⟨q, hq, hp⟩ := Option.bind_eq_some_iff.1 hp
    rw [← hn name q hq]
    cases q with
    | literal q => exact nomatch hp
    | measured q => exact nomatch hp
    | inherited q =>
      cases hp
      rfl
    | computed q =>
      cases hp
      rfl
  · exact hn name p hp

theorem Writable.withState (hw : e.Writable (r :: rest)) (h : e.withState r = .ok e') :
    e'.Writable rest := by
  intro r' hr'
  obtain ⟨p, hp, hd⟩ := hw r' (List.mem_cons_of_mem _ hr')
  rw [get?_withState h, hp]
  split
  · cases p with
    | literal p => exact nomatch hd
    | measured p => exact nomatch hd
    | inherited p => exact ⟨_, rfl, rfl⟩
    | computed p => exact ⟨_, rfl, rfl⟩
  · exact ⟨p, rfl, hd⟩

theorem written_cons (h : e.withState r = .ok e') : e.written (r :: rest) = e'.written rest := by
  rw [written, h]
  rfl

/-- The first of the records is written, and the others can be written after it. -/
theorem Writable.exists_next (hw : e.Writable (r :: rest)) : ∃ e', e.withState r = .ok e' ∧
    e'.Writable rest ∧ e.written (r :: rest) = e'.written rest := by
  obtain ⟨p, hp, hd⟩ := hw r List.mem_cons_self
  obtain ⟨e', he'⟩ := exists_withState hp hd
  exact ⟨e', he', hw.withState he', written_cons he'⟩

/-- Only computed properties end up computed. -/
theorem computed_of_written (hw : e.Writable rest) {name : String} {q : ComputedProperty}
    (hq : (e.written rest).properties.get? name = some (.computed q)) :
    ∃ p, e.properties.get? name = some (.computed p) := by
  induction rest generalizing e with
  | nil => exact ⟨q, hq⟩
  | cons r rest ih =>
    obtain ⟨e', he', hrest, hwritten⟩ := hw.exists_next
    rw [hwritten] at hq
    obtain ⟨p', hp'⟩ := ih hrest hq
    rw [get?_withState he'] at hp'
    split at hp'
    · obtain ⟨q', hq', hp'⟩ := Option.bind_eq_some_iff.1 hp'
      cases q' with
      | computed q' => exact ⟨q', hq'⟩
      | _ => exact nomatch hp'
    · exact ⟨p', hp'⟩

/-- A computed property ends up with what all its records have in common, if it has any or had it
    before. -/
theorem written_computed {P : ComputedProperty → Prop} (hw : e.Writable rest) {name : String}
    {p : ComputedProperty} (hp : e.properties.get? name = some (.computed p))
    (hrecords : ∀ r ∈ rest, r.property = name → ∀ q : ComputedProperty,
      q.expression = p.expression → P { q with
        status := r.status, cached := r.value, cachedAt := r.evaluatedAt.or q.cachedAt,
        error := r.error })
    (hbefore : P p ∨ ∃ r ∈ rest, r.property = name) :
    ∃ q, (e.written rest).properties.get? name = some (.computed q) ∧ P q := by
  suffices ∀ p', e.properties.get? name = some (.computed p') → p'.expression = p.expression →
      (P p' ∨ ∃ r ∈ rest, r.property = name) →
      ∃ q, (e.written rest).properties.get? name = some (.computed q) ∧ P q from
    this p hp rfl hbefore
  clear hp hbefore
  induction rest generalizing e with
  | nil =>
    intro p' hp' _ hP
    rcases hP with hP | ⟨r, hr, _⟩
    · exact ⟨p', hp', hP⟩
    · exact absurd hr List.not_mem_nil
  | cons r rest ih =>
    intro p' hp' hexpression hP
    obtain ⟨e', he', hrest, hwritten⟩ := hw.exists_next
    rw [hwritten]
    have hget := get?_withState he' name
    rw [hp'] at hget
    have ih := ih hrest fun r hr => hrecords r (List.mem_cons_of_mem _ hr)
    by_cases hn : r.property = name
    · rw [if_pos hn] at hget
      apply ih _ hget
      · exact hexpression
      · exact .inl (hrecords r List.mem_cons_self hn p' hexpression)
    · rw [if_neg hn] at hget
      apply ih _ hget hexpression
      rcases hP with hP | ⟨r', hr', hname⟩
      · exact .inl hP
      · rcases List.mem_cons.1 hr' with rfl | hr'
        · exact absurd hname hn
        · exact .inr ⟨r', hr', hname⟩

theorem sameGiven_written (hw : e.Writable rest) : e.SameGiven (e.written rest) := by
  induction rest generalizing e with
  | nil => exact .refl e
  | cons r rest ih =>
    obtain ⟨e', he', hrest, hwritten⟩ := hw.exists_next
    rw [hwritten]
    exact (sameGiven_withState he').trans (ih hrest)

end Entity

/-! ### The results of a pass -/

namespace Selection

variable {e : Entity} (h : e.NamesAgree) (now : String) (scope : Scope) {ctx : EvaluationContext}
  (hctx : ctx.properties = e.properties)
include h hctx

/-- The results of a pass are those of its verdicts, about the properties as they are afterwards. -/
theorem mem_results_iff {r : PropertyResult} :
    r ∈ ((ofEntity scope e).compute now ctx ⟨e.properties, []⟩).results ↔
      ∃ v, (r.name, v) ∈ (ofEntity scope e).verdicts now ctx ∧ r = v.result r.name
        (((ofEntity scope e).compute now ctx ⟨e.properties, []⟩).properties.get? r.name) := by
  have hresults : ((ofEntity scope e).compute now ctx ⟨e.properties, []⟩).results =
      ((ofEntity scope e).verdicts now ctx).map fun v =>
        v.2.result v.1 ((e.properties.get? v.1).map v.2.applied) := by
    rw [compute_eq now (ofEntity scope e) (show ctx.properties =
      (⟨e.properties, []⟩ : PassOutcome).properties from hctx)]
    exact (PassOutcome.results_concludeAll (verdicts_distinct h now scope ctx) _).trans
      (List.nil_append _)
  rw [hresults]
  constructor
  · intro hr
    obtain ⟨⟨name, v⟩, hv, rfl⟩ := List.mem_map.1 hr
    refine ⟨v, hv, ?_⟩
    show _ = v.result name (((ofEntity scope e).compute now ctx ⟨e.properties, []⟩).properties.get? name)
    rw [get?_compute h now scope hctx hv]
  · rintro ⟨v, hv, hr⟩
    rw [get?_compute h now scope hctx hv] at hr
    exact List.mem_map.2 ⟨(r.name, v), hv, hr.symm⟩

/-- Results are about derived properties that are selected. -/
theorem selected_of_mem_results {r : PropertyResult}
    (hr : r ∈ ((ofEntity scope e).compute now ctx ⟨e.properties, []⟩).results) :
    ∃ p s, e.properties.get? r.name = some p ∧ p.status? = some s ∧ scope.selects s = true := by
  obtain ⟨v, hv, _⟩ := (mem_results_iff h now scope hctx).1 hr
  exact selected_of_mem_verdicts h now scope ctx hv

theorem exists_result {name : String} {p : ComputedProperty}
    (hp : e.properties.get? name = some (.computed p)) (hsel : scope.selects p.status = true) :
    ∃ r ∈ ((ofEntity scope e).compute now ctx ⟨e.properties, []⟩).results, r.name = name := by
  obtain ⟨v, hv⟩ := exists_verdict h now scope ctx hp rfl hsel
  refine ⟨v.result name
    (((ofEntity scope e).compute now ctx ⟨e.properties, []⟩).properties.get? name), ?_, rfl⟩
  exact (mem_results_iff h now scope hctx).2 ⟨v, hv, rfl⟩

/-- The result for a computed property is its state after the pass. -/
theorem result_computed {r : PropertyResult}
    (hr : r ∈ ((ofEntity scope e).compute now ctx ⟨e.properties, []⟩).results)
    {p : ComputedProperty} (hp : e.properties.get? r.name = some (.computed p)) :
    ∃ q, ((ofEntity scope e).compute now ctx ⟨e.properties, []⟩).properties.get? r.name =
        some (.computed q) ∧ q.expression = p.expression ∧ r.status = q.status ∧
      r.error = q.error := by
  obtain ⟨x, s, hx, hs, hsel⟩ := selected_of_mem_results h now scope hctx hr
  rw [hp] at hx
  cases hx
  cases hs
  obtain ⟨v, hv, hresult⟩ := (mem_results_iff h now scope hctx).1 hr
  obtain ⟨q, hq, hexpression, herror⟩ := v.applied_computed (Scope.ne_circular_of_selects hsel)
  have hget : ((ofEntity scope e).compute now ctx ⟨e.properties, []⟩).properties.get? r.name =
      some (.computed q) := by
    rw [get?_compute h now scope hctx hv, hp, Option.map_some, hq]
  refine ⟨q, hget, hexpression, ?_, ?_⟩
  · rw [hresult, hget]
    rfl
  · rw [hresult, herror]
    rfl

/-- The formulas of a pass find the given values of its entity. -/
theorem passContext_gives {settings : Settings} (halike : ctx.Alike (.ofEntity settings e)) :
    ((ofEntity scope e).passContext now ctx).Gives settings e := by
  refine ⟨⟨halike.strict, halike.id, halike.type⟩, fun name v hv => ?_⟩
  have hnot {p : Property} (hp : e.properties.get? name = some p) (hd : p.status?.isSome) : False := by
    unfold Entity.given? at hv
    rw [hp] at hv
    cases p with
    | literal p => exact nomatch hd
    | measured p => exact nomatch hd
    | inherited p => exact nomatch hv
    | computed p => exact nomatch hv
  constructor
  · cases hf : (ofEntity scope e).pending.get? name with
    | none => exact hf
    | some f =>
      obtain ⟨p, hp, _, _⟩ := (get?_formulas_iff h).1 ((get?_pending_iff _).1 hf)
      exact absurd rfl (hnot hp)
  · have hget : ((ofEntity scope e).passContext now ctx).properties.get? name =
        e.properties.get? name := by
      unfold passContext
      dsimp only
      rw [hctx]
      refine PassOutcome.get?_concludeAll_of_not_mem (fun w hw heq => ?_) _
      obtain ⟨p, hp, _, _⟩ := (mem_sourceVerdicts h now scope ctx).1 (show (w.1, w.2) ∈ _ from hw)
      exact hnot (heq ▸ hp) rfl
    rw [hget]
    exact ((gives_ofEntity settings e).given name v hv).2

/-- A pass leaves the computed properties that it selects fresh, unless they run out of levels. -/
theorem fresh_compute {settings : Settings} (halike : ctx.Alike (.ofEntity settings e)) {name : String}
    {p : ComputedProperty} (hp : e.properties.get? name = some (.computed p))
    (hsel : scope.selects p.status = true) :
    ∃ q, ((ofEntity scope e).compute now ctx ⟨e.properties, []⟩).properties.get? name =
      some (.computed q) ∧ q.expression = p.expression ∧ (¬ q.RanOut → q.FreshIn settings e) := by
  have hstatus := Scope.ne_circular_of_selects hsel
  cases hf : Expression.parse p.expression with
  | error err =>
    refine ⟨{ p with status := .error, error := some err.report }, ?_, rfl, ?_⟩
    · rw [compute_unreadable h now scope hctx hp hsel hf, Verdict.failed_applied hstatus]
    · intro _ _
      show match Expression.parse p.expression with
        | .error err => _
        | .ok f => _
      rw [hf]
      exact ⟨rfl, rfl⟩
  | ok f =>
    obtain ⟨r, htraced, _, hget⟩ := compute_answer h now scope hctx hp hsel hf
    obtain ⟨q, hq, hexpression, _⟩ := (Verdict.ofAnswer now name r).applied_computed hstatus
    refine ⟨q, by rw [hget, hq], hexpression, ?_⟩
    intro hdeep _
    rw [hexpression, hf]
    intro r' hr'
    obtain ⟨hmeaning, hsettled⟩ := (passContext_gives h now scope hctx halike).meaning f r' hr'
    have hown : ((ofEntity scope e).passContext now ctx).ownMeaning name = r' := by
      rw [← hmeaning]
      exact ownMeaning_pending ((get?_pending_iff _).2 ((get?_formulas_iff h).2 ⟨p, hp, hsel, hf⟩))
    rcases htraced.1 (by rw [hown]; exact hsettled) with hr | hr
    · rw [hown] at hr
      subst hr
      cases r with
      | ok v =>
        rw [Verdict.ofAnswer, Verdict.valid_applied hstatus] at hq
        cases hq
        exact ⟨rfl, rfl⟩
      | error err =>
        -- a settled failure is no cycle
        have hmember : err.isCycleMember name = false := by
          cases err with
          | circular path => exact absurd trivial hsettled
          | _ => rfl
        rw [Verdict.ofAnswer, hmember, if_neg Bool.false_ne_true, Verdict.failed_applied hstatus] at hq
        cases hq
        exact ⟨rfl, rfl⟩
    · exact absurd (Verdict.ranOut_of_tooDeep hstatus hr hq) hdeep

end Selection

/-! ### The records of a pass over stale properties -/

/-- A result of the pass reports that evaluation ran out of levels. -/
def PassOutcome.RanOut (o : PassOutcome) : Prop :=
  ∃ r ∈ o.results, ∃ limit, r.error = some (EvalError.depthExceeded limit).message

theorem Entity.sameGiven_markStale (e : Entity) (names : List String) :
    e.SameGiven (e.markStale names) := by
  refine ⟨rfl, rfl, fun name => ?_⟩
  unfold given?
  rw [markStale_get?]
  by_cases hn : name ∈ names
  · simp only [if_pos hn]
    cases e.properties.get? name with
    | none => rfl
    | some p => cases p <;> rfl
  · simp only [if_neg hn, Option.map_id']

/-- The outcome of a pass over an entity with these properties marked, in whatever context of the
    entity it evaluates. -/
def Entity.Outcome (settings : Settings) (e : Entity) (names : List String) (o : PassOutcome) :
    Prop :=
  ∃ now ctx, ctx.properties = (e.markStale names).properties ∧
    ctx.Alike (.ofEntity settings (e.markStale names)) ∧
    o = ((Selection.ofEntity .stale (e.markStale names)).compute now ctx
      ⟨(e.markStale names).properties, []⟩).inOrder

namespace Entity

variable {settings : Settings} {e : Entity} {names : List String} {o : PassOutcome}
  (h : e.NamesAgree) (ho : e.Outcome settings names o) (entity actor : String)
include h ho

theorem writable_pass : e.Writable (o.records entity actor) := by
  obtain ⟨now, ctx, hctx, _, rfl⟩ := ho
  intro record hrecord
  obtain ⟨r, hr, rfl⟩ := List.mem_map.1 hrecord
  have hr := List.mem_mergeSort.1 hr
  obtain ⟨p, s, hp, hs, _⟩ := Selection.selected_of_mem_results (h.markStale names) now .stale hctx hr
  rw [markStale_get?] at hp
  obtain ⟨q, hq, rfl⟩ := Option.map_eq_some_iff.1 hp
  refine ⟨q, hq, ?_⟩
  split at hs
  · cases q with
    | literal q => exact nomatch hs
    | measured q => exact nomatch hs
    | inherited q => rfl
    | computed q => rfl
  · rw [hs]
    rfl

omit h ho in
theorem markStale_get?_computed {name : String} {p : ComputedProperty}
    (hp : e.properties.get? name = some (.computed p)) :
    (e.markStale names).properties.get? name = some (.computed
      { p with status := if name ∈ names then p.status.marked else p.status }) := by
  rw [markStale_get?, hp, Option.map_some]
  split <;> rfl

/-- A pass has a record of every marked computed property that is not on a cycle. -/
theorem exists_record {name : String} (hname : name ∈ names) {p : ComputedProperty}
    (hp : e.properties.get? name = some (.computed p)) (hcircular : p.status ≠ .circular) :
    ∃ record ∈ o.records entity actor, record.property = name := by
  obtain ⟨now, ctx, hctx, _, rfl⟩ := ho
  have hsel : Scope.stale.selects (if name ∈ names then p.status.marked else p.status) = true := by
    rw [if_pos hname]
    cases hs : p.status with
    | circular => exact absurd hs hcircular
    | _ => rfl
  obtain ⟨r, hr, hrname⟩ := Selection.exists_result (h.markStale names) now .stale hctx
    (markStale_get?_computed hp) hsel
  exact ⟨_, List.mem_map.2 ⟨r, List.mem_mergeSort.2 hr, rfl⟩, hrname⟩

/-- What a record of a pass says of a computed property is fresh, unless the pass runs out of
    levels. -/
theorem fresh_record (hdeep : ¬ o.RanOut) {record : StateRecord}
    (hrecord : record ∈ o.records entity actor) {p q : ComputedProperty}
    (hp : e.properties.get? record.property = some (.computed p))
    (hexpression : q.expression = p.expression) :
    ComputedProperty.FreshIn settings e { q with
      status := record.status, cached := record.value,
      cachedAt := record.evaluatedAt.or q.cachedAt, error := record.error } := by
  obtain ⟨now, ctx, hctx, halike, rfl⟩ := ho
  obtain ⟨r, hr, rfl⟩ := List.mem_map.1 hrecord
  have hr := List.mem_mergeSort.1 hr
  have hmarked : (e.markStale names).properties.get? r.name = _ := markStale_get?_computed hp
  obtain ⟨x, s, hx, hs, hsel⟩ :=
    Selection.selected_of_mem_results (h.markStale names) now .stale hctx hr
  rw [hmarked] at hx
  cases hx
  cases hs
  obtain ⟨q₁, hget, hexpression₁, hstatus, herror⟩ :=
    Selection.result_computed (h.markStale names) now .stale hctx hr hmarked
  obtain ⟨q₂, hget', _, hfresh⟩ :=
    Selection.fresh_compute (h.markStale names) now .stale hctx halike hmarked hsel
  rw [hget] at hget'
  cases hget'
  have hnot : ¬ q₁.RanOut := by
    rintro ⟨limit, hq₁⟩
    exact hdeep ⟨r, List.mem_mergeSort.2 hr, limit, herror.trans hq₁⟩
  refine (hfresh hnot).congr (sameGiven_markStale e names).symm
    (hexpression.trans hexpression₁.symm) hstatus ?_ herror
  exact congrArg (fun x => Option.bind x Property.current) hget

/-- Writing back what a pass has found makes the marked properties fresh and keeps fresh those that
    are, unless the pass runs out of levels. -/
theorem fresh_written_pass (hdeep : ¬ o.RanOut) {name : String} (hname : name ∈ names ∨ e.Fresh settings name) :
    (e.written (o.records entity actor)).Fresh settings name := by
  have hw := writable_pass h ho entity actor
  intro q hq
  obtain ⟨p, hp⟩ := computed_of_written hw hq
  have hbefore : p.FreshIn settings e ∨
      ∃ record ∈ o.records entity actor, record.property = name := by
    rcases hname with hname | hfresh
    · by_cases hcircular : p.status = .circular
      · exact .inl fun hne => absurd hcircular hne
      · exact .inr (exists_record h ho entity actor hname hp hcircular)
    · exact .inl (hfresh p hp)
  obtain ⟨q', hq', hfresh⟩ := written_computed hw hp
    (fun record hrecord hrname q hexpression =>
      fresh_record h ho entity actor hdeep hrecord (hrname ▸ hp) hexpression) hbefore
  rw [hq] at hq'
  cases hq'
  exact hfresh.congr (sameGiven_written hw) rfl rfl rfl rfl

end Entity

end EntityFormulas
