/-
  EntityFormulas/Proofs/Computation/Incremental.lean
  ==================================================
  **Recomputing what is marked stale.**

  A pass over stale properties evaluates fewer formulas than one over all of
  them: it reads the other properties from their caches, and its context is
  gathered for fewer formulas.  On an entity that a full pass leaves as it is
  both make no difference, as far as gathering tracks what the marked formulas
  read: every property keeps its value, unless evaluation runs out of levels,
  which it may when a property is first read deeper down (`recompute_marked`,
  `deepened_exceeds`).
-/
import EntityFormulas.Proofs.Computation.Marking
import EntityFormulas.Proofs.Computation.PassAnswers
import EntityFormulas.Proofs.Evaluation.Caching

namespace EntityFormulas

open Evaluation EvaluationContext

/-- A pass leaves all derived properties valid with the values that they had. -/
def Entity.UpToDate (e : Entity) (o : PassOutcome) : Prop :=
  ∀ name p, e.properties.get? name = some p → p.status?.isSome →
    p.status? = some .valid ∧ ∃ q, o.properties.get? name = some q ∧
      q.status? = some .valid ∧ q.current = p.current

/-! ### Marked entities -/

namespace Selection

/-- The context in which only stale formulas of an entity are evaluated and all other properties
    are read as they are stored. -/
def staleContext (e : Entity) (ctx : EvaluationContext) : EvaluationContext :=
  { ctx with pending := (ofEntity .stale e).pending, properties := e.properties }

section Marked

variable {e : Entity} (h : e.NamesAgree) {names : List String}
include h

/-- A pass over stale properties of the marked entity evaluates formulas that a full pass does. -/
theorem pending_of_marked {name : String} {f : Expression}
    (hf : (ofEntity .stale (e.markStale names)).pending.get? name = some f) :
    (ofEntity .all e).pending.get? name = some f := by
  obtain ⟨p, hp, hsel, hparse⟩ :=
    (get?_formulas_iff (h.markStale names)).1 ((get?_pending_iff _).1 hf)
  obtain ⟨q, hq, rfl⟩ := Entity.markStale_computed hp
  have hcircular : q.status ≠ .circular := by
    intro hq
    rw [hq] at hsel
    simp [Status.marked, Status.goesStale, Scope.selects] at hsel
  exact (get?_pending_iff _).2 ((get?_formulas_iff h).2
    ⟨q, hq, Scope.selects_all_iff.2 hcircular, hparse⟩)

end Marked

/-! ### The full pass -/

section Full

variable {t : TenantTable} {settings : Settings} {e : Entity} (h : e.NamesAgree) {now : String}
  {ctx : EvaluationContext} (hctx : (EvaluationContext.ofEntity settings e).Grows ctx)
  (hu : e.UpToDate ((ofEntity .all e).compute now ctx ⟨e.properties, []⟩))
include h hctx hu

/-- Inherited properties keep their values. -/
theorem source_keeps {name : String} {p : InheritedProperty}
    (hp : e.properties.get? name = some (.inherited p)) :
    p.status = .valid ∧
      ∃ v, Verdict.ofSource now ctx p = .valid v now ∧ p.override.or v = p.override.or p.resolved := by
  obtain ⟨hstatus, q, hq, hqs, hcurrent⟩ := hu name _ hp rfl
  have hvalid : p.status = .valid := Option.some.inj hstatus
  have hcircular : p.status ≠ .circular := by
    rw [hvalid]
    decide
  rw [compute_inherited h now .all hctx.properties hp (Scope.selects_all_iff.2 hcircular)] at hq
  have hq := Option.some.inj hq
  rw [← hq] at hqs hcurrent
  obtain ⟨v, now', hv⟩ := Verdict.exists_valid_of_inherited hcircular hqs
  obtain ⟨rfl, _⟩ := Verdict.ofSource_eq_valid_iff.1 hv
  rw [hv, Verdict.valid_applied_inherited hcircular] at hcurrent
  exact ⟨hvalid, v, hv, hcurrent⟩

theorem full_current (name : String) :
    (((ofEntity .all e).passContext now ctx).properties.get? name).map Property.current =
      (e.properties.get? name).map Property.current := by
  refine passContext_current h now .all ctx hctx.properties (fun name p hp hsel => ?_) name
  obtain ⟨_, v, hv, hcurrent⟩ := source_keeps h hctx hu hp
  rw [hv, Verdict.valid_applied_inherited (Scope.selects_all_iff.1 hsel)]
  exact hcurrent

/-- Computed properties have their values as meanings. -/
theorem full_meaning {name : String} {f : Expression}
    (hf : (ofEntity .all e).pending.get? name = some f) :
    ∃ p, e.properties.get? name = some (.computed p) ∧ p.status = .valid ∧
      ((ofEntity .all e).passContext now ctx).ownMeaning name = .ok p.cached := by
  obtain ⟨p, hp, hsel, hparse⟩ := (get?_formulas_iff h).1 ((get?_pending_iff _).1 hf)
  obtain ⟨hstatus, q, hq, hqs, hcurrent⟩ := hu name _ hp rfl
  obtain ⟨r, _, hsound, hget⟩ := compute_answer h now .all hctx.properties hp hsel hparse
  rw [hget] at hq
  have hq := Option.some.inj hq
  have hr := Verdict.ofAnswer_eq_ok (Scope.selects_all_iff.1 hsel) now name (hq ▸ hqs)
  rw [hq, hcurrent] at hr
  exact ⟨p, hp, Option.some.inj hstatus, (hsound (by rw [hr]; trivial)).trans hr⟩

/-- What the full pass evaluates has the values that the properties store. -/
theorem full_caches (names : List String) :
    ((ofEntity .all e).passContext now ctx).Caches
      (staleContext (e.markStale names) (ctx.withOwn (e.markStale names))) := by
  have hentity : ctx.entity = e := hctx.entity
  have hmarked := e.sameValues_markStale names
  have halike : ((ofEntity .all e).passContext now ctx).Alike
      (staleContext (e.markStale names) (ctx.withOwn (e.markStale names))) :=
    ⟨rfl, show ctx.entity.id = e.id by rw [hentity], show ctx.entity.typePath = e.typePath by rw [hentity]⟩
  have hcurrent (name : String) := (full_current h hctx hu name).trans (hmarked.current name)
  refine ⟨halike, rfl, rfl, fun name => ?_, fun name f hf => pending_of_marked h hf,
    fun name hn hs => ?_⟩
  · have hfull : ((ofEntity .all e).passContext now ctx).hasOwnProperty name =
        e.properties.contains name := by
      rw [← pending_or_contains h, ← contains_congr (full_current h hctx hu name)]
      rfl
    rw [hfull, contains_congr (hmarked.current name)]
    exact (pending_or_contains (h.markStale names) name).symm
  · cases hp : (ofEntity .all e).pending.get? name with
    | none =>
      have hown : ((ofEntity .all e).passContext now ctx).ownMeaning name =
          storedProperty ((ofEntity .all e).passContext now ctx) name :=
        ownMeaning_stored hp
      rw [hown]
      exact (storedProperty_congr halike (hcurrent name)).symm
    | some f =>
      obtain ⟨p, hp, _, hmeaning⟩ := full_meaning h hctx hu hp
      rw [hmeaning]
      have hstored := hmarked.current name
      rw [hp] at hstored
      obtain ⟨q, hq, hpq⟩ := Option.map_eq_some_iff.1 hstored.symm
      unfold storedProperty
      rw [show (staleContext (e.markStale names)
        (ctx.withOwn (e.markStale names))).properties.get? name = some q from hq]
      exact congrArg Except.ok hpq

end Full

/-! ### The pass over stale properties -/

section Incremental

variable {t : TenantTable} {settings : Settings} {e : Entity} (h : e.NamesAgree) {now : String}
  (now' : String) {ctx ctx' : EvaluationContext} {names : List String}
  (hg : Gathered t settings e (ofEntity .all e).pending.values ctx)
  (hg' : Gathered t settings (e.markStale names)
    (ofEntity .stale (e.markStale names)).pending.values ctx')
  (hu : e.UpToDate ((ofEntity .all e).compute now ctx ⟨e.properties, []⟩))
include h hg hg' hu

/-- Inherited properties find the values again that the full pass finds. -/
theorem source_again {name : String} {p : InheritedProperty}
    (hp : (e.markStale names).properties.get? name = some (.inherited p)) :
    ∃ v, Verdict.ofSource now' ctx' p = .valid v now' ∧
      p.override.or v = (Property.inherited p).current := by
  obtain ⟨q, hq, rfl⟩ := Entity.markStale_inherited hp
  obtain ⟨_, v, hv, hcurrent⟩ := source_keeps h hg.grows hu hq
  refine ⟨v, Verdict.ofSource_eq_valid_iff.2 ⟨rfl, ?_⟩, hcurrent⟩
  rw [← (Verdict.ofSource_eq_valid_iff.1 hv).2]
  have hknown : ctx.entity? q.source = t.known e q.source :=
    hg.covers.direct q.source (List.mem_append_right _
      (List.mem_map_of_mem (Entity.mem_inherited_iff.2 ⟨name, hq⟩)))
  have hknown' : ctx'.entity? q.source = t.known (e.markStale names) q.source :=
    hg'.covers.direct q.source (List.mem_append_right _
      (List.mem_map.2 ⟨_, Entity.mem_inherited_iff.2 ⟨name, hp⟩, rfl⟩))
  rw [hknown, hknown']
  have hsame := TenantTable.known_current (t := t) (e.sameValues_markStale names) q.source
    q.sourceProperty
  rw [hsame]
  rfl

theorem stale_current (name : String) :
    (((ofEntity .stale (e.markStale names)).passContext now' ctx').properties.get? name).map
      Property.current = ((e.markStale names).properties.get? name).map Property.current := by
  refine passContext_current (h.markStale names) now' .stale ctx' hg'.grows.properties
    (fun name p hp hsel => ?_) name
  obtain ⟨v, hv, hcurrent⟩ := source_again h now' hg hg' hu hp
  rw [hv, Verdict.valid_applied_inherited (Scope.ne_circular_of_selects hsel)]
  exact hcurrent

/-- The context of the pass stores the values that the properties had. -/
theorem stale_caches : (staleContext (e.markStale names) ctx').Caches
    ((ofEntity .stale (e.markStale names)).passContext now' ctx') := by
  have hcurrent := stale_current h now' hg hg' hu
  refine ⟨⟨rfl, rfl, rfl⟩, rfl, rfl, fun name => ?_, fun name f hf => hf, fun name hn _ => ?_⟩
  · unfold EvaluationContext.hasOwnProperty
    rw [contains_congr (hcurrent name)]
    rfl
  · have halike : ((ofEntity .stale (e.markStale names)).passContext now' ctx').Alike
        (staleContext (e.markStale names) ctx') := ⟨rfl, rfl, rfl⟩
    have hown : (staleContext (e.markStale names) ctx').ownMeaning name =
        storedProperty (staleContext (e.markStale names) ctx') name :=
      ownMeaning_stored hn
    rw [hown]
    exact storedProperty_congr halike (hcurrent name)

/-- Marked computed properties have their values as meanings, where gathering tracks what their
    formulas read. -/
theorem stale_meaning (hk : t.Keyed)
    (ht : Gathering.Tracked ⟨settings, t, e.markStale names,
        (ofEntity .stale (e.markStale names)).pending.values⟩
      (ofEntity .stale (e.markStale names)).pending (e.markStale names).properties)
    {name : String} {f : Expression}
    (hf : (ofEntity .stale (e.markStale names)).pending.get? name = some f) :
    ∃ p, e.properties.get? name = some (.computed p) ∧
      ((ofEntity .stale (e.markStale names)).passContext now' ctx').ownMeaning name =
        .ok p.cached := by
  obtain ⟨p, hp, _, hfull⟩ := full_meaning h hg.grows hu (pending_of_marked h hf)
  have hvalues : f ∈ (ofEntity .stale (e.markStale names)).pending.values :=
    Dict.mem_values_iff.2 ⟨name, hf⟩
  have hserves {c : EvaluationContext} (hc : Gathered t settings (e.markStale names)
      (ofEntity .stale (e.markStale names)).pending.values c) :=
    Gathering.serves (g := ⟨settings, t, e.markStale names,
      (ofEntity .stale (e.markStale names)).pending.values⟩) hk hc.faithful hc.grows hc.covers
      (fun n g hg => Dict.mem_values_iff.2 ⟨n, hg⟩) (fun _ hn => hn) ht
  have hsub : (ofEntity .stale (e.markStale names)).pending.values ⊆
      (ofEntity .all e).pending.values := by
    intro g hg
    obtain ⟨n, hn⟩ := Dict.mem_values_iff.1 hg
    exact Dict.mem_values_iff.2 ⟨n, pending_of_marked h hn⟩
  have hown {c : EvaluationContext}
      (hc : c.pending = (ofEntity .stale (e.markStale names)).pending) :
      c.ownMeaning name = c.meaning f :=
    ownMeaning_pending (hc ▸ hf)
  -- from the full pass to its context with caches, from there to all that the tenant has and back
  -- to what the pass over stale properties gathers
  have hcached : (staleContext (e.markStale names) (ctx.withOwn (e.markStale names))).meaning f =
      .ok p.cached := by
    rw [← hown rfl, ← hfull]
    exact (full_caches h hg.grows hu names).ownMeaning (by rw [hfull]; trivial)
  have hwhole := (hserves (hg.marked hsub names)).meaning ⟨f, hvalues, f.mem_parts_self⟩
    (show Settled ((staleContext (e.markStale names) (ctx.withOwn (e.markStale names))).meaning f)
      by rw [hcached]; trivial)
  have hwhole := hwhole.trans hcached
  have hstale := (hserves hg').symm.meaning ⟨f, hvalues, f.mem_parts_self⟩ (by rw [hwhole]; trivial)
  have hstale : (staleContext (e.markStale names) ctx').meaning f = .ok p.cached := hstale.trans hwhole
  refine ⟨p, hp, ?_⟩
  rw [← hstale, ← hown rfl]
  exact (stale_caches h now' hg hg' hu).ownMeaning (by rw [hown rfl, hstale]; trivial)

/-- A marked inherited property finds its value again. -/
theorem compute_stale_inherited {name : String} (hn : name ∈ names) {p : InheritedProperty}
    (hp : e.properties.get? name = some (.inherited p)) :
    ∃ q, ((ofEntity .stale (e.markStale names)).compute now' ctx'
        ⟨(e.markStale names).properties, []⟩).properties.get? name = some q ∧
      q.status? = some .valid ∧ q.current = (Property.inherited p).current := by
  obtain ⟨hvalid, _⟩ := source_keeps h hg.grows hu hp
  have hp' : (e.markStale names).properties.get? name =
      some (.inherited { p with status := .stale }) := by
    rw [Entity.markStale_get?, hp, Option.map_some, if_pos hn]
    show some (Property.inherited { p with status := p.status.marked }) = _
    rw [hvalid]
    rfl
  obtain ⟨v, hv, hcurrent⟩ := source_again h now' hg hg' hu hp'
  refine ⟨_, compute_inherited (h.markStale names) now' .stale hg'.grows.properties hp' rfl, ?_⟩
  rw [hv, Verdict.valid_applied_inherited (show Status.stale ≠ .circular by decide)]
  exact ⟨rfl, hcurrent⟩

/-- A marked computed property has its value again or reports that evaluation ran out of levels. -/
theorem compute_stale_computed (hk : t.Keyed)
    (ht : Gathering.Tracked ⟨settings, t, e.markStale names,
        (ofEntity .stale (e.markStale names)).pending.values⟩
      (ofEntity .stale (e.markStale names)).pending (e.markStale names).properties)
    {name : String} (hn : name ∈ names) {p : ComputedProperty}
    (hp : e.properties.get? name = some (.computed p)) :
    ∃ q, ((ofEntity .stale (e.markStale names)).compute now' ctx'
        ⟨(e.markStale names).properties, []⟩).properties.get? name = some q ∧
      q.current = p.cached ∧ (q.status? = some .valid ∨
        ∃ limit, q.error? = some (EvalError.depthExceeded limit).message) := by
  obtain ⟨hstatus, o, ho, hos, _⟩ := hu name _ hp rfl
  have hvalid : p.status = .valid := Option.some.inj hstatus
  have hsel : Scope.all.selects p.status = true := by
    rw [hvalid]
    rfl
  have hp' : (e.markStale names).properties.get? name =
      some (.computed { p with status := .stale }) := by
    rw [Entity.markStale_get?, hp, Option.map_some, if_pos hn]
    show some (Property.computed { p with status := p.status.marked }) = _
    rw [hvalid]
    rfl
  have hstale : ({ p with status := .stale } : ComputedProperty).status ≠ .circular := nofun
  cases hf : Expression.parse p.expression with
  | error err =>
    rw [compute_unreadable h now .all hg.grows.properties hp hsel hf,
      Verdict.failed_applied (Scope.selects_all_iff.1 hsel)] at ho
    cases ho
    exact nomatch hos
  | ok f =>
    have hpending : (ofEntity .stale (e.markStale names)).pending.get? name = some f :=
      (get?_pending_iff _).2 ((get?_formulas_iff (h.markStale names)).2 ⟨_, hp', rfl, hf⟩)
    obtain ⟨p', hp'', hmeaning⟩ := stale_meaning h now' hg hg' hu hk ht hpending
    rw [hp] at hp''
    cases hp''
    obtain ⟨r, htraced, _, hget⟩ :=
      compute_answer (h.markStale names) now' .stale hg'.grows.properties hp' rfl hf
    refine ⟨_, hget, ?_⟩
    rcases htraced.1 (by rw [hmeaning]; trivial) with hr | hdeep
    · rw [hr, hmeaning, Verdict.ofAnswer, Verdict.valid_applied hstale]
      exact ⟨rfl, .inl rfl⟩
    · cases r with
      | ok v => exact absurd hdeep id
      | error err =>
        refine ⟨Verdict.ofAnswer_applied_current hstale now' name err, ?_⟩
        cases err with
        | depthExceeded limit =>
          exact .inr ⟨limit, Verdict.ofAnswer_applied_error hstale now' name _⟩
        | _ => exact absurd hdeep id

end Incremental

end Selection

/-! ### Recomputing marked entities -/

/-- On an entity that a pass over all properties leaves as it is, a pass over those that are marked
    stale gives every derived property the value that it had.  The property is valid again unless
    evaluation ran out of levels. -/
theorem Entity.recompute_marked {s : MemoryStore} (hs : s.available = true) {settings : Settings}
    {e : Entity} (hk : (s.table e.tenant).Keyed) (h : e.NamesAgree) {now : String}
    (hu : e.UpToDate ((e.recompute settings now .all).run MemoryStore.store s).1)
    (now' : String) (names : List String)
    (ht : Gathering.Tracked ⟨settings, s.table e.tenant, e.markStale names,
        (Selection.ofEntity .stale (e.markStale names)).pending.values⟩
      (Selection.ofEntity .stale (e.markStale names)).pending (e.markStale names).properties)
    {name : String} {p : Property} (hp : e.properties.get? name = some p) (hd : p.status?.isSome) :
    ∃ q, (((e.markStale names).recompute settings now' .stale).run
        MemoryStore.store s).1.properties.get? name = some q ∧
      q.current = p.current ∧ (q.status? = some .valid ∨
        ∃ limit, q.error? = some (EvalError.depthExceeded limit).message) := by
  obtain ⟨ctx, hans, hg⟩ := exists_gathered hs settings e hk (Selection.ofEntity .all e).pending.values
  obtain ⟨ctx', hans', hg'⟩ := exists_gathered hs settings (e.markStale names) hk
    (Selection.ofEntity .stale (e.markStale names)).pending.values
  rw [recompute_run now hans] at hu
  rw [recompute_run now' hans']
  have hstatus : p.status? = some .valid := (hu name p hp hd).1
  by_cases hn : name ∈ names
  · cases p with
    | literal p => exact nomatch hd
    | measured p => exact nomatch hd
    | inherited p =>
      obtain ⟨q, hq, hqs, hcurrent⟩ := Selection.compute_stale_inherited h now' hg hg' hu hn hp
      exact ⟨q, hq, hcurrent, .inl hqs⟩
    | computed p => exact Selection.compute_stale_computed h now' hg hg' hu hk ht hn hp
  · have hp' : (e.markStale names).properties.get? name = some p := by
      rw [markStale_get?, hp, Option.map_some, if_neg hn]
    refine ⟨p, ?_, rfl, .inl hstatus⟩
    rw [← hp']
    refine Selection.compute_unselected (h.markStale names) now' .stale hg'.grows.properties ?_
    intro q st hq hst
    rw [hp'] at hq
    cases hq
    rw [hstatus] at hst
    cases hst
    rfl

/-- An entity whose formulas have found texts. -/
def Entity.ofTexts (formulas : List (String × String × String)) : Entity :=
  formulas.foldl (fun e f => e.withProperty (.computed
    { name := f.1, expression := f.2.1, cached := some (.text f.2.2), status := .valid }))
    { id := "entity", typePath := "entity" }

theorem Entity.upToDate_of_texts {e : Entity} {o : PassOutcome}
    (h : ∀ x ∈ e.properties.entries, x.2.status? = some .valid ∧
      (x.2.current.bind Value.asText?).isSome ∧
      (o.properties.get? x.1).map (fun q => (q.status?, q.current.bind Value.asText?)) =
        some (some .valid, x.2.current.bind Value.asText?)) : e.UpToDate o := by
  have htext {v : Option Value} {s : String} (hv : v.bind Value.asText? = some s) :
      v = some (.text s) := by
    obtain ⟨w, rfl, hw⟩ := Option.bind_eq_some_iff.1 hv
    cases w with
    | text s' =>
      cases hw
      rfl
    | _ => exact nomatch hw
  intro name p hp _
  obtain ⟨hstatus, hsome, hq⟩ := h (name, p) (Dict.mem_entries_iff.2 hp)
  obtain ⟨s, hs⟩ := Option.isSome_iff_exists.1 hsome
  obtain ⟨q, hget, hq⟩ := Option.map_eq_some_iff.1 hq
  have hqs : q.status? = some .valid := congrArg Prod.fst hq
  have hqt : q.current.bind Value.asText? = p.current.bind Value.asText? := congrArg Prod.snd hq
  refine ⟨hstatus, q, hget, hqs, ?_⟩
  rw [htext (hqt.trans hs), htext hs]

/-- A property that another one reads. -/
def labelled : Entity := .ofTexts [("label", "IF(true, #name, \"\")", "Box"), ("name", "\"Box\"", "Box")]

theorem labelled_recompute_marked :
    ∃ p, labelled.properties.get? "label" = some p ∧
      ∃ q, (((labelled.markStale ["label"]).recompute {} "later" .stale).run
          MemoryStore.store {}).1.properties.get? "label" = some q ∧
        q.current = p.current ∧ (q.status? = some .valid ∨
          ∃ limit, q.error? = some (EvalError.depthExceeded limit).message) := by
  have hnames : labelled.NamesAgree := Entity.namesAgree_iff.2 (by decide +kernel)
  have hu : labelled.UpToDate
      ((labelled.recompute {} "now" .all).run MemoryStore.store {}).1 :=
    Entity.upToDate_of_texts (by decide +kernel)
  have hown : ∀ f ∈ (Selection.ofEntity .stale (labelled.markStale ["label"])).pending.values,
      ∀ d ∈ f.parts, d.readsOwn = true := by decide +kernel
  obtain ⟨p, hp, hd⟩ : ∃ p, labelled.properties.get? "label" = some p ∧ p.status?.isSome := by
    have hsome : (labelled.properties.get? "label").any (fun p => p.status?.isSome) = true := by
      decide +kernel
    obtain ⟨p, hp, hd⟩ := (Option.any_eq_true ..).1 hsome
    exact ⟨p, hp, hd⟩
  refine ⟨p, hp, ?_⟩
  exact Entity.recompute_marked (s := {}) rfl (fun _ _ h => (nomatch h)) hnames hu "later" ["label"]
    (Gathering.tracked_of_readsOwn hown _ _) hp hd

/-- A property that one formula reads directly and another one deeper down. -/
def deepened : Entity :=
  .ofTexts [("a", "#p", "X"), ("m", "IF(true, #p, \"\")", "X"), ("p", "\"X\"", "X")]

/-- The full pass, which evaluates the direct read first, leaves the entity as it is; a pass over
    the other two properties runs out of levels. -/
theorem deepened_exceeds :
    deepened.NamesAgree ∧
    deepened.UpToDate
      ((deepened.recompute { recursionLimit := 2 } "now" .all).run MemoryStore.store {}).1 ∧
    ((((deepened.markStale ["m", "p"]).recompute { recursionLimit := 2 } "later" .stale).run
      MemoryStore.store {}).1.properties.get? "m").map (fun p => (p.status?, p.error?)) =
        some (some .error, some (EvalError.depthExceeded 2).message) := by
  exact ⟨Entity.namesAgree_iff.2 (by decide +kernel),
    Entity.upToDate_of_texts (by decide +kernel), by decide +kernel⟩

/-- A formula that reads what gathering fetches only for the chain in the other one. -/
def borrowing : Entity :=
  .ofTexts [("label", "IF(true, self.parent, self.parent).category.label", "X"),
    ("name", "self.parent.category.label", "X")]

/-- A store with what the chain leads to. -/
def borrowedStore : MemoryStore :=
  ((({} : MemoryStore).insert (.withProperty { id := "category", typePath := "category" }
    (.literal { name := "label", value := .text "X" }))).relate "" "entity" "parent" "family").relate
      "" "family" "category" "category"

/-- What gathering does not track can be missed when its formula is evaluated alone. -/
theorem borrowing_loses :
    borrowing.UpToDate
      ((borrowing.recompute {} "now" .all).run MemoryStore.store borrowedStore).1 ∧
    ((((borrowing.markStale ["label"]).recompute {} "later" .stale).run
      MemoryStore.store borrowedStore).1.properties.get? "label").map
        (fun p => (p.status?, p.current.bind Value.asText?)) = some (some .valid, none) :=
  ⟨Entity.upToDate_of_texts (by decide +kernel), by decide +kernel⟩

end EntityFormulas
