/-
  EntityFormulas/Proofs/Computation/Succession.lean
  =================================================
  **Passes one after another.**

  Notifications that are handled at once lead to a pass each, unless their
  property does not exist or lies on a cycle by then.  Every pass finds the
  entity as the one before has left it (`Eagerly`).  What a pass does not compute
  it leaves alone, so a property is in the end what the last pass has made of it
  that computes it.  The first pass computes all that is stale or has never been
  computed, and every later one only the property it was notified of.
-/
import EntityFormulas.Proofs.Computation.Coherence
import EntityFormulas.Proofs.Computation.Marking
import EntityFormulas.Proofs.Computation.Passes
import EntityFormulas.Proofs.Computation.WriteBack

namespace EntityFormulas

/-! ### What computing does not touch -/

/-- The property without its state: how it is defined, or its given value. -/
def Property.definition : Property → Property
  | .computed p =>
    .computed { p with cached := none, cachedAt := none, status := .pending, error := none }
  | .inherited p => .inherited { p with resolved := none, status := .pending, error := none }
  | p => p

namespace Property

@[simp] theorem definition_markStale (p : Property) : p.markStale.definition = p.definition := by
  cases p <;> rfl

@[simp] theorem definition_applied (v : Verdict) (p : Property) :
    (v.applied p).definition = p.definition := by
  cases p with
  | literal p | measured p => rfl
  | computed p =>
    obtain ⟨name, expression, dependencies, cached, cachedAt, status, error⟩ := p
    cases v <;> cases status <;> rfl
  | inherited p =>
    obtain ⟨name, source, sourceName, override, resolved, status, error⟩ := p
    cases v <;> cases status <;> rfl

theorem exists_computed {p : ComputedProperty} {q : Property}
    (h : q.definition = (computed p).definition) :
    ∃ p', q = .computed p' ∧ p'.expression = p.expression := by
  cases q with
  | computed p' =>
    unfold definition at h
    dsimp only at h
    refine ⟨p', rfl, ?_⟩
    injection h with h
    injection h
  | _ => exact nomatch h

theorem exists_inherited {p : InheritedProperty} {q : Property}
    (h : q.definition = (inherited p).definition) :
    ∃ p', q = .inherited p' ∧ p'.override = p.override ∧ p'.source = p.source ∧
      p'.sourceProperty = p.sourceProperty := by
  cases q with
  | inherited p' =>
    unfold definition at h
    injection h with h
    injection h with hname hsource hsourceName hoverride
    refine ⟨p', rfl, hoverride, hsource, ?_⟩
    unfold InheritedProperty.sourceProperty
    rw [hname, hsourceName]
  | _ => exact nomatch h

/-- The formula of a computed property, if it can be read. -/
def formula? : Property → Option Expression
  | .computed p => (Expression.parse p.expression).toOption
  | _ => none

end Property

namespace Entity

/-- Two states of an entity: its properties are defined alike. -/
structure SameDefinitions (e e' : Entity) : Prop where
  id : e.id = e'.id
  tenant : e.tenant = e'.tenant
  type : e.typePath = e'.typePath
  definition : ∀ name, (e.properties.get? name).map Property.definition =
    (e'.properties.get? name).map Property.definition

namespace SameDefinitions

theorem refl (e : Entity) : e.SameDefinitions e := ⟨rfl, rfl, rfl, fun _ => rfl⟩

theorem symm {e e' : Entity} (h : e.SameDefinitions e') : e'.SameDefinitions e :=
  ⟨h.id.symm, h.tenant.symm, h.type.symm, fun name => (h.definition name).symm⟩

theorem trans {a b c : Entity} (h : a.SameDefinitions b) (h' : b.SameDefinitions c) :
    a.SameDefinitions c :=
  ⟨h.id.trans h'.id, h.tenant.trans h'.tenant, h.type.trans h'.type,
    fun name => (h.definition name).trans (h'.definition name)⟩

variable {e e' : Entity} (h : e.SameDefinitions e') {name : String}
include h

theorem exists_get? {p : Property} (hp : e.properties.get? name = some p) :
    ∃ q, e'.properties.get? name = some q ∧ q.definition = p.definition := by
  have hdefinition := h.definition name
  rw [hp] at hdefinition
  exact Option.map_eq_some_iff.1 hdefinition.symm

theorem contains : e.properties.contains name = e'.properties.contains name := by
  unfold Dict.contains
  rw [← Option.isSome_map (f := Property.definition), h.definition, Option.isSome_map]

end SameDefinitions

theorem sameDefinitions_markStale (e : Entity) (names : List String) :
    e.SameDefinitions (e.markStale names) := by
  refine ⟨rfl, rfl, rfl, fun name => ?_⟩
  rw [markStale_get?, Option.map_map]
  congr 1
  funext p
  show p.definition = (if name ∈ names then p.markStale else p).definition
  split
  · rw [p.definition_markStale]
  · rfl

/-- A pass of that scope computes the property. -/
def Selects (scope : Scope) (e : Entity) (name : String) : Prop :=
  ∃ p s, e.properties.get? name = some p ∧ p.status? = some s ∧ scope.selects s = true

/-- Entities with the same definitions evaluate a property by the same formula if both compute it. -/
theorem SameDefinitions.pending_iff {scope : Scope} {e e' : Entity} (h : e.SameDefinitions e')
    (hn : e.NamesAgree) (hn' : e'.NamesAgree) {name : String} {f : Expression}
    (hs : e'.Selects scope name) (hf : (Selection.ofEntity scope e).pending.get? name = some f) :
    (Selection.ofEntity scope e').pending.get? name = some f := by
  obtain ⟨p, hp, -, hparse⟩ :=
    (Selection.get?_formulas_iff hn).1 ((Selection.get?_pending_iff _).1 hf)
  obtain ⟨q, hq, hdefinition⟩ := h.exists_get? hp
  obtain ⟨p', rfl, hexpression⟩ := Property.exists_computed hdefinition
  obtain ⟨q, s, hq', hstatus, hsel⟩ := hs
  rw [hq] at hq'
  cases hq'
  cases hstatus
  exact (Selection.get?_pending_iff _).2
    ((Selection.get?_formulas_iff hn').2 ⟨p', hq, hsel, hexpression ▸ hparse⟩)

theorem selects_of_pending {scope : Scope} {e : Entity} (hn : e.NamesAgree) {name : String}
    {f : Expression} (hf : (Selection.ofEntity scope e).pending.get? name = some f) :
    e.Selects scope name := by
  obtain ⟨p, hp, hsel, -⟩ :=
    (Selection.get?_formulas_iff hn).1 ((Selection.get?_pending_iff _).1 hf)
  exact ⟨_, _, hp, rfl, hsel⟩

/-- The formulas of an entity that can be read. -/
def readable (e : Entity) : List Expression := e.properties.values.filterMap Property.formula?

/-- What a pass evaluates is a formula of the entity, also as it was before. -/
theorem SameDefinitions.mem_readable {scope : Scope} {e e' : Entity} (h : e.SameDefinitions e')
    (hn : e'.NamesAgree) {name : String} {f : Expression}
    (hf : (Selection.ofEntity scope e').pending.get? name = some f) : f ∈ e.readable := by
  obtain ⟨p, hp, -, hparse⟩ :=
    (Selection.get?_formulas_iff hn).1 ((Selection.get?_pending_iff _).1 hf)
  obtain ⟨q, hq, hdefinition⟩ := h.symm.exists_get? hp
  obtain ⟨p', rfl, hexpression⟩ := Property.exists_computed hdefinition
  refine List.mem_filterMap.2 ⟨.computed p', Dict.mem_values_iff.2 ⟨name, hq⟩, ?_⟩
  show (Expression.parse p'.expression).toOption = some f
  rw [hexpression, hparse]
  rfl

/-- Gathering tracks formulas that read nothing but own properties. -/
theorem SameDefinitions.tracks {e e' : Entity} (h : e.SameDefinitions e') (hn : e'.NamesAgree)
    (hown : ∀ f ∈ e.readable, ∀ d ∈ f.parts, d.readsOwn = true) (scope : Scope)
    (settings : Settings) (t : TenantTable) (ps : Dict Property) :
    scope.Tracks settings t e' ps := by
  refine Gathering.tracked_of_readsOwn (fun f hf => ?_) _ _
  obtain ⟨name, hf⟩ := Dict.mem_values_iff.1 hf
  exact hown f (h.mem_readable hn hf)

/-- With these properties marked, a pass computes what is stale or has never been computed and the
    marked ones, except for those on cycles. -/
theorem selects_markStale_iff {e : Entity} {names : List String} {name : String} :
    (e.markStale names).Selects .stale name ↔ ∃ p s, e.properties.get? name = some p ∧
      p.status? = some s ∧ s ≠ .circular ∧ (s.needsRecompute = true ∨ name ∈ names) := by
  unfold Selects
  simp only [markStale_get?]
  constructor
  · rintro ⟨p, s, hp, hs, hsel⟩
    obtain ⟨q, hq, rfl⟩ := Option.map_eq_some_iff.1 hp
    split at hs
    · rename_i hname
      rw [q.status?_markStale] at hs
      obtain ⟨s', hs', rfl⟩ := Option.map_eq_some_iff.1 hs
      refine ⟨q, s', hq, hs', ?_, .inr hname⟩
      rintro rfl
      exact nomatch hsel
    · refine ⟨q, s, hq, hs, Scope.ne_circular_of_selects hsel, .inl ?_⟩
      cases s with
      | pending | stale => rfl
      | _ => exact nomatch hsel
  · rintro ⟨q, s, hq, hs, hne, hwhy⟩
    by_cases hname : name ∈ names
    · refine ⟨q.markStale, s.marked, by rw [hq, Option.map_some, if_pos hname], ?_, ?_⟩
      · rw [q.status?_markStale, hs, Option.map_some]
      · cases s with
        | circular => exact absurd rfl hne
        | _ => rfl
    · have hneeds := hwhy.resolve_right hname
      refine ⟨q, s, by rw [hq, Option.map_some, if_neg hname], hs, ?_⟩
      cases s with
      | pending | stale => rfl
      | _ => exact nomatch hneeds

end Entity

/-! ### Tables around an entity -/

/-- Two states of a table that differ in one entity only, and in the history. -/
structure TenantTable.SameAround (id : String) (t t' : TenantTable) : Prop where
  entities : ∀ id', id' ≠ id → t.entities.get? id' = t'.entities.get? id'
  relationships : t.relationships = t'.relationships

namespace TenantTable.SameAround

variable {id : String} {a b c : TenantTable}

theorem refl (id : String) (t : TenantTable) : SameAround id t t := ⟨fun _ _ => rfl, rfl⟩

theorem symm (h : SameAround id a b) : SameAround id b a :=
  ⟨fun id' hid => (h.entities id' hid).symm, h.relationships.symm⟩

theorem trans (h : SameAround id a b) (h' : SameAround id b c) : SameAround id a c :=
  ⟨fun id' hid => (h.entities id' hid).trans (h'.entities id' hid),
    h.relationships.trans h'.relationships⟩

end TenantTable.SameAround

/-! ### Single passes -/

/-- A pass that a notification has led to. -/
structure NotifiedPass where
  /-- What the tenant had then. -/
  table : TenantTable
  /-- The entity as it was loaded. -/
  entity : Entity
  property : String
  outcome : PassOutcome

namespace NotifiedPass

/-- The entity as the pass finds it. -/
def marked (p : NotifiedPass) : Entity := p.entity.markStale [p.property]

/-- The context that has everything, for the formulas that the pass evaluates. -/
def context (settings : Settings) (p : NotifiedPass) : EvaluationContext :=
  Scope.stale.everything settings p.table p.marked p.outcome.properties

/-- The pass computes the property: it reports on it. -/
def Computes (p : NotifiedPass) (name : String) : Prop := ∃ r ∈ p.outcome.results, r.name = name

/-- The status in which the pass leaves a property. -/
def status? (p : NotifiedPass) (name : String) : Option Status :=
  (p.outcome.properties.get? name).bind Property.status?

/-- The outcome is that of a pass over the entity in a context gathered from the table. -/
structure Made (settings : Settings) (p : NotifiedPass) : Prop where
  keyed : p.table.Keyed
  names : p.entity.NamesAgree
  outcome : p.marked.PassesTo settings p.table p.outcome

namespace Made

variable {settings : Settings} {p : NotifiedPass} (h : p.Made settings) {name : String}
include h

theorem names_marked : p.marked.NamesAgree := h.names.markStale [p.property]

theorem passed : ∃ now ctx,
    Selection.Passed .stale settings p.table p.marked now ctx p.outcome.properties := by
  obtain ⟨now, ctx, hg, ho⟩ := h.outcome
  exact ⟨now, ctx, h.keyed, h.names_marked, hg, by rw [ho]; rfl⟩

theorem judged : ∃ vs, p.marked.Judged .stale vs p.outcome := by
  obtain ⟨now, ctx, hg, ho⟩ := h.outcome
  rw [ho]
  exact ⟨_, Selection.judged_compute h.names_marked .stale now hg.grows.properties⟩

theorem computes_iff : p.Computes name ↔ p.marked.Selects .stale name := by
  obtain ⟨vs, hj⟩ := h.judged
  exact hj.exists_result_iff.trans (hj.selects name)

/-- A property that the pass computes moves by a verdict. -/
theorem exists_applied (hc : p.Computes name) : ∃ q s, ∃ v : Verdict,
    p.marked.properties.get? name = some q ∧ q.status? = some s ∧ s ≠ .circular ∧
      p.outcome.properties.get? name = some (v.applied q) := by
  obtain ⟨vs, hj⟩ := h.judged
  obtain ⟨v, hv⟩ := hj.exists_result_iff.1 hc
  obtain ⟨q, s, hq, hs, hsel⟩ := (hj.selects name).1 ⟨v, hv⟩
  refine ⟨q, s, v, hq, hs, Scope.ne_circular_of_selects hsel, ?_⟩
  rw [hj.get? hv, hq, Option.map_some]

/-- What the pass does not compute it has not selected. -/
theorem unselected (hc : ¬ p.Computes name) {q : Property} {s : Status}
    (hq : p.marked.properties.get? name = some q) (hs : q.status? = some s) :
    Scope.stale.selects s = false := by
  rw [h.computes_iff] at hc
  by_contra hsel
  exact hc ⟨q, s, hq, hs, by simpa using hsel⟩

theorem get?_marked_of_not_computes (hc : ¬ p.Computes name) :
    p.outcome.properties.get? name = p.marked.properties.get? name := by
  obtain ⟨vs, hj⟩ := h.judged
  exact hj.get?_unselected fun _ _ hq hs => h.unselected hc hq hs

/-- What the pass does not compute stays as it was stored. -/
theorem get?_of_not_computes (hc : ¬ p.Computes name) :
    p.outcome.properties.get? name = p.entity.properties.get? name := by
  rw [h.get?_marked_of_not_computes hc, marked, Entity.markStale_get?]
  cases hq : p.entity.properties.get? name with
  | none => rfl
  | some q =>
    rw [Option.map_some]
    split
    · rename_i hname
      have hmarked : p.marked.properties.get? name = some q.markStale := by
        rw [marked, Entity.markStale_get?, hq, Option.map_some, if_pos hname]
      rw [Property.markStale_of_unselected fun s hs => h.unselected hc hmarked hs]
    · rfl

/-- After the pass nothing is stale or waits to be computed. -/
theorem settled {q : Property} {s : Status} (hq : p.outcome.properties.get? name = some q)
    (hs : q.status? = some s) : s.needsRecompute = false := by
  by_cases hc : p.Computes name
  · obtain ⟨q', s', v, -, hs', hne, hv⟩ := h.exists_applied hc
    rw [hq] at hv
    cases hv
    obtain ⟨s'', hs'', hsettled⟩ := v.exists_applied_status hs' hne
    rw [hs] at hs''
    cases hs''
    exact hsettled
  · rw [h.get?_marked_of_not_computes hc] at hq
    have hunselected := h.unselected hc hq hs
    cases s with
    | pending | stale => exact nomatch hunselected
    | _ => rfl

/-- The pass leaves the definitions. -/
theorem get?_definition (name : String) :
    (p.outcome.properties.get? name).map Property.definition =
      (p.entity.properties.get? name).map Property.definition := by
  by_cases hc : p.Computes name
  · obtain ⟨q, s, v, hq, -, -, hv⟩ := h.exists_applied hc
    rw [(p.entity.sameDefinitions_markStale [p.property]).definition,
      show (p.entity.markStale [p.property]).properties.get? name = some q from hq, hv,
      Option.map_some, Option.map_some, Property.definition_applied]
  · rw [h.get?_of_not_computes hc]

/-- A property that the pass computes and does not leave valid keeps its value. -/
theorem get?_current (hv : p.Computes name → p.status? name ≠ some .valid) :
    (p.outcome.properties.get? name).map Property.current =
      (p.entity.properties.get? name).map Property.current := by
  by_cases hc : p.Computes name
  · obtain ⟨q, s, v, hq, hs, hne, ho⟩ := h.exists_applied hc
    have hsettles := v.settles hs hne
    have hstatus := hv hc
    rw [status?, ho, Option.bind_some, hsettles.status] at hstatus
    have herror : v.error? ≠ none := by
      intro hnone
      exact hstatus (congrArg some (Verdict.status_eq_valid_iff.2 hnone))
    rw [(p.entity.sameValues_markStale [p.property]).current,
      show (p.entity.markStale [p.property]).properties.get? name = some q from hq, ho,
      Option.map_some, Option.map_some, hsettles.current herror]
  · rw [h.get?_of_not_computes hc]

theorem computes_iff_stored : p.Computes name ↔ ∃ q s, p.entity.properties.get? name = some q ∧
    q.status? = some s ∧ s ≠ .circular ∧ (s.needsRecompute = true ∨ name = p.property) := by
  rw [h.computes_iff, marked, Entity.selects_markStale_iff]
  simp only [List.mem_singleton]

end Made

end NotifiedPass

/-- One of the passes computes the property. -/
def Computed (ps : List NotifiedPass) (name : String) : Prop := ∃ p ∈ ps, p.Computes name

theorem computed_cons {p : NotifiedPass} {ps : List NotifiedPass} {name : String} :
    Computed (p :: ps) name ↔ p.Computes name ∨ Computed ps name := by
  simp only [Computed, List.exists_mem_cons_iff]

theorem computed_append {ps qs : List NotifiedPass} {name : String} :
    Computed (ps ++ qs) name ↔ Computed ps name ∨ Computed qs name := by
  simp only [Computed, List.mem_append, or_and_right, exists_or]

/-- What is computed has a last pass that computes it. -/
theorem Computed.exists_last {ps : List NotifiedPass} {name : String} (h : Computed ps name) :
    ∃ before p after, ps = before ++ p :: after ∧ p.Computes name ∧ ¬ Computed after name := by
  induction ps with
  | nil =>
    obtain ⟨p, hp, -⟩ := h
    exact absurd hp List.not_mem_nil
  | cons p rest ih =>
    by_cases hrest : Computed rest name
    · obtain ⟨before, q, after, rfl, hq⟩ := ih hrest
      exact ⟨p :: before, q, after, rfl, hq⟩
    · exact ⟨[], p, rest, rfl, (computed_cons.1 h).resolve_right hrest, hrest⟩

/-! ### Passes one after another -/

/-- There is nothing to do about a property: it does not exist, or it lies on a cycle. -/
def Entity.Inert (e : Entity) (name : String) : Prop :=
  ∀ p, e.properties.get? name = some p → p.status? = some .circular

/-- Notifications of properties of an entity are handled one after another, and these are the passes
    that they lead to.  Each pass finds the entity as the one before has left it, and the other
    entities of the table as they are. -/
inductive Eagerly (settings : Settings) (t : TenantTable) :
    Entity → List String → List NotifiedPass → Entity → Prop where
  | done (e : Entity) : Eagerly settings t e [] [] e
  | leave {e e' : Entity} {n : String} {ns : List String} {ps : List NotifiedPass}
    (hn : e.Inert n) (rest : Eagerly settings t e ns ps e') : Eagerly settings t e (n :: ns) ps e'
  | pass {e' : Entity} {p : NotifiedPass} {q : Property} {version : Nat} {ns : List String}
    {ps : List NotifiedPass} (hq : p.entity.properties.get? p.property = some q)
    (hs : q.status? ≠ some .circular) (made : p.Made settings)
    (around : t.SameAround p.entity.id p.table)
    (rest : Eagerly settings t { p.entity with properties := p.outcome.properties, version } ns ps e') :
    Eagerly settings t p.entity (p.property :: ns) (p :: ps) e'

namespace Eagerly

variable {settings : Settings} {t : TenantTable} {e e' : Entity} {ns : List String}
  {ps : List NotifiedPass}

/-- A pass in the middle. -/
theorem split {before after : List NotifiedPass} {p : NotifiedPass}
    (h : Eagerly settings t e ns (before ++ p :: after) e') :
    ∃ ns₁ ns₂ version, Eagerly settings t e ns₁ before p.entity ∧ p.Made settings ∧
      t.SameAround p.entity.id p.table ∧ p.property ∈ ns ∧
      Eagerly settings t { p.entity with properties := p.outcome.properties, version } ns₂ after e' := by
  generalize hps : before ++ p :: after = ps at h
  induction h generalizing before with
  | done e =>
    cases before with
    | nil => exact nomatch hps
    | cons q before => exact nomatch hps
  | leave hn rest ih =>
    obtain ⟨ns₁, ns₂, version, hbefore, hmade, haround, hmem, hafter⟩ := ih hps
    exact ⟨_, ns₂, version, .leave hn hbefore, hmade, haround, List.mem_cons_of_mem _ hmem, hafter⟩
  | @pass e' p' q version ns ps hq hs made around rest ih =>
    cases before with
    | nil =>
      cases hps
      exact ⟨[], ns, version, .done _, made, around, List.mem_cons_self, rest⟩
    | cons p₁ before =>
      cases hps
      obtain ⟨ns₁, ns₂, version', hbefore, hmade, haround, hmem, hafter⟩ := ih rfl
      exact ⟨_, ns₂, version', .pass hq hs made around hbefore, hmade, haround,
        List.mem_cons_of_mem _ hmem, hafter⟩

/-- A notification that is not inert leads to a pass. -/
theorem exists_pass {n : String} (h : Eagerly settings t e (n :: ns) ps e') (hn : ¬ e.Inert n) :
    ∃ p version ps', ps = p :: ps' ∧ p.entity = e ∧ p.property = n ∧ p.Made settings ∧
      Eagerly settings t { e with properties := p.outcome.properties, version } ns ps' e' := by
  cases h with
  | leave hinert => exact absurd hinert hn
  | pass hq hs made around rest => exact ⟨_, _, _, rfl, rfl, rfl, made, rest⟩

variable (h : Eagerly settings t e ns ps e')
include h

theorem made {p : NotifiedPass} (hp : p ∈ ps) : p.Made settings := by
  obtain ⟨before, after, rfl⟩ := List.append_of_mem hp
  obtain ⟨-, -, -, -, hmade, -⟩ := h.split
  exact hmade

/-- Nothing changes how properties are defined. -/
theorem sameDefinitions : e.SameDefinitions e' := by
  induction h with
  | done e => exact .refl e
  | leave _ _ ih => exact ih
  | @pass e' p q version ns ps hq hs made around rest ih =>
    have hpass : p.entity.SameDefinitions
        { p.entity with properties := p.outcome.properties, version } :=
      ⟨rfl, rfl, rfl, fun name => (made.get?_definition name).symm⟩
    exact hpass.trans ih

/-- Nor does a pass on the way. -/
theorem definitions {before after : List NotifiedPass} {p : NotifiedPass}
    (hps : ps = before ++ p :: after) : e.SameDefinitions p.marked := by
  obtain ⟨_, -, -, hbefore, -⟩ := (hps ▸ h).split
  exact hbefore.sameDefinitions.trans (p.entity.sameDefinitions_markStale [p.property])

/-- What no pass computes stays as it is. -/
theorem get?_of_not_computed {name : String} (hc : ¬ Computed ps name) :
    e'.properties.get? name = e.properties.get? name := by
  induction h with
  | done e => rfl
  | leave _ _ ih => exact ih hc
  | pass hq hs made around rest ih =>
    rw [computed_cons, not_or] at hc
    exact (ih hc.2).trans (made.get?_of_not_computes hc.1)

/-- What no pass leaves valid keeps its value. -/
theorem get?_current {name : String}
    (hv : ∀ p ∈ ps, p.Computes name → p.status? name ≠ some .valid) :
    (e'.properties.get? name).map Property.current =
      (e.properties.get? name).map Property.current := by
  induction h with
  | done e => rfl
  | leave _ _ ih => exact ih hv
  | pass hq hs made around rest ih =>
    have hrest := ih fun p hp => hv p (List.mem_cons_of_mem _ hp)
    exact hrest.trans (made.get?_current (hv _ List.mem_cons_self))

/-- After a pass nothing is stale or waits to be computed. -/
theorem settled (hne : ps ≠ []) {name : String} {q : Property} {s : Status}
    (hq : e'.properties.get? name = some q) (hs : q.status? = some s) :
    s.needsRecompute = false := by
  induction h with
  | done e => exact absurd rfl hne
  | leave _ _ ih => exact ih hne hq
  | @pass e' p q' version ns ps hq' hs' made around rest ih =>
    by_cases hps : ps = []
    · subst hps
      rw [rest.get?_of_not_computed (fun ⟨p, hp, _⟩ => absurd hp List.not_mem_nil)] at hq
      exact made.settled hq hs
    · exact ih hps hq

/-- A notification of a property that is on no cycle leads to a pass, or an earlier one has computed
    the property. -/
theorem computed_of_notified {n : String} (hn : n ∈ ns) {q : Property} {s : Status}
    (hq : e.properties.get? n = some q) (hs : q.status? = some s) (hne : s ≠ .circular) :
    Computed ps n := by
  induction h generalizing q s with
  | done e => exact absurd hn List.not_mem_nil
  | leave hleave rest ih =>
    rcases List.mem_cons.1 hn with rfl | hn
    · have hcircular := hleave q hq
      rw [hs] at hcircular
      exact absurd (Option.some.inj hcircular) hne
    · exact ih hn hq hs hne
  | @pass e' p q' version ns ps hq' hs' made around rest ih =>
    rw [computed_cons]
    by_cases hc : p.Computes n
    · exact .inl hc
    · right
      rcases List.mem_cons.1 hn with rfl | hn
      · exact absurd (made.computes_iff_stored.2 ⟨q, s, hq, hs, hne, .inr rfl⟩) hc
      · exact ih hn ((made.get?_of_not_computes hc).trans hq) hs hne

/-- There is a pass unless all the notifications are of inert properties. -/
theorem eq_nil_iff : ps = [] ↔ ∀ n ∈ ns, e.Inert n := by
  induction h with
  | done e => simp
  | leave hn _ ih => rw [ih, List.forall_mem_cons, and_iff_right hn]
  | pass hq hs =>
    constructor
    · exact nofun
    · intro hinert
      exact absurd (hinert _ List.mem_cons_self _ hq) hs

/-- What a pass computes was notified of, or the entity has been waiting for it. -/
theorem selects_of_computed {name : String} (hc : Computed ps name) :
    (e.markStale ns).Selects .stale name := by
  rw [Entity.selects_markStale_iff]
  induction h with
  | done e =>
    obtain ⟨p, hp, -⟩ := hc
    exact absurd hp List.not_mem_nil
  | leave _ _ ih =>
    obtain ⟨q, s, hq, hs, hne, hwhy⟩ := ih hc
    exact ⟨q, s, hq, hs, hne, hwhy.imp_right (List.mem_cons_of_mem _)⟩
  | @pass e' p q' version ns ps hq' hs' made around rest ih =>
    by_cases hp : p.Computes name
    · obtain ⟨q, s, hq, hs, hne, hwhy⟩ := made.computes_iff_stored.1 hp
      refine ⟨q, s, hq, hs, hne, hwhy.imp_right ?_⟩
      rintro rfl
      exact List.mem_cons_self
    · obtain ⟨q, s, hq, hs, hne, hwhy⟩ := ih ((computed_cons.1 hc).resolve_left hp)
      rw [made.get?_of_not_computes hp] at hq
      exact ⟨q, s, hq, hs, hne, hwhy.imp_right (List.mem_cons_of_mem _)⟩

/-- What has no status is never computed. -/
theorem not_computed_of_given {name : String}
    (hn : (e.properties.get? name).bind Property.status? = none) : ¬ Computed ps name := by
  intro hc
  obtain ⟨q, s, hq, hs, -⟩ := Entity.selects_markStale_iff.1 (h.selects_of_computed hc)
  rw [hq, Option.bind_some, hs] at hn
  cases hn

/-- The passes compute what one pass would compute with all the notified properties marked, unless
    no notification leads to a pass. -/
theorem computed_iff (hne : ps ≠ []) {name : String} :
    Computed ps name ↔ (e.markStale ns).Selects .stale name := by
  refine ⟨h.selects_of_computed, fun hsel => ?_⟩
  obtain ⟨q, s, hq, hs, hcircular, hwhy⟩ := Entity.selects_markStale_iff.1 hsel
  rcases hwhy with hneeds | hn
  · by_contra hc
    rw [← h.get?_of_not_computed hc] at hq
    rw [h.settled hne hq hs] at hneeds
    exact nomatch hneeds
  · exact h.computed_of_notified hn hq hs hcircular

end Eagerly

end EntityFormulas
