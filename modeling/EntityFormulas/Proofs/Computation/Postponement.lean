/-
  EntityFormulas/Proofs/Computation/Postponement.lean
  ===================================================
  **One pass in place of many.**

  Notifications of an entity can lead to a pass each, or to one pass later on
  with everything marked that was notified of.  Both compute the same properties
  (`Eagerly.computed_iff`), but not over the same values: a pass of its own reads
  other properties as they are stored, the pass over all of them evaluates them.

  They come to the same as far as each property is computed in the end when
  everything that its formula asks for is there already (`InOrder`): computed in
  the same pass, or by an earlier one and valid, or by none.  An inherited
  property of the entity itself needs its source as it was at the beginning.

  Two differences remain (`Postponed.agree`).  A property that is read deeper down
  in one way than in the other can run out of levels.  And a property that fails
  keeps the value that it has, which an early pass may have found that the one
  pass never makes.
-/
import EntityFormulas.Proofs.Computation.Succession
import EntityFormulas.Proofs.Evaluation.Confinement

namespace EntityFormulas

open Evaluation EvaluationContext

/-! ### Passes in order -/

/-- What a pass with these passes before and after it can rely on: no later pass computes the
    property, and this pass computes it, or none has so far, or it is valid. -/
def Dependable (before : List NotifiedPass) (p : NotifiedPass) (after : List NotifiedPass)
    (name : String) : Prop :=
  ¬ Computed after name ∧
    (p.Computes name ∨ ¬ Computed before name ∨ p.status? name = some .valid)

/-- Whenever a property is computed for the last time, all is there that it depends on. -/
structure InOrder (settings : Settings) (e : Entity) (ps : List NotifiedPass) : Prop where
  tracks : ∀ p ∈ ps, Scope.stale.Tracks settings p.table p.marked p.outcome.properties
  /-- Its formula asks only for what its pass can rely on. -/
  reads : ∀ before p after, ps = before ++ p :: after → ∀ name f, ¬ Computed after name →
    (Selection.ofEntity .stale p.marked).pending.get? name = some f →
    (p.context settings).ReadsWithin (Dependable before p after) f
  /-- If it comes from a property of the entity itself, that has the value it had before all. -/
  sources : ∀ before p after, ps = before ++ p :: after → ∀ name q, p.Computes name →
    ¬ Computed after name → p.entity.properties.get? name = some (.inherited q) →
    q.override = none → q.source = e.id →
    (p.entity.properties.get? q.sourceProperty).map Property.current =
      (e.properties.get? q.sourceProperty).map Property.current

/-- Passes are in order if formulas ask, by name, only for properties that no pass computes, and
    properties are inherited from other entities. -/
theorem Eagerly.inOrder {settings : Settings} {t : TenantTable} {e e' : Entity} {ns : List String}
    {ps : List NotifiedPass} (h : Eagerly settings t e ns ps e')
    (hown : ∀ f ∈ e.readable, ∀ d ∈ f.parts, d.readsOwn = true)
    (hreads : ∀ f ∈ e.readable, ∀ name, .selfProperty name ∈ f.parts → ¬ Computed ps name)
    (hsources : ∀ name q, e.properties.get? name = some (.inherited q) → q.override = none →
      q.source ≠ e.id) : InOrder settings e ps := by
  refine ⟨fun p hp => ?_, ?_, ?_⟩
  · obtain ⟨before, after, hps⟩ := List.append_of_mem hp
    exact (h.definitions hps).tracks (h.made hp).names_marked hown ..
  · intro before p after hps name f _ hf
    have hmade : p.Made settings := h.made (hps ▸ List.mem_append_right _ List.mem_cons_self)
    have hf := (h.definitions hps).mem_readable hmade.names_marked hf
    apply readsWithin_of_parts
    · intro x hx
      have hnever := hreads f hf x hx
      rw [hps, computed_append, computed_cons, not_or, not_or] at hnever
      exact ⟨hnever.2.2, .inr (.inl hnever.1)⟩
    · intro id hid
      exact nomatch hown f hf _ hid
    · intro o x ho
      exact nomatch hown f hf _ ho
  · intro before p after hps name q _ _ hq hoverride hsource
    obtain ⟨_, -, -, hbefore, -⟩ := (hps ▸ h).split
    obtain ⟨q', hq', hdefinition⟩ := hbefore.sameDefinitions.symm.exists_get? hq
    obtain ⟨q', rfl, hoverride', hsource', -⟩ := Property.exists_inherited hdefinition
    exact absurd (hsource'.trans hsource) (hsources name q' hq' (hoverride'.trans hoverride))

/-! ### Entities that only say differently why they failed, and when -/

/-- Two states of an entity whose properties have the same definitions, statuses and values. -/
structure Entity.Like (e e' : Entity) : Prop where
  id : e.id = e'.id
  tenant : e.tenant = e'.tenant
  type : e.typePath = e'.typePath
  state : ∀ name, (e.properties.get? name).map (fun p => (p.definition, p.status?, p.current)) =
    (e'.properties.get? name).map (fun p => (p.definition, p.status?, p.current))

namespace Entity.Like

theorem refl (e : Entity) : e.Like e := ⟨rfl, rfl, rfl, fun _ => rfl⟩

variable {e e' : Entity} (h : e.Like e')
include h

theorem exists_get? {name : String} {p : Property} (hp : e.properties.get? name = some p) :
    ∃ q, e'.properties.get? name = some q ∧ q.definition = p.definition ∧
      q.status? = p.status? ∧ q.current = p.current := by
  have hstate := h.state name
  rw [hp] at hstate
  obtain ⟨q, hq, heq⟩ := Option.map_eq_some_iff.1 hstate.symm
  injection heq with hdefinition heq
  injection heq with hstatus hcurrent
  exact ⟨q, hq, hdefinition, hstatus, hcurrent⟩

theorem symm : e'.Like e :=
  ⟨h.id.symm, h.tenant.symm, h.type.symm, fun name => (h.state name).symm⟩

theorem trans {e'' : Entity} (h' : e'.Like e'') : e.Like e'' :=
  ⟨h.id.trans h'.id, h.tenant.trans h'.tenant, h.type.trans h'.type,
    fun name => (h.state name).trans (h'.state name)⟩

theorem inert {name : String} (hn : e.Inert name) : e'.Inert name := by
  intro q hq
  obtain ⟨p, hp, -, hstatus, -⟩ := h.symm.exists_get? hq
  rw [← hstatus]
  exact hn p hp

theorem map_congr {α : Type} (f : Property → α) (g : Property × Option Status × Option Value → α)
    (hf : ∀ p, f p = g (p.definition, p.status?, p.current)) (name : String) :
    (e.properties.get? name).map f = (e'.properties.get? name).map f := by
  have hstate := congrArg (Option.map g) (h.state name)
  rw [Option.map_map, Option.map_map] at hstate
  rw [show f = g ∘ fun p => (p.definition, p.status?, p.current) from funext hf]
  exact hstate

theorem sameDefinitions : e.SameDefinitions e' :=
  ⟨h.id, h.tenant, h.type, h.map_congr Property.definition (·.1) fun _ => rfl⟩

theorem current (name : String) : (e.properties.get? name).map Property.current =
    (e'.properties.get? name).map Property.current :=
  h.map_congr Property.current (·.2.2) (fun _ => rfl) name

theorem status (name : String) : (e.properties.get? name).map Property.status? =
    (e'.properties.get? name).map Property.status? :=
  h.map_congr Property.status? (·.2.1) (fun _ => rfl) name

theorem selects {scope : Scope} {name : String} (hs : e.Selects scope name) :
    e'.Selects scope name := by
  obtain ⟨p, s, hp, hstatus, hsel⟩ := hs
  obtain ⟨q, hq, -, hqs, -⟩ := h.exists_get? hp
  exact ⟨q, s, hq, hqs.trans hstatus, hsel⟩

end Entity.Like

/-! ### What passes find without evaluating -/

/-- Whether a source is found depends on definitions only. -/
theorem TenantTable.isSome_known {t t' : TenantTable} {e e' : Entity} (h : e.SameDefinitions e')
    (ht : t.SameAround e.id t') (source name : String) :
    ((t.known e source).bind (·.property? name)).isSome =
      ((t'.known e' source).bind (·.property? name)).isSome := by
  unfold known
  rw [← h.id]
  by_cases hid : source = e.id
  · rw [if_pos hid, if_pos hid]
    exact h.contains
  · rw [if_neg hid, if_neg hid, ht.entities source hid]

namespace NotifiedPass.Made

variable {settings : Settings} {p : NotifiedPass} (h : p.Made settings) {name : String}
include h

/-- A pass leaves an inherited property valid if it finds its source, or an override. -/
theorem status?_inherited {q : InheritedProperty} (hc : p.Computes name)
    (hq : p.marked.properties.get? name = some (.inherited q)) :
    p.status? name = some .valid ↔ q.override.isSome = true ∨
      ((p.table.known p.marked q.source).bind (·.property? q.sourceProperty)).isSome = true := by
  obtain ⟨now, ctx, hp⟩ := h.passed
  obtain ⟨q', s, hq', hs, hsel⟩ := h.computes_iff.1 hc
  rw [hq] at hq'
  cases hq'
  cases hs
  have hne := Scope.ne_circular_of_selects hsel
  have hfound : (∃ v, Verdict.ofSource now ctx q = .valid v now) ↔ q.override.isSome = true ∨
      ((p.table.known p.marked q.source).bind (·.property? q.sourceProperty)).isSome = true := by
    simp only [Verdict.ofSource_eq_valid_iff, true_and, hp.source_known hq]
    rw [← Option.isSome_iff_exists, Option.isSome_or, Option.isSome_map, Option.isSome_map,
      Bool.or_eq_true]
  rw [← hfound, status?, hp.inherited hq hsel, Option.bind_some]
  constructor
  · intro hvalid
    obtain ⟨v, t, hv⟩ := Verdict.exists_valid_of_inherited hne hvalid
    obtain ⟨rfl, -⟩ := Verdict.ofSource_eq_valid_iff.1 hv
    exact ⟨v, hv⟩
  · rintro ⟨v, hv⟩
    rw [hv, Verdict.valid_applied_inherited hne]
    rfl

/-- A pass does not leave a property valid whose formula cannot be read. -/
theorem status?_unreadable {q : ComputedProperty} {err : ParseError} (hc : p.Computes name)
    (hq : p.marked.properties.get? name = some (.computed q))
    (hf : Expression.parse q.expression = .error err) : p.status? name ≠ some .valid := by
  obtain ⟨now, ctx, hp⟩ := h.passed
  obtain ⟨q', s, hq', hs, hsel⟩ := h.computes_iff.1 hc
  rw [hq] at hq'
  cases hq'
  cases hs
  rw [status?, hp.unreadable hq hsel hf, Option.bind_some,
    Verdict.failed_applied (Scope.ne_circular_of_selects hsel)]
  intro hvalid
  cases hvalid

end NotifiedPass.Made

/-! ### The pass over everything -/

/-- Notifications have been handled at once, with these passes, and from the same entity on one pass
    is made with everything marked that they are about. -/
structure Postponed (settings settings' : Settings) (t : TenantTable) (e : Entity) (ns : List String)
    (ps : List NotifiedPass) (e' : Entity) (t' : TenantTable) (m : Entity) (now : String)
    (ctx : EvaluationContext) (qs : Dict Property) : Prop where
  strict : settings.strict = settings'.strict
  eagerly : Eagerly settings t e ns ps e'
  nonempty : ps ≠ []
  inOrder : InOrder settings e ps
  like : (e.markStale ns).Like m
  around : t.SameAround e.id t'
  passed : Selection.Passed .stale settings' t' m now ctx qs
  tracks : Scope.stale.Tracks settings' t' m qs

/-- What these passes one after another leave of a property, next to what one pass leaves of it: the
    same status, and the same value.  There are two exceptions.  The property may have run out of
    levels in one of them, and if it is not valid in the end, it may keep a value that an early pass
    has found. -/
def EndsAlike (ps : List NotifiedPass) (xs ys : Dict Property) (name : String) : Prop :=
  (xs.get? name).map Property.status? = (ys.get? name).map Property.status? ∧
      ((xs.get? name).map Property.current = (ys.get? name).map Property.current ∨
        (xs.get? name).bind Property.status? ≠ some .valid ∧
          ∃ p ∈ ps, p.Computes name ∧ p.status? name = some .valid) ∨
    (∃ q, xs.get? name = some (.computed q) ∧ q.RanOut) ∨
    ∃ q, ys.get? name = some (.computed q) ∧ q.RanOut

namespace Postponed

variable {settings settings' : Settings} {t t' : TenantTable} {e e' m : Entity} {ns : List String}
  {ps : List NotifiedPass} {now : String} {ctx : EvaluationContext} {qs : Dict Property}
  (h : Postponed settings settings' t e ns ps e' t' m now ctx qs) {name : String}
include h

/-- It computes what the others compute. -/
theorem selects_iff : m.Selects .stale name ↔ Computed ps name := by
  rw [h.eagerly.computed_iff h.nonempty]
  exact ⟨h.like.symm.selects, h.like.selects⟩

theorem current_marked : (m.properties.get? name).map Property.current =
    (e.properties.get? name).map Property.current :=
  (h.like.current name).symm.trans ((e.sameValues_markStale ns).current name).symm

/-- What is not computed has the state that it had before all. -/
theorem get?_of_not_computed (hc : ¬ Computed ps name) :
    (qs.get? name).map Property.status? = (e.properties.get? name).map Property.status? ∧
      (qs.get? name).map Property.current = (e.properties.get? name).map Property.current := by
  have hstays : qs.get? name = m.properties.get? name := by
    rcases h.passed.moves name with heq | ⟨p, s, v, hp, hs, hsel, -⟩
    · exact heq
    · exact absurd (h.selects_iff.1 ⟨p, s, hp, hs, hsel⟩) hc
  rw [hstays]
  refine ⟨?_, h.current_marked⟩
  rw [← h.like.status, Entity.markStale_get?, Option.map_map]
  cases hp : e.properties.get? name with
  | none => rfl
  | some p =>
    rw [Option.map_some, Option.map_some, Function.comp_apply]
    split
    · -- A mark that changed the status would have it computed.
      rename_i hn
      rw [h.eagerly.computed_iff h.nonempty] at hc
      rw [Property.markStale_of_unselected fun s hs => ?_]
      by_contra hsel
      refine hc ⟨p.markStale, s, ?_, hs, by simpa using hsel⟩
      rw [Entity.markStale_get?, hp, Option.map_some, if_pos hn]
    · rfl

/-! #### One of the passes -/

section Middle

variable {before after : List NotifiedPass} {p : NotifiedPass} (hps : ps = before ++ p :: after)
include hps

theorem made : p.Made settings :=
  h.eagerly.made (hps ▸ List.mem_append_right _ List.mem_cons_self)

theorem exists_before : ∃ ns₁, Eagerly settings t e ns₁ before p.entity := by
  obtain ⟨ns₁, -, -, hbefore, -⟩ := (hps ▸ h.eagerly).split
  exact ⟨ns₁, hbefore⟩

theorem definitions : p.marked.SameDefinitions m :=
  (h.eagerly.definitions hps).symm.trans
    ((e.sameDefinitions_markStale ns).trans h.like.sameDefinitions)

theorem tables : t'.SameAround p.marked.id p.table := by
  obtain ⟨-, -, -, -, -, haround, -⟩ := (hps ▸ h.eagerly).split
  have hid : e.id = p.marked.id := (h.eagerly.definitions hps).id
  have hjoint := h.around
  rw [hid] at hjoint
  exact hjoint.symm.trans haround

/-- What this pass computes for the last time is in the end as it leaves it. -/
theorem get?_of_last (hlast : ¬ Computed after name) :
    e'.properties.get? name = p.outcome.properties.get? name := by
  obtain ⟨_, _, _, -, -, -, -, hafter⟩ := (hps ▸ h.eagerly).split
  exact hafter.get?_of_not_computed hlast

theorem selects_of_computes (hc : p.Computes name) : m.Selects .stale name :=
  h.selects_iff.2 (hps ▸ ⟨p, List.mem_append_right _ List.mem_cons_self, hc⟩)

/-- What this pass evaluates the one pass evaluates as well. -/
theorem pending_of_pending {f : Expression}
    (hf : (Selection.ofEntity .stale p.marked).pending.get? name = some f) :
    (Selection.ofEntity .stale m).pending.get? name = some f := by
  have hn := (h.made hps).names_marked
  exact (h.definitions hps).pending_iff hn h.passed.names
    (h.selects_of_computes hps ((h.made hps).computes_iff.2 (Entity.selects_of_pending hn hf))) hf

theorem not_pending_of_computes (hc : p.Computes name)
    (hn : (Selection.ofEntity .stale p.marked).pending.get? name = none) :
    (Selection.ofEntity .stale m).pending.get? name = none := by
  cases hf : (Selection.ofEntity .stale m).pending.get? name with
  | none => rfl
  | some f =>
    have hf' := (h.definitions hps).symm.pending_iff h.passed.names (h.made hps).names_marked
      ((h.made hps).computes_iff.1 hc) hf
    rw [hn] at hf'
    cases hf'

/-- What no earlier pass leaves valid has the value still that it had before all. -/
theorem current_of_not_valid
    (hv : ∀ p' ∈ before, p'.Computes name → p'.status? name ≠ some .valid) :
    (p.marked.properties.get? name).map Property.current =
      (m.properties.get? name).map Property.current := by
  obtain ⟨ns₁, hbefore⟩ := h.exists_before hps
  rw [h.current_marked, ← hbefore.get?_current hv]
  exact ((p.entity.sameValues_markStale [p.property]).current name).symm

/-- Both contexts have the same other entities and know the same properties. -/
theorem contexts_around :
    (p.context settings).SameAround (Scope.stale.everything settings' t' m qs) := by
  have hmade := h.made hps
  obtain ⟨_, _, hp⟩ := hmade.passed
  have hdefinitions := h.definitions hps
  have htables := h.tables hps
  have hentity : (p.context settings).entity = p.marked := Scope.everything_entity ..
  have hentity' : (Scope.stale.everything settings' t' m qs).entity = m :=
    Scope.everything_entity ..
  refine ⟨⟨?_, ?_, ?_⟩, fun id hid => ?_, ?_, fun name => ?_⟩
  · rw [NotifiedPass.context, Scope.everything_strict, Scope.everything_strict]
    exact h.strict
  · rw [hentity, hentity']
    exact hdefinitions.id
  · rw [hentity, hentity']
    exact hdefinitions.type
  · rw [hentity', ← hdefinitions.id] at hid
    exact ((Scope.stale.gathering settings p.table p.marked).full_entities _ _ hmade.keyed id).trans
      ((htables.entities id hid).symm.trans ((Scope.stale.gathering settings' t' m).full_entities
        _ _ h.passed.keyed id).symm)
  · refine Dict.ext_get? fun id => ?_
    have hrelated : p.table.related id = t'.related id := by
      unfold TenantTable.related TenantTable.relationshipsOf
      rw [htables.relationships]
    exact ((Scope.stale.gathering settings p.table p.marked).full_relationships _ _ id).trans
      (hrelated.trans ((Scope.stale.gathering settings' t' m).full_relationships _ _ id).symm)
  · unfold hasOwnProperty NotifiedPass.context
    rw [Scope.everything_pending, Scope.everything_properties, Scope.everything_pending,
      Scope.everything_properties, hp.contains, h.passed.contains,
      Selection.pending_or_contains hmade.names_marked, Selection.pending_or_contains h.passed.names]
    exact hdefinitions.contains

/-- An earlier pass has the same definitions and the same other entities. -/
theorem of_before {p' : NotifiedPass} (hp' : p' ∈ before) : p'.Made settings ∧
    p.marked.SameDefinitions p'.marked ∧ p.table.SameAround p.marked.id p'.table := by
  obtain ⟨before', after', hsplit⟩ := List.append_of_mem hp'
  have hps' : ps = before' ++ p' :: (after' ++ p :: after) := by
    rw [hps, hsplit, List.append_assoc, List.cons_append]
  have hdefinitions := (h.definitions hps).trans (h.definitions hps').symm
  have htables := h.tables hps'
  rw [← hdefinitions.id] at htables
  exact ⟨h.made hps', hdefinitions, (h.tables hps).symm.trans htables⟩

/-- A formula that cannot be read fails in both. -/
theorem unreadable (hc : p.Computes name) {q : ComputedProperty} {err : ParseError}
    (hq : p.marked.properties.get? name = some (.computed q))
    (hf : Expression.parse q.expression = .error err) :
    (p.outcome.properties.get? name).map Property.status? = (qs.get? name).map Property.status? ∧
      (p.outcome.properties.get? name).map Property.current =
        (qs.get? name).map Property.current := by
  have hmade := h.made hps
  obtain ⟨now', ctx', hp⟩ := hmade.passed
  obtain ⟨q₀, s, hq₀, hs, hsel⟩ := hmade.computes_iff.1 hc
  cases hq.symm.trans hq₀
  cases hs
  obtain ⟨q₁, s', hq', hs', hsel'⟩ := h.selects_of_computes hps hc
  obtain ⟨q₂, hq₂, hdefinition⟩ := (h.definitions hps).exists_get? hq
  cases hq'.symm.trans hq₂
  obtain ⟨q', rfl, hexpression⟩ := Property.exists_computed hdefinition
  cases hs'
  rw [hp.unreadable hq hsel hf, h.passed.unreadable hq' hsel' (hexpression ▸ hf),
    Verdict.failed_applied (Scope.ne_circular_of_selects hsel),
    Verdict.failed_applied (Scope.ne_circular_of_selects hsel')]
  refine ⟨rfl, ?_⟩
  -- Both keep the value that the property has, and no earlier pass has given it another one.
  have hbefore : ∀ p' ∈ before, p'.Computes name → p'.status? name ≠ some .valid := by
    intro p' hp' hc'
    obtain ⟨hmade', hdefinitions, -⟩ := h.of_before hps hp'
    obtain ⟨q'', hq'', hdefinition'⟩ := hdefinitions.exists_get? hq
    obtain ⟨q'', rfl, hexpression'⟩ := Property.exists_computed hdefinition'
    exact hmade'.status?_unreadable hc' hq'' (hexpression' ▸ hf)
  have hcurrent := h.current_of_not_valid hps hbefore
  rw [hq, hq'] at hcurrent
  exact hcurrent

/-- What an inherited property comes from, when it is computed for the last time, is the same in
    both. -/
theorem source_of_last (hc : p.Computes name) (hlast : ¬ Computed after name)
    {q : InheritedProperty} (hq : p.marked.properties.get? name = some (.inherited q))
    (hnone : q.override = none) :
    (p.table.known p.marked q.source).isSome = (t'.known m q.source).isSome ∧
      ((p.table.known p.marked q.source).bind (·.property? q.sourceProperty)).map
          Property.current =
        ((t'.known m q.source).bind (·.property? q.sourceProperty)).map Property.current := by
  unfold TenantTable.known
  rw [(h.definitions hps).id]
  by_cases hid : q.source = m.id
  · rw [if_pos hid, if_pos hid]
    refine ⟨rfl, ?_⟩
    have hid' : q.source = e.id := hid.trans h.like.id.symm
    obtain ⟨q₀, hq₀, hstored⟩ := Entity.markStale_inherited hq
    rw [hstored] at hnone hid' ⊢
    have heq := h.inOrder.sources before p after hps name q₀ hc hlast hq₀ hnone hid'
    exact ((p.entity.sameValues_markStale [p.property]).current _).symm.trans
      (heq.trans h.current_marked.symm)
  · rw [if_neg hid, if_neg hid, (h.tables hps).entities q.source]
    · exact ⟨rfl, rfl⟩
    · rw [(h.definitions hps).id]
      exact hid

/-- An inherited property finds the same in both. -/
theorem inherited (hc : p.Computes name) (hlast : ¬ Computed after name) {q : InheritedProperty}
    (hq : p.marked.properties.get? name = some (.inherited q)) :
    (p.outcome.properties.get? name).map Property.status? = (qs.get? name).map Property.status? ∧
      (p.outcome.properties.get? name).map Property.current =
        (qs.get? name).map Property.current := by
  have hmade := h.made hps
  obtain ⟨now', ctx', hp⟩ := hmade.passed
  obtain ⟨q₀, s, hq₀, hs, hsel⟩ := hmade.computes_iff.1 hc
  cases hq.symm.trans hq₀
  cases hs
  obtain ⟨q₁, s', hq', hs', hsel'⟩ := h.selects_of_computes hps hc
  obtain ⟨q₂, hq₂, hdefinition⟩ := (h.definitions hps).exists_get? hq
  cases hq'.symm.trans hq₂
  obtain ⟨q', rfl, hoverride, hsource, hproperty⟩ := Property.exists_inherited hdefinition
  cases hs'
  have hne := Scope.ne_circular_of_selects hsel
  have hne' := Scope.ne_circular_of_selects hsel'
  have hfound : q.override = none →
      (ctx'.entity? q.source).isSome = (ctx.entity? q.source).isSome ∧
      ((ctx'.entity? q.source).bind (·.property? q.sourceProperty)).map Property.current =
        ((ctx.entity? q.source).bind (·.property? q.sourceProperty)).map Property.current := by
    intro hnone
    have hknown := h.passed.source_known hq'
    rw [hsource] at hknown
    rw [hp.source_known hq, hknown]
    exact h.source_of_last hps hc hlast hq hnone
  rw [hp.inherited hq hsel, h.passed.inherited hq' hsel']
  rcases Verdict.ofSource_again hoverride hsource hproperty hfound with
    ⟨v, hv, hv'⟩ | ⟨msg, hm, hm'⟩
  · rw [hv, hv', Verdict.valid_applied_inherited hne, Verdict.valid_applied_inherited hne']
    refine ⟨rfl, ?_⟩
    show some (q.override.or v) = some (q'.override.or v)
    rw [hoverride]
  · rw [hm, hm', Verdict.failed_applied_inherited hne, Verdict.failed_applied_inherited hne']
    refine ⟨rfl, ?_⟩
    -- What this pass does not find no earlier one has found.
    have hbefore : ∀ p' ∈ before, p'.Computes name → p'.status? name ≠ some .valid := by
      intro p' hp' hc' hvalid
      obtain ⟨hmade', hdefinitions, htables⟩ := h.of_before hps hp'
      obtain ⟨q'', hq'', hdefinition'⟩ := hdefinitions.exists_get? hq
      obtain ⟨q'', rfl, hoverride', hsource', hproperty'⟩ :=
        Property.exists_inherited hdefinition'
      have hfound' := (hmade'.status?_inherited hc' hq'').1 hvalid
      rw [hoverride', hsource', hproperty', ← TenantTable.isSome_known hdefinitions htables,
        ← hmade.status?_inherited hc hq, NotifiedPass.status?, hp.inherited hq hsel, hm,
        Verdict.failed_applied_inherited hne] at hfound'
      cases hfound'
    have hcurrent := h.current_of_not_valid hps hbefore
    rw [hq, hq'] at hcurrent
    exact hcurrent

/-- What is computed without evaluating a formula is the same in both. -/
theorem unevaluated (hc : p.Computes name) (hlast : ¬ Computed after name)
    (hn : (Selection.ofEntity .stale p.marked).pending.get? name = none) :
    (p.outcome.properties.get? name).map Property.status? = (qs.get? name).map Property.status? ∧
      (p.outcome.properties.get? name).map Property.current =
        (qs.get? name).map Property.current := by
  have hmade := h.made hps
  obtain ⟨q, s, hq, hs, hsel⟩ := hmade.computes_iff.1 hc
  cases q with
  | literal q | measured q => cases hs
  | inherited q => exact h.inherited hps hc hlast hq
  | computed q =>
    cases hs
    cases hf : Expression.parse q.expression with
    | error err => exact h.unreadable hps hc hq hf
    | ok f =>
      rw [(Selection.get?_pending_iff _).2
        ((Selection.get?_formulas_iff hmade.names_marked).2 ⟨q, hq, hsel, hf⟩)] at hn
      cases hn

end Middle

/-! #### Meanings -/

/-- A stored property means in the one pass what it is in the other one, if its value is the same. -/
theorem ownMeaning_of_current {before after : List NotifiedPass} {p : NotifiedPass}
    (hps : ps = before ++ p :: after)
    (hn : (Selection.ofEntity .stale m).pending.get? name = none)
    (hcurrent : (p.outcome.properties.get? name).map Property.current =
      (qs.get? name).map Property.current) :
    (Scope.stale.everything settings' t' m qs).ownMeaning name =
      storedProperty (p.context settings) name := by
  rw [ownMeaning_stored (by rw [Scope.everything_pending]; exact hn)]
  refine (storedProperty_congr (h.contexts_around hps).alike ?_).symm
  rw [NotifiedPass.context, Scope.everything_properties, Scope.everything_properties]
  exact hcurrent

/-- The one pass gives everything that a pass can rely on the meaning that it has there. -/
theorem confines {before after : List NotifiedPass} {p : NotifiedPass}
    (hps : ps = before ++ p :: after) : Confines (Dependable before p after) (p.context settings)
      (Scope.stale.everything settings' t' m qs) := by
  -- On the passes before, since a pass relies on what they have left valid.
  induction hlength : before.length using Nat.strongRecOn generalizing before p after with
  | ind length ih =>
    refine ⟨h.contexts_around hps, fun name f hd hf => ?_, fun name hd hn => ?_⟩
    · rw [NotifiedPass.context, Scope.everything_pending] at hf
      rw [Scope.everything_pending]
      exact ⟨h.pending_of_pending hps hf, h.inOrder.reads before p after hps name f hd.1 hf⟩
    · rw [NotifiedPass.context, Scope.everything_pending] at hn
      obtain ⟨hlast, hwhy⟩ := hd
      by_cases hc : p.Computes name
      · exact h.ownMeaning_of_current hps (h.not_pending_of_computes hps hc hn)
          (h.unevaluated hps hc hlast hn).2
      · have hwhy := hwhy.resolve_left hc
        have hstays : p.outcome.properties.get? name = p.entity.properties.get? name :=
          (h.made hps).get?_of_not_computes hc
        by_cases hbefore : Computed before name
        · obtain ⟨before', p', between, rfl, hc', hbetween⟩ := hbefore.exists_last
          have hvalid : p.status? name = some .valid :=
            hwhy.resolve_left fun hno => hno (computed_append.2 (.inr (computed_cons.2 (.inl hc'))))
          have hps' : ps = before' ++ p' :: (between ++ p :: after) := by
            rw [hps, List.append_assoc, List.cons_append]
          have hlast' : ¬ Computed (between ++ p :: after) name := by
            rw [computed_append, computed_cons]
            rintro (hc'' | hc'' | hc'')
            · exact hbetween hc''
            · exact hc hc''
            · exact hlast hc''
          -- What the earlier pass has made of the property is there still.
          have hleft : p.outcome.properties.get? name = p'.outcome.properties.get? name := by
            rw [← h.get?_of_last hps hlast, h.get?_of_last hps' hlast']
          cases hn' : (Selection.ofEntity .stale p'.marked).pending.get? name with
          | none =>
            refine h.ownMeaning_of_current hps (h.not_pending_of_computes hps' hc' hn') ?_
            rw [hleft]
            exact (h.unevaluated hps' hc' hlast' hn').2
          | some f =>
            have hconfines := ih before'.length (by rw [← hlength]; simp) hps' rfl
            obtain ⟨_, _, hp'⟩ := (h.made hps').passed
            have hmem : p' ∈ ps := hps' ▸ List.mem_append_right _ List.mem_cons_self
            obtain ⟨q, r, -, hne, -, hsound, hq⟩ := hp'.answer (h.inOrder.tracks p' hmem) hn'
            rw [NotifiedPass.status?, hleft, hq, Option.bind_some] at hvalid
            have hr := Verdict.ofAnswer_eq_ok hne _ _ hvalid
            have hmeaning : (p'.context settings).ownMeaning name = r :=
              hsound (by rw [hr]; trivial)
            rw [hconfines.ownMeaning_eq ⟨hlast', .inl hc'⟩ (by rw [hmeaning, hr]; trivial), hmeaning,
              hr]
            unfold storedProperty
            rw [NotifiedPass.context, Scope.everything_properties, hleft, hq]
            rfl
        · have hnever : ¬ Computed ps name := by
            rw [hps, computed_append, computed_cons]
            rintro (hc'' | hc'' | hc'')
            · exact hbefore hc''
            · exact hc hc''
            · exact hlast hc''
          refine h.ownMeaning_of_current hps ?_ ?_
          · cases hf : (Selection.ofEntity .stale m).pending.get? name with
            | none => rfl
            | some f =>
              exact absurd (h.selects_iff.1 (Entity.selects_of_pending h.passed.names hf)) hnever
          · rw [(h.get?_of_not_computed hnever).2, ← h.eagerly.get?_of_not_computed hnever,
              h.get?_of_last hps hlast]

/-! #### Answers -/

/-- Unless one of them has run out of levels, both find the same value for a formula, or both fail,
    and then both find the property on a cycle or none does. -/
theorem answers {before after : List NotifiedPass} {p : NotifiedPass}
    (hps : ps = before ++ p :: after) (hc : p.Computes name) (hlast : ¬ Computed after name)
    {r r' : EvalResult} (hr : (p.context settings).Traced name r)
    (hr' : (Scope.stale.everything settings' t' m qs).Traced name r') (hdeep : ¬ TooDeep r)
    (hdeep' : ¬ TooDeep r') :
    (∃ v, r = .ok v ∧ r' = .ok v) ∨ ∃ err err', r = .error err ∧ r' = .error err' ∧
      err.isCycleMember name = err'.isCycleMember name := by
  have hconfines := h.confines hps
  have hd : Dependable before p after name := ⟨hlast, .inl hc⟩
  by_cases hs : Settled ((p.context settings).ownMeaning name)
  · have hfound := (hr.1 hs).resolve_right hdeep
    have hfound' := (hr'.1 ((hconfines.settled_iff hd).2 hs)).resolve_right hdeep'
    rw [hconfines.ownMeaning_eq hd hs, ← hfound] at hfound'
    rw [hfound']
    cases r with
    | ok v => exact .inl ⟨v, rfl, rfl⟩
    | error err => exact .inr ⟨err, err, rfl, rfl, rfl⟩
  · have hs' := mt (hconfines.settled_iff hd).1 hs
    obtain ⟨path, hpath, -⟩ := (hr.2 hs).resolve_left hdeep
    obtain ⟨path', hpath', -⟩ := (hr'.2 hs').resolve_left hdeep'
    refine .inr ⟨_, _, hpath, hpath', Bool.eq_iff_iff.2 ?_⟩
    have hcycle := (hr.isCycleMember_iff hdeep).trans
      ((hconfines.cycle_iff hd).symm.trans (hr'.isCycleMember_iff hdeep').symm)
    simpa [hpath, hpath'] using hcycle

/-- Every property comes to the same in the end whether its notifications are handled at once or put
    off. -/
theorem agree (name : String) : EndsAlike ps e'.properties qs name := by
  unfold EndsAlike
  by_cases hcomputed : Computed ps name
  · obtain ⟨before, p, after, hps, hc, hlast⟩ := hcomputed.exists_last
    have hleft := h.get?_of_last hps hlast
    cases hf : (Selection.ofEntity .stale p.marked).pending.get? name with
    | none =>
      left
      rw [hleft]
      exact (h.unevaluated hps hc hlast hf).imp_right .inl
    | some f =>
      obtain ⟨_, _, hp⟩ := (h.made hps).passed
      have hmem : p ∈ ps := hps ▸ List.mem_append_right _ List.mem_cons_self
      obtain ⟨q, r, hq, hne, htraced, -, ho⟩ := hp.answer (h.inOrder.tracks p hmem) hf
      obtain ⟨q', r', hq', hne', htraced', -, ho'⟩ :=
        h.passed.answer h.tracks (h.pending_of_pending hps hf)
      rw [hleft, ho, ho']
      by_cases hdeep : TooDeep r
      · obtain ⟨x, hx, -⟩ := (Verdict.ofAnswer _ name r).applied_computed hne
        exact .inr (.inl ⟨x, congrArg some hx, Verdict.ranOut_of_tooDeep hne hdeep hx⟩)
      by_cases hdeep' : TooDeep r'
      · obtain ⟨x, hx, -⟩ := (Verdict.ofAnswer _ name r').applied_computed hne'
        exact .inr (.inr ⟨x, congrArg some hx, Verdict.ranOut_of_tooDeep hne' hdeep' hx⟩)
      left
      rcases h.answers hps hc hlast htraced htraced' hdeep hdeep' with
        ⟨v, rfl, rfl⟩ | ⟨err, err', rfl, rfl, hcycle⟩
      · rw [Verdict.ofAnswer, Verdict.ofAnswer, Verdict.valid_applied hne,
          Verdict.valid_applied hne']
        exact ⟨rfl, .inl rfl⟩
      · have hstatus (t : String) (x : ComputedProperty) (hx : x.status ≠ .circular) (e : EvalError) :
            ((Verdict.ofAnswer t name (.error e)).applied (.computed x)).status? =
              some (if e.isCycleMember name then .circular else .error) := by
          rw [Verdict.ofAnswer]
          split
          · rw [Verdict.circular_applied hx]
            rfl
          · rw [Verdict.failed_applied hx]
            rfl
        rw [Option.map_some, Option.map_some, hstatus _ q hne, hstatus _ q' hne', hcycle]
        refine ⟨rfl, ?_⟩
        by_cases hv : ∃ p' ∈ before, p'.Computes name ∧ p'.status? name = some .valid
        · obtain ⟨p', hp', hc', hvalid⟩ := hv
          refine .inr ⟨?_, p', hps ▸ List.mem_append_left _ hp', hc', hvalid⟩
          rw [Option.bind_some, hstatus _ q hne]
          intro hstays
          split at hstays <;> cases hstays
        · left
          have hcurrent := h.current_of_not_valid hps fun p' hp' hc' hvalid => hv ⟨p', hp', hc', hvalid⟩
          rw [hq, hq'] at hcurrent
          rw [Option.map_some, Option.map_some, Verdict.ofAnswer_applied_current hne,
            Verdict.ofAnswer_applied_current hne']
          exact hcurrent
  · left
    rw [h.eagerly.get?_of_not_computed hcomputed, (h.get?_of_not_computed hcomputed).1,
      (h.get?_of_not_computed hcomputed).2]
    exact ⟨rfl, .inl rfl⟩

end Postponed

/-! ### The two ways side by side -/

namespace Entity

/-- An entity that is alone, after a pass for each of these notifications. -/
def recomputedInTurn (settings : Settings) (e : Entity) (names : List String) : Entity :=
  names.foldl (fun e name => { e with properties :=
    (((e.markStale [name]).recompute settings "now" .stale).run MemoryStore.store {}).1.properties }) e

/-- An entity that is alone, after one pass for all of these notifications. -/
def recomputedAtOnce (settings : Settings) (e : Entity) (names : List String) : Entity :=
  { e with properties :=
    (((e.markStale names).recompute settings "now" .stale).run MemoryStore.store {}).1.properties }

/-- The status of a property and its text. -/
def statusAndText (e : Entity) (name : String) : Option Status × Option String :=
  ((e.properties.get? name).bind Property.status?,
    ((e.properties.get? name).bind Property.current).bind Value.asText?)

/-- An entity with valid properties of these formulas and values. -/
def ofValid (formulas : List (String × String × Value)) : Entity :=
  formulas.foldl (fun e f => e.withProperty
      (.computed { name := f.1, expression := f.2.1, cached := some f.2.2, status := .valid }))
    { id := "entity", typePath := "entity" }

end Entity

/-- A property that is recomputed before the one that it reads. -/
def hasty : Entity := .ofValid [("a", "#b", .text "old"), ("b", "\"X\"", .text "old")]

/-- Its pass reads what is stored, and the pass over both evaluates the other one first. -/
theorem hasty_reads_old :
    (hasty.recomputedInTurn {} ["a", "b"]).statusAndText "a" = (some .valid, some "old") ∧
    (hasty.recomputedAtOnce {} ["a", "b"]).statusAndText "a" = (some .valid, some "X") := by
  decide +kernel

/-- A property that is recomputed after the one that it takes its value from. -/
def lagging : Entity :=
  (Entity.ofValid [("c", "\"X\"", .text "old")]).withProperty
    (.inherited { name := "i", source := "entity", sourceName := some "c" })

/-- The pass over both looks up inherited properties before it evaluates formulas. -/
theorem lagging_keeps_old :
    (lagging.recomputedInTurn {} ["c", "i"]).statusAndText "i" = (some .valid, some "X") ∧
    (lagging.recomputedAtOnce {} ["c", "i"]).statusAndText "i" = (some .valid, some "old") := by
  decide +kernel

/-- A property that reads another one deep down. -/
def nestled : Entity := .ofValid [("q", "[[#r]]", .text "old"), ("r", "\"X\"", .text "old")]

/-- In order the passes find it, and the pass over both runs out of levels. -/
theorem nestled_exceeds :
    ((nestled.recomputedInTurn { recursionLimit := 3 } ["r", "q"]).properties.get? "q").bind
      Property.status? = some .valid ∧
    ((nestled.recomputedAtOnce { recursionLimit := 3 } ["r", "q"]).properties.get? "q").bind
      Property.error? = some (EvalError.depthExceeded 3).message := by
  decide +kernel

/-- A property that has a value only until the other one is recomputed. -/
def fickle : Entity :=
  .ofValid [("f", "#x.k", .text "old"), ("x", "\"X\"", .record [("k", .text "K")])]

/-- An early pass finds the value, and it stays when the last one fails. -/
theorem fickle_keeps_found :
    (fickle.recomputedInTurn { strict := true } ["f", "x", "f"]).statusAndText "f" =
      (some .error, some "K") ∧
    (fickle.recomputedAtOnce { strict := true } ["f", "x", "f"]).statusAndText "f" =
      (some .error, some "old") := by
  decide +kernel

end EntityFormulas
