/-
  EntityFormulas/Proofs/Computation/Marking.lean
  ==============================================
  **Marking properties stale.**

  A mark changes nothing but the status of derived properties.  Gathering looks
  at values only, so what it covers for an entity it covers for the marked one
  (`CoversTraversals.marked`).
-/
import EntityFormulas.Computation.Service
import EntityFormulas.Proofs.Computation.FullContext
import EntityFormulas.Proofs.Computation.Outcome

namespace EntityFormulas

/-! ### Properties and their marks -/

namespace Property

@[simp] theorem markStale_name (p : Property) : p.markStale.name = p.name := by
  cases p <;> rfl

@[simp] theorem markStale_current (p : Property) : p.markStale.current = p.current := by
  cases p <;> rfl

theorem markStale_markStale (p : Property) : p.markStale.markStale = p.markStale := by
  have hmarked (s : Status) : s.marked.marked = s.marked := by cases s <;> rfl
  cases p with
  | inherited p => exact congrArg (fun s => inherited { p with status := s }) (hmarked p.status)
  | computed p => exact congrArg (fun s => computed { p with status := s }) (hmarked p.status)
  | _ => rfl

end Property

namespace Entity

theorem markStale_get? (e : Entity) (names : List String) (name : String) :
    (e.markStale names).properties.get? name =
      (e.properties.get? name).map fun p => if name ∈ names then p.markStale else p := by
  have hfold (ps : Dict Property) :
      (names.foldl (fun ps n => ps.modify n Property.markStale) ps).get? name =
        (ps.get? name).map fun p => if name ∈ names then p.markStale else p := by
    induction names generalizing ps with
    | nil =>
      rw [List.foldl_nil]
      simp
    | cons n rest ih =>
      rw [List.foldl_cons, ih, Dict.get?_modify]
      by_cases hn : n = name
      · subst hn
        rw [if_pos rfl, Option.map_map]
        congr 1
        funext p
        by_cases hrest : n ∈ rest <;> simp [hrest, Property.markStale_markStale]
      · rw [if_neg hn]
        have hiff : name ∈ n :: rest ↔ name ∈ rest := by
          rw [List.mem_cons]
          exact or_iff_right fun h => hn h.symm
        simp only [hiff]
  exact hfold e.properties

theorem markStale_computed {e : Entity} {names : List String} {name : String}
    {p : ComputedProperty}
    (hp : (e.markStale names).properties.get? name = some (.computed p)) :
    ∃ q, e.properties.get? name = some (.computed q) ∧
      p = { q with status := if name ∈ names then q.status.marked else q.status } := by
  rw [markStale_get?] at hp
  obtain ⟨q, hq, heq⟩ := Option.map_eq_some_iff.1 hp
  by_cases hn : name ∈ names
  · rw [if_pos hn] at heq
    cases q with
    | computed q =>
      cases heq
      exact ⟨q, hq, by rw [if_pos hn]⟩
    | _ => exact nomatch heq
  · rw [if_neg hn] at heq
    cases heq
    exact ⟨p, hq, by rw [if_neg hn]⟩

theorem markStale_inherited {e : Entity} {names : List String} {name : String}
    {p : InheritedProperty}
    (hp : (e.markStale names).properties.get? name = some (.inherited p)) :
    ∃ q, e.properties.get? name = some (.inherited q) ∧
      p = { q with status := if name ∈ names then q.status.marked else q.status } := by
  rw [markStale_get?] at hp
  obtain ⟨q, hq, heq⟩ := Option.map_eq_some_iff.1 hp
  by_cases hn : name ∈ names
  · rw [if_pos hn] at heq
    cases q with
    | inherited q =>
      cases heq
      exact ⟨q, hq, by rw [if_pos hn]⟩
    | _ => exact nomatch heq
  · rw [if_neg hn] at heq
    cases heq
    exact ⟨p, hq, by rw [if_neg hn]⟩

theorem NamesAgree.markStale {e : Entity} (h : e.NamesAgree) (names : List String) :
    (e.markStale names).NamesAgree := by
  intro name p hp
  rw [markStale_get?] at hp
  obtain ⟨q, hq, rfl⟩ := Option.map_eq_some_iff.1 hp
  rw [← h name q hq]
  split
  · exact q.markStale_name
  · rfl

/-- Two states of an entity whose properties have the same values. -/
structure SameValues (e e' : Entity) : Prop where
  id : e.id = e'.id
  tenant : e.tenant = e'.tenant
  type : e.typePath = e'.typePath
  current : ∀ name, (e.properties.get? name).map Property.current =
    (e'.properties.get? name).map Property.current

theorem sameValues_markStale (e : Entity) (names : List String) :
    e.SameValues (e.markStale names) := by
  refine ⟨rfl, rfl, rfl, fun name => ?_⟩
  rw [markStale_get?, Option.map_map]
  congr 1
  funext p
  show p.current = (if name ∈ names then p.markStale else p).current
  split
  · rw [p.markStale_current]
  · rfl

/-- A mark adds no source of inherited properties. -/
theorem directIds_markStale {e : Entity} {formulas formulas' : List Expression}
    (hsub : formulas' ⊆ formulas) (names : List String) :
    (e.markStale names).directIds formulas' ⊆ e.directIds formulas := by
  intro id hid
  rcases List.mem_append.1 hid with hid | hid
  · obtain ⟨f, hf, hid⟩ := List.mem_flatMap.1 hid
    exact List.mem_append_left _ (List.mem_flatMap.2 ⟨f, hsub hf, hid⟩)
  · obtain ⟨p, hp, rfl⟩ := List.mem_map.1 hid
    obtain ⟨name, hname⟩ := mem_inherited_iff.1 hp
    obtain ⟨q, hq, rfl⟩ := markStale_inherited hname
    exact List.mem_append_right _ (List.mem_map.2 ⟨q, mem_inherited_iff.2 ⟨name, hq⟩, rfl⟩)

end Entity

/-! ### Tables seen from entities with the same values -/

namespace TenantTable

variable {t : TenantTable} {own own' : Entity} (h : own.SameValues own')
include h

theorem known_current (id name : String) :
    ((t.known own id).bind (·.property? name)).map Property.current =
      ((t.known own' id).bind (·.property? name)).map Property.current := by
  unfold known
  rw [h.id]
  split
  · exact h.current name
  · rfl

theorem step_congr (name id : String) : t.step own name id = t.step own' name id := by
  have hcurrent := known_current (t := t) h id name
  unfold step
  cases hp : (t.known own id).bind (·.property? name) with
  | none =>
    rw [hp] at hcurrent
    rw [Option.map_eq_none_iff.1 hcurrent.symm]
  | some p =>
    rw [hp] at hcurrent
    obtain ⟨q, hq, hpq⟩ := Option.map_eq_some_iff.1 hcurrent.symm
    rw [hq]
    dsimp only
    rw [hpq]

theorem walk_congr (nodes hops : List String) : t.walk own nodes hops = t.walk own' nodes hops := by
  induction hops generalizing nodes with
  | nil => rfl
  | cons hop rest ih =>
    have hstep : t.step own hop = t.step own' hop := funext (step_congr h hop)
    rw [walk, walk, hstep]
    exact ih _

theorem lacks_congr (id name : String) : t.Lacks own id name ↔ t.Lacks own' id name := by
  unfold Lacks
  rw [← Option.map_eq_none_iff (f := Property.current), known_current h, Option.map_eq_none_iff]

end TenantTable

theorem Traversal.starts_congr {own own' : Entity} (h : own.SameValues own') (tr : Traversal) :
    tr.starts own = tr.starts own' := by
  unfold starts
  split
  · rw [h.id]
  · rfl
  · rename_i name _
    have hcurrent := h.current name
    unfold Entity.property?
    have hbind (o : Option Property) : o.bind Property.current = (o.map Property.current).join := by
      cases o <;> rfl
    rw [hbind, hbind, hcurrent]

namespace EvaluationContext

section Marked

variable {t : TenantTable} {own : Entity} {ctx ctx' : EvaluationContext} (hf : Faithful t own ctx)
  {names : List String} (hentity : ctx'.entity = own.markStale names)
  (hentities : ctx'.entities = ctx.entities)
include hf hentity hentities

theorem Knows.marked {id : String} (h : Knows t own ctx id) :
    Knows t (own.markStale names) ctx' id := by
  unfold Knows entity? TenantTable.known at *
  rw [hf.entity] at h
  rw [hentity, hentities]
  show (if id = own.id then some (own.markStale names) else ctx.entities.get? id) =
    if id = own.id then some (own.markStale names) else t.entities.get? id
  by_cases hid : id = own.id
  · rw [if_pos hid, if_pos hid]
  · rw [if_neg hid, if_neg hid] at h
    rw [if_neg hid, if_neg hid]
    exact h

/-- What is covered for formulas of an entity is covered for some of them and the marked entity. -/
theorem CoversTraversals.marked (hrelationships : ctx'.relationships = ctx.relationships)
    {depth : Nat} {formulas formulas' : List Expression}
    (h : CoversTraversals t own depth formulas ctx) (hsub : formulas' ⊆ formulas) :
    CoversTraversals t (own.markStale names) depth formulas' ctx' := by
  have hsame := own.sameValues_markStale names
  refine ⟨fun id hid => ?_, fun f hff tr htr start hstart => ?_⟩
  · exact (h.direct id (Entity.directIds_markStale hsub names hid)).marked hf hentity hentities
  · rw [Trail.start?_eq, ← Traversal.starts_congr hsame, ← Trail.start?_eq] at hstart
    have hcovers := h.trails f (hsub hff) tr htr start hstart
    constructor
    · intro before after id hsplit hlen hid
      rw [← TenantTable.walk_congr hsame] at hid
      exact (hcovers.knows before after id hsplit hlen hid).marked hf hentity hentities
    · intro before name after id hsplit hlen hid hlacks
      rw [← TenantTable.walk_congr hsame] at hid
      unfold Relates
      rw [hrelationships]
      exact hcovers.relates before name after id hsplit hlen hid
        ((TenantTable.lacks_congr hsame id name).2 hlacks)

end Marked

/-- The context with its entity in another state. -/
def withOwn (ctx : EvaluationContext) (own : Entity) : EvaluationContext :=
  { ctx with entity := own, properties := own.properties }

/-- A context that is gathered for an entity serves as one that is gathered for the marked entity
    and fewer formulas. -/
theorem Gathered.marked {t : TenantTable} {settings : Settings} {own : Entity}
    {formulas formulas' : List Expression} {ctx : EvaluationContext}
    (h : Gathered t settings own formulas ctx) (hsub : formulas' ⊆ formulas) (names : List String) :
    Gathered t settings (own.markStale names) formulas' (ctx.withOwn (own.markStale names)) where
  grows := ⟨rfl, rfl, h.grows.pending, h.grows.strict, h.grows.limit, h.grows.entities,
    h.grows.relationships⟩
  faithful := ⟨rfl, h.faithful.entities, h.faithful.relationships⟩
  covers :=
    have hentity : (ctx.withOwn (own.markStale names)).entity = own.markStale names := rfl
    h.covers.marked h.faithful hentity rfl rfl hsub

end EvaluationContext

end EntityFormulas
