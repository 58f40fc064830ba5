/-
  EntityFormulas/Proofs/Evaluation/Indifference.lean
  ==================================================
  **Own properties that a formula does not depend on.**

  Two contexts of one entity that differ in the value of one own property
  evaluate a formula alike unless the formula reads that property: by name, or
  as a member of a value that refers to the entity (`Spares.evaluate`).

  What a formula depends on is read off its tree.  Own properties by name and
  the steps of traversals cover every such read, except members of what another
  operand gives: a chain that starts at a call, a list or a record is no
  traversal (`evaluate_withLiteral`).
-/
import EntityFormulas.Proofs.Evaluation.Agreement
import EntityFormulas.Proofs.Formula.Traversals

namespace EntityFormulas

open Evaluation

/-! ### Changing a literal -/

/-- The property with another value, if it is a literal. -/
def Property.withValue (v : Value) : Property → Property
  | .literal p => .literal { p with value := v }
  | p => p

namespace EvaluationContext

/-- The context with another value for an own literal, in the entity and in its properties. -/
def withLiteral (ctx : EvaluationContext) (name : String) (v : Value) : EvaluationContext :=
  { ctx with
    entity := { ctx.entity with properties := ctx.entity.properties.modify name (.withValue v) }
    properties := ctx.properties.modify name (.withValue v) }

/-- Contexts of one entity without pending properties that differ in one own property at most,
    which both of them have or both lack. -/
structure DiffersAt (name : String) (ctx ctx' : EvaluationContext) : Prop where
  alike : ctx.Alike ctx'
  entities : ctx.entities = ctx'.entities
  relationships : ctx.relationships = ctx'.relationships
  pending : ctx.pending = ctx'.pending
  idle : ∀ other, ctx'.pending.get? other = none
  limit : ctx.recursionLimit = ctx'.recursionLimit
  has : ∀ other, ctx.properties.contains other = ctx'.properties.contains other
  stored : ∀ other, other ≠ name → (ctx.properties.get? other).map Property.current =
    (ctx'.properties.get? other).map Property.current

theorem withLiteral_differsAt {ctx : EvaluationContext} (hp : ∀ name, ctx.pending.get? name = none)
    (name : String) (v : Value) : (ctx.withLiteral name v).DiffersAt name ctx where
  alike := ⟨rfl, rfl, rfl⟩
  entities := rfl
  relationships := rfl
  pending := rfl
  idle := hp
  limit := rfl
  has other := by
    unfold withLiteral Dict.contains
    rw [Dict.get?_modify]
    split
    · rename_i heq
      rw [heq, Option.isSome_map]
    · rfl
  stored other hne := by
    unfold withLiteral
    rw [Dict.get?_modify, if_neg (Ne.symm hne)]

/-! ### Reads of one property -/

/-- The formula does not read the own property, neither by name nor as a member of a value that
    refers to the entity. -/
structure Spares (ctx : EvaluationContext) (name : String) (e : Expression) : Prop where
  own : .selfProperty name ∉ e.parts
  member : ∀ o, .member o name ∈ e.parts → ∀ v, ctx.meaning o = .ok (some v) →
    ctx.entity.id ∉ v.references

theorem Spares.child {ctx : EvaluationContext} {name : String} {e c : Expression}
    (h : ctx.Spares name e) (hc : c ∈ e.children) : ctx.Spares name c where
  own hpart := h.own (Expression.parts_subset_of_child hc hpart)
  member o hpart := h.member o (Expression.parts_subset_of_child hc hpart)

namespace DiffersAt

variable {name : String} {ctx full : EvaluationContext} (h : ctx.DiffersAt name full)
include h

theorem hasOwnProperty (other : String) : ctx.hasOwnProperty other = full.hasOwnProperty other := by
  unfold EvaluationContext.hasOwnProperty
  rw [h.pending, h.has]

/-- Another own property is read alike. -/
theorem ownProperty {other : String} (hne : other ≠ name)
    (ev ev' : Expression → Eval (Option Value)) :
    full.agreement.rel (Eval.ownProperty ev ctx other) (Eval.ownProperty ev' full other) := by
  intro s hs
  rcases Eval.ownProperty_cases ev' full other s with ⟨r, hr, heq⟩ | ⟨hr, hmem, heq⟩ |
    ⟨hr, hmem, hp, heq⟩ | ⟨f, -, -, hp, -⟩
  · rw [heq, Eval.ownProperty_resolved hr]
    exact ⟨rfl, hs⟩
  · rw [heq, Eval.ownProperty_inProgress hr hmem]
    exact ⟨rfl, hs⟩
  · rw [heq, Eval.ownProperty_stored hr hmem (h.pending ▸ hp),
      storedProperty_congr h.alike (h.stored other hne)]
    exact ⟨rfl, hs⟩
  · rw [h.idle other] at hp
    cases hp

/-- A member of an entity is read alike, unless it is the property of the entity itself. -/
theorem entityMember {id other : String} (hne : id = full.entity.id → other ≠ name)
    (ev ev' : Expression → Eval (Option Value)) :
    full.agreement.rel (entityMember (Eval.ownProperty ev ctx) ctx id other)
      (entityMember (Eval.ownProperty ev' full) full id other) := by
  rw [entityMember_congr h.alike _ (h.hasOwnProperty other)
    (servesMember_of_same h.entities h.relationships id other)]
  by_cases hid : id = full.entity.id
  · exact full.agreement.entityMember id other (h.ownProperty (hne hid) ev ev')
  · unfold Evaluation.entityMember
    rw [if_neg hid, if_neg hid]
    split
    · exact full.agreement.pure _
    · exact full.agreement.relationship id other

theorem evaluateWithin (left : Nat) {e : Expression} (he : full.Spares name e) :
    full.agreement.rel (Eval.evaluateWithin ctx left e) (Eval.evaluateWithin full left e) := by
  induction left generalizing e with
  | zero =>
    intro s hs
    refine ⟨?_, hs⟩
    unfold Eval.evaluateWithin
    rw [h.limit]
  | succ left ih =>
    rw [Eval.evaluateWithin_succ, Eval.evaluateWithin_succ]
    refine agreement_nested (full.agreement.level h.alike e (fun c hc => ih (he.child hc))
      (fun other hother => h.ownProperty ?_ _ _) (fun id _ => ?_)
      (fun o other ho v hv id hid => h.entityMember ?_ _ _))
    · rintro rfl
      exact he.own (hother ▸ e.mem_parts_self)
    · show full.agreement.rel (entityRef ctx id) (entityRef full id)
      rw [entityRef_of_same h.alike h.entities h.relationships]
      exact full.agreement.entityRef id
    · rintro rfl rfl
      exact he.member o (ho ▸ e.mem_parts_self) v (meaning_of_gives hv) hid

/-- Contexts that differ in a property that the formula does not read evaluate it alike. -/
theorem evaluate {e : Expression} (he : full.Spares name e) : e.evaluate ctx = e.evaluate full := by
  have heq := (h.evaluateWithin ctx.recursionLimit he {} (EvalState.remembers_start _)).1
  show (Eval.evaluateWithin ctx ctx.recursionLimit e {}).1 =
    (Eval.evaluateWithin full full.recursionLimit e {}).1
  rw [heq, h.limit]

end DiffersAt

end EvaluationContext

/-! ### What the tree shows -/

/-- The own property occurs in what the formula is said to depend on: by name, as the start of a
    traversal or as one of its steps. -/
def Expression.DependsOn (e : Expression) (name : String) : Prop :=
  name ∈ e.ownProperties ∨ ∃ tr ∈ e.traversals, tr.root = .selfProperty name ∨ name ∈ tr.hops

namespace EvaluationContext

/-- What the formula is said to depend on covers all reads of the own property but members of what
    other operands give. -/
theorem spares_of_not_dependsOn {ctx : EvaluationContext} {name : String} {e : Expression}
    (hdep : ¬ e.DependsOn name)
    (hother : ∀ o, .member o name ∈ e.parts → o.unwind.1.traversalRoot? = none →
      ∀ v, ctx.meaning o = .ok (some v) → ctx.entity.id ∉ v.references) : ctx.Spares name e where
  own hpart := hdep (.inl (mem_ascending.2 (List.mem_filterMap.2 ⟨_, hpart, rfl⟩)))
  member o hpart v hv := by
    cases hroot : o.unwind.1.traversalRoot? with
    | none => exact hother o hpart hroot v hv
    | some root =>
      obtain ⟨tr, htr, -, after, hhops⟩ := Expression.exists_traversal hpart hroot
      refine absurd (.inr ⟨tr, htr, .inr ?_⟩) hdep
      rw [hhops]
      exact List.mem_append_right _ List.mem_cons_self

/-- Without pending properties, the value of an own literal has no effect on a formula that is not
    said to depend on it, unless the formula reads it as a member of what an operand gives that
    starts no traversal. -/
theorem evaluate_withLiteral {ctx : EvaluationContext} (hp : ∀ name, ctx.pending.get? name = none)
    {name : String} {e : Expression} (hdep : ¬ e.DependsOn name)
    (hother : ∀ o, .member o name ∈ e.parts → o.unwind.1.traversalRoot? = none →
      ∀ v, ctx.meaning o = .ok (some v) → ctx.entity.id ∉ v.references) (v : Value) :
    e.evaluate (ctx.withLiteral name v) = e.evaluate ctx :=
  (withLiteral_differsAt hp name v).evaluate (spares_of_not_dependsOn hdep hother)

/-- Something with a size. -/
def sized (id size : String) : Entity where
  id := id
  typePath := id
  properties := Dict.empty.insert "size" (.literal { name := "size", value := .text size })

/-- What is known about a box: its size, and its lid, which has another one. -/
def boxContext : EvaluationContext :=
  { ofEntity {} (sized "box" "S") with entities := Dict.empty.insert "lid" (sized "lid" "M") }

/-- The size of the lid, read off a list with the lid in it, is not the size of the box. -/
theorem lid_withLiteral :
    let e : Expression := .member (.list [.entityRef "lid"]) "size"
    ¬ e.DependsOn "size" ∧
    e.evaluate (boxContext.withLiteral "size" (.text "L")) = e.evaluate boxContext := by
  intro e
  have hdep : ¬ e.DependsOn "size" := by
    rintro (hown | ⟨tr, htr, -⟩)
    · exact absurd hown (by decide +kernel)
    · exact absurd htr List.not_mem_nil
  refine ⟨hdep, evaluate_withLiteral (fun _ => rfl) hdep (fun o hpart _ v hv => ?_) _⟩
  have ho : o = .list [.entityRef "lid"] := by
    simpa [e, Expression.parts, Expression.partsOfList] using hpart
  have hlid : (Expression.list [.entityRef "lid"]).evaluate boxContext =
    .ok (some (.ofItems [.reference "lid" (some "lid")])) := rfl
  rw [ho, evaluate_sound (by rw [hlid]; trivial), hlid] at hv
  cases hv
  decide +kernel

/-- The size of the box, read off a list with the box in it, is nothing that the formula is said to
    depend on. -/
theorem box_not_withLiteral :
    let e : Expression := .member (.list [.selfEntity]) "size"
    (∀ name, boxContext.pending.get? name = none) ∧ e.dependencyPaths = [] ∧ ¬ e.DependsOn "size" ∧
    e.evaluate (boxContext.withLiteral "size" (.text "L")) ≠ e.evaluate boxContext := by
  intro e
  refine ⟨fun _ => rfl, by decide +kernel, ?_, fun h => ?_⟩
  · rintro (hown | ⟨tr, htr, -⟩)
    · exact absurd hown (by decide +kernel)
    · exact absurd htr List.not_mem_nil
  · have htext := congrArg (fun r : EvalResult => r.toOption.map fun v => v.map Value.displayText) h
    revert htext
    decide +kernel

end EvaluationContext

end EntityFormulas
