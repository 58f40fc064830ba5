/-
  EntityFormulas/Proofs/Evaluation/FiniteAnswers.lean
  ===================================================
  **Whether answers are finite.**

  Operators and functions give finite numbers for finite numbers: arithmetic and
  powers because they check their results, the others because they cannot leave
  the finite numbers.  `SUM` and `AVG` do neither, and a literal may be too large
  for a finite number.

  These are the only ways by which a number that is not finite comes into an
  answer (`Derives.proper`).  Without them an answer over proper properties is
  proper, and can be written as JSON and read back.
-/
import EntityFormulas.Formula.Expression.Parse
import EntityFormulas.Proofs.Decimal.Finiteness
import EntityFormulas.Proofs.Entity.Codec
import EntityFormulas.Proofs.Evaluation.Derivation
import EntityFormulas.Proofs.Evaluation.Soundness
import EntityFormulas.Proofs.Formula.Codec

namespace EntityFormulas

open Evaluation

/-- A computation fails, or what it ends with has `P`. -/
def OnSuccess {α : Type} (P : α → Prop) : Except EvalError α → Prop
  | .ok a => P a
  | .error _ => True

theorem OnSuccess.map {α β : Type} {P : α → Prop} {Q : β → Prop} {x : Except EvalError α}
    {f : α → β} (hx : OnSuccess P x) (hf : ∀ a, P a → Q (f a)) : OnSuccess Q (x.map f) := by
  cases x with
  | ok a => exact hf a hx
  | error e => trivial

theorem OnSuccess.true {α : Type} (x : Except EvalError α) : OnSuccess (fun _ => True) x := by
  cases x <;> trivial

/-! ### Proper values -/

namespace Value

theorem properItems_iff {vs : List Value} : ProperItems vs ↔ ∀ v ∈ vs, v.Proper := by
  induction vs with
  | nil => exact ⟨fun _ => nofun, fun _ => trivial⟩
  | cons v rest ih => rw [ProperItems, ih, List.forall_mem_cons]

theorem properFields_iff {fs : List (String × Value)} :
    ProperFields fs ↔ ∀ f ∈ fs, f.2.Proper := by
  induction fs with
  | nil => exact ⟨fun _ => nofun, fun _ => trivial⟩
  | cons f rest ih => rw [ProperFields, ih, List.forall_mem_cons]

theorem proper_ofItems {vs : List Value} (h : ∀ v ∈ vs, v.Proper) : (ofItems vs).Proper :=
  properItems_iff.2 h

theorem proper_ofFields {fs : List (String × Value)} (h : ∀ f ∈ fs, f.2.Proper) :
    (ofFields fs).Proper := by
  have hascending := Entries.ascending_ofList fs
  refine ⟨hascending, properFields_iff.2 fun f hf => ?_⟩
  exact h f (Entries.mem_of_find?_ofList (Entries.find?_of_mem hascending hf))

theorem proper_negate {v : Value} (hv : v.Proper) : OnSuccess Proper v.negate := by
  cases v with
  | number q => exact isFiniteNumber_neg hv
  | _ => trivial

/-- Arithmetic checks its results. -/
theorem proper_arithmetic (op : BinaryOp) (l r : Value) : OnSuccess Proper (arithmetic op l r) := by
  unfold arithmetic Quantity.arithmetic
  split
  · split
    · split
      · assumption
      · trivial
    · trivial
  · trivial

end Value

/-- A proper value, or none. -/
def ProperOrAbsent (o : Option Value) : Prop := ∀ v, o = some v → v.Proper

theorem ProperOrAbsent.none : ProperOrAbsent none := nofun

theorem ProperOrAbsent.some {v : Value} (hv : v.Proper) : ProperOrAbsent (some v)
  | _, rfl => hv

theorem Property.Proper.current {p : Property} (hp : p.Proper) : ProperOrAbsent p.current := by
  intro v hv
  refine hp.1 v ?_
  cases p with
  | literal q | measured q =>
    cases hv
    exact List.mem_singleton.2 rfl
  | inherited q =>
    rw [Property.values, List.mem_append, Option.mem_toList, Option.mem_toList]
    exact (Option.or_eq_some_iff.1 hv).imp_right And.right
  | computed q => exact Option.mem_toList.2 hv

/-! ### Functions -/

namespace Function

/-- How many characters or items are counted. -/
def size : Value → Nat
  | .text s => s.length
  | .list _ items => items.length
  | _ => 0

/-- A sum or an average, which is not checked, is finite, and what is counted has a size of 64
    bits. -/
def Bounded (f : Function) (args : List (Option Value)) : Prop :=
  match f with
  | .sum | .avg => ∀ q, f.apply args = some (.number q) → isFiniteNumber q.value = true
  | .count | .len => ∀ v, some v ∈ args → size v < 2 ^ 64
  | _ => True

variable {arg : Option Value}

theorem isFiniteNumber_quantities (h : ProperOrAbsent arg) {q : Quantity}
    (hq : q ∈ quantities arg) : isFiniteNumber q.value = true := by
  obtain ⟨v, hv, hvq⟩ := List.mem_filterMap.1 hq
  cases arg with
  | none => exact nomatch hv
  | some a =>
    cases a with
    | list type items =>
      have hproper := Value.properItems_iff.1 (h _ rfl) v hv
      cases v with
      | number p =>
        cases hvq
        exact hproper
      | _ => exact nomatch hvq
    | _ => exact nomatch hv

theorem eq_or_eq_of_choice (x y : Float) (p q : Prop) [Decidable p] [Decidable q] :
    (if p then y else if q then y else x) = x ∨ (if p then y else if q then y else x) = y := by
  split
  · exact .inr rfl
  · split
    · exact .inr rfl
    · exact .inl rfl

theorem lesser_eq (x y : Float) : lesser x y = x ∨ lesser x y = y := eq_or_eq_of_choice x y _ _

theorem greater_eq (x y : Float) : greater x y = x ∨ greater x y = y := eq_or_eq_of_choice x y _ _

/-- The best of some numbers is one of them. -/
theorem isFiniteNumber_foldl {pick : Float → Float → Float}
    (hpick : ∀ x y, pick x y = x ∨ pick x y = y) {qs : List Quantity} {x : Float}
    (hx : isFiniteNumber x = true) (hqs : ∀ q ∈ qs, isFiniteNumber q.value = true) :
    isFiniteNumber (qs.foldl (fun t q => pick t q.value) x) = true := by
  induction qs generalizing x with
  | nil => exact hx
  | cons q rest ih =>
    obtain ⟨hq, hrest⟩ := List.forall_mem_cons.1 hqs
    have hbetter : isFiniteNumber (pick x q.value) = true := by
      rcases hpick x q.value with heq | heq <;> rw [heq]
      · exact hx
      · exact hq
    exact ih hbetter hrest

theorem proper_extreme {pick : Float → Float → Float} (hpick : ∀ x y, pick x y = x ∨ pick x y = y)
    (h : ProperOrAbsent arg) : ProperOrAbsent (extreme pick arg) := by
  have hall (q) (hq : q ∈ quantities arg) := isFiniteNumber_quantities h hq
  intro v hv
  unfold extreme at hv
  split at hv
  · exact nomatch hv
  · rename_i q qs hqs
    cases hv
    rw [hqs, List.forall_mem_cons] at hall
    exact isFiniteNumber_foldl hpick hall.1 hall.2

theorem proper_mapNumber {f : Float → Float}
    (hf : ∀ {x}, isFiniteNumber x = true → isFiniteNumber (f x) = true)
    (h : ProperOrAbsent arg) : ProperOrAbsent (mapNumber f arg) := by
  intro v hv
  unfold mapNumber at hv
  split at hv
  · cases hv
    exact hf (h _ rfl)
  · exact nomatch hv

theorem proper_mapText (f : String → String) : ProperOrAbsent (mapText f arg) := by
  intro v hv
  unfold mapText at hv
  split at hv
  · cases hv
    trivial
  · exact nomatch hv

theorem proper_checked (q : Quantity) :
    ProperOrAbsent (if isFiniteNumber q.value then some (.number q) else none) := by
  split
  · exact ProperOrAbsent.some ‹_›
  · exact ProperOrAbsent.none

theorem proper_roundQuantity (q : Quantity) (places : Option Value) :
    ProperOrAbsent (roundQuantity q places) := proper_checked { q with value := _ }

theorem proper_powerOf (base exponent : Float) : ProperOrAbsent (powerOf base exponent) :=
  proper_checked ⟨_, none, none⟩

theorem mem_of_getElem?_join {args : List (Option Value)} {i : Nat} {v : Value}
    (h : args[i]?.join = some v) : some v ∈ args :=
  List.mem_of_getElem? (Option.join_eq_some_iff.1 h)

/-- Functions give proper values for proper arguments, if what they leave unchecked is bounded. -/
theorem proper_apply {f : Function} {args : List (Option Value)}
    (hargs : ∀ o ∈ args, ProperOrAbsent o) (hb : f.Bounded args) :
    ProperOrAbsent (f.apply args) := by
  have harg {i : Nat} : ProperOrAbsent args[i]?.join := fun w hw =>
    hargs (some w) (mem_of_getElem?_join hw) w rfl
  intro v hv
  cases f with
  | sum | avg =>
    obtain ⟨q, rfl⟩ : ∃ q, v = .number q := by
      dsimp only [apply] at hv
      split at hv <;> cases hv <;> exact ⟨_, rfl⟩
    exact hb q hv
  | min => exact proper_extreme lesser_eq harg v hv
  | max => exact proper_extreme greater_eq harg v hv
  | count =>
    cases hv
    refine isFiniteNumber_ofNat ?_
    show ((args[0]?.join.bind Value.asList?).map List.length).getD 0 < 2 ^ 64
    cases hitems : args[0]?.join with
    | none => decide
    | some w =>
      have hsize := hb w (mem_of_getElem?_join hitems)
      cases w with
      | list type items => exact hsize
      | _ => exact Nat.two_pow_pos 64
  | round =>
    dsimp only [apply] at hv
    split at hv
    · exact proper_roundQuantity _ _ v hv
    · exact nomatch hv
  | sqrt =>
    dsimp only [apply] at hv
    split at hv
    · rename_i q hq
      split at hv
      · cases hv
        exact isFiniteNumber_sqrt (harg _ hq) ‹_›
      · exact nomatch hv
    · exact nomatch hv
  | abs => exact proper_mapNumber isFiniteNumber_abs harg v hv
  | floor => exact proper_mapNumber (RoundingMode.isFiniteNumber_round .down) harg v hv
  | ceil => exact proper_mapNumber (RoundingMode.isFiniteNumber_round .up) harg v hv
  | power =>
    dsimp only [apply] at hv
    split at hv
    · exact proper_powerOf _ _ v hv
    · exact nomatch hv
  | concat =>
    cases hv
    trivial
  | upper | lower | trim => exact proper_mapText _ v hv
  | len =>
    dsimp only [apply] at hv
    split at hv
    · rename_i s harg
      cases hv
      exact isFiniteNumber_ofNat (hb (.text s) (mem_of_getElem?_join harg))
    · rename_i type items harg
      cases hv
      exact isFiniteNumber_ofNat (hb (.list type items) (mem_of_getElem?_join harg))
    · exact nomatch hv
  | contains =>
    dsimp only [apply] at hv
    split at hv
    · cases hv
      trivial
    · exact nomatch hv
  | choose =>
    dsimp only [apply] at hv
    split at hv <;> exact harg v hv
  | coalesce =>
    obtain ⟨o, ho, hov⟩ := List.exists_of_findSome?_eq_some hv
    exact hargs o ho v hov

theorem proper_invoke {f : Function} {args : List (Option Value)}
    (hargs : ∀ o ∈ args, ProperOrAbsent o) (hb : f.Bounded args) :
    OnSuccess ProperOrAbsent (f.invoke args) := by
  unfold invoke
  cases f.checkArity args.length with
  | error e => trivial
  | ok =>
    cases f.checkTypes args with
    | error e => trivial
    | ok => exact proper_apply hargs hb

end Function

/-! ### Operators -/

namespace Evaluation

theorem proper_unary (op : UnaryOp) {v : Option Value} (hv : ProperOrAbsent v) :
    OnSuccess ProperOrAbsent (unary op v) := by
  cases op with
  | not => exact ProperOrAbsent.some trivial
  | neg =>
    cases v with
    | none => exact ProperOrAbsent.none
    | some v => exact (Value.proper_negate (hv v rfl)).map fun _ => ProperOrAbsent.some

theorem proper_strictBinary (op : BinaryOp) (l r : Option Value) :
    OnSuccess ProperOrAbsent (strictBinary op l r) := by
  cases op with
  | eq | neq => exact ProperOrAbsent.some trivial
  | lt | lte | gt | gte =>
    cases l with
    | none => exact ProperOrAbsent.none
    | some l =>
      cases r with
      | none => exact ProperOrAbsent.none
      | some r => exact (OnSuccess.true _).map fun _ _ => ProperOrAbsent.some trivial
  | _ =>
    cases l with
    | none => exact ProperOrAbsent.none
    | some l =>
      cases r with
      | none => exact ProperOrAbsent.none
      | some r =>
        unfold strictBinary
        dsimp only
        split
        · exact ProperOrAbsent.some trivial
        · exact (Value.proper_arithmetic _ l r).map fun _ => ProperOrAbsent.some

theorem proper_missing (ctx : EvaluationContext) (e : EvalError) :
    OnSuccess ProperOrAbsent (missing ctx e) := by
  unfold missing
  split
  · trivial
  · exact ProperOrAbsent.none

theorem proper_entityRef (ctx : EvaluationContext) (id : String) :
    OnSuccess ProperOrAbsent (entityRef ctx id) := by
  unfold entityRef
  split
  · exact ProperOrAbsent.some trivial
  · split
    · exact ProperOrAbsent.some trivial
    · exact proper_missing ctx _

theorem proper_relationship (ctx : EvaluationContext) (id name : String) :
    OnSuccess ProperOrAbsent (relationship ctx id name) := by
  unfold relationship relationshipValue
  split
  · split
    · exact ProperOrAbsent.some trivial
    · refine ProperOrAbsent.some (Value.proper_ofItems fun v hv => ?_)
      obtain ⟨target, -, rfl⟩ := List.mem_map.1 hv
      trivial
  · exact proper_missing ctx _

end Evaluation

/-! ### Formulas -/

/-- Neither a literal of the formula nor a call that has arguments leads beyond the finite
    numbers. -/
structure Expression.BoundedIn (e : Expression) (ctx : EvaluationContext) : Prop where
  literals : e.Finite
  calls : ∀ name args f vs, .call name args ∈ e.parts → Function.ofName? name = some f →
    args.mapM ctx.meaning = .ok vs → f.Bounded vs

theorem Expression.BoundedIn.child {c e : Expression} {ctx : EvaluationContext}
    (he : e.BoundedIn ctx) (hc : c ∈ e.children) : c.BoundedIn ctx where
  literals x hx := he.literals x (parts_subset_of_child hc hx)
  calls name args f vs hcall := he.calls name args f vs (parts_subset_of_child hc hcall)

/-- All that evaluation reads is proper, and all pending formulas are bounded. -/
structure EvaluationContext.Proper (ctx : EvaluationContext) : Prop where
  properties : ∀ p ∈ ctx.properties.values, p.Proper
  entities : ∀ e ∈ ctx.entities.values, e.Proper
  pending : ∀ f ∈ ctx.pending.values, f.BoundedIn ctx

namespace EvaluationContext

variable {ctx : EvaluationContext}

theorem Proper.storedProperty (hctx : ctx.Proper) (name : String) :
    OnSuccess ProperOrAbsent (Evaluation.storedProperty ctx name) := by
  unfold Evaluation.storedProperty
  split
  · rename_i p hp
    exact (hctx.properties p (Dict.mem_values_iff.2 ⟨name, hp⟩)).current
  · exact proper_missing ctx _

theorem Proper.current (hctx : ctx.Proper) {id name : String} {p : Property}
    (hp : (ctx.entities.get? id).bind (·.property? name) = some p) : ProperOrAbsent p.current := by
  obtain ⟨e, he, hp⟩ := Option.bind_eq_some_iff.1 hp
  have heproper := hctx.entities e (Dict.mem_values_iff.2 ⟨id, he⟩)
  exact (heproper p (Dict.mem_values_iff.2 ⟨name, hp⟩)).current

mutual

/-- A derivable answer of a bounded formula is proper. -/
theorem Derives.proper (hctx : ctx.Proper) {e : Expression} {r : EvalResult} :
    Derives ctx e r → e.BoundedIn ctx → OnSuccess ProperOrAbsent r
  | .literal value, he => by
    cases value with
    | number x => exact ProperOrAbsent.some (he.literals x (Expression.mem_parts_self _))
    | null => exact ProperOrAbsent.none
    | _ => exact ProperOrAbsent.some trivial
  | .selfProperty own, _ => own.proper hctx
  | .selfEntity, _ => ProperOrAbsent.some trivial
  | .entityRef id, _ => proper_entityRef ctx id
  | .member value member, he =>
    member.proper hctx (value.proper hctx (he.child (.head _)) _ rfl)
  | .memberOfAbsent _, _ => ProperOrAbsent.none
  | .memberOfFailure _, _ => trivial
  | .unary value, he => proper_unary _ (value.proper hctx (he.child (.head _)))
  | .unaryFailure _, _ | .leftFailure _, _ | .rightFailure _ _ _, _ => trivial
  | .andRight _ _ other, he => other.proper hctx (he.child (.tail _ (.head _)))
  | .andLeft value _, he => value.proper hctx (he.child (.head _))
  | .orLeft value _, he => value.proper hctx (he.child (.head _))
  | .orRight _ _ other, he => other.proper hctx (he.child (.tail _ (.head _)))
  | .strict _ _ _, _ => proper_strictBinary _ _ _
  | .unknownFunction _, _ | .choiceArity _ _, _ | .choiceFailure _ _, _ => trivial
  | .choiceYes _ _ _ branch, he => branch.proper hctx (he.child (.tail _ (.head _)))
  | .choiceNo _ _ _ branch, he => branch.proper hctx (he.child (.tail _ (.tail _ (.head _))))
  | .call known _ values, he => by
    -- the values derived for the arguments are their meanings, of which the bound speaks
    have hbounded := he.calls _ _ _ _ (Expression.mem_parts_self _) known values.mapM.2
    exact Function.proper_invoke (values.proper hctx fun _ => he.child) hbounded
  | .callFailure _ _ _, _ => trivial
  | .list values, he => by
    refine (values.proper hctx fun _ => he.child).map fun vs hvs => ?_
    refine ProperOrAbsent.some (Value.proper_ofItems fun v hv => ?_)
    obtain ⟨o, ho, rfl⟩ := List.mem_filterMap.1 hv
    exact hvs _ ho v rfl
  | .record values, he => by
    refine (values.proper hctx fun _ => he.child).map fun vs hvs => ?_
    refine ProperOrAbsent.some (Value.proper_ofFields fun f hf => ?_)
    obtain ⟨o, ho, rfl⟩ := List.mem_filterMap.1 hf
    -- a field that is kept pairs a name with one of the values
    rw [← List.map_uncurry_zip_eq_zipWith] at ho
    obtain ⟨⟨field, o⟩, hzip, hof⟩ := List.mem_map.1 ho
    obtain ⟨v, rfl, rfl⟩ := Option.map_eq_some_iff.1 hof
    exact hvs _ (List.of_mem_zip hzip).2 v rfl

theorem DerivesAll.proper (hctx : ctx.Proper) {es : List Expression}
    {r : Except EvalError (List (Option Value))} :
    DerivesAll ctx es r → (∀ e ∈ es, e.BoundedIn ctx) →
      OnSuccess (fun vs => ∀ o ∈ vs, ProperOrAbsent o) r
  | .nil, _ => fun _ => nofun
  | .cons value others, hes => by
    have ⟨he, hrest⟩ := List.forall_mem_cons.1 hes
    exact (others.proper hctx hrest).map fun vs hvs =>
      List.forall_mem_cons.2 ⟨value.proper hctx he, hvs⟩
  | .failure _, _ => trivial

theorem DerivesOwn.proper (hctx : ctx.Proper) {name : String} {r : EvalResult} :
    DerivesOwn ctx name r → OnSuccess ProperOrAbsent r
  | .pending formula value =>
    value.proper hctx (hctx.pending _ (Dict.mem_values_iff.2 ⟨name, formula⟩))
  | .stored _ => hctx.storedProperty name

theorem DerivesMember.proper (hctx : ctx.Proper) {name : String} {v : Value} {r : EvalResult} :
    DerivesMember ctx name v r → v.Proper → OnSuccess ProperOrAbsent r
  | .own _ _ value, _ => value.proper hctx
  | .ownRelationship _ _, _ | .relationship _ _, _ => proper_relationship ctx _ name
  | .property _ has, _ => hctx.current has
  | .field has, hv => ProperOrAbsent.some <|
    Value.properFields_iff.1 hv.2 _ (Entries.mem_of_find? has)
  | .missingField _, _ | .noMembers _, _ => proper_missing ctx _
  | .items members, hv => (members.proper hctx (Value.properItems_iff.1 hv)).map fun _ hms =>
    ProperOrAbsent.some (Value.proper_ofItems hms)

theorem DerivesMembers.proper (hctx : ctx.Proper) {name : String} {vs : List Value}
    {r : Except EvalError (List Value)} : DerivesMembers ctx name vs r → (∀ v ∈ vs, v.Proper) →
    OnSuccess (fun ms => ∀ m ∈ ms, m.Proper) r
  | .nil, _ => fun _ => nofun
  | .cons member others, hvs => by
    have ⟨hv, hrest⟩ := List.forall_mem_cons.1 hvs
    refine (others.proper hctx hrest).map fun ms hms m hm => ?_
    rcases List.mem_append.1 hm with hm | hm
    · exact member.proper hctx hv m (Option.mem_toList.1 hm)
    · exact hms m hm
  | .failure _, _ => trivial

end

end EvaluationContext

open EvaluationContext

/-- The answer of a bounded formula over proper properties is proper.  Written as JSON, it is read
    back as it was. -/
theorem Expression.evaluate_proper {e : Expression} {ctx : EvaluationContext} (hctx : ctx.Proper)
    (he : e.BoundedIn ctx) {v : Value} (h : e.evaluate ctx = .ok (some v)) :
    v.Proper ∧ v.toJson.Finite ∧ ∀ place, Value.ofJson? place v.toJson = some v := by
  have hmeaning : ctx.meaning e = .ok (some v) := by
    have hsettled : Settled (e.evaluate ctx) := h ▸ trivial
    rw [evaluate_sound hsettled, h]
  have hderives : Derives ctx e (.ok (some v)) := by
    rw [← hmeaning]
    exact derives_meaning (hmeaning ▸ trivial)
  have hproper : v.Proper := hderives.proper hctx he v rfl
  exact ⟨hproper, hproper.toJson, Value.ofJson?_toJson hproper⟩

/-- Two stored sizes of the same value. -/
def twoSizes (size : Float) (pending : Dict Expression) : EvaluationContext where
  entity := { id := "entity", typePath := "entity" }
  properties := Dict.empty.insert "sizes" (.literal ⟨"sizes", .ofItems [.plain size, .plain size]⟩)
  pending
  strict := false
  recursionLimit := 4

theorem twoSizes_properties {size : Float} {pending : Dict Expression}
    (hsize : isFiniteNumber size = true) :
    ∀ p ∈ (twoSizes size pending).properties.values, p.Proper := by
  intro p hp
  obtain rfl := List.mem_singleton.1 hp
  refine ⟨fun v hv => ?_, nofun⟩
  obtain rfl := List.mem_singleton.1 hv
  exact ⟨hsize, hsize, trivial⟩

/-- The total of the sizes, read while it is about to be computed. -/
theorem twoSizes_evaluate_proper :
    let ctx := twoSizes 1.5 (Dict.empty.insert "total" (.call "SUM" [.selfProperty "sizes"]))
    ctx.Proper ∧ (Expression.selfProperty "total").BoundedIn ctx ∧
      (Expression.selfProperty "total").evaluate ctx = .ok (some (.plain 3.0)) ∧
      (Value.plain 3.0).Proper ∧ (Value.plain 3.0).toJson.Finite ∧
      ∀ place, Value.ofJson? place (Value.plain 3.0).toJson = some (.plain 3.0) := by
  intro ctx
  have hsizes : ctx.meaning (.selfProperty "sizes") =
      .ok (some (.ofItems [.plain 1.5, .plain 1.5])) :=
    meaning_eq_denote (n := 1) trivial
  have htotal : (Expression.call "SUM" [.selfProperty "sizes"]).BoundedIn ctx := by
    refine ⟨by simp [Expression.Finite, Expression.parts, Expression.partsOfList], ?_⟩
    intro name args f vs hmem hname hvs
    obtain ⟨rfl, rfl⟩ : name = "SUM" ∧ args = [.selfProperty "sizes"] := by
      simpa [Expression.parts, Expression.partsOfList] using hmem
    obtain rfl : .sum = f := Option.some.inj hname
    rw [List.mapM_cons, hsizes] at hvs
    cases hvs
    intro q hq
    cases hq
    decide +kernel
  have hctx : ctx.Proper := by
    refine ⟨twoSizes_properties (by decide +kernel), nofun, fun f hf => ?_⟩
    obtain rfl := List.mem_singleton.1 hf
    exact htotal
  have he : (Expression.selfProperty "total").BoundedIn ctx :=
    ⟨by simp [Expression.Finite, Expression.parts], by simp [Expression.parts]⟩
  have hsum : -0.0 + 1.5 + 1.5 = (3.0 : Float) := by decide +kernel
  have hanswer : (Expression.selfProperty "total").evaluate ctx = .ok (some (.plain 3.0)) := by
    rw [← hsum]
    rfl
  exact ⟨hctx, he, hanswer, Expression.evaluate_proper hctx he hanswer⟩

/-- The sum of two finite sizes that is not finite. -/
theorem twoSizes_not_proper :
    ∃ e v, Expression.parse "SUM(#sizes)" = .ok e ∧ (twoSizes 1e308 .empty).Proper ∧
      e.evaluate (twoSizes 1e308 .empty) = .ok (some v) ∧ ¬ v.Proper := by
  have htokens : Token.tokens "SUM(#sizes)" = .ok [⟨.word "SUM", 0⟩, ⟨.leftParen, 3⟩,
      ⟨.property "sizes", 4⟩, ⟨.rightParen, 10⟩, ⟨.eof, 11⟩] := by
    decide +kernel
  have hparse : Expression.parse "SUM(#sizes)" = .ok (.call "SUM" [.selfProperty "sizes"]) := by
    unfold Expression.parse
    rw [htokens]
    rfl
  have hproper : (twoSizes 1e308 .empty).Proper :=
    ⟨twoSizes_properties (by decide +kernel), nofun, nofun⟩
  refine ⟨_, .plain (-0.0 + 1e308 + 1e308), hparse, hproper, rfl, ?_⟩
  show ¬ isFiniteNumber (-0.0 + 1e308 + 1e308) = true
  decide +kernel

end EntityFormulas
