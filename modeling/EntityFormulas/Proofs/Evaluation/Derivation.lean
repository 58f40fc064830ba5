/-
  EntityFormulas/Proofs/Evaluation/Derivation.lean
  ================================================
  **Answers as derivations.**

  `Derives` gives the answers of formulas by rules: no levels, no memory and no
  properties under evaluation.  A pending own property has the answer of its
  formula, conditional forms have rules for the operands they need only, and
  an operand list fails with its first failure.

  A formula has at most one derivable answer, its meaning (`Derives.meaning`), and
  its meaning is derivable if it is settled (`derives_meaning`).
-/
import EntityFormulas.Proofs.Evaluation.Meaning
import Mathlib.Data.List.Basic

namespace EntityFormulas

open Evaluation

namespace EvaluationContext

/-! ### Rules -/

mutual

/-- The answer of a formula. -/
inductive Derives (ctx : EvaluationContext) : Expression → EvalResult → Prop
  | literal (value : Literal) : Derives ctx (.literal value) (.ok (literal value))
  | selfProperty {name : String} {r : EvalResult} (own : DerivesOwn ctx name r) :
      Derives ctx (.selfProperty name) r
  | selfEntity :
      Derives ctx .selfEntity (.ok (some (.reference ctx.entity.id (some ctx.entity.typePath))))
  | entityRef (id : String) : Derives ctx (.entityRef id) (entityRef ctx id)
  | member {object : Expression} {name : String} {v : Value} {r : EvalResult}
      (value : Derives ctx object (.ok (some v))) (member : DerivesMember ctx name v r) :
      Derives ctx (.member object name) r
  | memberOfAbsent {object : Expression} {name : String} (absent : Derives ctx object (.ok none)) :
      Derives ctx (.member object name) (.ok none)
  | memberOfFailure {object : Expression} {name : String} {x : EvalError}
      (fails : Derives ctx object (.error x)) : Derives ctx (.member object name) (.error x)
  | unary {op : UnaryOp} {operand : Expression} {v : Option Value}
      (value : Derives ctx operand (.ok v)) : Derives ctx (.unary op operand) (unary op v)
  | unaryFailure {op : UnaryOp} {operand : Expression} {x : EvalError}
      (fails : Derives ctx operand (.error x)) : Derives ctx (.unary op operand) (.error x)
  | leftFailure {op : BinaryOp} {left right : Expression} {x : EvalError}
      (fails : Derives ctx left (.error x)) : Derives ctx (.binary op left right) (.error x)
  | andRight {left right : Expression} {l : Option Value} {r : EvalResult}
      (value : Derives ctx left (.ok l)) (met : isTruthy l = true) (other : Derives ctx right r) :
      Derives ctx (.binary .and left right) r
  | andLeft {left right : Expression} {l : Option Value}
      (value : Derives ctx left (.ok l)) (unmet : isTruthy l = false) :
      Derives ctx (.binary .and left right) (.ok l)
  | orLeft {left right : Expression} {l : Option Value}
      (value : Derives ctx left (.ok l)) (met : isTruthy l = true) :
      Derives ctx (.binary .or left right) (.ok l)
  | orRight {left right : Expression} {l : Option Value} {r : EvalResult}
      (value : Derives ctx left (.ok l)) (unmet : isTruthy l = false)
      (other : Derives ctx right r) : Derives ctx (.binary .or left right) r
  | strict {op : BinaryOp} {left right : Expression} {l r : Option Value}
      (needsBoth : op ≠ .and ∧ op ≠ .or) (value : Derives ctx left (.ok l))
      (other : Derives ctx right (.ok r)) : Derives ctx (.binary op left right) (strictBinary op l r)
  | rightFailure {op : BinaryOp} {left right : Expression} {l : Option Value} {x : EvalError}
      (needsBoth : op ≠ .and ∧ op ≠ .or) (value : Derives ctx left (.ok l))
      (fails : Derives ctx right (.error x)) : Derives ctx (.binary op left right) (.error x)
  | unknownFunction {name : String} {args : List Expression}
      (unknown : Function.ofName? name = none) :
      Derives ctx (.call name args) (.error (.unknownFunction name))
  | choiceArity {name : String} {args : List Expression}
      (choice : Function.ofName? name = some .choose) (wrong : args.length ≠ 3) :
      Derives ctx (.call name args)
        (.error (.wrongArity Function.choose.name Function.choose.arity args.length))
  | choiceFailure {name : String} {condition yes no : Expression} {x : EvalError}
      (choice : Function.ofName? name = some .choose) (fails : Derives ctx condition (.error x)) :
      Derives ctx (.call name [condition, yes, no]) (.error x)
  | choiceYes {name : String} {condition yes no : Expression} {c : Option Value} {r : EvalResult}
      (choice : Function.ofName? name = some .choose) (value : Derives ctx condition (.ok c))
      (met : isTruthy c = true) (branch : Derives ctx yes r) :
      Derives ctx (.call name [condition, yes, no]) r
  | choiceNo {name : String} {condition yes no : Expression} {c : Option Value} {r : EvalResult}
      (choice : Function.ofName? name = some .choose) (value : Derives ctx condition (.ok c))
      (unmet : isTruthy c = false) (branch : Derives ctx no r) :
      Derives ctx (.call name [condition, yes, no]) r
  | call {name : String} {f : Function} {args : List Expression} {vs : List (Option Value)}
      (known : Function.ofName? name = some f) (needsAll : f ≠ .choose)
      (values : DerivesAll ctx args (.ok vs)) : Derives ctx (.call name args) (f.invoke vs)
  | callFailure {name : String} {f : Function} {args : List Expression} {x : EvalError}
      (known : Function.ofName? name = some f) (needsAll : f ≠ .choose)
      (fails : DerivesAll ctx args (.error x)) : Derives ctx (.call name args) (.error x)
  | list {items : List Expression} {r : Except EvalError (List (Option Value))}
      (values : DerivesAll ctx items r) :
      Derives ctx (.list items) (r.map fun vs => some (.ofItems (vs.filterMap id)))
  | record {fields : List (String × Expression)} {r : Except EvalError (List (Option Value))}
      (values : DerivesAll ctx (fields.map Prod.snd) r) :
      Derives ctx (.record fields) (r.map fun vs =>
        some (.ofFields ((fields.zipWith (fun f v => v.map (f.1, ·)) vs).filterMap id)))

/-- The answers of formulas that are all needed, from left to right. -/
inductive DerivesAll (ctx : EvaluationContext) :
    List Expression → Except EvalError (List (Option Value)) → Prop
  | nil : DerivesAll ctx [] (.ok [])
  | cons {e : Expression} {rest : List Expression} {v : Option Value}
      {r : Except EvalError (List (Option Value))} (value : Derives ctx e (.ok v))
      (others : DerivesAll ctx rest r) : DerivesAll ctx (e :: rest) (r.map (v :: ·))
  | failure {e : Expression} {rest : List Expression} {x : EvalError}
      (fails : Derives ctx e (.error x)) : DerivesAll ctx (e :: rest) (.error x)

/-- The answer of an own property. -/
inductive DerivesOwn (ctx : EvaluationContext) : String → EvalResult → Prop
  | pending {name : String} {e : Expression} {r : EvalResult}
      (formula : ctx.pending.get? name = some e) (value : Derives ctx e r) : DerivesOwn ctx name r
  | stored {name : String} (noFormula : ctx.pending.get? name = none) :
      DerivesOwn ctx name (storedProperty ctx name)

/-- The member of a present value. -/
inductive DerivesMember (ctx : EvaluationContext) : String → Value → EvalResult → Prop
  | own {name id : String} {type : Option String} {r : EvalResult} (self : id = ctx.entity.id)
      (has : ctx.hasOwnProperty name = true) (value : DerivesOwn ctx name r) :
      DerivesMember ctx name (.reference id type) r
  | ownRelationship {name id : String} {type : Option String} (self : id = ctx.entity.id)
      (lacks : ctx.hasOwnProperty name = false) :
      DerivesMember ctx name (.reference id type) (relationship ctx id name)
  | property {name id : String} {type : Option String} {p : Property} (other : id ≠ ctx.entity.id)
      (has : (ctx.entities.get? id).bind (·.property? name) = some p) :
      DerivesMember ctx name (.reference id type) (.ok p.current)
  | relationship {name id : String} {type : Option String} (other : id ≠ ctx.entity.id)
      (lacks : (ctx.entities.get? id).bind (·.property? name) = none) :
      DerivesMember ctx name (.reference id type) (relationship ctx id name)
  | field {name : String} {fields : List (String × Value)} {v : Value}
      (has : Entries.find? name fields = some v) : DerivesMember ctx name (.record fields) (.ok (some v))
  | missingField {name : String} {fields : List (String × Value)}
      (lacks : Entries.find? name fields = none) :
      DerivesMember ctx name (.record fields) (Evaluation.missing ctx (.missingField name))
  | items {name : String} {type : ValueType} {vs : List Value} {r : Except EvalError (List Value)}
      (members : DerivesMembers ctx name vs r) :
      DerivesMember ctx name (.list type vs) (r.map fun ms => some (.ofItems ms))
  | noMembers {name : String} {v : Value}
      (scalar : v.type ≠ .reference ∧ v.type ≠ .record ∧ v.type ≠ .list) :
      DerivesMember ctx name v (Evaluation.missing ctx (.noMembers name v.type))

/-- The members that the items of a list have. -/
inductive DerivesMembers (ctx : EvaluationContext) :
    String → List Value → Except EvalError (List Value) → Prop
  | nil {name : String} : DerivesMembers ctx name [] (.ok [])
  | cons {name : String} {v : Value} {rest : List Value} {m : Option Value}
      {r : Except EvalError (List Value)} (member : DerivesMember ctx name v (.ok m))
      (others : DerivesMembers ctx name rest r) :
      DerivesMembers ctx name (v :: rest) (r.map (m.toList ++ ·))
  | failure {name : String} {v : Value} {rest : List Value} {x : EvalError}
      (fails : DerivesMember ctx name v (.error x)) :
      DerivesMembers ctx name (v :: rest) (.error x)

end

/-! ### Settled answers are derivable -/

theorem liftExcept_eq {α : Type} (x : Except EvalError α) : (liftExcept x : Except EvalError α) = x := by
  cases x with
  | ok a => rfl
  | error e => rfl

theorem invoke_choose (c v w : Option Value) :
    Function.choose.invoke [c, v, w] = .ok (if isTruthy c then v else w) := by
  have htypes : Function.choose.checkTypes [c, v, w] = .ok () := by
    cases c <;> cases v <;> cases w <;> rfl
  unfold Function.invoke
  rw [htypes]
  rfl

/-- The answer of a branch passes the checks of the conditional function unchanged. -/
theorem bind_choose {args : Option Value → List (Option Value)}
    (h : ∀ v, Function.choose.invoke (args v) = .ok v) (r : EvalResult) :
    (r >>= fun v => (liftExcept (Function.choose.invoke (args v)) : EvalResult)) = r := by
  cases r with
  | error x => rfl
  | ok v =>
    change liftExcept (Function.choose.invoke (args v)) = _
    rw [liftExcept_eq, h]

theorem binary_strict (ev : Expression → EvalResult) {op : BinaryOp}
    (needsBoth : op ≠ .and ∧ op ≠ .or) (left right : Expression) :
    binary ev op left right =
      ev left >>= fun l => ev right >>= fun r => liftExcept (strictBinary op l r) := by
  cases op with
  | and => exact absurd rfl needsBoth.1
  | or => exact absurd rfl needsBoth.2
  | _ => rfl

theorem call_choice (ev : Expression → EvalResult) {name : String}
    (choice : Function.ofName? name = some .choose) (args : List Expression) :
    call ev name args = conditional ev args := by
  unfold call
  rw [choice]

theorem call_strict (ev : Expression → EvalResult) {name : String} {f : Function}
    (known : Function.ofName? name = some f) (needsAll : f ≠ .choose) (args : List Expression) :
    call ev name args = args.mapM ev >>= fun values => liftExcept (f.invoke values) := by
  unfold call
  rw [known]
  cases f with
  | choose => exact absurd rfl needsAll
  | _ => rfl

theorem conditional_arity (ev : Expression → EvalResult) {args : List Expression}
    (wrong : args.length ≠ 3) : conditional ev args =
      .error (.wrongArity Function.choose.name Function.choose.arity args.length) := by
  unfold conditional
  split
  · exact absurd rfl wrong
  · rfl

theorem mapM_fields (ev : Expression → EvalResult) (fields : List (String × Expression)) :
    (fields.mapM fun f => do
      let v ← ev f.2
      return v.map (f.1, ·)) = do
    let vs ← (fields.map Prod.snd).mapM ev
    return fields.zipWith (fun f v => v.map (f.1, ·)) vs := by
  induction fields with
  | nil => rfl
  | cons f rest ih =>
    rw [List.map_cons, List.mapM_cons, List.mapM_cons, ih]
    cases ev f.2 with
    | error x => rfl
    | ok v =>
      cases (rest.map Prod.snd).mapM ev with
      | error x => rfl
      | ok vs => rfl

variable {ctx : EvaluationContext}

section Reads

variable {ev : Expression → EvalResult} (hev : ∀ e, Settled (ev e) → Derives ctx e (ev e))
include hev

theorem derivesAll_mapM (es : List Expression) (h : Settled (es.mapM ev)) :
    DerivesAll ctx es (es.mapM ev) := by
  induction es with
  | nil => exact .nil
  | cons e rest ih =>
    rw [List.mapM_cons] at h ⊢
    have he := hev e
    cases hv : ev e with
    | error x =>
      rw [hv] at h he
      exact .failure (he h)
    | ok v =>
      rw [hv] at h he
      have hr : Settled (rest.mapM ev) := Settled.of_bind (f := fun vs => .ok (v :: vs)) h
      have hcons := DerivesAll.cons (he trivial) (ih hr)
      cases hvs : rest.mapM ev <;> rw [hvs] at hcons <;> exact hcons

theorem derivesOwn_ownValue (name : String) (h : Settled (ownValue ev ctx name)) :
    DerivesOwn ctx name (ownValue ev ctx name) := by
  cases hf : ctx.pending.get? name with
  | some f =>
    rw [ownValue_pending hf] at h ⊢
    exact .pending hf (hev f h)
  | none =>
    rw [ownValue_stored hf]
    exact .stored hf

theorem derivesMember_entityMember (id name : String) (type : Option String)
    (h : Settled (entityMember (ownValue ev ctx) ctx id name)) :
    DerivesMember ctx name (.reference id type) (entityMember (ownValue ev ctx) ctx id name) := by
  unfold entityMember at h ⊢
  by_cases hid : id = ctx.entity.id
  · simp only [if_pos hid] at h ⊢
    by_cases has : ctx.hasOwnProperty name = true
    · simp only [if_pos has] at h ⊢
      exact .own hid has (derivesOwn_ownValue hev name h)
    · simp only [if_neg has]
      exact .ownRelationship hid (Bool.not_eq_true _ ▸ has)
  · simp only [if_neg hid] at h ⊢
    cases hp : (ctx.entities.get? id).bind (·.property? name) with
    | some p => exact .property hid hp
    | none => exact .relationship hid hp

end Reads

mutual

theorem derivesMember_memberOf {ev : Expression → EvalResult}
    (hev : ∀ e, Settled (ev e) → Derives ctx e (ev e)) (name : String) : (v : Value) →
    Settled (memberOf (entityMember (ownValue ev ctx) ctx) ctx name v) →
    DerivesMember ctx name v (memberOf (entityMember (ownValue ev ctx) ctx) ctx name v)
  | .reference id type, h => derivesMember_entityMember hev id name type h
  | .record fields, _ => by
    simp only [memberOf]
    cases hf : Entries.find? name fields with
    | some v => exact .field hf
    | none => exact .missingField hf
  | .list type items, h => by
    simp only [memberOf] at h ⊢
    have hms : DerivesMember ctx name (.list type items) _ :=
      .items (derivesMembers_membersOf hev name items (Settled.of_bind h))
    cases hr : membersOf (entityMember (ownValue ev ctx) ctx) ctx name items <;>
      rw [hr] at hms <;> exact hms
  | .text _, _ | .number _, _ | .boolean _, _ | .dateTime _, _ | .duration _, _ =>
    .noMembers ⟨nofun, nofun, nofun⟩

theorem derivesMembers_membersOf {ev : Expression → EvalResult}
    (hev : ∀ e, Settled (ev e) → Derives ctx e (ev e)) (name : String) : (vs : List Value) →
    Settled (membersOf (entityMember (ownValue ev ctx) ctx) ctx name vs) →
    DerivesMembers ctx name vs (membersOf (entityMember (ownValue ev ctx) ctx) ctx name vs)
  | [], _ => .nil
  | v :: rest, h => by
    simp only [membersOf] at h ⊢
    have hv := derivesMember_memberOf hev name v
    cases hm : memberOf (entityMember (ownValue ev ctx) ctx) ctx name v with
    | error x =>
      rw [hm] at h hv
      exact .failure (hv h)
    | ok m =>
      rw [hm] at h hv
      have hrest := derivesMembers_membersOf hev name rest (Settled.of_bind h)
      have hcons := DerivesMembers.cons (hv trivial) hrest
      cases hr : membersOf (entityMember (ownValue ev ctx) ctx) ctx name rest <;>
        rw [hr] at hcons <;> exact hcons

end

section Operators

variable {ev : Expression → EvalResult} (hev : ∀ e, Settled (ev e) → Derives ctx e (ev e))
include hev

theorem derives_strict {op : BinaryOp} (needsBoth : op ≠ .and ∧ op ≠ .or)
    (left right : Expression) (h : Settled (binary ev op left right)) :
    Derives ctx (.binary op left right) (binary ev op left right) := by
  rw [binary_strict ev needsBoth] at h ⊢
  have hl := hev left (Settled.of_bind h)
  cases hv : ev left with
  | error x =>
    rw [hv] at hl
    exact .leftFailure hl
  | ok l =>
    rw [hv] at h hl
    have hr := hev right (Settled.of_bind h)
    cases hw : ev right with
    | error x =>
      rw [hw] at hr
      exact .rightFailure needsBoth hl hr
    | ok r =>
      rw [hw] at hr
      change Derives ctx _ (liftExcept (strictBinary op l r))
      rw [liftExcept_eq]
      exact .strict needsBoth hl hr

theorem derives_and (left right : Expression) (h : Settled (binary ev .and left right)) :
    Derives ctx (.binary .and left right) (binary ev .and left right) := by
  have hl := hev left (Settled.of_bind h)
  unfold binary at h ⊢
  cases hv : ev left with
  | error x =>
    rw [hv] at hl
    exact .leftFailure hl
  | ok l =>
    rw [hv] at h hl
    change Settled (if isTruthy l then ev right else .ok l) at h
    change Derives ctx _ (if isTruthy l then ev right else .ok l)
    by_cases ht : isTruthy l = true
    · rw [if_pos ht] at h ⊢
      exact .andRight hl ht (hev right h)
    · rw [if_neg ht]
      exact .andLeft hl (Bool.not_eq_true _ ▸ ht)

theorem derives_or (left right : Expression) (h : Settled (binary ev .or left right)) :
    Derives ctx (.binary .or left right) (binary ev .or left right) := by
  have hl := hev left (Settled.of_bind h)
  unfold binary at h ⊢
  cases hv : ev left with
  | error x =>
    rw [hv] at hl
    exact .leftFailure hl
  | ok l =>
    rw [hv] at h hl
    change Settled (if isTruthy l then .ok l else ev right) at h
    change Derives ctx _ (if isTruthy l then .ok l else ev right)
    by_cases ht : isTruthy l = true
    · rw [if_pos ht]
      exact .orLeft hl ht
    · rw [if_neg ht] at h ⊢
      exact .orRight hl (Bool.not_eq_true _ ▸ ht) (hev right h)

theorem derives_conditional {name : String} (choice : Function.ofName? name = some .choose)
    (args : List Expression) (h : Settled (conditional ev args)) :
    Derives ctx (.call name args) (conditional ev args) := by
  by_cases hlen : args.length = 3
  · obtain ⟨condition, yes, no, rfl⟩ := List.length_eq_three.1 hlen
    unfold conditional at h ⊢
    dsimp only at h ⊢
    have hc := hev condition (Settled.of_bind h)
    cases hv : ev condition with
    | error x =>
      rw [hv] at hc
      exact .choiceFailure choice hc
    | ok c =>
      rw [hv] at h hc
      change Settled (if isTruthy c then _ else _) at h
      change Derives ctx _ (if isTruthy c then _ else _)
      by_cases ht : isTruthy c = true
      · rw [if_pos ht] at h ⊢
        rw [bind_choose fun v => by rw [invoke_choose, if_pos ht]] at h ⊢
        exact .choiceYes choice hc ht (hev yes h)
      · rw [if_neg ht] at h ⊢
        rw [bind_choose fun v => by rw [invoke_choose, if_neg ht]] at h ⊢
        exact .choiceNo choice hc (Bool.not_eq_true _ ▸ ht) (hev no h)
  · rw [conditional_arity ev hlen]
    exact .choiceArity choice hlen

theorem derives_call (name : String) (args : List Expression) (h : Settled (call ev name args)) :
    Derives ctx (.call name args) (call ev name args) := by
  cases hf : Function.ofName? name with
  | none =>
    unfold call
    rw [hf]
    exact .unknownFunction hf
  | some f =>
    by_cases hchoose : f = .choose
    · subst hchoose
      rw [call_choice ev hf] at h ⊢
      exact derives_conditional hev hf args h
    · rw [call_strict ev hf hchoose] at h ⊢
      have hall := derivesAll_mapM hev args (Settled.of_bind h)
      cases hvs : args.mapM ev with
      | error x =>
        rw [hvs] at hall
        exact .callFailure hf hchoose hall
      | ok vs =>
        rw [hvs] at hall
        change Derives ctx _ (liftExcept (f.invoke vs))
        rw [liftExcept_eq]
        exact .call hf hchoose hall

/-- One level of evaluation over derivable answers gives a derivable one. -/
theorem derives_level (e : Expression) (h : Settled (level ev (contextReads (ownValue ev ctx) ctx) ctx e)) :
    Derives ctx e (level ev (contextReads (ownValue ev ctx) ctx) ctx e) := by
  cases e with
  | literal value => exact .literal value
  | selfProperty name => exact .selfProperty (derivesOwn_ownValue hev name h)
  | selfEntity => exact .selfEntity
  | entityRef id => exact .entityRef id
  | member object name =>
    simp only [level] at h ⊢
    have ho := hev object (Settled.of_bind h)
    cases hv : ev object with
    | error x =>
      rw [hv] at ho
      exact .memberOfFailure ho
    | ok v =>
      rw [hv] at h ho
      cases v with
      | none => exact .memberOfAbsent ho
      | some v => exact .member ho (derivesMember_memberOf hev name v h)
  | unary op operand =>
    simp only [level] at h ⊢
    have ho := hev operand (Settled.of_bind h)
    cases hv : ev operand with
    | error x =>
      rw [hv] at ho
      exact .unaryFailure ho
    | ok v =>
      rw [hv] at ho
      change Derives ctx _ (liftExcept (unary op v))
      rw [liftExcept_eq]
      exact .unary ho
  | binary op left right =>
    by_cases hand : op = .and
    · subst hand
      exact derives_and hev left right h
    · by_cases hor : op = .or
      · subst hor
        exact derives_or hev left right h
      · exact derives_strict hev ⟨hand, hor⟩ left right h
  | call name args => exact derives_call hev name args h
  | list items =>
    simp only [level] at h ⊢
    have hlist := Derives.list (derivesAll_mapM hev items (Settled.of_bind h))
    cases hvs : items.mapM ev <;> rw [hvs] at hlist <;> exact hlist
  | record fields =>
    simp only [level] at h ⊢
    rw [mapM_fields] at h ⊢
    have hrecord := Derives.record (derivesAll_mapM hev (fields.map Prod.snd) (Settled.of_bind (Settled.of_bind h)))
    cases hvs : (fields.map Prod.snd).mapM ev <;> rw [hvs] at hrecord <;> exact hrecord

end Operators

theorem derives_denote {n : Nat} {e : Expression} (h : Settled (ctx.denote n e)) :
    Derives ctx e (ctx.denote n e) := by
  -- A level derives its answer from those of the level below, whatever the formula is.
  induction n generalizing e with
  | zero => exact absurd h (not_settled_denote_zero e)
  | succ n ih => exact derives_level (fun _ => ih) e h

/-- The meaning of a formula is derivable if it is settled. -/
theorem derives_meaning {e : Expression} (h : Settled (ctx.meaning e)) :
    Derives ctx e (ctx.meaning e) := by
  obtain ⟨n, hn⟩ := exists_denote_eq h
  rw [← hn] at h ⊢
  exact derives_denote h

theorem derivesOwn_ownMeaning {name : String} (h : Settled (ctx.ownMeaning name)) :
    DerivesOwn ctx name (ctx.ownMeaning name) :=
  derivesOwn_ownValue (fun _ => derives_meaning) name h

/-! ### Derivable answers are meanings -/

/-- Reads other than of pending properties are settled. -/
def settling : Simulation (Except EvalError) (Except EvalError) where
  rel x _ := Settled x
  gives _ _ := True
  pure _ := trivial
  throw _ h := h
  bind hx hf := hx.bind fun a => hf a trivial

theorem storedProperty_settled (ctx : EvaluationContext) (name : String) :
    Settled (storedProperty ctx name) :=
  settling.storedProperty name

theorem entityRef_settled (ctx : EvaluationContext) (id : String) : Settled (entityRef ctx id) :=
  settling.entityRef id

theorem relationship_settled (ctx : EvaluationContext) (id name : String) :
    Settled (relationship ctx id name) :=
  settling.relationship id name

theorem missing_settled (ctx : EvaluationContext) {e : EvalError} (he : ¬ e.Incidental) :
    Settled (Evaluation.missing ctx e) :=
  settling.missing (.refl ctx) he

/-- A settled answer that a computation gives. -/
def Meant {α : Type} (x r : Except EvalError α) : Prop := Settled r ∧ x = r

theorem Meant.ok {α : Type} (a : α) : Meant (.ok a) (.ok a) := ⟨trivial, rfl⟩

theorem Meant.settled {α : Type} {x : Except EvalError α} (h : Settled x) : Meant x x := ⟨h, rfl⟩

theorem Meant.bind {α β : Type} {x : Except EvalError α} {a : α} {f : α → Except EvalError β}
    {r : Except EvalError β} (hx : Meant x (.ok a)) (hf : Meant (f a) r) : Meant (x >>= f) r := by
  rw [hx.2]
  exact hf

theorem Meant.failure {α β : Type} {x : Except EvalError α} {e : EvalError}
    {f : α → Except EvalError β} (hx : Meant x (.error e)) : Meant (x >>= f) (.error e) := by
  rw [hx.2]
  exact ⟨hx.1, rfl⟩

theorem Meant.map {α β : Type} {x r : Except EvalError α} (hx : Meant x r) (f : α → β) :
    Meant (x >>= fun a => .ok (f a)) (r.map f) := by
  obtain ⟨hr, rfl⟩ := hx
  refine ⟨hr.map f, ?_⟩
  cases x with
  | ok a => rfl
  | error e => rfl

theorem Meant.lift {α : Type} {x : Except EvalError α} (h : Settled x) : Meant (liftExcept x) x :=
  ⟨h, liftExcept_eq x⟩

theorem Meant.met {α : Type} {b : Bool} {x y r : Except EvalError α} (met : b = true)
    (h : Meant x r) : Meant (if b = true then x else y) r := by
  rw [if_pos met]
  exact h

theorem Meant.unmet {α : Type} {b : Bool} {x y r : Except EvalError α} (unmet : b = false)
    (h : Meant y r) : Meant (if b = true then x else y) r := by
  rw [if_neg (by rw [unmet]; exact Bool.false_ne_true)]
  exact h

theorem Meant.meaning {e : Expression} {r : EvalResult}
    (h : Meant (level ctx.meaning (contextReads ctx.ownMeaning ctx) ctx e) r) :
    Meant (ctx.meaning e) r := by
  obtain ⟨hr, hl⟩ := h
  refine ⟨hr, ?_⟩
  rw [meaning_of_settled_level (hl ▸ hr), hl]

mutual

theorem Derives.meaning {e : Expression} {r : EvalResult} : Derives ctx e r → Meant (ctx.meaning e) r
  | .literal value => Meant.meaning (.ok _)
  | .selfProperty own => Meant.meaning own.ownMeaning
  | .selfEntity => Meant.meaning (.ok _)
  | .entityRef id => Meant.meaning (.settled (entityRef_settled ctx id))
  | .member value member => Meant.meaning (.bind value.meaning member.memberOf)
  | .memberOfAbsent absent => Meant.meaning (.bind absent.meaning (.ok none))
  | .memberOfFailure fails => Meant.meaning fails.meaning.failure
  | .unary value => Meant.meaning (.bind value.meaning (.lift (unary_settled _ _)))
  | .unaryFailure fails => Meant.meaning fails.meaning.failure
  | .leftFailure fails => Meant.meaning fails.meaning.failure
  | .andRight value met other => Meant.meaning (.bind value.meaning (.met met other.meaning))
  | .andLeft value unmet => Meant.meaning (.bind value.meaning (.unmet unmet (.ok _)))
  | .orLeft value met => Meant.meaning (.bind value.meaning (.met met (.ok _)))
  | .orRight value unmet other => Meant.meaning (.bind value.meaning (.unmet unmet other.meaning))
  | .strict needsBoth value other => by
    refine Meant.meaning ?_
    rw [level, binary_strict _ needsBoth]
    exact .bind value.meaning (.bind other.meaning (.lift (strictBinary_settled _ _ _)))
  | .rightFailure needsBoth value fails => by
    refine Meant.meaning ?_
    rw [level, binary_strict _ needsBoth]
    exact .bind value.meaning fails.meaning.failure
  | .unknownFunction unknown => by
    refine Meant.meaning ?_
    rw [level, Evaluation.call, unknown]
    exact .settled id
  | .choiceArity choice wrong => by
    refine Meant.meaning ?_
    rw [level, call_choice _ choice, conditional_arity _ wrong]
    exact .settled id
  | .choiceFailure choice fails => by
    refine Meant.meaning ?_
    rw [level, call_choice _ choice]
    exact fails.meaning.failure
  | .choiceYes choice value met branch => by
    refine Meant.meaning ?_
    rw [level, call_choice _ choice]
    refine .bind value.meaning (.met met ?_)
    rw [bind_choose fun v => by rw [invoke_choose, if_pos met]]
    exact branch.meaning
  | .choiceNo choice value unmet branch => by
    refine Meant.meaning ?_
    rw [level, call_choice _ choice]
    refine .bind value.meaning (.unmet unmet ?_)
    rw [bind_choose fun v => by rw [invoke_choose, if_neg (Bool.not_eq_true _ ▸ unmet)]]
    exact branch.meaning
  | .call known needsAll values => by
    refine Meant.meaning ?_
    rw [level, call_strict _ known needsAll]
    exact .bind values.mapM (.lift (Function.invoke_settled _ _))
  | .callFailure known needsAll fails => by
    refine Meant.meaning ?_
    rw [level, call_strict _ known needsAll]
    exact fails.mapM.failure
  | .list values => Meant.meaning (values.mapM.map _)
  | .record values => by
    refine Meant.meaning ?_
    rw [level, mapM_fields, bind_assoc]
    exact values.mapM.map _

theorem DerivesAll.mapM {es : List Expression} {r : Except EvalError (List (Option Value))} :
    DerivesAll ctx es r → Meant (es.mapM ctx.meaning) r
  | .nil => .ok []
  | .cons value others => by
    rw [List.mapM_cons]
    exact .bind value.meaning (others.mapM.map _)
  | .failure fails => by
    rw [List.mapM_cons]
    exact fails.meaning.failure

theorem DerivesOwn.ownMeaning {name : String} {r : EvalResult} :
    DerivesOwn ctx name r → Meant (ctx.ownMeaning name) r
  | .pending formula value => by
    rw [EvaluationContext.ownMeaning_pending formula]
    exact value.meaning
  | .stored noFormula => by
    rw [EvaluationContext.ownMeaning_stored noFormula]
    exact .settled (storedProperty_settled ctx _)

theorem DerivesMember.memberOf {name : String} {v : Value} {r : EvalResult} :
    DerivesMember ctx name v r →
    Meant (memberOf (entityMember ctx.ownMeaning ctx) ctx name v) r
  | .own self has value => by
    rw [Evaluation.memberOf, entityMember, if_pos self, if_pos has]
    exact value.ownMeaning
  | .ownRelationship self lacks => by
    rw [Evaluation.memberOf, entityMember, if_pos self, if_neg (Bool.not_eq_true _ ▸ lacks)]
    exact .settled (relationship_settled ctx _ _)
  | .property other has => by
    rw [Evaluation.memberOf, entityMember, if_neg other, has]
    exact .ok _
  | .relationship other lacks => by
    rw [Evaluation.memberOf, entityMember, if_neg other, lacks]
    exact .settled (relationship_settled ctx _ _)
  | .field has => by
    rw [Evaluation.memberOf, has]
    exact .ok _
  | .missingField lacks => by
    rw [Evaluation.memberOf, lacks]
    exact .settled (missing_settled ctx id)
  | .items members => members.membersOf.map _
  | .noMembers (v := v) scalar => by
    cases v with
    | reference id type => exact absurd rfl scalar.1
    | record fields => exact absurd rfl scalar.2.1
    | list type items => exact absurd rfl scalar.2.2
    | _ => exact .settled (missing_settled ctx id)

theorem DerivesMembers.membersOf {name : String} {vs : List Value}
    {r : Except EvalError (List Value)} : DerivesMembers ctx name vs r →
    Meant (membersOf (entityMember ctx.ownMeaning ctx) ctx name vs) r
  | .nil => .ok []
  | .cons member others => .bind member.memberOf (others.membersOf.map _)
  | .failure fails => fails.memberOf.failure

end

end EvaluationContext

end EntityFormulas
