/-
  EntityFormulas/Evaluation/Level.lean
  ====================================
  **One level of evaluation.**

  A formula evaluates to a value, to no value, or to an error.  Absence passes
  through member access and arithmetic; strict contexts make missing references
  errors instead.  Conditional forms look only at the operands they need.

  `level` says what a formula does with the answers of the formulas below it.
  It runs in any monad with evaluation errors and reads what lies outside of
  the formula through `Reads`, so evaluators differ only in how they read.
-/
import EntityFormulas.Evaluation.Arithmetic
import EntityFormulas.Evaluation.Context
import EntityFormulas.Evaluation.Function

namespace EntityFormulas

/-- What an evaluation ends with. -/
abbrev EvalResult := Except EvalError (Option Value)

/-- How an evaluation reads what lies outside of its formula. -/
structure Reads (m : Type → Type) where
  /-- A property of the entity that the formula belongs to. -/
  own : (name : String) → m (Option Value)
  /-- A named entity. -/
  entity : (id : String) → m (Option Value)
  /-- A property or relationship of an entity. -/
  member : (id name : String) → m (Option Value)

namespace Evaluation

variable {m : Type → Type} [Monad m] [MonadExceptOf EvalError m]

/-! ### References -/

/-- The answer for a missing reference: an error in strict contexts, no value in others. -/
def missing (ctx : EvaluationContext) (e : EvalError) : m (Option Value) :=
  if ctx.strict then throw e else return none

/-- The value stored for an own property. -/
def storedProperty (ctx : EvaluationContext) (name : String) : m (Option Value) :=
  match ctx.properties.get? name with
  | some p => return p.current
  | none => missing ctx (.missingProperty ctx.entity.id name)

/-- The reference to a named entity, if the context knows the entity or relationships of it. -/
def entityRef (ctx : EvaluationContext) (id : String) : m (Option Value) :=
  match ctx.entity? id with
  | some e => return some (.reference e.id (some e.typePath))
  | none =>
    if ctx.relationships.contains id then return some (.toEntity id)
    else missing ctx (.missingEntity id)

/-- The value that a relationship stands for: one reference, or a list of them. -/
def relationshipValue : List String → Value
  | [id] => .toEntity id
  | ids => .ofItems (ids.map Value.toEntity)

/-- The relationship of an entity under a name. -/
def relationship (ctx : EvaluationContext) (id name : String) : m (Option Value) :=
  match ctx.targets? id name with
  | some ids => return some (relationshipValue ids)
  | none => missing ctx (.missingMember id name)

/-- The property of an entity under a name, and without one the relationship; `own` reads
    properties of the context's own entity. -/
def entityMember (own : String → m (Option Value)) (ctx : EvaluationContext)
    (id name : String) : m (Option Value) :=
  if id = ctx.entity.id then
    if ctx.hasOwnProperty name then own name else relationship ctx id name
  else
    match (ctx.entities.get? id).bind (·.property? name) with
    | some p => return p.current
    | none => relationship ctx id name

mutual

/-- The member of a value: of an entity for a reference, where `member` reads it, of a record its
    field, and of a list the members of its items. -/
def memberOf (member : (id name : String) → m (Option Value)) (ctx : EvaluationContext)
    (name : String) : Value → m (Option Value)
  | .reference id _ => member id name
  | .record fields =>
    match Entries.find? name fields with
    | some v => return some v
    | none => missing ctx (.missingField name)
  | .list _ items => do
    let members ← membersOf member ctx name items
    return some (.ofItems members)
  | v => missing ctx (.noMembers name v.type)

def membersOf (member : (id name : String) → m (Option Value)) (ctx : EvaluationContext)
    (name : String) : List Value → m (List Value)
  | [] => return []
  | v :: rest => do
    let m ← memberOf member ctx name v
    let ms ← membersOf member ctx name rest
    return m.toList ++ ms

end

/-- Reads what the context has; `own` reads own properties. -/
def contextReads (own : String → m (Option Value)) (ctx : EvaluationContext) : Reads m where
  own
  entity := entityRef ctx
  member := entityMember own ctx

/-! ### Operators and calls -/

/-- The value of a constant. -/
def literal : Literal → Option Value
  | .number x => some (.plain x)
  | .text s => some (.text s)
  | .boolean b => some (.boolean b)
  | .null => none

/-- The result of an operator with one operand. -/
def unary (op : UnaryOp) (v : Option Value) : EvalResult :=
  match op, v with
  | .not, v => .ok (some (.boolean (!isTruthy v)))
  | .neg, none => .ok none
  | .neg, some v => v.negate.map some

/-- The result of an operator that always needs both operands. -/
def strictBinary (op : BinaryOp) (l r : Option Value) : EvalResult :=
  match op with
  | .eq => .ok (some (.boolean (Value.equalOptional l r)))
  | .neq => .ok (some (.boolean !Value.equalOptional l r))
  | .lt | .lte | .gt | .gte =>
    match l, r with
    | some l, some r => (Value.compare op l r).map fun b => some (.boolean b)
    | _, _ => .ok none
  | _ =>
    match l, r with
    | some l, some r =>
      if op = .add ∧ (l.type = .text ∨ r.type = .text) then
        .ok (some (.text (l.displayText ++ r.displayText)))
      else (Value.arithmetic op l r).map some
    | _, _ => .ok none

/-- Evaluates an operator with two operands; the logical ones leave out a right operand that does
    not matter. -/
def binary (evaluate : Expression → m (Option Value)) (op : BinaryOp)
    (left right : Expression) : m (Option Value) := do
  let l ← evaluate left
  match op with
  | .and => if isTruthy l then evaluate right else return l
  | .or => if isTruthy l then return l else evaluate right
  | op =>
    let r ← evaluate right
    liftExcept (strictBinary op l r)

/-- Evaluates a call of the conditional function: the branch not taken stays absent. -/
def conditional (evaluate : Expression → m (Option Value)) :
    List Expression → m (Option Value)
  | [condition, yes, no] => do
    let c ← evaluate condition
    if isTruthy c then
      let v ← evaluate yes
      liftExcept (Function.choose.invoke [c, v, none])
    else
      let v ← evaluate no
      liftExcept (Function.choose.invoke [c, none, v])
  | args => throw (.wrongArity Function.choose.name Function.choose.arity args.length)

/-- Evaluates a call. -/
def call (evaluate : Expression → m (Option Value)) (name : String) (args : List Expression) :
    m (Option Value) :=
  match Function.ofName? name with
  | none => throw (.unknownFunction name)
  | some .choose => conditional evaluate args
  | some f => do
    let values ← args.mapM evaluate
    liftExcept (f.invoke values)

/-! ### Formulas -/

/-- Evaluates a formula; `evaluate` evaluates the formulas one level below it. -/
def level (evaluate : Expression → m (Option Value)) (reads : Reads m) (ctx : EvaluationContext) :
    Expression → m (Option Value)
  | .literal value => return literal value
  | .selfProperty name => reads.own name
  | .selfEntity => return some (.reference ctx.entity.id (some ctx.entity.typePath))
  | .entityRef id => reads.entity id
  | .member object name => do
    match ← evaluate object with
    | none => return none
    | some v => memberOf reads.member ctx name v
  | .unary op operand => do
    let v ← evaluate operand
    liftExcept (unary op v)
  | .binary op left right => binary evaluate op left right
  | .call name args => call evaluate name args
  | .list items => do
    let values ← items.mapM evaluate
    return some (.ofItems (values.filterMap id))
  | .record fields => do
    let values ← fields.mapM fun f => do
      let v ← evaluate f.2
      return v.map (f.1, ·)
    return some (.ofFields (values.filterMap id))

end Evaluation

end EntityFormulas
