/-
  EntityFormulas/Evaluation/Evaluator.lean
  ========================================
  **Evaluation.**

  Reading an own property that is pending evaluates its formula; the answer,
  error or not, is kept for later readers in `EvalState.resolved`, and a read
  while the evaluation is still under way is a cycle.

  Evaluation nests no deeper than the context's limit.  `evaluateWithin` recurses
  on what is left of it; the state counts what is used.
-/
import EntityFormulas.Evaluation.Level
import EntityFormulas.Formula.Template

namespace EntityFormulas

/-- What one evaluator remembers from call to call. -/
structure EvalState where
  /-- The answers of pending properties that were read. -/
  resolved : Dict EvalResult := .empty
  /-- The pending properties under evaluation, the outermost first. -/
  inProgress : List String := []
  /-- How deep evaluation is nested. -/
  depth : Nat := 0

/-- A computation of an evaluator.  What it remembers outlives a failure. -/
abbrev Eval := ExceptT EvalError (StateM EvalState)

namespace Eval

/-! ### Nesting -/

/-- Runs a computation one level deeper. -/
def nested {α : Type} (m : Eval α) : Eval α := fun s =>
  let (r, s') := m { s with depth := s.depth + 1 }
  (r, { s' with depth := s'.depth - 1 })

/-- Runs the evaluation of a pending property and remembers its answer. -/
def resolving (name : String) (m : Eval (Option Value)) : Eval (Option Value) := fun s =>
  let (r, s') := m { s with inProgress := s.inProgress ++ [name] }
  (r, { s' with
    inProgress := s'.inProgress.dropLast
    resolved := s'.resolved.insert name r })

/-! ### Own properties -/

/-- The value of an own property, where `evaluate` evaluates the formula of a pending one. -/
def ownProperty (evaluate : Expression → Eval (Option Value)) (ctx : EvaluationContext)
    (name : String) : Eval (Option Value) := do
  let s ← get
  match s.resolved.get? name with
  | some r => liftExcept r
  | none =>
    if name ∈ s.inProgress then
      throw (.circular (s.inProgress.dropWhile (· ≠ name) ++ [name]))
    else
      match ctx.pending.get? name with
      | some e => resolving name (evaluate e)
      | none => Evaluation.storedProperty ctx name

/-! ### Formulas -/

/-- Evaluates a formula with so many levels left. -/
def evaluateWithin (ctx : EvaluationContext) : (left : Nat) → Expression → Eval (Option Value)
  | 0, _ => throw (.depthExceeded ctx.recursionLimit)
  | left + 1, e =>
    let evaluate := evaluateWithin ctx left
    nested (Evaluation.level evaluate (Evaluation.contextReads (ownProperty evaluate ctx) ctx) ctx e)

/-! ### The calls of an evaluator -/

/-- Evaluates a formula with the levels that are left. -/
def expression (ctx : EvaluationContext) (e : Expression) : Eval (Option Value) := do
  evaluateWithin ctx (ctx.recursionLimit - (← get).depth) e

/-- The value of an own property. -/
def property (ctx : EvaluationContext) (name : String) : Eval (Option Value) :=
  ownProperty (expression ctx) ctx name

/-- The text of a part of a template; no value is no text. -/
def renderPart (ctx : EvaluationContext) : TemplatePart → Eval String
  | .text content => return content
  | .interpolation _ e => do
    return ((← expression ctx e).map Value.displayText).getD ""

/-- The text of a template. -/
def render (ctx : EvaluationContext) (t : Template) : Eval String := do
  return String.join (← t.parts.mapM (renderPart ctx))

end Eval

/-- Evaluates a formula with a fresh evaluator. -/
def Expression.evaluate (e : Expression) (ctx : EvaluationContext) : EvalResult :=
  (Eval.expression ctx e {}).1

end EntityFormulas
