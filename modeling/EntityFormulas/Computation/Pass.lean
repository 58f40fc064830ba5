/-
  EntityFormulas/Computation/Pass.lean
  ====================================
  **Recomputing the derived properties of one entity.**

  A pass selects computed and inherited properties by their status, fetches one
  context for all the formulas, resolves the inherited values and then evaluates
  the formulas in the order of their names with one evaluator.  What happens to
  a property is its verdict; `conclude` moves the property accordingly and
  reports it.

  A pass as a whole never fails.  When the context cannot be fetched, every
  selected property fails with that message.
-/
import EntityFormulas.Computation.Gathering
import EntityFormulas.Evaluation.Evaluator
import EntityFormulas.Formula.Expression.Parse

namespace EntityFormulas

/-! ### Selection -/

/-- Which derived properties a pass recomputes. -/
inductive Scope where
  | all
  /-- Those that are stale or have never been computed. -/
  | stale
deriving DecidableEq, Repr

/-- Whether a pass recomputes properties of that status; never those on a cycle. -/
def Scope.selects (scope : Scope) (s : Status) : Bool :=
  s != .circular && (scope = .all || s.needsRecompute)

/-! ### Outcomes -/

/-- What happened to a property. -/
structure PropertyResult where
  name : String
  status : Status
  value : Option Value
  error : Option String
  /-- When it was evaluated; only successful evaluations have it. -/
  evaluatedAt : Option String

/-- The end of a pass: all properties of the entity, and the results in the order of their names. -/
structure PassOutcome where
  properties : Dict Property
  results : List PropertyResult

/-- Whether every selected property is valid now. -/
def PassOutcome.allSucceeded (o : PassOutcome) : Bool := o.results.all fun r => r.status = .valid

/-! ### Verdicts -/

/-- What the evaluation of a property found. -/
inductive Verdict where
  | valid (value : Option Value) (time : String)
  | failed (message : String)
  /-- The property lies on a cycle. -/
  | circular (message : String)

namespace Verdict

/-- The verdict on a property whose formula gave this answer. -/
def ofAnswer (now name : String) : EvalResult → Verdict
  | .ok v => .valid v now
  | .error e => if e.isCycleMember name then .circular e.message else .failed e.message

/-- The verdict on an inherited property, whose override takes precedence. -/
def ofSource (now : String) (ctx : EvaluationContext) (p : InheritedProperty) : Verdict :=
  match p.override with
  | some v => .valid (some v) now
  | none =>
    match ctx.entity? p.source with
    | none => .failed ("source entity " ++ p.source ++ " not found")
    | some e =>
      match e.property? p.sourceProperty with
      | some q => .valid q.current now
      | none =>
        .failed ("source entity " ++ p.source ++ " has no property " ++ p.sourceProperty)

def error? : Verdict → Option String
  | .valid .. => none
  | .failed m | .circular m => some m

def time? : Verdict → Option String
  | .valid _ t => some t
  | _ => none

/-- The property after the verdict, if its status may move that way. -/
def moved (v : Verdict) : Property → Except InvalidTransition Property
  | .computed p =>
    match v with
    | .valid value time => (p.markValid value time).map .computed
    | .failed m => (p.markError m).map .computed
    | .circular m => (p.markCircular m).map .computed
  | .inherited p =>
    match v with
    | .valid value _ => (p.markResolved value).map .inherited
    | .failed m | .circular m => (p.markError m).map .inherited
  | p => .ok p

/-- The property after the verdict; one whose status may not move that way stays as it is. -/
def applied (v : Verdict) (p : Property) : Property :=
  match v.moved p with
  | .ok p => p
  | .error _ => p

/-- The result that reports the verdict on a property, which is given as it is afterwards. -/
def result (name : String) (v : Verdict) (after : Option Property) : PropertyResult where
  name
  status := (after.bind Property.status?).getD .error
  value := after.bind Property.current
  error := v.error?
  evaluatedAt := if (after.bind Property.status?).isSome then v.time? else none

end Verdict

/-! ### Passes -/

namespace PassOutcome

/-- Applies a verdict to the property of that name and reports it. -/
def conclude (o : PassOutcome) (name : String) (v : Verdict) : PassOutcome :=
  let properties := o.properties.modify name v.applied
  ⟨properties, o.results ++ [v.result name (properties.get? name)]⟩

/-- Puts the results into the order of their names. -/
def inOrder (o : PassOutcome) : PassOutcome :=
  { o with results := o.results.mergeSort fun a b => a.name ≤ b.name }

end PassOutcome

/-- The properties that a pass over an entity recomputes. -/
structure Selection where
  computed : List ComputedProperty
  inherited : List InheritedProperty

namespace Selection

/-- What a pass selects. -/
def ofEntity (scope : Scope) (e : Entity) : Selection where
  computed := e.computed.filter fun p => scope.selects p.status
  inherited := e.inherited.filter fun p => scope.selects p.status

def isEmpty (s : Selection) : Bool := s.computed.isEmpty && s.inherited.isEmpty

/-- The formulas of the computed properties, or why they are none, by name. -/
def formulas (s : Selection) : Dict (Except ParseError Expression) :=
  Dict.ofList (s.computed.map fun p => (p.name, Expression.parse p.expression))

/-- The formulas that could be read, by name. -/
def pending (s : Selection) : Dict Expression :=
  Dict.ofList (s.formulas.entries.filterMap fun (name, f) => f.toOption.map (name, ·))

/-- The outcome when the context could not be fetched. -/
def failed (s : Selection) (message : String) (o : PassOutcome) : PassOutcome :=
  let names := s.computed.map ComputedProperty.name ++ s.inherited.map InheritedProperty.name
  names.foldl (fun o name => o.conclude name (.failed message)) o

/-- Resolves the inherited properties; formulas see the resolved ones. -/
def resolve (now : String) : List InheritedProperty → EvaluationContext → PassOutcome →
    EvaluationContext × PassOutcome
  | [], ctx, o => (ctx, o)
  | p :: rest, ctx, o =>
    let o := o.conclude p.name (.ofSource now ctx p)
    let properties := match o.properties.get? p.name with
      | some resolved => ctx.properties.insert p.name resolved
      | none => ctx.properties
    resolve now rest { ctx with properties } o

/-- Evaluates the formulas one after another with one evaluator. -/
def evaluate (now : String) (ctx : EvaluationContext) :
    List (String × Except ParseError Expression) → EvalState → PassOutcome → PassOutcome
  | [], _, o => o
  | (name, .error e) :: rest, s, o => evaluate now ctx rest s (o.conclude name (.failed e.report))
  | (name, .ok _) :: rest, s, o =>
    let (answer, s) := Eval.property ctx name s
    evaluate now ctx rest s (o.conclude name (.ofAnswer now name answer))

/-- The outcome once the context is there. -/
def compute (now : String) (s : Selection) (ctx : EvaluationContext) (o : PassOutcome) :
    PassOutcome :=
  let (ctx, o) := resolve now s.inherited { ctx with pending := s.pending } o
  evaluate now ctx s.formulas.entries {} o

end Selection

/-- Recomputes the selected properties of an entity as it is given; the store is only read.  `now`
    is the time on record for successful evaluations. -/
def Entity.recompute (settings : Settings) (now : String) (scope : Scope) (e : Entity) :
    Lookup PassOutcome :=
  let selection := Selection.ofEntity scope e
  let start : PassOutcome := ⟨e.properties, []⟩
  if selection.isEmpty then return start
  else do
    let gathered ← (EvaluationContext.gather settings e (selection.pending.values)).run
    return (match gathered with
      | .ok ctx => selection.compute now ctx start
      | .error err => selection.failed err.message start).inOrder

end EntityFormulas
