/-
  EntityFormulas/Entity/Property.lean
  ===================================
  **Properties.**

  A property is a literal or measured value, is inherited from another entity,
  or is computed by a formula.  The latter two carry a status, and the marks
  (`markValid`, `markError`, …) change value and status together; a mark whose
  move is not allowed changes nothing.
-/
import EntityFormulas.Entity.Status
import EntityFormulas.Entity.Value

namespace EntityFormulas

/-- A property with a given value. -/
structure LiteralProperty where
  name : String
  value : Value
deriving Repr

/-- A property that takes its value from a property of another entity. -/
structure InheritedProperty where
  name : String
  /-- The entity that the value comes from. -/
  source : String
  /-- The property there, when its name is another one. -/
  sourceName : Option String := none
  /-- A value that takes precedence over the inherited one. -/
  override : Option Value := none
  resolved : Option Value := none
  status : Status := .pending
  error : Option String := none
deriving Repr

/-- A property whose value a formula gives. -/
structure ComputedProperty where
  name : String
  /-- The text of the formula. -/
  expression : String
  /-- The paths that the formula reads. -/
  dependencies : List String := []
  cached : Option Value := none
  /-- When the cached value was computed. -/
  cachedAt : Option String := none
  status : Status := .pending
  error : Option String := none
deriving Repr

/-- A property with a measured value. -/
structure MeasuredProperty where
  name : String
  value : Value
  uncertainty : Option Float := none
  /-- The record of the measurement. -/
  record : Option String := none
  measuredAt : Option String := none
deriving Repr

/-- A property. -/
inductive Property where
  | literal (p : LiteralProperty)
  | inherited (p : InheritedProperty)
  | computed (p : ComputedProperty)
  | measured (p : MeasuredProperty)
deriving Repr

/-! ### Inherited properties -/

namespace InheritedProperty

/-- The name of the property that the value comes from. -/
def sourceProperty (p : InheritedProperty) : String := p.sourceName.getD p.name

/-- Records the value found. -/
def markResolved (value : Option Value) (p : InheritedProperty) :
    Except InvalidTransition InheritedProperty :=
  (p.status.become .valid).map fun s => { p with status := s, resolved := value, error := none }

/-- Records a failure; the value found before stays. -/
def markError (message : String) (p : InheritedProperty) :
    Except InvalidTransition InheritedProperty :=
  (p.status.become .error).map fun s => { p with status := s, error := some message }

end InheritedProperty

/-! ### Computed properties -/

namespace ComputedProperty

/-- Records the value computed and the time. -/
def markValid (value : Option Value) (time : String) (p : ComputedProperty) :
    Except InvalidTransition ComputedProperty :=
  (p.status.become .valid).map fun s =>
    { p with status := s, cached := value, cachedAt := some time, error := none }

/-- Records a failure; the value computed before stays. -/
def markError (message : String) (p : ComputedProperty) :
    Except InvalidTransition ComputedProperty :=
  (p.status.become .error).map fun s => { p with status := s, error := some message }

/-- Records that the property lies on a cycle; the value computed before stays. -/
def markCircular (message : String) (p : ComputedProperty) :
    Except InvalidTransition ComputedProperty :=
  (p.status.become .circular).map fun s => { p with status := s, error := some message }

end ComputedProperty

/-! ### All properties -/

namespace Property

def name : Property → String
  | .literal p => p.name
  | .inherited p => p.name
  | .computed p => p.name
  | .measured p => p.name

/-- The value that readers of the property see. -/
def current : Property → Option Value
  | .literal p => some p.value
  | .inherited p => p.override.or p.resolved
  | .computed p => p.cached
  | .measured p => some p.value

/-- The status, which only derived properties have. -/
def status? : Property → Option Status
  | .inherited p => some p.status
  | .computed p => some p.status
  | _ => none

/-- The failure message of a derived property. -/
def error? : Property → Option String
  | .inherited p => p.error
  | .computed p => p.error
  | _ => none

def asComputed? : Property → Option ComputedProperty
  | .computed p => some p
  | _ => none

def asInherited? : Property → Option InheritedProperty
  | .inherited p => some p
  | _ => none

/-- Whether a staleness mark changes the property. -/
def goesStale (p : Property) : Bool := (p.status?.map Status.goesStale).getD false

/-- Marks a derived property stale. -/
def markStale : Property → Property
  | .inherited p => .inherited { p with status := p.status.marked }
  | .computed p => .computed { p with status := p.status.marked }
  | p => p

end Property

end EntityFormulas
