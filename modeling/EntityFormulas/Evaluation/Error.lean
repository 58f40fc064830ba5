/-
  EntityFormulas/Evaluation/Error.lean
  ====================================
  **Why a formula has no value.**

  `EvalError` gives the cause, `EvalError.kind` its class and
  `EvalError.message` the wording.  The causes that strict evaluation adds are
  those of the kinds `invalidAccess` and `missingReference`.
-/
import EntityFormulas.Entity.Value
import EntityFormulas.Formula.Expression

namespace EntityFormulas

/-! ### Signatures -/

/-- What a parameter of a function accepts. -/
inductive ParameterType where
  | number
  | text
  | boolean
  | list
  /-- A text or a list. -/
  | sequence
  | any
deriving DecidableEq, Repr

namespace ParameterType

def name : ParameterType → String
  | .number => "number"
  | .text => "text"
  | .boolean => "boolean"
  | .list => "list"
  | .sequence => "text or list"
  | .any => "any"

/-- Whether a present value fits.  Absent values fit everywhere. -/
def accepts : ParameterType → Value → Bool
  | .number, .number _ => true
  | .text, .text _ => true
  | .boolean, .boolean _ => true
  | .list, .list .. => true
  | .sequence, .text _ => true
  | .sequence, .list .. => true
  | .any, _ => true
  | _, _ => false

end ParameterType

/-- How many arguments a function takes; without `max` any number from `min` on. -/
structure Arity where
  min : Nat
  max : Option Nat
deriving DecidableEq, Repr

namespace Arity

/-- Whether a function may be called with so many arguments. -/
def admits (a : Arity) (count : Nat) : Bool :=
  a.min ≤ count && match a.max with
    | some max => count ≤ max
    | none => true

/-- The expected number of arguments in words. -/
def describe (a : Arity) : String :=
  let bounds := match a.max with
    | some max => if max = a.min then toString max else toString a.min ++ " to " ++ toString max
    | none => "at least " ++ toString a.min
  bounds ++ " argument" ++ if a.max.getD a.min = 1 then "" else "s"

end Arity

/-! ### Errors -/

/-- The classes of failures. -/
inductive ErrorKind where
  | unknownFunction
  | invalidArguments
  | unsupportedOperator
  /-- A member of a value that has none, in strict evaluation. -/
  | invalidAccess
  /-- A property, entity or field that does not exist, in strict evaluation. -/
  | missingReference
  | division
  | nonFinite
  | depthExceeded
  | circular
deriving DecidableEq, Repr

/-- Why a formula has no value. -/
inductive EvalError where
  | unknownFunction (name : String)
  | wrongArity (function : String) (expected : Arity) (count : Nat)
  /-- The argument at `index`, counted from 1, does not fit. -/
  | wrongArgument (function : String) (index : Nat) (expected : ParameterType) (got : ValueType)
  | noArithmetic (op : BinaryOp) (left right : ValueType)
  | unitMismatch (op : BinaryOp) (left right : String)
  | notArithmetic (op : BinaryOp)
  | noOrder (op : BinaryOp) (left right : ValueType)
  | unitsWithoutOrder (left right : String)
  | notOrdering (op : BinaryOp)
  | noNegation (type : ValueType)
  | noMembers (name : String) (type : ValueType)
  | missingProperty (entity name : String)
  | missingEntity (id : String)
  | missingField (name : String)
  | missingMember (entity name : String)
  | divisionByZero
  | notFinite (op : BinaryOp)
  | depthExceeded (limit : Nat)
  /-- A cycle of own properties, with the same name at both ends. -/
  | circular (path : List String)
deriving DecidableEq, Repr

namespace ErrorKind

def name : ErrorKind → String
  | .unknownFunction => "unknown_function"
  | .invalidArguments => "invalid_arguments"
  | .unsupportedOperator => "unsupported_operator"
  | .invalidAccess => "invalid_access"
  | .missingReference => "missing_reference"
  | .division => "division"
  | .nonFinite => "non_finite"
  | .depthExceeded => "depth_exceeded"
  | .circular => "circular"

end ErrorKind

namespace EvalError

def kind : EvalError → ErrorKind
  | .unknownFunction _ => .unknownFunction
  | .wrongArity .. | .wrongArgument .. => .invalidArguments
  | .noArithmetic .. | .unitMismatch .. | .notArithmetic _ | .noOrder .. | .unitsWithoutOrder ..
  | .notOrdering _ | .noNegation _ => .unsupportedOperator
  | .noMembers .. => .invalidAccess
  | .missingProperty .. | .missingEntity _ | .missingField _ | .missingMember .. =>
    .missingReference
  | .divisionByZero => .division
  | .notFinite _ => .nonFinite
  | .depthExceeded _ => .depthExceeded
  | .circular _ => .circular

def message : EvalError → String
  | .unknownFunction name => "unknown function " ++ name
  | .wrongArity function expected count =>
    function ++ " expects " ++ expected.describe ++ ", got " ++ toString count
  | .wrongArgument function index expected got =>
    function ++ ": argument " ++ toString index ++ " expects " ++ expected.name ++ ", got " ++
      got.name
  | .noArithmetic op left right =>
    "operator " ++ op.symbol ++ " is not defined for " ++ left.name ++ " and " ++ right.name
  | .unitMismatch op left right => "cannot apply " ++ op.symbol ++ " to " ++ left ++ " and " ++ right
  | .notArithmetic op => op.symbol ++ " is not an arithmetic operator"
  | .noOrder op left right => "cannot compare " ++ left.name ++ " " ++ op.symbol ++ " " ++ right.name
  | .unitsWithoutOrder left right => "cannot compare " ++ left ++ " with " ++ right
  | .notOrdering op => op.symbol ++ " is not an ordering operator"
  | .noNegation type => "cannot negate " ++ type.name
  | .noMembers name type => "cannot access ." ++ name ++ " on " ++ type.name
  | .missingProperty entity name => "entity " ++ entity ++ " has no property #" ++ name
  | .missingEntity id => "unknown entity " ++ id
  | .missingField name => "record has no field '" ++ name ++ "'"
  | .missingMember entity name =>
    "entity " ++ entity ++ " has no property or relationship '" ++ name ++ "'"
  | .divisionByZero => "division by zero"
  | .notFinite op => "result of " ++ op.symbol ++ " is not a finite number"
  | .depthExceeded limit => "evaluation exceeded recursion limit of " ++ toString limit
  | .circular path => "circular reference: " ++ String.intercalate " -> " path

/-- The cycle, if the failure is one. -/
def cycle : EvalError → List String
  | .circular path => path
  | _ => []

/-- Whether the property itself lies on the cycle, and does not only depend on one. -/
def isCycleMember (e : EvalError) (property : String) : Bool := property ∈ e.cycle

end EvalError

end EntityFormulas
