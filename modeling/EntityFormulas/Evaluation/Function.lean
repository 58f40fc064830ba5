/-
  EntityFormulas/Evaluation/Function.lean
  =======================================
  **The functions that formulas call.**

  A fixed set of pure functions.  `invoke` checks the number and the types of
  the arguments and then applies the function; `apply` gives the meaning on
  arguments that passed.  An absent argument passes every type, and each
  function decides what absence means.

  The functions on lists of numbers skip what is not a number and give their
  result the dimension and unit of the first number.
-/
import EntityFormulas.Decimal.Rounding
import EntityFormulas.Evaluation.Error
import EntityFormulas.Text.Case

namespace EntityFormulas

/-- A function that formulas call. -/
inductive Function where
  | sum | avg | min | max | count
  | round | sqrt | abs | floor | ceil | power
  | concat | upper | lower | trim | len | contains
  /-- The second argument if the first is met, the third otherwise. -/
  | choose
  /-- The first argument that is present. -/
  | coalesce
deriving DecidableEq, Repr

namespace Function

def all : List Function :=
  [sum, avg, min, max, count, round, sqrt, abs, floor, ceil, power, concat, upper, lower, trim, len,
    contains, choose, coalesce]

def name : Function → String
  | .sum => "SUM"
  | .avg => "AVG"
  | .min => "MIN"
  | .max => "MAX"
  | .count => "COUNT"
  | .round => "ROUND"
  | .sqrt => "SQRT"
  | .abs => "ABS"
  | .floor => "FLOOR"
  | .ceil => "CEIL"
  | .power => "POWER"
  | .concat => "CONCAT"
  | .upper => "UPPER"
  | .lower => "LOWER"
  | .trim => "TRIM"
  | .len => "LEN"
  | .contains => "CONTAINS"
  | .choose => "IF"
  | .coalesce => "COALESCE"

/-- The function of that name; the case of Latin letters does not matter. -/
def ofName? (s : String) : Option Function :=
  let capital := String.ofList (s.toList.map Char.toUpper)
  all.find? fun f => f.name = capital

def arity : Function → Arity
  | .round => ⟨1, some 2⟩
  | .power | .contains => ⟨2, some 2⟩
  | .concat | .coalesce => ⟨1, none⟩
  | .choose => ⟨3, some 3⟩
  | _ => ⟨1, some 1⟩

/-- The type that an argument must have; functions take arguments of one type. -/
def parameter : Function → ParameterType
  | .sum | .avg | .min | .max | .count => .list
  | .round | .sqrt | .abs | .floor | .ceil | .power => .number
  | .upper | .lower | .trim | .contains => .text
  | .len => .sequence
  | .concat | .choose | .coalesce => .any

/-- The type of the results. -/
def returns : Function → ParameterType
  | .concat | .upper | .lower | .trim => .text
  | .contains => .boolean
  | .choose | .coalesce => .any
  | _ => .number

/-! ### Checks -/

/-- The first argument, counted from `index`, that does not fit the type. -/
def misfit? (expected : ParameterType) : (index : Nat) → List (Option Value) →
    Option (Nat × ValueType)
  | _, [] => none
  | index, none :: rest => misfit? expected (index + 1) rest
  | index, some v :: rest =>
    if expected.accepts v then misfit? expected (index + 1) rest else some (index, v.type)

/-- Fails unless the function takes so many arguments. -/
def checkArity (f : Function) (count : Nat) : Except EvalError Unit :=
  if f.arity.admits count then .ok () else .error (.wrongArity f.name f.arity count)

/-- Fails unless the arguments have the types that the function takes. -/
def checkTypes (f : Function) (args : List (Option Value)) : Except EvalError Unit :=
  match misfit? f.parameter 1 args with
  | some (index, got) => .error (.wrongArgument f.name index f.parameter got)
  | none => .ok ()

/-! ### Meaning -/

/-- The numbers of a list argument. -/
def quantities (arg : Option Value) : List Quantity :=
  ((arg.bind Value.asList?).getD []).filterMap fun
    | .number q => some q
    | _ => none

/-- The sum of numbers, from the left; the empty sum is negative zero. -/
def total (qs : List Quantity) : Float := qs.foldl (fun t q => t + q.value) (-0.0)

/-- The lesser of two numbers, the first when they are equal; NaN yields to a number. -/
def lesser (x y : Float) : Float := if x.isNaN then y else if y < x then y else x

/-- The greater of two numbers, the first when they are equal; NaN yields to a number. -/
def greater (x y : Float) : Float := if x.isNaN then y else if x < y then y else x

/-- The best of the numbers of a list argument, if there are any. -/
def extreme (pick : Float → Float → Float) (arg : Option Value) : Option Value :=
  match quantities arg with
  | [] => none
  | q :: qs => some (.number { q with value := qs.foldl (fun t p => pick t p.value) q.value })

/-- Changes the number of a quantity. -/
def mapNumber (f : Float → Float) : Option Value → Option Value
  | some (.number q) => some (.number { q with value := f q.value })
  | _ => none

/-- Changes a text. -/
def mapText (f : String → String) : Option Value → Option Value
  | some (.text s) => some (.text (f s))
  | _ => none

/-- A bound for digit counts; tens to the power of it are infinite. -/
def maxPlaces : Nat := 2147483647

/-- Rounds a quantity; nothing when the result is not finite. -/
def roundQuantity (q : Quantity) (places : Option Value) : Option Value :=
  let digits := wholePart maxPlaces ((places.bind Value.asNumber?).getD 0.0)
  let x := roundToPlaces q.value digits
  if isFiniteNumber x then some (.number { q with value := x }) else none

/-- A power; nothing when it is not finite. -/
def powerOf (base exponent : Float) : Option Value :=
  let x := base.pow exponent
  if isFiniteNumber x then some (.plain x) else none

/-- The result of a function on arguments of the right number and types. -/
def apply (f : Function) (args : List (Option Value)) : Option Value :=
  let arg (i : Nat) : Option Value := args[i]?.join
  match f with
  | .sum =>
    let qs := quantities (arg 0)
    match qs with
    | [] => some (.plain (total qs))
    | q :: _ => some (.number { q with value := total qs })
  | .avg =>
    let qs := quantities (arg 0)
    match qs with
    | [] => none
    | q :: _ => some (.number { q with value := total qs / Float.ofNat qs.length })
  | .min => extreme lesser (arg 0)
  | .max => extreme greater (arg 0)
  | .count => some (.plain (Float.ofNat (((arg 0).bind Value.asList?).map List.length |>.getD 0)))
  | .round =>
    match arg 0 with
    | some (.number q) => roundQuantity q (arg 1)
    | _ => none
  | .sqrt =>
    match arg 0 with
    | some (.number q) => if 0.0 ≤ q.value then some (.plain q.value.sqrt) else none
    | _ => none
  | .abs => mapNumber Float.abs (arg 0)
  | .floor => mapNumber RoundingMode.down.round (arg 0)
  | .ceil => mapNumber RoundingMode.up.round (arg 0)
  | .power =>
    match arg 0, arg 1 with
    | some (.number b), some (.number e) => powerOf b.value e.value
    | _, _ => none
  | .concat =>
    some (.text (String.join (args.map fun a => (a.map Value.displayText).getD "null")))
  | .upper => mapText Text.upper (arg 0)
  | .lower => mapText Text.lower (arg 0)
  | .trim => mapText Text.trim (arg 0)
  | .len =>
    match arg 0 with
    | some (.text s) => some (.plain (Float.ofNat s.length))
    | some (.list _ items) => some (.plain (Float.ofNat items.length))
    | _ => none
  | .contains =>
    match arg 0, arg 1 with
    | some (.text hay), some (.text needle) =>
      some (.boolean (Text.occursIn needle.toList hay.toList))
    | _, _ => none
  | .choose => if isTruthy (arg 0) then arg 1 else arg 2
  | .coalesce => args.findSome? id

/-- Checks the arguments and applies the function. -/
def invoke (f : Function) (args : List (Option Value)) : Except EvalError (Option Value) := do
  f.checkArity args.length
  f.checkTypes args
  return f.apply args

end Function

end EntityFormulas
