/-
  EntityFormulas/Evaluation/Arithmetic.lean
  =========================================
  **Operators on present values.**

  Sums and differences need units that agree and keep the unit there is;
  products and quotients keep a unit only when one operand alone has one.  A
  result that is not finite is an error.  Numbers, texts and times are ordered,
  each among themselves.  Equality is structural; references are equal when
  they lead to the same entity, and numbers with different units never are.
-/
import EntityFormulas.Evaluation.Error

namespace EntityFormulas

/-! ### Arithmetic -/

namespace Quantity

/-- A sum or difference with the given number: it carries what either operand does. -/
def merge (x : Float) (l r : Quantity) : Quantity :=
  ⟨x, l.dimension.or r.dimension, l.unit.or r.unit⟩

/-- A product or quotient with the given number. -/
def combine (x : Float) (l r : Quantity) : Quantity :=
  match l.unit, r.unit with
  | some u, none => ⟨x, l.dimension, some u⟩
  | none, some u => ⟨x, r.dimension, some u⟩
  | _, _ => ⟨x, none, none⟩

/-- The result of an arithmetic operator before it is known to be finite. -/
def raw (op : BinaryOp) (l r : Quantity) : Except EvalError Quantity :=
  match op with
  | .add =>
    if l.conflicts r then .error (.unitMismatch op (l.unit.getD "") (r.unit.getD ""))
    else .ok (merge (l.value + r.value) l r)
  | .sub =>
    if l.conflicts r then .error (.unitMismatch op (l.unit.getD "") (r.unit.getD ""))
    else .ok (merge (l.value - r.value) l r)
  | .mul => .ok (combine (l.value * r.value) l r)
  | .div => if r.value == 0.0 then .error .divisionByZero else .ok (combine (l.value / r.value) l r)
  | _ => .error (.notArithmetic op)

/-- The result of an arithmetic operator. -/
def arithmetic (op : BinaryOp) (l r : Quantity) : Except EvalError Quantity :=
  match raw op l r with
  | .ok q => if isFiniteNumber q.value then .ok q else .error (.notFinite op)
  | .error e => .error e

end Quantity

namespace Value

/-- The result of an arithmetic operator. -/
def arithmetic (op : BinaryOp) (l r : Value) : Except EvalError Value :=
  match l, r with
  | .number a, .number b => (Quantity.arithmetic op a b).map .number
  | _, _ => .error (.noArithmetic op l.type r.type)

/-- The negative of a number. -/
def negate : Value → Except EvalError Value
  | .number q => .ok (.number { q with value := -q.value })
  | v => .error (.noNegation v.type)

/-! ### Order -/

/-- The order of two numbers, if neither is NaN. -/
def numberOrder (x y : Float) : Option Ordering :=
  if x < y then some .lt else if y < x then some .gt else if x == y then some .eq else none

/-- The order of two texts, by code points. -/
def textOrder (s t : String) : Ordering := if s < t then .lt else if t < s then .gt else .eq

/-- The order of two values, nothing where a NaN is compared; `op` is the operator that asks. -/
def order (op : BinaryOp) (l r : Value) : Except EvalError (Option Ordering) :=
  match l, r with
  | .number a, .number b =>
    if a.conflicts b then .error (.unitsWithoutOrder (a.unit.getD "") (b.unit.getD ""))
    else .ok (numberOrder a.value b.value)
  | .text s, .text t => .ok (some (textOrder s t))
  | .dateTime s, .dateTime t => .ok (some (textOrder s t))
  | _, _ => .error (.noOrder op l.type r.type)

/-- Whether an order is the one that an operator asks for. -/
def holds (op : BinaryOp) (o : Ordering) : Except EvalError Bool :=
  match op with
  | .lt => .ok (o = .lt)
  | .lte => .ok (o ≠ .gt)
  | .gt => .ok (o = .gt)
  | .gte => .ok (o ≠ .lt)
  | _ => .error (.notOrdering op)

/-- The answer of an ordering operator; NaN is neither below nor above anything. -/
def compare (op : BinaryOp) (l r : Value) : Except EvalError Bool :=
  match order op l r with
  | .ok (some o) => holds op o
  | .ok none => .ok false
  | .error e => .error e

/-! ### Equality -/

mutual

/-- Whether two present values are equal. -/
def equal : Value → Value → Bool
  | .number a, .number b => a.value == b.value && !a.conflicts b
  | .reference a _, .reference b _ => a == b
  | .list _ xs, .list _ ys => equalItems xs ys
  | .record xs, .record ys => equalFields xs ys
  | .text a, .text b => a == b
  | .boolean a, .boolean b => a == b
  | .dateTime a, .dateTime b => a == b
  | .duration a, .duration b => a == b
  | _, _ => false

def equalItems : List Value → List Value → Bool
  | [], [] => true
  | x :: xs, y :: ys => equal x y && equalItems xs ys
  | _, _ => false

def equalFields : List (String × Value) → List (String × Value) → Bool
  | [], [] => true
  | (a, x) :: xs, (b, y) :: ys => a == b && equal x y && equalFields xs ys
  | _, _ => false

end

/-- Whether two values, either of which may be absent, are equal; absence equals only itself. -/
def equalOptional : Option Value → Option Value → Bool
  | none, none => true
  | some l, some r => equal l r
  | _, _ => false

end Value

end EntityFormulas
