/-
  EntityFormulas/Entity/Value.lean
  ================================
  **The values of properties and formulas.**

  A number is a quantity: it may carry a dimension and a unit.  Absence of a
  value is `none` of an option, not a value.  The fields of a record ascend by
  name; `Value.ofFields` builds such records.
-/
import EntityFormulas.Collection.Dict
import EntityFormulas.Decimal.Shortest

namespace EntityFormulas

/-! ### Types -/

/-- The kinds of values, and the kind that stands for all of them. -/
inductive ValueType where
  | text | number | boolean | dateTime | duration | reference | list | record | any
deriving DecidableEq, Repr

namespace ValueType

def name : ValueType → String
  | .text => "text"
  | .number => "number"
  | .boolean => "boolean"
  | .dateTime => "datetime"
  | .duration => "duration"
  | .reference => "reference"
  | .list => "list"
  | .record => "record"
  | .any => "any"

end ValueType

/-! ### Quantities -/

/-- A number with an optional dimension and unit. -/
structure Quantity where
  value : Float
  dimension : Option String := none
  unit : Option String := none
deriving DecidableEq, Repr

namespace Quantity

/-- Whether both quantities have a unit and the units differ. -/
def conflicts (a b : Quantity) : Bool :=
  match a.unit, b.unit with
  | some u, some v => u != v
  | _, _ => false

/-- The number as text; zero has no sign. -/
def text (q : Quantity) : String := if q.value == 0.0 then "0" else numberText q.value

end Quantity

/-! ### Values -/

/-- A value. -/
inductive Value where
  | text (content : String)
  | number (quantity : Quantity)
  | boolean (b : Bool)
  | dateTime (content : String)
  | duration (content : String)
  | reference (id : String) (type : Option String)
  | list (elementType : ValueType) (items : List Value)
  | record (fields : List (String × Value))
deriving Repr

namespace Value

instance : Inhabited Value := ⟨.boolean false⟩

/-- The type of a value, which is never `any`. -/
def type : Value → ValueType
  | .text _ => .text
  | .number _ => .number
  | .boolean _ => .boolean
  | .dateTime _ => .dateTime
  | .duration _ => .duration
  | .reference .. => .reference
  | .list .. => .list
  | .record _ => .record

/-- The name of the type. -/
def typeName (v : Value) : String := v.type.name

/-- A number without dimension and unit. -/
def plain (x : Float) : Value := .number ⟨x, none, none⟩

/-- A reference to an entity of unknown type. -/
def toEntity (id : String) : Value := .reference id none

/-- A list whose element type is the common type of the items, or `any` without one. -/
def ofItems (items : List Value) : Value :=
  let elementType := match items with
    | [] => .any
    | v :: rest => if rest.all fun w => w.type = v.type then v.type else .any
  .list elementType items

/-- A record; of fields with one name the last counts. -/
def ofFields (fields : List (String × Value)) : Value := .record (Entries.ofList fields)

/-! ### Views -/

def asNumber? : Value → Option Float
  | .number q => some q.value
  | _ => none

def asText? : Value → Option String
  | .text s => some s
  | _ => none

def asReference? : Value → Option String
  | .reference id _ => some id
  | _ => none

def asList? : Value → Option (List Value)
  | .list _ items => some items
  | _ => none

/-- The dimension of a number. -/
def dimension? : Value → Option String
  | .number q => q.dimension
  | _ => none

/-- The unit of a number. -/
def unit? : Value → Option String
  | .number q => q.unit
  | _ => none

/-- The entities that a reference or a list of references leads to. -/
def targets : Value → List String
  | .reference id _ => [id]
  | .list _ items => items.filterMap asReference?
  | _ => []

/-- Whether a condition counts as met: not for `false`, zero, NaN and the empty text. -/
def isTruthy : Value → Bool
  | .boolean b => b
  | .number q => q.value != 0.0 && !q.value.isNaN
  | .text s => s != ""
  | _ => true

/-! ### Text -/

mutual

/-- The value as a reader sees it. -/
def displayText : Value → String
  | .text s => s
  | .number q => q.text
  | .boolean b => if b then "true" else "false"
  | .dateTime s => s
  | .duration s => s
  | .reference id _ => id
  | .list _ items => String.intercalate "," (itemTexts items)
  | .record fields => "\x7b" ++ String.intercalate ", " (fieldTexts fields) ++ "\x7d"

def itemTexts : List Value → List String
  | [] => []
  | v :: rest => displayText v :: itemTexts rest

def fieldTexts : List (String × Value) → List String
  | [] => []
  | (name, v) :: rest => (name ++ ": " ++ displayText v) :: fieldTexts rest

end

end Value

/-- Whether a value, or its absence, counts as a condition that is met. -/
def isTruthy (v : Option Value) : Bool := (v.map Value.isTruthy).getD false

end EntityFormulas
