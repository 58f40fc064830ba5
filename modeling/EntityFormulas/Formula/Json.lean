/-
  EntityFormulas/Formula/Json.lean
  ================================
  **Formulas and templates as JSON.**

  A formula is an object with its kind as tag; the fields of a record literal
  are an array of pairs, in the order of the source.
-/
import EntityFormulas.Formula.Template
import EntityFormulas.Json.Decoder

namespace EntityFormulas

namespace UnaryOp

def name : UnaryOp → String
  | .neg => "neg"
  | .not => "not"

def ofName? (s : String) : Option UnaryOp := [neg, not].find? fun op => op.name = s

def ofJson? (place : Json.Place) (j : Json) : Option UnaryOp := (j.asName? place).bind ofName?

end UnaryOp

namespace BinaryOp

def name : BinaryOp → String
  | .add => "add"
  | .sub => "sub"
  | .mul => "mul"
  | .div => "div"
  | .eq => "eq"
  | .neq => "neq"
  | .lt => "lt"
  | .lte => "lte"
  | .gt => "gt"
  | .gte => "gte"
  | .and => "and"
  | .or => "or"

def ofName? (s : String) : Option BinaryOp :=
  [add, sub, mul, div, eq, neq, lt, lte, gt, gte, and, or].find? fun op => op.name = s

def ofJson? (place : Json.Place) (j : Json) : Option BinaryOp := (j.asName? place).bind ofName?

end BinaryOp

namespace Literal

def toJson : Literal → Json
  | .number x => .object [("type", .text "number"), ("value", .real x)]
  | .text s => .object [("type", .text "text"), ("value", .text s)]
  | .boolean b => .object [("type", .text "boolean"), ("value", .bool b)]
  | .null => .object [("type", .text "null")]

/-- The types of literals, in the order of their declaration. -/
def types : List String := ["number", "text", "boolean", "null"]

/-- The type and the value of a literal.  A literal may also be written as a pair, and the type in
    it as a position. -/
def typeAndValue? : Json → Option (String × Option Json)
  | .object members => do
    let type ← ← Json.once? "type" members
    let value ← Json.once? "value" members
    some (← type.asName? .tagged, value)
  | .array [type, value] => (Json.tagName? types .tagged type).map (·, some value)
  | _ => none

/-- Reads a literal, which is always part of a formula. -/
def ofJson? (j : Json) : Option Literal := do
  let (type, v) ← typeAndValue? j
  match type with
  | "number" => (Json.required Json.asReal? v).map .number
  | "text" => (Json.required Json.asText? v).map .text
  | "boolean" => (Json.required Json.asBool? v).map .boolean
  | "null" =>
    match v with
    | none | some .null => some .null
    | _ => none
  | _ => none

end Literal

namespace Expression

mutual

def toJson : Expression → Json
  | .literal value => .object [("kind", .text "literal"), ("value", value.toJson)]
  | .selfProperty name => .object [("kind", .text "self_property"), ("name", .text name)]
  | .selfEntity => .object [("kind", .text "self_entity")]
  | .entityRef id => .object [("kind", .text "entity_ref"), ("id", .text id)]
  | .member object name =>
    .object [("kind", .text "member"), ("object", toJson object), ("member", .text name)]
  | .unary op operand =>
    .object [("kind", .text "unary"), ("op", .text op.name), ("operand", toJson operand)]
  | .binary op left right =>
    .object [("kind", .text "binary"), ("op", .text op.name), ("left", toJson left),
      ("right", toJson right)]
  | .call name args =>
    .object [("kind", .text "call"), ("name", .text name), ("args", .array (listToJson args))]
  | .list items => .object [("kind", .text "list"), ("items", .array (listToJson items))]
  | .record fields => .object [("kind", .text "record"), ("fields", .array (fieldsToJson fields))]

def listToJson : List Expression → List Json
  | [] => []
  | e :: rest => toJson e :: listToJson rest

def fieldsToJson : List (String × Expression) → List Json
  | [] => []
  | (name, e) :: rest => .array [.text name, toJson e] :: fieldsToJson rest

end

/-- The kinds of formulas, in the order of their declaration. -/
def kinds : List String :=
  ["literal", "self_property", "self_entity", "entity_ref", "member", "unary", "binary", "call",
    "list", "record"]

/-- Reads a pair of a name and what `item?` reads. -/
def field? (item? : Json → Option Expression) : Json → Option (String × Expression)
  | .array [.text name, j] => (item? j).map (name, ·)
  | _ => none

/-- Reads the data of a formula of the given kind; `item?` reads the formulas inside it. -/
def ofKind? (item? : Json → Option Expression) (kind : String) (data : Json) : Option Expression :=
  match kind with
  | "literal" => do
    let [value] ← data.fields? ["value"] | none
    (Json.required Literal.ofJson? value).map .literal
  | "self_property" => do
    let [name] ← data.fields? ["name"] | none
    (Json.required Json.asText? name).map .selfProperty
  | "self_entity" => if data.isUnit then some .selfEntity else none
  | "entity_ref" => do
    let [id] ← data.fields? ["id"] | none
    (Json.required Json.asText? id).map .entityRef
  | "member" => do
    let [object, name] ← data.fields? ["object", "member"] | none
    some (.member (← Json.required item? object) (← Json.required Json.asText? name))
  | "unary" => do
    let [op, operand] ← data.fields? ["op", "operand"] | none
    some (.unary (← Json.required (UnaryOp.ofJson? .tagged) op) (← Json.required item? operand))
  | "binary" => do
    let [op, left, right] ← data.fields? ["op", "left", "right"] | none
    some (.binary (← Json.required (BinaryOp.ofJson? .tagged) op) (← Json.required item? left)
      (← Json.required item? right))
  | "call" => do
    let [name, args] ← data.fields? ["name", "args"] | none
    some (.call (← Json.required Json.asText? name) (← Json.required (Json.asList? item?) args))
  | "list" => do
    let [items] ← data.fields? ["items"] | none
    (Json.required (Json.asList? item?) items).map .list
  | "record" => do
    let [fields] ← data.fields? ["fields"] | none
    (Json.required (Json.asList? (field? item?)) fields).map .record
  | _ => none

/-- Reads a formula from a tree of at most the given height. -/
def ofJsonWithin? (place : Json.Place) : (height : Nat) → Json → Option Expression
  | 0, _ => none
  | height + 1, j => do
    let (tag, data) ← j.tagged? "kind"
    ofKind? (ofJsonWithin? .tagged height) (← Json.tagName? kinds place tag) data

/-- Reads a formula. -/
def ofJson? (j : Json) : Option Expression := ofJsonWithin? .document j.height j

end Expression

namespace TemplatePart

def toJson : TemplatePart → Json
  | .text content => .object [("kind", .text "text"), ("text", .text content)]
  | .interpolation source expression =>
    .object [("kind", .text "interpolation"), ("source", .text source),
      ("expression", expression.toJson)]

/-- Reads a part. -/
def ofJson? (j : Json) : Option TemplatePart := do
  let (tag, data) ← j.tagged? "kind"
  match ← Json.tagName? ["text", "interpolation"] .document tag with
  | "text" => do
    let [content] ← data.fields? ["text"] | none
    (Json.required Json.asText? content).map .text
  | _ => do
    let [source, expression] ← data.fields? ["source", "expression"] | none
    some (.interpolation (← Json.required Json.asText? source)
      (← Json.required (fun e => Expression.ofJsonWithin? .tagged e.height e) expression))

end TemplatePart

namespace Template

def toJson (t : Template) : Json := .object [("parts", .array (t.parts.map TemplatePart.toJson))]

def ofJson? (j : Json) : Option Template := do
  let [parts] ← j.fields? ["parts"] | none
  (Json.required (Json.asList? TemplatePart.ofJson?) parts).map Template.mk

end Template

end EntityFormulas
