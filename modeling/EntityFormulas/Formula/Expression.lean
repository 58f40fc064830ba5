/-
  EntityFormulas/Formula/Expression.lean
  ======================================
  **Formulas.**

  A formula is a tree of literals, references, operators, calls and collection
  literals.  Nothing in it is resolved: a call may name an unknown function and
  a reference a property that no entity has.

  `height` counts the levels below the root, in edges; reading bounds it.
-/

namespace EntityFormulas

/-- A constant. -/
inductive Literal where
  | number (x : Float)
  | text (s : String)
  | boolean (b : Bool)
  | null
deriving DecidableEq, Repr

/-- Operators with one operand. -/
inductive UnaryOp where
  | neg
  | not
deriving DecidableEq, Repr

/-- Operators with two operands. -/
inductive BinaryOp where
  | add | sub | mul | div
  | eq | neq
  | lt | lte | gt | gte
  | and | or
deriving DecidableEq, Repr

/-- A formula. -/
inductive Expression where
  | literal (value : Literal)
  /-- A property of the entity that the formula belongs to. -/
  | selfProperty (name : String)
  /-- The entity that the formula belongs to. -/
  | selfEntity
  | entityRef (id : String)
  /-- A property, relationship or field of what `object` gives. -/
  | member (object : Expression) (name : String)
  | unary (op : UnaryOp) (operand : Expression)
  | binary (op : BinaryOp) (left right : Expression)
  | call (name : String) (args : List Expression)
  | list (items : List Expression)
  /-- Fields in the order of the source. -/
  | record (fields : List (String × Expression))
deriving Repr

namespace UnaryOp

/-- The sign that formulas write. -/
def symbol : UnaryOp → String
  | .neg => "-"
  | .not => "!"

end UnaryOp

namespace BinaryOp

/-- The sign that formulas write. -/
def symbol : BinaryOp → String
  | .add => "+"
  | .sub => "-"
  | .mul => "*"
  | .div => "/"
  | .eq => "=="
  | .neq => "!="
  | .lt => "<"
  | .lte => "<="
  | .gt => ">"
  | .gte => ">="
  | .and => "&&"
  | .or => "||"

end BinaryOp

namespace Expression

instance : Inhabited Expression := ⟨.selfEntity⟩

/-! ### Height -/

mutual

/-- The longest way from the root to a leaf, in edges. -/
def height : Expression → Nat
  | .literal _ | .selfProperty _ | .selfEntity | .entityRef _ => 0
  | .member object _ => height object + 1
  | .unary _ operand => height operand + 1
  | .binary _ left right => max (height left) (height right) + 1
  | .call _ args => levels args
  | .list items => levels items
  | .record fields => levelsOfFields fields

/-- The levels of the highest of some formulas, counted in nodes. -/
def levels : List Expression → Nat
  | [] => 0
  | e :: rest => max (height e + 1) (levels rest)

def levelsOfFields : List (String × Expression) → Nat
  | [] => 0
  | (_, e) :: rest => max (height e + 1) (levelsOfFields rest)

end

/-! ### Parts -/

mutual

/-- A formula and all formulas inside it, from the outside in and from left to right. -/
def parts : Expression → List Expression
  | e@(.literal _) | e@(.selfProperty _) | e@(.selfEntity) | e@(.entityRef _) => [e]
  | e@(.member object _) => e :: parts object
  | e@(.unary _ operand) => e :: parts operand
  | e@(.binary _ left right) => e :: (parts left ++ parts right)
  | e@(.call _ args) => e :: partsOfList args
  | e@(.list items) => e :: partsOfList items
  | e@(.record fields) => e :: partsOfFields fields

def partsOfList : List Expression → List Expression
  | [] => []
  | e :: rest => parts e ++ partsOfList rest

def partsOfFields : List (String × Expression) → List Expression
  | [] => []
  | (_, e) :: rest => parts e ++ partsOfFields rest

end

end Expression

end EntityFormulas
