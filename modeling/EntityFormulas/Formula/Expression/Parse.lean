/-
  EntityFormulas/Formula/Expression/Parse.lean
  ============================================
  **From tokens to formulas.**

  Operators bind, from the loosest to the tightest, as `levels` lists them, and
  associate to the left; then come the unary operators, member access and the
  primary forms.  Keywords are words that only count as such where an operand
  starts.

  A `Cursor` holds the tokens not yet read and the depth of the tree under
  construction.  Every unary operand, every operator of a chain and every
  member access enters one level (`nest`), and at `maxNesting` levels reading
  fails.  A chain keeps the levels of its operators until it ends, since its
  left operand ends up below all of them.

  The parsers of nested forms take the parser of a whole formula as a
  parameter; `expression` ties the knot, once for each level that may nest.
-/
import EntityFormulas.Formula.Expression
import EntityFormulas.Formula.Token.Scan

namespace EntityFormulas

/-- The deepest tree that is read. -/
def maxNesting : Nat := 256

/-- Where reading stands. -/
structure Cursor where
  tokens : List PlacedToken
  depth : Nat := 0
deriving Repr

/-- A parser: it moves the cursor or fails. -/
abbrev Parse := StateT Cursor (Except ParseError)

namespace Parse

/-! ### The cursor -/

/-- The token at the cursor. -/
def current : Parse PlacedToken := do
  return (← get).tokens.headD ⟨.eof, 0⟩

/-- The token at the cursor without its position. -/
def peek : Parse Token := do
  return (← current).token

/-- Moves past the token at the cursor. -/
def advance : Parse Unit := modify fun s => { s with tokens := s.tokens.drop 1 }

/-- Fails at a position. -/
def failAt {α : Type} (position : Nat) (fault : ParseFault) : Parse α := throw ⟨position, fault⟩

/-- Fails at the cursor. -/
def fail {α : Type} (fault : ParseFault) : Parse α := do
  failAt (← current).position fault

/-- Fails because the token at the cursor is not what was expected. -/
def unexpected {α : Type} (wanted : Expected) : Parse α := do
  let t ← current
  failAt t.position (.unexpectedToken wanted t.token)

/-- Moves past the given token. -/
def expect (token : Token) (wanted : Expected) : Parse Unit := do
  if (← peek) = token then advance else unexpected wanted

/-- Enters one more level of the tree. -/
def nest : Parse Unit := do
  if maxNesting ≤ (← get).depth then fail .nestedTooDeeply
  else modify fun s => { s with depth := s.depth + 1 }

/-- Leaves the level entered last. -/
def leave : Parse Unit := modify fun s => { s with depth := s.depth - 1 }

/-- Runs a parser one level deeper. -/
def nested {α : Type} (p : Parse α) : Parse α := do
  nest
  let a ← p
  leave
  return a

/-- Runs a parser and then leaves all levels that it entered and did not leave. -/
def keepDepth {α : Type} (p : Parse α) : Parse α := do
  let mark := (← get).depth
  let a ← p
  modify fun s => { s with depth := mark }
  return a

/-- The number of tokens not yet read; it bounds how many elements follow. -/
def remaining : Parse Nat := do
  return (← get).tokens.length

/-! ### Chains -/

/-- The operators of one level of precedence. -/
abbrev Level := Token → Option BinaryOp

/-- The levels of precedence, the loosest first. -/
def levels : List Level := [
  fun | .orOr => some .or | _ => none,
  fun | .andAnd => some .and | _ => none,
  fun | .eqEq => some .eq | .neq => some .neq | _ => none,
  fun | .lt => some .lt | .lte => some .lte | .gt => some .gt | .gte => some .gte | _ => none,
  fun | .plus => some .add | .minus => some .sub | _ => none,
  fun | .star => some .mul | .slash => some .div | _ => none]

/-- Reads the operators of a level that follow `left`, with their right operands.  Each enters a
    level of the tree, so there are fewer than `fuel`. -/
def operators (level : Level) (operand : Parse Expression) :
    (fuel : Nat) → (left : Expression) → Parse Expression
  | 0, _ => fail .nestedTooDeeply
  | fuel + 1, left => do
    match level (← peek) with
    | none => return left
    | some op =>
      advance
      nest
      let right ← operand
      operators level operand fuel (.binary op left right)

/-- Reads a chain of operators of one level. -/
def chain (level : Level) (operand : Parse Expression) : Parse Expression :=
  keepDepth do
    let left ← operand
    operators level operand (maxNesting + 1) left

/-- Reads chains of all the given levels around an operand. -/
def chains (operand : Parse Expression) : List Level → Parse Expression
  | [] => operand
  | level :: tighter => chain level (chains operand tighter)

/-! ### Literals of several parts -/

/-- Reads the arguments of a call up to the closing parenthesis, at least one. -/
def arguments (element : Parse Expression) : (fuel : Nat) → Parse (List Expression)
  | 0 => unexpected .endOfArgument
  | fuel + 1 => do
    let e ← element
    match ← peek with
    | .comma =>
      advance
      return e :: (← arguments element fuel)
    | .rightParen =>
      advance
      return [e]
    | _ => unexpected .endOfArgument

/-- Reads the items of a list up to the closing bracket.  A comma may precede the bracket. -/
def items (element : Parse Expression) : (fuel : Nat) → Parse (List Expression)
  | 0 => unexpected .endOfItem
  | fuel + 1 => do
    if (← peek) = .rightBracket then
      advance
      return []
    else
      let e ← element
      match ← peek with
      | .comma =>
        advance
        return e :: (← items element fuel)
      | .rightBracket =>
        advance
        return [e]
      | _ => unexpected .endOfItem

/-- Reads a key of a record that is none of the `seen` ones. -/
def key (seen : List String) : Parse String := do
  let t ← current
  match t.token with
  | .word k | .text k =>
    advance
    if k ∈ seen then failAt t.position (.repeatedKey k) else return k
  | _ => unexpected .recordKey

/-- Reads the fields of a record up to the closing brace.  A comma may precede the brace. -/
def fields (element : Parse Expression) :
    (fuel : Nat) → (seen : List String) → Parse (List (String × Expression))
  | 0, _ => unexpected .endOfField
  | fuel + 1, seen => do
    if (← peek) = .rightBrace then
      advance
      return []
    else
      let k ← key seen
      expect .colon .colon
      let e ← element
      match ← peek with
      | .comma =>
        advance
        return (k, e) :: (← fields element fuel (k :: seen))
      | .rightBrace =>
        advance
        return [(k, e)]
      | _ => unexpected .endOfField

/-! ### Operands -/

/-- Reads the arguments of a call after its opening parenthesis. -/
def callArguments (element : Parse Expression) : Parse (List Expression) := do
  if (← peek) = .rightParen then
    advance
    return []
  else
    arguments element (← remaining)

/-- Reads what a word at the start of an operand begins: a keyword or a call. -/
def wordForm (element : Parse Expression) (name : String) (position : Nat) : Parse Expression := do
  advance
  if name = "true" then return .literal (.boolean true)
  else if name = "false" then return .literal (.boolean false)
  else if name = "null" then return .literal .null
  else if name = "self" then return .selfEntity
  else if (← peek) = .leftParen then
    advance
    return .call name (← callArguments element)
  else failAt position (.bareWord name)

/-- Reads an operand without operators. -/
def primary (element : Parse Expression) : Parse Expression := do
  let t ← current
  match t.token with
  | .number x =>
    advance
    return .literal (.number x)
  | .text s =>
    advance
    return .literal (.text s)
  | .property name =>
    advance
    return .selfProperty name
  | .entity id =>
    advance
    return .entityRef id
  | .atSign =>
    advance
    match ← peek with
    | .text id =>
      if id = "" then unexpected .quotedEntityId
      else
        advance
        return .entityRef id
    | _ => unexpected .quotedEntityId
  | .leftParen =>
    advance
    let e ← element
    expect .rightParen .closingParen
    return e
  | .leftBracket =>
    advance
    return .list (← items element (← remaining))
  | .leftBrace =>
    advance
    return .record (← fields element (← remaining) [])
  | .word name => wordForm element name t.position
  | _ => unexpected .expression

/-- Reads the member accesses that follow `object`.  Each enters a level of the tree, so there are
    fewer than `fuel`. -/
def members : (fuel : Nat) → (object : Expression) → Parse Expression
  | 0, _ => fail .nestedTooDeeply
  | fuel + 1, object => do
    if (← peek) = .dot then
      advance
      nest
      match ← peek with
      | .word name =>
        advance
        members fuel (.member object name)
      | _ => unexpected .identifier
    else return object

/-- Reads an operand and its member accesses. -/
def access (element : Parse Expression) : Parse Expression :=
  keepDepth do
    let object ← primary element
    members (maxNesting + 1) object

/-- Reads an operand with its unary operators, of which there are fewer than `fuel`. -/
def unary (element : Parse Expression) : (fuel : Nat) → Parse Expression
  | 0 => fail .nestedTooDeeply
  | fuel + 1 => nested do
    match ← peek with
    | .bang =>
      advance
      return .unary .not (← unary element fuel)
    | .minus =>
      advance
      return .unary .neg (← unary element fuel)
    | _ => access element

/-! ### Whole formulas -/

/-- Reads a formula inside which formulas nest less than `fuel` deep. -/
def expression : (fuel : Nat) → Parse Expression
  | 0 => fail .nestedTooDeeply
  | fuel + 1 => chains (unary (expression fuel) (maxNesting + 1)) levels

/-- Reads a formula that ends where the input ends.  Each nested formula is at least one level
    below the one around it, so `maxNesting + 1` bounds how deep they nest. -/
def whole : Parse Expression := do
  let e ← expression (maxNesting + 1)
  let t ← current
  if t.token = .eof then return e else failAt t.position (.afterExpression t.token)

end Parse

/-- Reads a formula from its tokens. -/
def Expression.ofTokens (tokens : List PlacedToken) : Except ParseError Expression :=
  (Parse.whole.run { tokens }).map (·.1)

/-- Reads a formula. -/
def Expression.parse (source : String) : Except ParseError Expression := do
  Expression.ofTokens (← Token.tokens source)

end EntityFormulas
