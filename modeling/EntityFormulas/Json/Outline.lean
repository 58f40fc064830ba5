/-
  EntityFormulas/Json/Outline.lean
  ================================
  **What a reader wants of a JSON tree.**

  A structure has members of its own; other members of the object that writes
  it are passed over.  Of what is passed over only the grammar counts: numbers
  have no range, code units need no partner, and brackets nest as deep as they
  like.
-/
import EntityFormulas.Json.Numeral
import EntityFormulas.Json.Scan

namespace EntityFormulas.Json

/-- What is wanted of a tree. -/
inductive Outline where
  /-- All of it. -/
  | whole
  /-- Of every item or member what the outline says. -/
  | each (inner : Outline)
  /-- The members of these names, or the items at their positions. -/
  | members (known : List (String × Outline))

namespace Outline

/-- A structure whose members are wanted whole. -/
def plain (names : List String) : Outline := .members (names.map (·, .whole))

/-- What is wanted of the member of that name; nothing when it is passed over. -/
def member? (name : String) : Outline → Option Outline
  | .whole => some .whole
  | .each inner => some inner
  | .members known => known.lookup name

/-- What is wanted of the first item.  Items that a structure has no member for are wanted too,
    because an array with too many of them does not write it. -/
def firstItem : Outline → Outline
  | .whole => .whole
  | .each inner => inner
  | .members [] => .whole
  | .members ((_, inner) :: _) => inner

/-- What is wanted of an array after its first item. -/
def laterItems : Outline → Outline
  | .members known => .members known.tail
  | outline => outline

end Outline

/-! ### Passing over -/

/-- Passes over a text after its opening mark. -/
def passText? : List Char → Option (List Char)
  | '"' :: cs => some cs
  | '\\' :: 'u' :: a :: b :: c :: d :: cs =>
    if [a, b, c, d].all fun c => (hexValue? c).isSome then passText? cs else none
  | '\\' :: c :: cs =>
    if c ∈ ['"', '\\', '/', 'b', 'f', 'n', 'r', 't'] then passText? cs else none
  | c :: cs => if c.toNat < 0x20 then none else passText? cs
  | [] => none

/-- Passes over a tree that is no array and no object. -/
def passScalar? : List Char → Option (List Char)
  | 'n' :: 'u' :: 'l' :: 'l' :: cs => some cs
  | 't' :: 'r' :: 'u' :: 'e' :: cs => some cs
  | 'f' :: 'a' :: 'l' :: 's' :: 'e' :: cs => some cs
  | '"' :: cs => passText? cs
  | '-' :: cs => (numeral? true cs).map (·.2)
  | cs => (numeral? false cs).map (·.2)

/-- A bracket that is open. -/
inductive Bracket where
  | array
  | object
deriving DecidableEq, Repr

def Bracket.closing : Bracket → Char
  | .array => ']'
  | .object => '\x7d'

/-- What comes next while a tree is passed over. -/
inductive Ahead where
  | tree
  /-- The name of a member, with the tree after it. -/
  | member
  /-- A comma or a closing bracket, or the end when no bracket is open. -/
  | separator
deriving DecidableEq, Repr

/-- What comes after a comma. -/
def Bracket.ahead : Bracket → Ahead
  | .array => .tree
  | .object => .member

/-- Passes over what is left of a tree.  `brackets` are the open ones, innermost first; `fuel`
    bounds the number of steps, each of which but the last passes a character. -/
def passFrom? : (fuel : Nat) → Ahead → (brackets : List Bracket) → List Char →
    Option (List Char)
  | 0, _, _, _ => none
  | fuel + 1, .tree, brackets, cs =>
    match skipGap cs with
    | '[' :: cs =>
      match skipGap cs with
      | ']' :: cs => passFrom? fuel .separator brackets cs
      | cs => passFrom? fuel .tree (.array :: brackets) cs
    | '\x7b' :: cs =>
      match skipGap cs with
      | '\x7d' :: cs => passFrom? fuel .separator brackets cs
      | cs => passFrom? fuel .member (.object :: brackets) cs
    | cs =>
      match passScalar? cs with
      | some cs => passFrom? fuel .separator brackets cs
      | none => none
  | fuel + 1, .member, brackets, cs =>
    match skipGap cs with
    | '"' :: cs =>
      match (passText? cs).map skipGap with
      | some (':' :: cs) => passFrom? fuel .tree brackets cs
      | _ => none
    | _ => none
  | _ + 1, .separator, [], cs => some cs
  | fuel + 1, .separator, b :: brackets, cs =>
    match skipGap cs with
    | [] => none
    | c :: cs =>
      if c = ',' then passFrom? fuel b.ahead (b :: brackets) cs
      else if c = b.closing then passFrom? fuel .separator brackets cs
      else none

/-- Passes over a tree among less than `limit` characters. -/
def pass? (limit : Nat) (cs : List Char) : Option (List Char) := passFrom? (limit + 1) .tree [] cs

end EntityFormulas.Json
