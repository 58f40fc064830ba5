/-
  EntityFormulas/Json/Decoder.lean
  ================================
  **Reading data out of JSON trees.**

  The rules that every decoder of the library follows.  A structure is written
  as an object, whose unknown members do not matter and whose known members
  may not repeat, or as the array of its members in their order.  A choice is
  an object with a tag among its members, or an array that starts with the tag.
  A member that may be missing may also be null; other members may not.  Real
  numbers may be written as whole ones, but counts not as real ones.  Where a
  tree comes from decides what else is accepted.
-/
import EntityFormulas.Json.Basic

namespace EntityFormulas.Json

universe u

variable {α : Type u}

/-- Where a tree comes from. -/
inductive Place where
  /-- A JSON document, outside of all tagged choices. -/
  | document
  /-- The data of a tagged choice. -/
  | tagged
  /-- A TOML document, which knows no null. -/
  | toml
deriving DecidableEq, Repr

/-! ### Single values -/

def asText? : Json → Option String
  | .text s => some s
  | _ => none

def asBool? : Json → Option Bool
  | .bool b => some b
  | _ => none

/-- A real number; a whole one stands for the nearest real one. -/
def asReal? : Json → Option Float
  | .number (.real x) => some x
  | .number (.whole n) => some (Float.ofInt n)
  | _ => none

/-- A count: a whole number that is not negative. -/
def asCount? : Json → Option Nat
  | .number (.whole n) => if 0 ≤ n then some n.toNat else none
  | _ => none

def asList? (item? : Json → Option α) : Json → Option (List α)
  | .array items => items.mapM item?
  | _ => none

/-- A map from names; of members with one name the last counts. -/
def asEntries? (item? : Json → Option α) : Json → Option (List (String × α))
  | .object members => do
    let entries ← members.mapM fun m => (item? m.2).map (m.1, ·)
    some (Entries.ofList entries)
  | _ => none

def asDict? (item? : Json → Option α) : Json → Option (Dict α)
  | .object members => do
    let entries ← members.mapM fun m => (item? m.2).map (m.1, ·)
    some (Dict.ofList entries)
  | _ => none

/-- Whether a tree writes that there is no data: null, in tagged data also an empty object, and in
    TOML an empty table or array. -/
def isNothing : Place → Json → Bool
  | .document, .null => true
  | .tagged, .null | .tagged, .object [] => true
  | .toml, .object [] | .toml, .array [] => true
  | _, _ => false

/-- The name of a choice without data: the text, or an object that maps it to no data. -/
def asName? (place : Place) : Json → Option String
  | .text s => some s
  | .object [(name, data)] => if isNothing place data then some name else none
  | _ => none

/-! ### Structures -/

/-- The member of that name if it occurs once; nothing inside when it does not occur. -/
def once? (name : String) (members : List (String × Json)) : Option (Option Json) :=
  match members.filter fun m => m.1 = name with
  | [] => some none
  | [m] => some (some m.2)
  | _ => none

/-- The members of a structure in the order of their declared names. -/
def fields? (names : List String) : Json → Option (List (Option Json))
  | .object members => names.mapM fun name => once? name members
  | .array items =>
    if items.length ≤ names.length then
      some (items.map some ++ List.replicate (names.length - items.length) none)
    else none
  | _ => none

/-- The members of a structure at a place.  A TOML array may have items beyond the last member. -/
def fieldsAt? (place : Place) (names : List String) : Json → Option (List (Option Json))
  | .array items =>
    fields? names (.array (if place = .toml then items.take names.length else items))
  | j => fields? names j

/-- A member that must be there. -/
def required (item? : Json → Option α) (field : Option Json) : Option α := field.bind item?

/-- A member that may be missing or null. -/
def nullable (item? : Json → Option α) : Option Json → Option (Option α)
  | none => some none
  | some .null => some none
  | some j => (item? j).map some

/-- A member that may be missing but not null. -/
def defaulted (item? : Json → Option α) (default : α) : Option Json → Option α
  | none => some default
  | some j => item? j

/-! ### Choices -/

/-- Splits a choice into its tag and the rest of its members. -/
def tagged? (tag : String) : Json → Option (Json × Json)
  | .object members => do
    let t ← ← once? tag members
    some (t, .object (members.filter fun m => m.1 ≠ tag))
  | .array (t :: items) => some (t, .array items)
  | _ => none

/-- The name that a tag gives.  In tagged data it may give its position instead. -/
def tagName? (names : List String) (place : Place) : Json → Option String
  | .text s => if s ∈ names then some s else none
  | .number (.whole n) => if place = .tagged ∧ 0 ≤ n then names[n.toNat]? else none
  | _ => none

/-- Whether the members fit a choice without data. -/
def isUnit : Json → Bool
  | .object _ => true
  | .array items => items.isEmpty
  | _ => false

/-! ### Nesting -/

mutual

/-- How deep a tree nests.  Decoders of types that contain themselves recurse this deep. -/
def height : Json → Nat
  | .array items => heightItems items + 1
  | .object members => heightMembers members + 1
  | _ => 1

def heightItems : List Json → Nat
  | [] => 0
  | j :: rest => max (height j) (heightItems rest)

def heightMembers : List (String × Json) → Nat
  | [] => 0
  | (_, j) :: rest => max (height j) (heightMembers rest)

end

end EntityFormulas.Json
