/-
  EntityFormulas/Json/Basic.lean
  ==============================
  **JSON trees.**

  A tree keeps what was written: the members of an object stay in their order,
  repeated names included, and a whole number is told from a real one, because
  counts accept only whole numbers.
-/
import EntityFormulas.Collection.Dict
import EntityFormulas.Decimal.Binary

namespace EntityFormulas

/-- A number: whole, or with a fraction or an exponent. -/
inductive JsonNumber where
  | whole (n : Int)
  | real (x : Float)
deriving DecidableEq

/-- A JSON tree. -/
inductive Json where
  | null
  | bool (b : Bool)
  | number (n : JsonNumber)
  | text (s : String)
  | array (items : List Json)
  | object (members : List (String × Json))

namespace Json

instance : Inhabited Json := ⟨.null⟩

/-- A count. -/
def count (n : Nat) : Json := .number (.whole n)

/-- A number that a formula can calculate with. -/
def real (x : Float) : Json := .number (.real x)

/-- A list of texts. -/
def texts (ss : List String) : Json := .array (ss.map .text)

/-- A member, or nothing when there is no value for it. -/
def optional (name : String) (value : Option Json) : List (String × Json) :=
  match value with
  | some v => [(name, v)]
  | none => []

/-- The value, or null when there is none. -/
def orNull (value : Option Json) : Json := value.getD .null

mutual

/-- The tree with the members of every object in the order of their names; of members with one
    name the last stays. -/
def sorted : Json → Json
  | .array items => .array (sortedItems items)
  | .object members => .object (Entries.ofList (sortedMembers members))
  | j => j

def sortedItems : List Json → List Json
  | [] => []
  | j :: rest => sorted j :: sortedItems rest

def sortedMembers : List (String × Json) → List (String × Json)
  | [] => []
  | (name, j) :: rest => (name, sorted j) :: sortedMembers rest

end

/-- The member of that name, if the tree is an object that has one. -/
def member? (name : String) : Json → Option Json
  | .object members => Entries.find? name members
  | _ => none

end Json

end EntityFormulas
