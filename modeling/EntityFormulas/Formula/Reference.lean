/-
  EntityFormulas/Formula/Reference.lean
  =====================================
  **What a formula refers to.**

  Read off the tree, without evaluating it: the entity ids and own properties
  it names, and its traversals, the longest dotted chains that start at the
  formula's entity, at a named entity or at an own property.  Steps of a
  traversal are names; only stored relationships can say where they lead.

  All collections ascend without repetition.  Traversals are ordered by their
  start (own entity, named entities, own properties), then by their steps.
-/
import EntityFormulas.Collection.Ascending
import EntityFormulas.Formula.Template

namespace EntityFormulas

/-- Where a dotted chain starts. -/
inductive TraversalRoot where
  | selfEntity
  | entity (id : String)
  /-- At whatever entities an own property refers to. -/
  | selfProperty (name : String)
deriving DecidableEq, Repr

/-- A dotted chain: its start and the names of its steps. -/
structure Traversal where
  root : TraversalRoot
  hops : List String
deriving DecidableEq, Repr

namespace TraversalRoot

/-- The place in the order of starts, and the name. -/
def key : TraversalRoot → List String
  | .selfEntity => ["0", ""]
  | .entity id => ["1", id]
  | .selfProperty name => ["2", name]

/-- The start as paths write it. -/
def text : TraversalRoot → String
  | .selfEntity => "self"
  | .entity id => id
  | .selfProperty name => name

end TraversalRoot

namespace Traversal

/-- What traversals are ordered by. -/
def key (t : Traversal) : List String := t.root.key ++ t.hops

instance : LT Traversal := ⟨fun s t => s.key < t.key⟩

instance : DecidableLT Traversal := fun s t => inferInstanceAs (Decidable (s.key < t.key))

/-- The start and the steps, with points between them. -/
def path (t : Traversal) : String := String.intercalate "." (t.root.text :: t.hops)

theorem key_injective {s t : Traversal} (h : s.key = t.key) : s = t := by
  obtain ⟨r, hs⟩ := s
  obtain ⟨r', ht⟩ := t
  cases r <;> cases r' <;> simp_all [key, TraversalRoot.key]

instance : Std.Trichotomous (α := Traversal) (· < ·) where
  trichotomous _ _ h1 h2 :=
    key_injective (List.le_antisymm (List.not_lt.1 h2) (List.not_lt.1 h1))

instance : Trans (α := Traversal) (· < ·) (· < ·) (· < ·) where
  trans h1 h2 := List.lt_trans h1 h2

end Traversal

namespace Expression

/-- The entity ids that the formula names. -/
def entityIds (e : Expression) : List String :=
  ascending (e.parts.filterMap fun
    | .entityRef id => some id
    | _ => none)

/-- The own properties that the formula reads by name. -/
def ownProperties (e : Expression) : List String :=
  ascending (e.parts.filterMap fun
    | .selfProperty name => some name
    | _ => none)

/-- The start of a dotted chain and the names of its steps. -/
def unwind : Expression → Expression × List String
  | .member object name =>
    let (start, names) := unwind object
    (start, names ++ [name])
  | e => (e, [])

/-- The start of a traversal that an operand stands for, if it stands for one. -/
def traversalRoot? : Expression → Option TraversalRoot
  | .selfEntity => some .selfEntity
  | .entityRef id => some (.entity id)
  | .selfProperty name => some (.selfProperty name)
  | _ => none

/-- The traversal that a dotted chain is, unless it starts at another kind of operand. -/
def traversal? (e : Expression) : Option Traversal :=
  match e.unwind with
  | (_, []) => none
  | (start, hops) => start.traversalRoot?.map (⟨·, hops⟩)

mutual

/-- The traversals of a formula from left to right.  A chain counts as a whole; only a chain that
    starts at another kind of operand is looked into. -/
def traversalsOf : Expression → List Traversal
  | .literal _ | .selfProperty _ | .selfEntity | .entityRef _ => []
  | .member object name =>
    match traversal? (.member object name) with
    | some t => [t]
    | none => traversalsOf object
  | .unary _ operand => traversalsOf operand
  | .binary _ left right => traversalsOf left ++ traversalsOf right
  | .call _ args => traversalsOfList args
  | .list items => traversalsOfList items
  | .record fields => traversalsOfFields fields

def traversalsOfList : List Expression → List Traversal
  | [] => []
  | e :: rest => traversalsOf e ++ traversalsOfList rest

def traversalsOfFields : List (String × Expression) → List Traversal
  | [] => []
  | (_, e) :: rest => traversalsOf e ++ traversalsOfFields rest

end

/-- The traversals of the formula. -/
def traversals (e : Expression) : List Traversal := ascending e.traversalsOf

/-- The paths that the formula reads: own properties by name, and traversals. -/
def dependencyPaths (e : Expression) : List String :=
  ascending (e.ownProperties ++ e.traversals.map Traversal.path)

end Expression

namespace Template

/-- The entity ids that the formulas of the template name. -/
def entityIds (t : Template) : List String := ascending (t.expressions.flatMap Expression.entityIds)

/-- The paths that the formulas of the template read. -/
def dependencyPaths (t : Template) : List String :=
  ascending (t.expressions.flatMap Expression.dependencyPaths)

end Template

end EntityFormulas
