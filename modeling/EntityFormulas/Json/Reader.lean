/-
  EntityFormulas/Json/Reader.lean
  ===============================
  **Reading JSON text.**

  `Json.read?` reads one tree that fills the whole text, blanks aside.  Arrays
  and objects may nest 127 deep.  `Outline.read?` reads what an outline wants
  and leaves the rest of the members out.

  Every reader takes the characters that are left and gives what it has read
  with the characters after it.  `limit` is more than the number of characters,
  and so bounds whatever a reader may find among them.
-/
import EntityFormulas.Json.Outline

namespace EntityFormulas.Json

/-- Reads a number after its sign. -/
def number? (negative : Bool) (cs : List Char) : Option (Json × List Char) := do
  let (n, cs) ← numeral? negative cs
  some (.number (← n.value?), cs)

/-- Reads items up to the closing bracket, the first of them included; `fuel` bounds their
    number. -/
def items? (value? : Outline → List Char → Option (Json × List Char)) :
    (fuel : Nat) → Outline → List Char → Option (List Json × List Char)
  | 0, _, _ => none
  | fuel + 1, outline, cs => do
    let (j, cs) ← value? outline.firstItem cs
    match skipGap cs with
    | ',' :: cs =>
      let (js, cs) ← items? value? fuel outline.laterItems cs
      some (j :: js, cs)
    | ']' :: cs => some ([j], cs)
    | _ => none

/-- Reads the tree of a member, or passes over it when the outline does not want it. -/
def wantedMember? (limit : Nat) (value? : Outline → List Char → Option (Json × List Char))
    (outline : Outline) (name : String) (cs : List Char) :
    Option (List (String × Json) × List Char) :=
  match outline.member? name with
  | some inner => (value? inner cs).map fun (j, cs) => ([(name, j)], cs)
  | none => (pass? limit cs).map ([], ·)

/-- Reads members up to the closing brace, the first of them included; `fuel` bounds their
    number. -/
def members? (limit : Nat) (value? : Outline → List Char → Option (Json × List Char)) :
    (fuel : Nat) → Outline → List Char → Option (List (String × Json) × List Char)
  | 0, _, _ => none
  | fuel + 1, outline, cs =>
    match skipGap cs with
    | '"' :: cs => do
      let (name, cs) ← text? limit [] cs
      match skipGap cs with
      | ':' :: cs =>
        let (first, cs) ← wantedMember? limit value? outline name cs
        match skipGap cs with
        | ',' :: cs =>
          let (js, cs) ← members? limit value? fuel outline cs
          some (first ++ js, cs)
        | '\x7d' :: cs => some (first, cs)
        | _ => none
      | _ => none
    | _ => none

/-- Reads what is wanted of a tree; arrays and objects may nest `depth` deep. -/
def value? (limit depth : Nat) (outline : Outline) (cs : List Char) :
    Option (Json × List Char) :=
  match skipGap cs with
  | 'n' :: 'u' :: 'l' :: 'l' :: cs => some (.null, cs)
  | 't' :: 'r' :: 'u' :: 'e' :: cs => some (.bool true, cs)
  | 'f' :: 'a' :: 'l' :: 's' :: 'e' :: cs => some (.bool false, cs)
  | '"' :: cs => (text? limit [] cs).map fun (s, cs) => (.text s, cs)
  | '[' :: cs =>
    match depth with
    | 0 => none
    | depth + 1 =>
      match skipGap cs with
      | ']' :: cs => some (.array [], cs)
      | cs => (items? (value? limit depth) limit outline cs).map fun (js, cs) => (.array js, cs)
  | '\x7b' :: cs =>
    match depth with
    | 0 => none
    | depth + 1 =>
      match skipGap cs with
      | '\x7d' :: cs => some (.object [], cs)
      | cs =>
        (members? limit (value? limit depth) limit outline cs).map fun (js, cs) => (.object js, cs)
  | '-' :: cs => number? true cs
  | cs => number? false cs

/-- How deep arrays and objects may nest. -/
def maxDepth : Nat := 127

/-- What is wanted of the tree that a text writes. -/
def Outline.read? (outline : Outline) (s : String) : Option Json :=
  let cs := s.toList
  match value? (cs.length + 1) maxDepth outline cs with
  | some (j, rest) => if (skipGap rest).isEmpty then some j else none
  | none => none

/-- The tree that a text writes. -/
def read? (s : String) : Option Json := Outline.whole.read? s

end EntityFormulas.Json
