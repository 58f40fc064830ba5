/-
  EntityFormulas/Toml/Document.lean
  =================================
  **TOML documents.**

  A document is read as the tree that its tables form.  Every key is defined
  once.  A header opens a table that no header has opened before, though longer
  headers may have mentioned it; a double header adds a table to a row of them;
  dotted keys make tables of their own, which headers may not open again.
-/
import EntityFormulas.Toml.Scalar

namespace EntityFormulas.Toml

open Text (isDigit)

/-! ### Keys -/

/-- Whether the character may stand in a key without quotes. -/
def isBare (c : Char) : Bool := isDigit c || c.isAlpha || c == '_' || c == '-'

/-- One part of a key. -/
def part? (cs : List Char) : Option (String × List Char) :=
  match cs with
  | '"' :: _ | '\'' :: _ => quoted? cs
  | cs =>
    match cs.takeWhile isBare with
    | [] => none
    | name => some (String.ofList name, cs.dropWhile isBare)

/-- The parts of a key after blanks, with the blanks after it passed over. -/
def path? : (fuel : Nat) → List Char → Option (List String × List Char)
  | 0, _ => none
  | fuel + 1, cs => do
    let (name, cs) ← part? (skipSpace cs)
    match skipSpace cs with
    | '.' :: cs =>
      let (rest, cs) ← path? fuel cs
      some (name :: rest, cs)
    | cs => some ([name], cs)

/-- How many parts a key may have, and how deep values may nest. -/
def maxNesting : Nat := 79

/-- A key. -/
def key? (cs : List Char) : Option (List String × List Char) := path? maxNesting cs

/-! ### Tables -/

/-- What a key stands for. -/
inductive Node where
  | value (j : Json)
  /-- A table; `isOpen` if no header has opened it, `isDotted` if dotted keys made it. -/
  | table (isOpen isDotted : Bool) (entries : List (String × Node))
  /-- A row of tables, of which the last one is being filled. -/
  | tables (before : List (List (String × Node))) (last : List (String × Node))

/-- The entries of a table. -/
abbrev Entries := List (String × Node)

namespace Entries

/-- What a key stands for. -/
def find? (key : String) : Entries → Option Node
  | [] => none
  | (k, n) :: rest => if k = key then some n else find? key rest

/-- Puts a node in place of what the key stands for. -/
def put (key : String) (n : Node) : Entries → Entries
  | [] => [(key, n)]
  | (k, m) :: rest => if k = key then (k, n) :: rest else (k, m) :: put key n rest

/-- Changes the table at a path that headers give; missing tables are made. -/
def atHeader (change : Entries → Option Entries) : (path : List String) → Entries → Option Entries
  | [], t => change t
  | key :: path, t =>
    match find? key t with
    | none => (atHeader change path []).map fun u => put key (.table true false u) t
    | some (.table isOpen isDotted u) =>
      (atHeader change path u).map fun u => put key (.table isOpen isDotted u) t
    | some (.tables before u) => (atHeader change path u).map fun u => put key (.tables before u) t
    | some (.value _) => none

/-- Defines a key of the table; each is defined once. -/
def define (key : String) (j : Json) (t : Entries) : Option Entries :=
  match find? key t with
  | none => some (put key (.value j) t)
  | some _ => none

/-- Defines a dotted key.  Its tables are made by dotted keys, or pass through tables that only
    longer headers have mentioned. -/
def defineAt (j : Json) : (path : List String) → (key : String) → (isDotted : Bool) → Entries →
    Option Entries
  | [], key, isDotted, t => if isDotted then define key j t else none
  | name :: path, key, _, t =>
    match find? name t with
    | none => (defineAt j path key true []).map fun u => put name (.table true true u) t
    | some (.table true isDotted u) =>
      (defineAt j path key isDotted u).map fun u => put name (.table true isDotted u) t
    | some (.tables before u) =>
      (defineAt j path key false u).map fun u => put name (.tables before u) t
    | some _ => none

/-- Defines what a line defines. -/
def defineLine (path : List String) (j : Json) (t : Entries) : Option Entries :=
  match path with
  | [] => none
  | [key] => define key j t
  | name :: path => defineAt j (name :: path.dropLast) (path.getLast?.getD name) false t

/-- Opens the table of a header. -/
def openTable (path : List String) (t : Entries) : Option Entries :=
  match path.getLast? with
  | none => none
  | some key => atHeader (fun t =>
      match find? key t with
      | none => some (put key (.table false false []) t)
      | some (.table true false u) => some (put key (.table false false u) t)
      | some _ => none) path.dropLast t

/-- Adds a table to the row of a double header. -/
def addTable (path : List String) (t : Entries) : Option Entries :=
  match path.getLast? with
  | none => none
  | some key => atHeader (fun t =>
      match find? key t with
      | none => some (put key (.tables [] []) t)
      | some (.tables before last) => some (put key (.tables (before ++ [last]) []) t)
      | some _ => none) path.dropLast t

end Entries

mutual

/-- The tree that a node stands for. -/
def Node.toJson : Node → Json
  | .value j => j
  | .table _ _ entries => .object (entriesToJson entries)
  | .tables before last => .array (tablesToJson before ++ [.object (entriesToJson last)])

def entriesToJson : List (String × Node) → List (String × Json)
  | [] => []
  | (key, n) :: rest => (key, n.toJson) :: entriesToJson rest

def tablesToJson : List (List (String × Node)) → List Json
  | [] => []
  | t :: rest => .object (entriesToJson t) :: tablesToJson rest

end

/-! ### Values -/

/-- The items of an array after its opening bracket. -/
def items? (value? : List Char → Option (Json × List Char)) :
    (fuel : Nat) → List Char → Option (List Json × List Char)
  | 0, _ => none
  | fuel + 1, cs =>
    match skipLines (cs.length + 1) cs with
    | ']' :: cs => some ([], cs)
    | cs => do
      let (j, cs) ← value? cs
      match skipLines (cs.length + 1) cs with
      | ',' :: cs =>
        let (js, cs) ← items? value? fuel cs
        some (j :: js, cs)
      | ']' :: cs => some ([j], cs)
      | _ => none

/-- The lines of a table between braces, the first of them included. -/
def members? (value? : List Char → Option (Json × List Char)) :
    (fuel : Nat) → Entries → List Char → Option (Entries × List Char)
  | 0, _, _ => none
  | fuel + 1, t, cs => do
    let (path, cs) ← key? cs
    let cs ← mark? '=' cs
    let (j, cs) ← value? (skipSpace cs)
    let t ← t.defineLine path j
    match skipSpace cs with
    | ',' :: cs => members? value? fuel t cs
    | '\x7d' :: cs => some (t, cs)
    | _ => none

/-- A value that nests at most `depth` deep. -/
def value? (depth : Nat) (cs : List Char) : Option (Json × List Char) :=
  match cs with
  | 't' :: 'r' :: 'u' :: 'e' :: cs => some (.bool true, cs)
  | 'f' :: 'a' :: 'l' :: 's' :: 'e' :: cs => some (.bool false, cs)
  | '"' :: _ | '\'' :: _ => (text? cs).map fun (s, cs) => (.text s, cs)
  | '[' :: cs =>
    match depth with
    | 0 => none
    | depth + 1 => (items? (value? depth) (cs.length + 1) cs).map fun (js, cs) => (.array js, cs)
  | '\x7b' :: cs =>
    match depth with
    | 0 => none
    | depth + 1 =>
      match skipSpace cs with
      | '\x7d' :: cs => some (.object [], cs)
      | cs =>
        (members? (value? depth) (cs.length + 1) [] cs).map fun (t, cs) =>
          (.object (entriesToJson t), cs)
  | cs => dateTime? cs <|> float? cs <|> integer? cs

/-! ### Documents -/

/-- A document while it is read: its tables, and the path of the table that lines belong to. -/
structure Draft where
  tables : Entries := []
  header : List String := []

/-- Reads a header after its first bracket, up to the end of its line. -/
def header? (d : Draft) (cs : List Char) : Option (Draft × List Char) := do
  let (isRow, cs) := match cs with
    | '[' :: cs => (true, cs)
    | cs => (false, cs)
  let (path, cs) ← key? cs
  let cs ← mark? ']' cs
  let cs ← if isRow then mark? ']' cs else some cs
  let tables ← if isRow then d.tables.addTable path else d.tables.openTable path
  some (⟨tables, path⟩, ← lineEnd? cs)

/-- Reads a line that defines a key. -/
def definition? (d : Draft) (cs : List Char) : Option (Draft × List Char) := do
  let (path, cs) ← key? cs
  let cs ← mark? '=' cs
  let (j, cs) ← value? maxNesting (skipSpace cs)
  let tables ← d.tables.atHeader (fun t => t.defineLine path j) d.header
  some ({ d with tables }, ← lineEnd? cs)

/-- Reads the lines that are left; `fuel` bounds their number. -/
def lines : (fuel : Nat) → Draft → List Char → Option Draft
  | 0, _, _ => none
  | fuel + 1, d, cs =>
    match skipLines (cs.length + 1) cs with
    | [] => some d
    | '[' :: cs => do
      let (d, cs) ← header? d cs
      lines fuel d cs
    | cs => do
      let (d, cs) ← definition? d cs
      lines fuel d cs

/-- The tree that a document writes.  A mark of the byte order at its start does not count. -/
def read? (document : String) : Option Json :=
  let cs := match document.toList with
    | '\uFEFF' :: cs => cs
    | cs => cs
  (lines (cs.length + 1) {} cs).map fun d => .object (entriesToJson d.tables)

end EntityFormulas.Toml
