/-
  EntityFormulas/Json/Printer.lean
  ================================
  **Writing JSON text.**

  `Json.compact` writes a tree on one line, `Json.pretty` with one member or
  item to a line and two blanks of indent for each level.  Real numbers have
  the fewest digits that read back, of equally near decimals the even one, and
  always a point or an exponent; the numbers that JSON cannot write become null.
-/
import EntityFormulas.Json.Basic
import EntityFormulas.Decimal.Shortest
import EntityFormulas.Text.Quoted

namespace EntityFormulas.Json

/-- A real number: by position while its magnitude is from `10 ^ -5` up to below `10 ^ 16`, with an
    exponent otherwise. -/
def realText (d : Decimal) : String :=
  let ds := toString d.digits
  let point : Int := ds.length + d.exponent
  if d.digits = 0 then "0.0"
  else if -5 < point ∧ point ≤ 16 then
    if 0 ≤ d.exponent then d.positional ++ ".0" else d.positional
  else
    let tail := String.ofList (ds.toList.drop 1)
    String.ofList (ds.toList.take 1) ++ (if tail = "" then "" else "." ++ tail) ++ "e" ++
      toString (point - 1)

def numberText : JsonNumber → String
  | .whole n => toString n
  | .real x =>
    match Binary.ofFloat x with
    | .finite negative m q => (if negative then "-" else "") ++ realText (Decimal.shortest .even m q)
    | _ => "null"

/-- One character of a text. -/
def charText (c : Char) : String :=
  match c with
  | '"' => "\\\""
  | '\\' => "\\\\"
  | '\x08' => "\\b"
  | '\x0c' => "\\f"
  | '\n' => "\\n"
  | '\r' => "\\r"
  | '\t' => "\\t"
  | c =>
    if c.toNat < 0x20 then
      let digits := Nat.toDigits 16 c.toNat
      "\\u" ++ String.ofList (List.replicate (4 - digits.length) '0' ++ digits)
    else c.toString

/-- A text between its marks. -/
def textText (s : String) : String := "\"" ++ String.join (s.toList.map charText) ++ "\""

/-! ### On one line -/

mutual

/-- The tree on one line, without blanks. -/
def compact : Json → String
  | .null => "null"
  | .bool b => if b then "true" else "false"
  | .number n => numberText n
  | .text s => textText s
  | .array items => "[" ++ compactItems items ++ "]"
  | .object members => "\x7b" ++ compactMembers members ++ "\x7d"

def compactItems : List Json → String
  | [] => ""
  | [j] => compact j
  | j :: rest => compact j ++ "," ++ compactItems rest

def compactMembers : List (String × Json) → String
  | [] => ""
  | [(name, j)] => textText name ++ ":" ++ compact j
  | (name, j) :: rest => textText name ++ ":" ++ compact j ++ "," ++ compactMembers rest

end

/-! ### Indented -/

/-- A line break and the indent of a level. -/
def newLine (level : Nat) : String := "\n" ++ String.ofList (List.replicate (2 * level) ' ')

mutual

/-- The tree with its items and members indented one level deeper than `level`. -/
def prettyAt (level : Nat) : Json → String
  | .array [] => "[]"
  | .object [] => "\x7b\x7d"
  | .array items => "[" ++ prettyItems (level + 1) items ++ newLine level ++ "]"
  | .object members => "\x7b" ++ prettyMembers (level + 1) members ++ newLine level ++ "\x7d"
  | .null => "null"
  | .bool b => if b then "true" else "false"
  | .number n => numberText n
  | .text s => textText s

def prettyItems (level : Nat) : List Json → String
  | [] => ""
  | [j] => newLine level ++ prettyAt level j
  | j :: rest => newLine level ++ prettyAt level j ++ "," ++ prettyItems level rest

def prettyMembers (level : Nat) : List (String × Json) → String
  | [] => ""
  | [(name, j)] => newLine level ++ textText name ++ ": " ++ prettyAt level j
  | (name, j) :: rest =>
    newLine level ++ textText name ++ ": " ++ prettyAt level j ++ "," ++ prettyMembers level rest

end

/-- The tree over several lines. -/
def pretty (j : Json) : String := prettyAt 0 j

end EntityFormulas.Json
