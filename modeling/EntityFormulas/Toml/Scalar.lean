/-
  EntityFormulas/Toml/Scalar.lean
  ===============================
  **The scalars of TOML.**

  Each reader takes the characters that are left and gives the scalar with the
  characters after it, or nothing when no such scalar starts there.  Digits may
  be grouped by underscores that stand between digits.  A text is read with its
  escapes resolved.
-/
import EntityFormulas.Json.Basic
import EntityFormulas.Decimal.Literal
import EntityFormulas.Text.CodePoints

namespace EntityFormulas.Toml

open Text (isDigit isHexDigit)

/-! ### Blanks and line ends -/

def isSpace (c : Char) : Bool := c == ' ' || c == '\t'

def skipSpace (cs : List Char) : List Char := cs.dropWhile isSpace

/-- Whether the character may stand in a comment or, on its own, in a text. -/
def isPlain (c : Char) : Bool := c == '\t' || (0x20 ≤ c.toNat && c.toNat ≠ 0x7F)

/-- Passes over a line break. -/
def newline? : List Char → Option (List Char)
  | '\n' :: cs => some cs
  | '\r' :: '\n' :: cs => some cs
  | _ => none

/-- Passes over a comment, if there is one. -/
def skipComment : List Char → List Char
  | '#' :: cs => cs.dropWhile isPlain
  | cs => cs

/-- Passes over what may end a line: blanks, a comment, and the line break or the end. -/
def lineEnd? (cs : List Char) : Option (List Char) :=
  match skipComment (skipSpace cs) with
  | [] => some []
  | cs => newline? cs

/-- Passes over blanks, comments and line breaks. -/
def skipLines : (fuel : Nat) → List Char → List Char
  | 0, cs => cs
  | fuel + 1, cs =>
    let cs := skipComment (skipSpace cs)
    match newline? cs with
    | some cs => skipLines fuel cs
    | none => cs

/-! ### Numbers -/

/-- Digits of the given kind, without the underscores between them. -/
def groupedDigits (digit : Char → Bool) : List Char → List Char × List Char
  | '_' :: c :: cs =>
    if digit c then
      let (ds, cs) := groupedDigits digit cs
      (c :: ds, cs)
    else ([], '_' :: c :: cs)
  | c :: cs =>
    if digit c then
      let (ds, cs) := groupedDigits digit cs
      (c :: ds, cs)
    else ([], c :: cs)
  | [] => ([], [])

/-- At least one digit of the given kind. -/
def digits? (digit : Char → Bool) : List Char → Option (List Char × List Char)
  | c :: cs =>
    if digit c then
      let (ds, cs) := groupedDigits digit cs
      some (c :: ds, cs)
    else none
  | [] => none

/-- A sign, if there is one; whether the number is negative. -/
def sign : List Char → Bool × List Char
  | '-' :: cs => (true, cs)
  | '+' :: cs => (false, cs)
  | cs => (false, cs)

/-- The digits of a whole number; a leading zero stands alone. -/
def wholeDigits? : List Char → Option (List Char × List Char)
  | '0' :: cs => some (['0'], cs)
  | cs => digits? isDigit cs

/-- The value of a digit in any base up to sixteen. -/
def digitOf (c : Char) : Nat :=
  if isDigit c then digitValue c else c.toLower.toNat - 'a'.toNat + 10

/-- Where the whole numbers of 64 bits end: they are less than it and not less than its negative. -/
def wordBound : Int := 9223372036854775808

/-- A whole number in a base of its own, after its mark. -/
def based? (base : Nat) (cs : List Char) : Option (Json × List Char) := do
  let (ds, cs) ← digits? (fun c => isHexDigit c && digitOf c < base) cs
  let n := ds.foldl (fun n c => base * n + digitOf c) 0
  if n < wordBound then some (.number (.whole n), cs) else none

/-- A whole number of 64 bits. -/
def integer? : List Char → Option (Json × List Char)
  | '0' :: 'x' :: cs => based? 16 cs
  | '0' :: 'o' :: cs => based? 8 cs
  | '0' :: 'b' :: cs => based? 2 cs
  | cs => do
    let (negative, cs) := sign cs
    let (ds, cs) ← wholeDigits? cs
    let n : Int := digitsValue ds
    let n := if negative then -n else n
    if -wordBound ≤ n ∧ n < wordBound then some (.number (.whole n), cs) else none

/-- The digits of an exponent, whose sign comes first. -/
def exponent? : List Char → Option ((Bool × List Char) × List Char)
  | 'e' :: cs | 'E' :: cs => do
    let (negative, cs) := sign cs
    let (ds, cs) ← digits? isDigit cs
    some ((negative, ds), cs)
  | _ => none

/-- A number with a fraction or an exponent. -/
def decimal? (cs : List Char) : Option (DecimalText × List Char) := do
  let (whole, cs) ← wholeDigits? cs
  match cs with
  | '.' :: cs =>
    let (fraction, cs) ← digits? isDigit cs
    match exponent? cs with
    | some ((negative, ds), cs) => some (⟨whole, fraction, negative, ds⟩, cs)
    | none => some (⟨whole, fraction, false, []⟩, cs)
  | cs =>
    let ((negative, ds), cs) ← exponent? cs
    some (⟨whole, [], negative, ds⟩, cs)

/-- A real number.  A decimal above the range of finite numbers is refused, one below it is
    negative infinity. -/
def float? (cs : List Char) : Option (Json × List Char) :=
  let (negative, cs) := sign cs
  let signed (x : Float) : Json := .real (if negative then -x else x)
  match cs with
  | 'i' :: 'n' :: 'f' :: cs => some (signed infinity, cs)
  | 'n' :: 'a' :: 'n' :: cs => some (signed (0.0 / 0.0), cs)
  | cs =>
    match decimal? cs with
    | some (t, cs) =>
      if negative || isFiniteNumber t.nearest then some (signed t.nearest, cs) else none
    | none => none

/-! ### Dates and times -/

/-- A number of exactly so many digits, within bounds. -/
def field? (width least most : Nat) (cs : List Char) : Option (Nat × List Char) :=
  let ds := cs.take width
  let n := digitsValue ds
  if ds.length = width ∧ ds.all isDigit ∧ least ≤ n ∧ n ≤ most then some (n, cs.drop width)
  else none

/-- Passes over a character. -/
def mark? (c : Char) : List Char → Option (List Char)
  | d :: cs => if c = d then some cs else none
  | [] => none

/-- The number of days of a month. -/
def daysOf (year month : Nat) : Nat :=
  if month = 2 then
    if year % 4 = 0 ∧ (year % 100 ≠ 0 ∨ year % 400 = 0) then 29 else 28
  else if month ∈ [4, 6, 9, 11] then 30
  else 31

/-- Passes over a date of the calendar. -/
def date? (cs : List Char) : Option (List Char) := do
  let (year, cs) ← field? 4 0 9999 cs
  let cs ← mark? '-' cs
  let (month, cs) ← field? 2 1 12 cs
  let cs ← mark? '-' cs
  let (_, cs) ← field? 2 1 (daysOf year month) cs
  some cs

/-- Passes over a time of the day. -/
def time? (cs : List Char) : Option (List Char) := do
  let (_, cs) ← field? 2 0 23 cs
  let cs ← mark? ':' cs
  let (_, cs) ← field? 2 0 59 cs
  let cs ← mark? ':' cs
  let (_, cs) ← field? 2 0 60 cs
  match cs with
  | '.' :: c :: cs => if isDigit c then some (cs.dropWhile isDigit) else none
  | cs => some cs

/-- Passes over the distance of a time from universal time. -/
def offset? : List Char → Option (List Char)
  | 'Z' :: cs | 'z' :: cs => some cs
  | '+' :: cs | '-' :: cs => do
    let (_, cs) ← field? 2 0 23 cs
    let cs ← mark? ':' cs
    let (_, cs) ← field? 2 0 59 cs
    some cs
  | _ => none

/-- Passes over the time that follows a date, if one does. -/
def timeOfDate (cs : List Char) : List Char :=
  match cs with
  | c :: rest =>
    if c = 'T' ∨ c = 't' ∨ c = ' ' then
      match time? rest with
      | some rest => (offset? rest).getD rest
      | none => cs
    else cs
  | [] => []

/-- A date, a time, or both.  It is none of the values that settings have. -/
def dateTime? (cs : List Char) : Option (Json × List Char) := do
  let rest ← (date? cs).map timeOfDate <|> time? cs
  let written := cs.take (cs.length - rest.length)
  some (.object [("datetime", .text (String.ofList written))], rest)

/-! ### Texts -/

/-- So many digits of base sixteen that write a character. -/
def codePoint? (width : Nat) (cs : List Char) : Option (Char × List Char) :=
  let ds := cs.take width
  let n := ds.foldl (fun n c => 16 * n + digitOf c) 0
  if ds.length = width ∧ ds.all isHexDigit ∧ n.isValidChar then some (Char.ofNat n, cs.drop width)
  else none

/-- An escape after its backslash. -/
def escape? : List Char → Option (Char × List Char)
  | 'b' :: cs => some ('\x08', cs)
  | 't' :: cs => some ('\t', cs)
  | 'n' :: cs => some ('\n', cs)
  | 'f' :: cs => some ('\x0c', cs)
  | 'r' :: cs => some ('\r', cs)
  | '"' :: cs => some ('"', cs)
  | '\\' :: cs => some ('\\', cs)
  | 'u' :: cs => codePoint? 4 cs
  | 'U' :: cs => codePoint? 8 cs
  | _ => none

/-- A text on one line after its opening mark; `quote` is the mark, and only double quotes have
    escapes.  `read` holds the characters so far, last first. -/
def line? (quote : Char) : (fuel : Nat) → (read : List Char) → List Char →
    Option (String × List Char)
  | 0, _, _ => none
  | _ + 1, _, [] => none
  | fuel + 1, read, c :: cs =>
    if c = quote then some (String.ofList read.reverse, cs)
    else if c = '\\' ∧ quote = '"' then
      match escape? cs with
      | some (e, cs) => line? quote fuel (e :: read) cs
      | none => none
    else if isPlain c then line? quote fuel (c :: read) cs
    else none

/-- Passes over blanks and line breaks. -/
def skipBreaks : (fuel : Nat) → List Char → List Char
  | 0, cs => cs
  | fuel + 1, cs =>
    let cs := skipSpace cs
    match newline? cs with
    | some cs => skipBreaks fuel cs
    | none => cs

/-- A text on several lines after its opening marks.  It ends at three marks in a row; up to two
    marks right before them belong to it.  A backslash at the end of a line takes the line break
    and the blanks after it out of the text. -/
def lines? (quote : Char) : (fuel : Nat) → (read : List Char) → List Char →
    Option (String × List Char)
  | 0, _, _ => none
  | _ + 1, _, [] => none
  | fuel + 1, read, c :: cs =>
    if c = quote then
      let run := 1 + (cs.takeWhile (· == quote)).length
      let cs := cs.dropWhile (· == quote)
      if run < 3 then lines? quote fuel (List.replicate run quote ++ read) cs
      else if run ≤ 5 then
        some (String.ofList (List.replicate (run - 3) quote ++ read).reverse, cs)
      else none
    else if c = '\\' ∧ quote = '"' then
      match escape? cs with
      | some (e, cs) => lines? quote fuel (e :: read) cs
      | none =>
        match newline? (skipSpace cs) with
        | some cs => lines? quote fuel read (skipBreaks (cs.length + 1) cs)
        | none => none
    else
      match newline? (c :: cs) with
      | some cs => lines? quote fuel ('\n' :: read) cs
      | none => if isPlain c then lines? quote fuel (c :: read) cs else none

/-- A text on one line. -/
def quoted? : List Char → Option (String × List Char)
  | '"' :: cs => line? '"' (cs.length + 1) [] cs
  | '\'' :: cs => line? '\'' (cs.length + 1) [] cs
  | _ => none

/-- A text on one line or on several. -/
def text? (cs : List Char) : Option (String × List Char) :=
  let open' (quote : Char) (cs : List Char) : Option (String × List Char) :=
    let cs := (newline? cs).getD cs
    lines? quote (cs.length + 1) [] cs
  match cs with
  | '"' :: '"' :: '"' :: cs => open' '"' cs
  | '\'' :: '\'' :: '\'' :: cs => open' '\'' cs
  | cs => quoted? cs

end EntityFormulas.Toml
