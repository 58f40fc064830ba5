/-
  EntityFormulas/Formula/Token/Scan.lean
  ======================================
  **From text to tokens.**

  `scan` reads the token that starts with a given character and says how many
  more characters belong to it; `tokensFrom` repeats it, stepping over blanks,
  and ends with the end-of-input token at the length of the text.

  Entity ids without quotation marks have the form of a UUID and are looked for
  first, since they start like a number or like a word.
-/
import EntityFormulas.Decimal.Literal
import EntityFormulas.Formula.Token
import EntityFormulas.Text.CodePoints

namespace EntityFormulas.Token

open Text

/-! ### Classes of characters -/

/-- The first character of a name. -/
def isNameStart (c : Char) : Bool := isLetter c || c == '_'

/-- A further character of a name. -/
def isNameChar (c : Char) : Bool := isLetterOrNumeral c || c == '_'

/-! ### Entity ids -/

/-- The number of characters of an entity id. -/
def entityIdLength : Nat := 36

/-- Whether a character may stand at a place of an entity id: groups of 8, 4, 4, 4 and 12 digits
    of base sixteen with hyphens between them. -/
def fitsEntityId (place : Nat) (c : Char) : Bool :=
  if place = 8 ∨ place = 13 ∨ place = 18 ∨ place = 23 then c == '-' else isHexDigit c

/-- Whether the characters from `place` on are those of an entity id, and no name goes on
    behind it. -/
def isEntityIdFrom (place : Nat) : List Char → Bool
  | [] => place == entityIdLength
  | c :: cs =>
    if place < entityIdLength then fitsEntityId place c && isEntityIdFrom (place + 1) cs
    else !isNameChar c

/-- Whether an entity id starts here. -/
def startsEntityId (cs : List Char) : Bool := isEntityIdFrom 0 cs

/-! ### Quoted text -/

/-- What a backslash and the character after it stand for. -/
def unescape (c : Char) : List Char :=
  match c with
  | '"' => ['"']
  | '\'' => ['\'']
  | '\\' => ['\\']
  | 'n' => ['\n']
  | 't' => ['\t']
  | c => ['\\', c]

/-- Reads quoted text after its opening mark: the content and the number of characters, closing
    mark included. -/
def quotedText (mark : Char) : List Char → Except ParseFault (List Char × Nat)
  | [] => .error .unterminatedText
  | c :: cs =>
    if c = mark then .ok ([], 1)
    else if c = '\\' then
      match cs with
      | [] => .error .unterminatedEscape
      | e :: rest => (quotedText mark rest).map fun (content, k) => (unescape e ++ content, k + 2)
    else (quotedText mark cs).map fun (content, k) => (c :: content, k + 1)

/-! ### Numbers -/

/-- The digits after a point, if the text goes on with a point and a digit. -/
def fractionAt : List Char → List Char
  | '.' :: cs => cs.takeWhile isDigit
  | _ => []

/-- The sign and digits of an exponent, if the text goes on with one, and its length. -/
def exponentAt : List Char → Bool × List Char × Nat
  | e :: cs =>
    if e = 'e' ∨ e = 'E' then
      let (negative, signLength, digits) := match cs with
        | '-' :: cs => (true, 1, cs.takeWhile isDigit)
        | '+' :: cs => (false, 1, cs.takeWhile isDigit)
        | cs => (false, 0, cs.takeWhile isDigit)
      if digits.isEmpty then (false, [], 0) else (negative, digits, 1 + signLength + digits.length)
    else (false, [], 0)
  | [] => (false, [], 0)

/-- Reads a number: the decimal it writes and the number of characters. -/
def decimalAt (cs : List Char) : DecimalText × Nat :=
  let whole := cs.takeWhile isDigit
  let rest := cs.drop whole.length
  let fraction := fractionAt rest
  let fractionLength := if fraction.isEmpty then 0 else fraction.length + 1
  let (negative, exponent, exponentLength) := exponentAt (rest.drop fractionLength)
  (⟨whole, fraction, negative, exponent⟩, whole.length + fractionLength + exponentLength)

/-! ### One token -/

/-- Operators of two characters. -/
def operator2 (c d : Char) : Option Token :=
  match c, d with
  | '=', '=' => some .eqEq
  | '!', '=' => some .neq
  | '<', '=' => some .lte
  | '>', '=' => some .gte
  | '&', '&' => some .andAnd
  | '|', '|' => some .orOr
  | _, _ => none

/-- Operators and punctuation of one character. -/
def operator1 (c : Char) : Option Token :=
  match c with
  | '@' => some .atSign
  | '\x7b' => some .leftBrace
  | '\x7d' => some .rightBrace
  | '[' => some .leftBracket
  | ']' => some .rightBracket
  | '(' => some .leftParen
  | ')' => some .rightParen
  | ':' => some .colon
  | ',' => some .comma
  | '.' => some .dot
  | '+' => some .plus
  | '-' => some .minus
  | '*' => some .star
  | '/' => some .slash
  | '<' => some .lt
  | '>' => some .gt
  | '!' => some .bang
  | _ => none

/-- Reads an operator or punctuation, the longer one first, with the number of characters after
    its first. -/
def operatorAt (c : Char) (cs : List Char) : Option (Token × Nat) :=
  match cs.head?.bind (operator2 c) with
  | some t => some (t, 1)
  | none => (operator1 c).map (·, 0)

/-- Reads the token that starts with `c`, which is not blank.  The number says how many of the
    characters `cs` after it belong to the token. -/
def scan (c : Char) (cs : List Char) : Except ParseFault (Token × Nat) :=
  if startsEntityId (c :: cs) then
    .ok (.entity (String.ofList (((c :: cs).take entityIdLength).map Char.toLower)),
      entityIdLength - 1)
  else if c = '"' ∨ c = '\'' then
    (quotedText c cs).map fun (content, k) => (.text (String.ofList content), k)
  else if isDigit c then
    let (decimal, length) := decimalAt (c :: cs)
    .ok (.number decimal.nearest, length - 1)
  else if c = '#' then
    let name := cs.takeWhile isNameChar
    match name with
    | [] => .error .missingPropertyName
    | d :: _ =>
      if isNameStart d then .ok (.property (String.ofList name), name.length)
      else .error .missingPropertyName
  else
    match operatorAt c cs with
    | some found => .ok found
    | none =>
      if isNameStart c then
        let more := cs.takeWhile isNameChar
        .ok (.word (String.ofList (c :: more)), more.length)
      else .error (.unexpectedCharacter c)

/-! ### All tokens -/

/-- The tokens of a text whose first character is at `position`, end of input included.  The next
    `skip` characters belong to a token that has been read. -/
def tokensFrom (position skip : Nat) : List Char → Except ParseError (List PlacedToken)
  | [] => .ok [⟨.eof, position⟩]
  | c :: cs =>
    match skip with
    | skip + 1 => tokensFrom (position + 1) skip cs
    | 0 =>
      if isBlank c then tokensFrom (position + 1) 0 cs
      else
        match scan c cs with
        | .error fault => .error ⟨position, fault⟩
        | .ok (token, k) => (tokensFrom (position + 1) k cs).map (⟨token, position⟩ :: ·)

/-- The tokens of a text, end of input included. -/
def tokens (source : String) : Except ParseError (List PlacedToken) := tokensFrom 0 0 source.toList

end EntityFormulas.Token
