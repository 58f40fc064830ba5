/-
  EntityFormulas/Text/Quoted.lean
  ===============================
  **Text between quotation marks.**

  A quoted text shows every character that has a glyph of its own and spells
  out the others, so that the reader of a listing can tell blanks and marks
  apart.
-/
import EntityFormulas.Text.CodePoints
import EntityFormulas.Text.UnprintableRanges

namespace EntityFormulas.Text

/-- The number in base sixteen, small letters, no leading zeros. -/
def hexText (n : Nat) : String := String.ofList (Nat.toDigits 16 n)

/-- Whether a quoted text shows the character as it is. -/
def isShown (c : Char) : Bool :=
  c == ' ' || !(inRanges c.toNat graphemeExtendRanges || inRanges c.toNat unprintableRanges)

/-- One character of a quoted text. -/
def quotedChar (c : Char) : String :=
  match c with
  | '\x00' => "\\0"
  | '\t' => "\\t"
  | '\n' => "\\n"
  | '\r' => "\\r"
  | '"' => "\\\""
  | '\\' => "\\\\"
  | c => if isShown c then c.toString else "\\u\x7b" ++ hexText c.toNat ++ "\x7d"

/-- The text between quotation marks. -/
def quoted (s : String) : String := "\"" ++ String.join (s.toList.map quotedChar) ++ "\""

end EntityFormulas.Text
