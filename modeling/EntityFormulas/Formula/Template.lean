/-
  EntityFormulas/Formula/Template.lean
  ====================================
  **Text with formulas in it.**

  A template is text in which a dollar sign and a pair of braces enclose a
  formula.  A backslash before the dollar sign keeps the opening as text.  The
  closing brace is the first one outside nested braces and quoted text.
-/
import EntityFormulas.Formula.Expression.Parse

namespace EntityFormulas

/-- A stretch of text, or a formula together with the text it was read from. -/
inductive TemplatePart where
  | text (content : String)
  | interpolation (source : String) (expression : Expression)
deriving Repr

/-- Text with formulas in it. -/
structure Template where
  parts : List TemplatePart
deriving Repr

namespace Template

/-- The formulas, in order. -/
def expressions (t : Template) : List Expression :=
  t.parts.filterMap fun
    | .interpolation _ e => some e
    | .text _ => none

/-- Whether there are no formulas. -/
def isStatic (t : Template) : Bool := t.expressions.isEmpty

/-! ### Reading -/

/-- The number of characters of quoted text after its opening mark, closing mark included, or of
    all that is left when the mark is missing. -/
def quotedLength (mark : Char) : List Char → Nat
  | [] => 0
  | [_] => 1
  | c :: d :: rest =>
    if c = mark then 1
    else if c = '\\' then quotedLength mark rest + 2
    else quotedLength mark (d :: rest) + 1

/-- The number of characters before the closing brace of an interpolation.  `nested` counts the
    braces that are still open. -/
def bodyLength (nested : Nat) (cs : List Char) : Option Nat :=
  match cs with
  | [] => none
  | c :: rest =>
    if c = '"' ∨ c = '\'' then
      let k := quotedLength c rest
      (bodyLength nested (rest.drop k)).map (· + (k + 1))
    else if c = '\x7b' then (bodyLength (nested + 1) rest).map (· + 1)
    else if c = '\x7d' then
      match nested with
      | 0 => some 0
      | nested + 1 => (bodyLength nested rest).map (· + 1)
    else (bodyLength nested rest).map (· + 1)
termination_by cs.length
decreasing_by all_goals simp only [List.length_cons, List.length_drop]; omega

/-- A text part for the characters read so far, last first, unless there are none. -/
def textPart (read : List Char) : List TemplatePart :=
  if read.isEmpty then [] else [.text (String.ofList read.reverse)]

/-- Reads the formula of an interpolation that opens at `position`. -/
def interpolation (position : Nat) (body : List Char) : Except ParseError TemplatePart :=
  if (Text.trimBlanks body).isEmpty then .error ⟨position, .emptyInterpolation⟩
  else
    match Expression.parse (String.ofList body) with
    | .ok e => .ok (.interpolation (String.ofList (Text.trimBlanks body)) e)
    | .error e => .error (e.shift (position + 2))

/-- The parts of a template whose characters from `position` on are given; `read` are the
    characters, last first, of the text part under way. -/
def partsFrom (position : Nat) (read : List Char) (cs : List Char) :
    Except ParseError (List TemplatePart) :=
  match cs with
  | [] => .ok (textPart read)
  | '\\' :: '$' :: '\x7b' :: rest => partsFrom (position + 3) ('\x7b' :: '$' :: read) rest
  | '$' :: '\x7b' :: rest =>
    match bodyLength 0 rest with
    | none => .error ⟨position, .unterminatedInterpolation⟩
    | some k => do
      let part ← interpolation position (rest.take k)
      let parts ← partsFrom (position + k + 3) [] (rest.drop (k + 1))
      return textPart read ++ part :: parts
  | c :: rest => partsFrom (position + 1) (c :: read) rest
termination_by cs.length
decreasing_by all_goals simp only [List.length_cons, List.length_drop]; omega

/-- Reads a template. -/
def parse (source : String) : Except ParseError Template :=
  (partsFrom 0 [] source.toList).map Template.mk

end Template

end EntityFormulas
