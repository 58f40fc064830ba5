/-
  EntityFormulas/Formula/Token.lean
  =================================
  **The tokens of formula text, and what can be wrong with it.**

  A token knows where it starts, counted in characters.  A `ParseError` is a
  place and a `ParseFault`; `ParseFault.message` is the wording.
-/
import EntityFormulas.Decimal.Shortest

namespace EntityFormulas

/-- A token. -/
inductive Token where
  /-- An identifier or keyword; only where an operand starts are the two told apart. -/
  | word (name : String)
  /-- Text between quotation marks, with its escapes resolved. -/
  | text (content : String)
  | number (x : Float)
  /-- A property of the formula's own entity, written with a hash sign. -/
  | property (name : String)
  /-- An entity id written without quotation marks. -/
  | entity (id : String)
  | atSign
  | leftBrace | rightBrace
  | leftBracket | rightBracket
  | leftParen | rightParen
  | colon | comma | dot
  | plus | minus | star | slash
  | eqEq | neq
  | lt | lte | gt | gte
  | andAnd | orOr | bang
  | eof
deriving DecidableEq, Repr

/-- A token and the position of its first character. -/
structure PlacedToken where
  token : Token
  position : Nat
deriving DecidableEq, Repr

/-- The token as messages show it. -/
def Token.describe : Token → String
  | .word name => "identifier '" ++ name ++ "'"
  | .text content => "string \"" ++ content ++ "\""
  | .number x => "number " ++ numberText x
  | .property name => "'#" ++ name ++ "'"
  | .entity id => "entity id " ++ id
  | .atSign => "'@'"
  | .leftBrace => "'\x7b'"
  | .rightBrace => "'\x7d'"
  | .leftBracket => "'['"
  | .rightBracket => "']'"
  | .leftParen => "'('"
  | .rightParen => "')'"
  | .colon => "':'"
  | .comma => "','"
  | .dot => "'.'"
  | .plus => "'+'"
  | .minus => "'-'"
  | .star => "'*'"
  | .slash => "'/'"
  | .eqEq => "'=='"
  | .neq => "'!='"
  | .lt => "'<'"
  | .lte => "'<='"
  | .gt => "'>'"
  | .gte => "'>='"
  | .andAnd => "'&&'"
  | .orOr => "'||'"
  | .bang => "'!'"
  | .eof => "end of input"

/-! ### Faults -/

/-- What a formula was expected to go on with. -/
inductive Expected where
  | expression
  | quotedEntityId
  | identifier
  | closingParen
  | colon
  | recordKey
  | endOfArgument
  | endOfItem
  | endOfField
deriving DecidableEq, Repr

namespace Expected

def describe : Expected → String
  | .expression => "expression"
  | .quotedEntityId => "quoted entity id after '@'"
  | .identifier => "identifier"
  | .closingParen => "')'"
  | .colon => "':'"
  | .recordKey => "record key"
  | .endOfArgument => "',' or ')' in argument list"
  | .endOfItem => "',' or ']' in list"
  | .endOfField => "',' or '\x7d' in record"

end Expected

/-- Why text is not a formula or not a template. -/
inductive ParseFault where
  | unterminatedText
  | unterminatedEscape
  | missingPropertyName
  | unexpectedCharacter (c : Char)
  | unexpectedToken (wanted : Expected) (got : Token)
  /-- A word that is no keyword and not followed by arguments. -/
  | bareWord (name : String)
  | repeatedKey (key : String)
  | afterExpression (got : Token)
  | nestedTooDeeply
  | unterminatedInterpolation
  | emptyInterpolation
deriving DecidableEq, Repr

namespace ParseFault

def message : ParseFault → String
  | .unterminatedText => "unterminated string literal"
  | .unterminatedEscape => "unterminated escape in string"
  | .missingPropertyName => "expected property name after '#'"
  | .unexpectedCharacter c =>
    "unexpected character '" ++ c.toString ++ "'" ++
      (if c = '=' then "; use '==' for equality"
        else if c = '&' then "; use '&&'"
        else if c = '|' then "; use '||'"
        else "")
  | .unexpectedToken wanted got => "expected " ++ wanted.describe ++ ", got " ++ got.describe
  | .bareWord name =>
    "unexpected identifier '" ++ name ++ "'; use #" ++ name ++ " to reference a property"
  | .repeatedKey key => "duplicate record key '" ++ key ++ "'"
  | .afterExpression got => "unexpected " ++ got.describe ++ " after expression"
  | .nestedTooDeeply => "expression nested too deeply"
  | .unterminatedInterpolation => "unterminated interpolation, expected '\x7d'"
  | .emptyInterpolation => "empty interpolation"

end ParseFault

/-- A fault and the position of the character or token where it was found. -/
structure ParseError where
  position : Nat
  fault : ParseFault
deriving DecidableEq, Repr

namespace ParseError

def message (e : ParseError) : String := e.fault.message

/-- The whole report. -/
def report (e : ParseError) : String := "parse error at " ++ toString e.position ++ ": " ++ e.message

/-- The same fault in a text that starts `offset` characters earlier. -/
def shift (offset : Nat) (e : ParseError) : ParseError := { e with position := e.position + offset }

end ParseError

end EntityFormulas
