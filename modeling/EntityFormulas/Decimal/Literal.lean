/-
  EntityFormulas/Decimal/Literal.lean
  ===================================
  **Reading decimals.**

  A literal in a formula is digits, perhaps with a fraction and an exponent,
  and means the number nearest to the decimal it writes.
-/
import EntityFormulas.Decimal.Binary

namespace EntityFormulas

/-- The value of a digit. -/
def digitValue (c : Char) : Nat := c.toNat - '0'.toNat

/-- The number that a row of digits writes. -/
def digitsValue (cs : List Char) : Nat := cs.foldl (fun n c => 10 * n + digitValue c) 0

/-- A decimal as it is written: digits before and after the point, and an exponent. -/
structure DecimalText where
  whole : List Char
  fraction : List Char := []
  exponentNegative : Bool := false
  exponent : List Char := []
deriving DecidableEq, Repr

namespace DecimalText

/-- All digits as one number. -/
def significand (t : DecimalText) : Nat := digitsValue (t.whole ++ t.fraction)

/-- The power of ten that the significand is multiplied by. -/
def scale (t : DecimalText) : Int :=
  (if t.exponentNegative then -(digitsValue t.exponent : Int) else digitsValue t.exponent)
    - t.fraction.length

/-- The number nearest to the decimal.  Where the number of digits and the scale already decide
    that it is zero or infinite, the power of ten is not formed. -/
def nearest (t : DecimalText) : Float :=
  let n := t.significand
  let top := (t.whole ++ t.fraction).length + t.scale
  if n = 0 then 0.0
  else if 0 ≤ t.scale ∧ 400 < t.scale then infinity
  else if top < -400 then 0.0
  else Float.ofScientific n (t.scale < 0) t.scale.natAbs

end DecimalText

end EntityFormulas
