/-
  EntityFormulas/Json/Numeral.lean
  ================================
  **Numbers as JSON writes them.**

  A number without fraction and exponent is whole as long as 64 bits hold it;
  any other is its digits, as far as 64 bits hold them, multiplied or divided
  by a power of ten, and has no value when that is infinite.
-/
import EntityFormulas.Json.Basic
import EntityFormulas.Decimal.Literal
import EntityFormulas.Decimal.Rounding
import EntityFormulas.Text.CodePoints

namespace EntityFormulas.Json

open Text (isDigit)

/-- A number as it is written. -/
structure Numeral where
  negative : Bool
  digits : DecimalText
  /-- Whether it has neither a fraction nor an exponent. -/
  isWhole : Bool
deriving DecidableEq, Repr

/-! ### Grammar -/

/-- Splits off the digits at the start. -/
def spanDigits (cs : List Char) : List Char × List Char :=
  (cs.takeWhile isDigit, cs.dropWhile isDigit)

/-- Reads the exponent of a number, if one is there. -/
def exponent? (cs : List Char) : Option (Option (Bool × List Char) × List Char) :=
  match cs with
  | 'e' :: cs | 'E' :: cs =>
    let (negative, cs) := match cs with
      | '-' :: cs => (true, cs)
      | '+' :: cs => (false, cs)
      | cs => (false, cs)
    match spanDigits cs with
    | ([], _) => none
    | (digits, cs) => some (some (negative, digits), cs)
  | cs => some (none, cs)

/-- Reads the fraction of a number, if one is there. -/
def fraction? (cs : List Char) : Option (Option (List Char) × List Char) :=
  match cs with
  | '.' :: cs =>
    match spanDigits cs with
    | ([], _) => none
    | (digits, cs) => some (some digits, cs)
  | cs => some (none, cs)

/-- Reads a number after its sign.  A leading zero stands alone. -/
def numeral? (negative : Bool) (cs : List Char) : Option (Numeral × List Char) := do
  let (whole, cs) := spanDigits cs
  if whole.isEmpty ∨ (whole.head? = some '0' ∧ 1 < whole.length) then none
  else
    let (fraction, cs) ← fraction? cs
    let (exponent, cs) ← exponent? cs
    let digits : DecimalText :=
      ⟨whole, fraction.getD [], (exponent.map (·.1)).getD false, (exponent.map (·.2)).getD []⟩
    some (⟨negative, digits, fraction.isNone && exponent.isNone⟩, cs)

/-! ### Values -/

/-- The largest whole number of 64 bits. -/
def maxWord : Nat := 18446744073709551615

/-- The largest whole number whose negative has 64 bits. -/
def maxNegative : Nat := 9223372036854775808

/-- Digits taken into a significand while it fits into 64 bits, and the digits left over. -/
def takeDigits (n : Nat) : List Char → Nat × List Char
  | [] => (n, [])
  | c :: cs =>
    let n' := 10 * n + digitValue c
    if n' ≤ maxWord then takeDigits n' cs else (n, c :: cs)

/-- `x · 10 ^ e`, computed with factors that are powers of ten; `steps` bounds their number.
    Nothing when the result is infinite. -/
def scaleByTen : (steps : Nat) → Float → Int → Option Float
  | 0, x, _ => some x
  | steps + 1, x, e =>
    if e.natAbs ≤ maxTenExponent then
      if 0 ≤ e then
        let y := x * tenToThe e.toNat
        if isFiniteNumber y then some y else none
      else some (x / tenToThe (-e).toNat)
    else if x == 0.0 then some x
    else if 0 ≤ e then none
    else scaleByTen steps (x / tenToThe maxTenExponent) (e + maxTenExponent)

/-- The value of a number.  Digits before the point that 64 bits do not hold count as zeros; those
    after it are taken as long as the significand still fits. -/
def Numeral.value? (t : Numeral) : Option JsonNumber :=
  let (n, left) := takeDigits 0 t.digits.whole
  if t.isWhole ∧ left.isEmpty ∧ ¬(t.negative ∧ (n = 0 ∨ maxNegative < n)) then
    some (.whole (if t.negative then -(n : Int) else n))
  else
    let (n, fractionLeft) := takeDigits n t.digits.fraction
    let used := t.digits.fraction.length - fractionLeft.length
    let written : Int := digitsValue t.digits.exponent
    let e : Int := (if t.digits.exponentNegative then -written else written) + left.length - used
    (scaleByTen 4 (Float.ofNat n) e).map fun x => .real (if t.negative then -x else x)

end EntityFormulas.Json
