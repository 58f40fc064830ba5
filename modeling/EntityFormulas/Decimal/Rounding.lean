/-
  EntityFormulas/Decimal/Rounding.lean
  ====================================
  **Whole numbers near a number, and powers of ten.**

  The four ways to a whole number keep the sign of the number they start from,
  also when the result is zero; what is already whole, infinite or no number
  stays as it is.
-/
import EntityFormulas.Decimal.Binary

namespace EntityFormulas

/-- Which whole number stands for a number between two of them. -/
inductive RoundingMode where
  | towardZero
  | down
  | up
  /-- The nearer one; halfway, the one farther from zero. -/
  | nearest
deriving DecidableEq, Repr

namespace RoundingMode

/-- Whether a magnitude with remainder `rest` out of `unit` moves one away from zero. -/
def movesAway (mode : RoundingMode) (negative : Bool) (rest unit : Nat) : Bool :=
  match mode with
  | .towardZero => false
  | .down => negative && rest != 0
  | .up => !negative && rest != 0
  | .nearest => unit ≤ 2 * rest

/-- The whole number that stands for `x`. -/
def round (mode : RoundingMode) (x : Float) : Float :=
  match Binary.ofFloat x with
  | .finite negative m q =>
    if 0 ≤ q then x
    else
      let unit := Nat.pow 2 (-q).toNat
      let whole := m / unit + if mode.movesAway negative (m % unit) unit then 1 else 0
      if negative then -(Float.ofNat whole) else Float.ofNat whole
  | _ => x

end RoundingMode

/-- The whole part of a number; infinite ones become `bound` or its negative, NaN becomes 0. -/
def wholePart (bound : Nat) (x : Float) : Int :=
  match Binary.ofFloat x with
  | .notANumber => 0
  | .infinite negative => if negative then -bound else bound
  | .finite negative m q =>
    let whole := min bound (m * Nat.pow 2 q.toNat / Nat.pow 2 (-q).toNat)
    if negative then -whole else whole

/-- The greatest exponent whose power of ten is finite. -/
def maxTenExponent : Nat := 308

/-- The number nearest to `10 ^ n`, infinite when that is too large. -/
def tenToThe (n : Nat) : Float :=
  if n ≤ maxTenExponent then Float.ofScientific 1 false n else infinity

/-- `x · base ^ n`, multiplied up from repeated squares of the base.  Every product is rounded, so
    that powers that are not whole numbers of 53 bits may differ from the nearest number. -/
def timesPower (x base : Float) (n : Nat) : Float :=
  let x := if n % 2 = 1 then x * base else x
  if n / 2 = 0 then x else timesPower x (base * base) (n / 2)
termination_by n
decreasing_by omega

/-- `x` rounded to `digits` decimal places, or for negative `digits` to tens, hundreds and so on. -/
def roundToPlaces (x : Float) (digits : Int) : Float :=
  if 0 ≤ digits then
    let factor := timesPower 1.0 10.0 digits.toNat
    RoundingMode.nearest.round (x * factor) / factor
  else
    let factor := timesPower 1.0 10.0 (-digits).toNat
    RoundingMode.nearest.round (x / factor) * factor

end EntityFormulas
