/-
  EntityFormulas/Decimal/Binary.lean
  ==================================
  **A number as a whole multiple of a power of two.**

  Every finite number of 64 bits is `± m · 2 ^ q` with whole `m` and `q`.
  Printing and rounding work on this exact form.
-/

namespace EntityFormulas

/-- What the 64 bits of a number say. -/
inductive Binary where
  | notANumber
  | infinite (negative : Bool)
  /-- The number `m · 2 ^ q`, or its negative. -/
  | finite (negative : Bool) (m : Nat) (q : Int)
deriving DecidableEq, Repr

namespace Binary

/-- How many values the bits of the significand have: `2 ^ 52`. -/
def significandBase : Nat := 4503599627370496

/-- How many values the bits of the exponent have: `2 ^ 11`. -/
def exponentBase : Nat := 2048

/-- Reads the sign bit, the eleven exponent bits and the 52 bits of the significand. -/
def ofFloat (x : Float) : Binary :=
  let bits := x.toBits.toNat
  let negative : Bool := significandBase * exponentBase ≤ bits
  let exponent : Nat := bits / significandBase % exponentBase
  let significand : Nat := bits % significandBase
  if exponent = 2047 then
    if significand = 0 then .infinite negative else .notANumber
  else if exponent = 0 then .finite negative significand (-1074)
  else .finite negative (significandBase + significand) ((exponent : Int) - 1075)

end Binary

/-- Whether the number is neither infinite nor NaN. -/
def isFiniteNumber (x : Float) : Bool :=
  match Binary.ofFloat x with
  | .finite .. => true
  | _ => false

/-- Positive infinity. -/
def infinity : Float := 1.0 / 0.0

end EntityFormulas
