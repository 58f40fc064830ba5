/-
  EntityFormulas/Decimal/Shortest.lean
  ====================================
  **The shortest decimal that reads back as a number.**

  Around a number `m · 2 ^ q` lies the interval of reals that round to it; its
  ends belong to it exactly when `m` is even.  For one digit, two digits and so
  on the decimals with that many digits form a grid, and only the two grid
  points next to the number can lie in the interval and be nearest to it.  The
  first grid with a point in the interval gives the digits; of two such points
  the nearer is taken, and `TieBreak` says which of two equally near ones.

  Everything is whole-number arithmetic.
-/
import EntityFormulas.Decimal.Binary

namespace EntityFormulas

/-- The decimal `digits · 10 ^ exponent`. -/
structure Decimal where
  digits : Nat
  exponent : Int
deriving DecidableEq, Repr

/-- Which of two decimals that are equally near to a number stands for it. -/
inductive TieBreak where
  | larger
  /-- The one whose last digit is even. -/
  | even
deriving DecidableEq, Repr

/-- Whether the smaller of two decimals is taken, when these are its digits. -/
def TieBreak.takesSmaller (ties : TieBreak) (digits : Nat) : Bool :=
  match ties with
  | .larger => false
  | .even => digits % 2 == 0

namespace Decimal

/-- How many decimal digits a number has; zero has none. -/
def length (n : Nat) : Nat :=
  if h : n = 0 then 0 else length (n / 10) + 1
termination_by n
decreasing_by omega

/-- The greatest `k` with `10 ^ k ≤ num / den`. -/
def magnitude (num den : Nat) : Int :=
  if den ≤ num then (length (num / den) : Int) - 1
  else -(length ((den - 1) / num) : Int)

/-- The decimal of exponent `p` nearest to `4 · m · 2 ^ r`, if it lies between
    `(4 · m - gap) · 2 ^ r` and `(4 · m + 2) · 2 ^ r`, ends included when `closed`. -/
def onGrid (ties : TieBreak) (m gap : Nat) (r : Int) (closed : Bool) (p : Int) : Option Nat :=
  let up := Nat.pow 2 r.toNat * Nat.pow 10 (-p).toNat
  let down := Nat.pow 2 (-r).toNat * Nat.pow 10 p.toNat
  let value := 4 * m * up
  let low := (4 * m - gap) * up
  let high := (4 * m + 2) * up
  let below := value / down
  let above := below + 1
  let belowIn := if closed then low ≤ below * down else low < below * down
  let aboveIn := if closed then above * down ≤ high else above * down < high
  let toBelow := value - below * down
  let toAbove := above * down - value
  let nearer := if toBelow = toAbove then ties.takesSmaller below else toBelow < toAbove
  if belowIn ∧ (¬aboveIn ∨ nearer) then some below
  else if aboveIn then some above
  else none

/-- The decimal without trailing zeros among its digits, at most `fuel` of which are removed. -/
def trimZeros : Nat → Decimal → Decimal
  | 0, d => d
  | fuel + 1, d =>
    if d.digits ≠ 0 ∧ d.digits % 10 = 0 then trimZeros fuel ⟨d.digits / 10, d.exponent + 1⟩ else d

/-- The shortest decimal that reads back as `m · 2 ^ q`.  Below a power of two the neighbour
    is only half as far away as above it. -/
def shortest (ties : TieBreak) (m : Nat) (q : Int) : Decimal :=
  if m = 0 then ⟨0, 0⟩
  else
    let gap := if m = Binary.significandBase ∧ -1074 < q then 1 else 2
    let k := magnitude (m * Nat.pow 2 q.toNat) (Nat.pow 2 (-q).toNat)
    let grid (n : Nat) : Option Decimal :=
      let p := k - n
      (onGrid ties m gap (q - 2) (m % 2 == 0) p).map fun d => ⟨d, p⟩
    trimZeros 2 (((List.range 17).findSome? grid).getD ⟨0, 0⟩)

/-- So many zeros. -/
def zeros (n : Nat) : String := String.ofList (List.replicate n '0')

/-- The decimal written out by position, without an exponent. -/
def positional (d : Decimal) : String :=
  let ds := toString d.digits
  if 0 ≤ d.exponent then ds ++ zeros d.exponent.toNat
  else
    let places := (-d.exponent).toNat
    if places < ds.length then
      String.ofList (ds.toList.take (ds.length - places)) ++ "." ++
        String.ofList (ds.toList.drop (ds.length - places))
    else "0." ++ zeros (places - ds.length) ++ ds

end Decimal

/-- A number written out by position, with the fewest digits that read back; of equally near
    decimals the larger one. -/
def numberText (x : Float) : String :=
  match Binary.ofFloat x with
  | .notANumber => "NaN"
  | .infinite negative => if negative then "-inf" else "inf"
  | .finite negative m q => (if negative then "-" else "") ++ (Decimal.shortest .larger m q).positional

end EntityFormulas
