import GoFront.Decimal.Binary64

/-!
The shortest decimal that reads back as a given double, and the two layouts in which the program
writes it: always positional in messages, with an exponent for large and small numbers in dumps.
-/
namespace GoFront

/-- The decimal `digits * 10 ^ exponent`. -/
structure Decimal where
  digits : Nat
  exponent : Int
  deriving DecidableEq, Repr

namespace Decimal

/-- The decimal without trailing zero digits; a bound on the digit count ends the search. -/
def strip : Nat → Decimal → Decimal
  | 0, d => d
  | n + 1, d =>
    if d.digits ≠ 0 ∧ d.digits % 10 = 0 then strip n ⟨d.digits / 10, d.exponent + 1⟩ else d

/-- The value of a finite positive double as a quotient of natural numbers. -/
def quotient (x : Binary64) : Nat × Nat :=
  if 0 ≤ x.exponent then (x.significand * Nat.pow 2 x.exponent.toNat, 1)
  else (x.significand, Nat.pow 2 (-x.exponent).toNat)

/-- The number of decimal digits before the point of `num / den`; not positive for numbers below
one tenth. The guess from the binary logarithm is at most one too small. -/
def leadingPlace (num den : Nat) : Int :=
  let guess : Int := (Binary64.floorLog2 num den) * 30103 / 100000
  let atLeast (k : Int) : Bool :=
    if 0 ≤ k then den * Nat.pow 10 k.toNat ≤ num else den ≤ num * Nat.pow 10 (-k).toNat
  if atLeast (guess + 1) then guess + 2 else if atLeast guess then guess + 1 else guess

/-- Of the two decimals next to `num / den` on the grid `10 ^ place`, those that read back as
`x`; the nearer one wins, the upper one on a tie. -/
def onGrid (x : Binary64) (num den : Nat) (place : Int) : Option Decimal :=
  let (n, d) :=
    if 0 ≤ place then (num, den * Nat.pow 10 place.toNat)
    else (num * Nat.pow 10 (-place).toNat, den)
  let low := n / d
  let reads (digits : Nat) : Bool := Binary64.ofDecimal digits place = x
  let lowReads := reads low
  let highReads := reads (low + 1)
  if lowReads && (!highReads || 2 * (n % d) < d) then some ⟨low, place⟩
  else if highReads then some ⟨low + 1, place⟩
  else none

/-- Tries grids from the coarsest on; seventeen digits always suffice. -/
def search (x : Binary64) (num den : Nat) (place : Int) : Nat → Decimal
  | 0 => ⟨num / den, 0⟩
  | tries + 1 =>
    match onGrid x num den place with
    | some found => found
    | none => search x num den (place - 1) tries

/-- The shortest decimal that reads back as `x`, the nearest to `x` of those. -/
def shortest (x : Binary64) : Decimal :=
  if x.significand = 0 then ⟨0, 0⟩
  else
    let (num, den) := quotient x
    strip 20 (search x num den (leadingPlace num den - 1) 18)

/-- Digits with the point after the first `point` of them, padded with zeros on either side. -/
def positional (digits : List Char) (point : Int) : String :=
  if point ≤ 0 then
    String.ofList (['0', '.'] ++ List.replicate (-point).toNat '0' ++ digits)
  else if digits.length ≤ point.toNat then
    String.ofList (digits ++ List.replicate (point.toNat - digits.length) '0')
  else
    String.ofList (digits.take point.toNat ++ '.' :: digits.drop point.toNat)

end Decimal

namespace Binary64

/-- The number in messages: never an exponent, no fraction for a whole number. -/
def toMessage (x : Binary64) : String :=
  if x.isInfinite then "inf"
  else
    let d := Decimal.shortest x
    let digits := Nat.toDigits 10 d.digits
    if d.digits = 0 then "0" else Decimal.positional digits (digits.length + d.exponent)

/-- The number in token dumps: always with a point or an exponent, the exponent from `1e16` on and
below `1e-4`. -/
def toDump (x : Binary64) : String :=
  if x.isInfinite then "inf"
  else
    let d := Decimal.shortest x
    let digits := Nat.toDigits 10 d.digits
    let point : Int := digits.length + d.exponent
    if d.digits = 0 then "0.0"
    else if 16 < point || point < -3 then
      let fraction := if digits.length ≤ 1 then [] else '.' :: digits.drop 1
      String.ofList (digits.take 1 ++ fraction) ++ "e" ++ toString (point - 1)
    else if digits.length ≤ point.toNat then Decimal.positional digits point ++ ".0"
    else Decimal.positional digits point

end Binary64

end GoFront
