/-!
Double-precision numbers as bit patterns. A decimal is read by exact arithmetic on natural
numbers, rounded once to the nearest double, a tie going to the even one.
-/
namespace GoFront

/-- A double-precision number given by its 64 bits: sign, eleven exponent bits, fraction. -/
structure Binary64 where
  bits : UInt64
  deriving DecidableEq, Repr, Inhabited

namespace Binary64

def infinityBits : Nat := 0x7FF0000000000000

/-- The number of different fractions, which have 52 bits. -/
def fractionSize : Nat := Nat.pow 2 52

/-- Nearest natural number to `num / den`, a tie going to the even one. -/
def roundQuotient (num den : Nat) : Nat :=
  let quotient := num / den
  let twice := 2 * (num % den)
  if twice < den then quotient
  else if den < twice then quotient + 1
  else quotient + quotient % 2

/-- The largest `k` with `2 ^ k ≤ num / den`, for positive `num` and `den`. -/
def floorLog2 (num den : Nat) : Int :=
  let guess : Int := (num.log2 : Int) - (den.log2 : Int)
  let tooLarge :=
    if 0 ≤ guess then num < den * Nat.pow 2 guess.toNat else num * Nat.pow 2 (-guess).toNat < den
  if tooLarge then guess - 1 else guess

/-- The double nearest to `num / den`: the significand is the quotient scaled to 53 bits, or to
the smallest exponent; a carry out of the significand moves into the exponent field. -/
def ofQuotient (num den : Nat) : Binary64 :=
  if num = 0 then ⟨0⟩
  else
    let exponent := max (-1074) (floorLog2 num den - 52)
    let significand :=
      if 0 ≤ exponent then roundQuotient num (den * Nat.pow 2 exponent.toNat)
      else roundQuotient (num * Nat.pow 2 (-exponent).toNat) den
    let bits := (exponent + 1074).toNat * fractionSize + significand
    ⟨(min bits infinityBits).toUInt64⟩

/-- The double nearest to `digits * 10 ^ exponent`. Beyond the range of doubles the power of ten
is not computed: the result is infinity or zero. -/
def ofDecimal (digits : Nat) (exponent : Int) : Binary64 :=
  let magnitude : Int := (Nat.toDigits 10 digits).length + exponent
  if digits = 0 then ⟨0⟩
  else if 400 < magnitude then ⟨infinityBits.toUInt64⟩
  else if magnitude < -400 then ⟨0⟩
  else if 0 ≤ exponent then ofQuotient (digits * Nat.pow 10 exponent.toNat) 1
  else ofQuotient digits (Nat.pow 10 (-exponent).toNat)

def exponentField (x : Binary64) : Nat := x.bits.toNat / fractionSize % 2048

/-- A positive number is `significand * 2 ^ exponent`. -/
def significand (x : Binary64) : Nat :=
  let n := x.bits.toNat
  if x.exponentField = 0 then n % fractionSize else fractionSize + n % fractionSize

/-- The power of two of the last bit of the significand. -/
def exponent (x : Binary64) : Int :=
  if x.exponentField = 0 then -1074 else (x.exponentField : Int) - 1075

/-- All exponent bits set: the number is infinite. -/
def isInfinite (x : Binary64) : Bool := x.exponentField = 2047

end Binary64

end GoFront
