/-!
# Double precision numbers from decimals

A binary64 number is kept as its 64 bits.  A decimal `digits * 10 ^ exponent` is rounded exactly to
the nearest such number, and a tie goes to the one whose last bit is zero.
-/

namespace Equational

structure Binary64 where
  bits : UInt64
  deriving DecidableEq, Repr

namespace Binary64

/-! ## Rounding a fraction -/

def roundHalfEven (numerator denominator : Nat) : Nat :=
  let quotient := numerator / denominator
  let twice := 2 * (numerator % denominator)
  if denominator < twice ∨ (twice = denominator ∧ quotient % 2 = 1) then quotient + 1
  else quotient

def scaled (numerator denominator : Nat) (power : Int) : Nat × Nat :=
  if power < 0 then (numerator * Nat.pow 2 (-power).toNat, denominator)
  else (numerator, denominator * Nat.pow 2 power.toNat)

def leastPower : Int := -1074

/-- The power of two for which the significand of a fraction has 53 binary digits, unless that
power is below the smallest one. -/
def powerOf (numerator denominator : Nat) : Int :=
  let guess : Int := (numerator.log2 : Int) - denominator.log2 - 53
  let (top, bottom) := scaled numerator denominator guess
  max leastPower (if top / bottom < Nat.pow 2 53 then guess else guess + 1)

def infinityBits : Nat := 0x7FF * Nat.pow 2 52

/-- The bits of a positive fraction: a significand that is rounded up to the next power of two
carries into the exponent. -/
def magnitudeBits (numerator denominator : Nat) : Nat :=
  let power := powerOf numerator denominator
  let (top, bottom) := scaled numerator denominator power
  min infinityBits (roundHalfEven top bottom + (power - leastPower).toNat * Nat.pow 2 52)

/-! ## Rounding a decimal -/

/-- Beyond these bounds on the place of the first digit the result is infinity or zero. -/
def decimalBits (digits : Nat) (exponent : Int) : Nat :=
  let leading : Int := (Nat.toDigits 10 digits).length + exponent
  if digits = 0 ∨ leading < -330 then 0
  else if 310 < leading then infinityBits
  else if exponent < 0 then magnitudeBits digits (Nat.pow 10 (-exponent).toNat)
  else magnitudeBits (digits * Nat.pow 10 exponent.toNat) 1

def ofDecimal (negative : Bool) (digits : Nat) (exponent : Int) : Binary64 :=
  ⟨UInt64.ofNat (decimalBits digits exponent + if negative then Nat.pow 2 63 else 0)⟩

end Binary64

end Equational
