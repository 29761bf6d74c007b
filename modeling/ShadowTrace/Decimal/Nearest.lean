import ShadowTrace.Decimal.Binary

/-! # Reading decimals

A decimal is read as the double nearest to it, the even one of two equally near, and as infinity
beyond the largest. Products and quotients of doubles are rounded in the same way. Words of positive
numbers are given as natural numbers. -/

namespace ShadowTrace.Decimal

/-- The word of positive infinity. -/
def infinityWord : Nat := 2047 * twoTo 52

/-- The quotient rounded to the nearest integer, halves to the even one. -/
def divideToEven (numerator denominator : Nat) : Nat :=
  let quotient := numerator / denominator
  let rest := numerator % denominator
  if 2 * rest < denominator ∨ (2 * rest = denominator ∧ quotient % 2 = 0) then quotient
  else quotient + 1

/-- The exponent of the first binary digit of a positive ratio. -/
def binaryMagnitude (numerator denominator : Nat) : Int :=
  let guess : Int := (numerator.log2 : Int) - denominator.log2
  if numerator * twoTo (-guess).toNat ≥ denominator * twoTo guess.toNat then guess else guess - 1

/-- The word of the double nearest to a positive ratio. -/
def wordOfRatio (numerator denominator : Nat) : Nat :=
  let exponent := max (binaryMagnitude numerator denominator - 52) (-1074)
  let significand :=
    divideToEven (numerator * twoTo (-exponent).toNat) (denominator * twoTo exponent.toNat)
  if significand < twoTo 52 then significand
  else min infinityWord ((exponent + 1074).toNat * twoTo 52 + significand)

/-- The word of the double nearest to `coefficient * 10 ^ scale`. Scales far outside the range are
settled by the number of digits alone. -/
def wordOfDecimal (coefficient : Nat) (scale : Int) : Nat :=
  let magnitude : Int := scale + (Nat.toDigits 10 coefficient).length
  if coefficient = 0 || magnitude < -400 then 0
  else if magnitude > 400 then infinityWord
  else wordOfRatio (coefficient * tenTo scale.toNat) (tenTo (-scale).toNat)

def doubleWord (negative : Bool) (coefficient : Nat) (scale : Int) : UInt64 :=
  UInt64.ofNat (wordOfDecimal coefficient scale + if negative then twoTo 63 else 0)

/-- A positive number as a ratio. -/
def Binary.ratio (number : Binary) : Nat × Nat :=
  (number.significand * twoTo number.exponent.toNat, twoTo (-number.exponent).toNat)

/-- The number of a finite word as a ratio. -/
def ratioOf (word : Nat) : Nat × Nat :=
  match Layout.double.read word with
  | .finite _ number => number.ratio
  | _ => (0, 1)

/-- The word of the double nearest to the product of two finite numbers. -/
def product (left right : Nat) : Nat :=
  let (a, b) := ratioOf left
  let (c, d) := ratioOf right
  wordOfRatio (a * c) (b * d)

/-- The word of the double nearest to the quotient of two finite numbers, the second of
them not zero. -/
def quotient (left right : Nat) : Nat :=
  let (a, b) := ratioOf left
  let (c, d) := ratioOf right
  wordOfRatio (a * d) (b * c)

/-- The nearest integer, halves away from zero, clamped to `0 … greatest`. -/
def Reading.roundClamped (greatest : Nat) : Reading → Nat
  | .nan => 0
  | .zero _ => 0
  | .infinite negative => if negative then 0 else greatest
  | .finite true _ => 0
  | .finite false number =>
    let unit := twoTo (-number.exponent).toNat
    min greatest ((2 * (number.significand * twoTo number.exponent.toNat) + unit) / (2 * unit))

def Reading.isZero : Reading → Bool
  | .zero _ => true
  | _ => false

end ShadowTrace.Decimal
