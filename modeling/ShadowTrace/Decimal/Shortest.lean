import ShadowTrace.Decimal.Binary

/-! # Shortest decimals

Every binary number owns an interval of reals that are read back as it: half-way to each neighbour,
ends included when its significand is even. On the grid of multiples of a power of ten at most two
points next to the number have to be looked at: if any point of the grid lies in the interval, one
of the two does. Grids are tried from coarse to fine, so the first hit has the fewest digits, and of
two hits the nearer one is taken. -/

namespace ShadowTrace.Decimal

/-- Which of two equally near decimals is taken. -/
inductive Tie where
  | up
  | toEven

/-- The number `coefficient * 10 ^ scale`. -/
structure Digits where
  coefficient : Nat
  scale : Int

/-- The number and the ends of its interval as integers over the common denominator `unit`, when the
grid of multiples of `10 ^ scale` has the integers as its points. -/
structure Scaled where
  value : Nat
  low : Nat
  high : Nat
  unit : Nat
  closed : Bool

def Binary.scaled (number : Binary) (scale : Int) : Scaled :=
  let quarter := twoTo (number.exponent - 2).toNat * tenTo (-scale).toNat
  let middle := 4 * number.significand
  { value := middle * quarter
    low := (middle - if number.narrowBelow then 1 else 2) * quarter
    high := (middle + 2) * quarter
    unit := twoTo (2 - number.exponent).toNat * tenTo scale.toNat
    closed := number.significand % 2 = 0 }

def Scaled.contains (number : Scaled) (point : Nat) : Bool :=
  let place := point * number.unit
  if number.closed then number.low ≤ place && place ≤ number.high
  else number.low < place && place < number.high

/-- The point of the grid that is read back as the number, if there is one; the nearer of two. -/
def Scaled.nearest? (number : Scaled) (tie : Tie) : Option Nat :=
  let below := number.value / number.unit
  let above := below + 1
  match number.contains below, number.contains above with
  | false, false => none
  | true, false => some below
  | false, true => some above
  | true, true =>
    let left := number.value - below * number.unit
    let right := above * number.unit - number.value
    if left < right then some below
    else if right < left then some above
    else match tie with
      | .up => some above
      | .toEven => some (if below % 2 = 0 then below else above)

/-- The exponent of the first decimal digit. Scaling by a power of ten that exceeds every reciprocal
keeps the division from losing it. -/
def Binary.magnitude (number : Binary) : Int :=
  let shift := number.exponent.natAbs
  let scaled :=
    number.significand * twoTo number.exponent.toNat * tenTo shift / twoTo (-number.exponent).toNat
  (Nat.toDigits 10 scaled).length - 1 - shift

/-- Drops the zeros at the end of a coefficient of at most `fuel` digits. -/
def Digits.trim (digits : Digits) : Nat → Digits
  | 0 => digits
  | fuel + 1 =>
    if digits.coefficient ≠ 0 ∧ digits.coefficient % 10 = 0 then
      Digits.trim ⟨digits.coefficient / 10, digits.scale + 1⟩ fuel
    else digits

/-- The fewest digits that are read back as the number. Seventeen always suffice for
both layouts. -/
def Binary.shortest (number : Binary) (tie : Tie) : Digits :=
  let magnitude := number.magnitude
  let found := (List.range 17).findSome? fun (more : Nat) =>
    let scale := magnitude - more
    ((number.scaled scale).nearest? tie).map fun coefficient => Digits.mk coefficient scale
  match found with
  | some digits => digits.trim 18
  | none => ⟨number.significand, 0⟩

end ShadowTrace.Decimal
