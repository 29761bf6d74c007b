/-! # Binary floating-point words

A word holds a sign, a biased exponent and a fraction. Its finite values are
`significand * 2 ^ exponent`. -/

namespace ShadowTrace.Decimal

def twoTo (exponent : Nat) : Nat := Nat.pow 2 exponent

def tenTo (exponent : Nat) : Nat := Nat.pow 10 exponent

/-- The number is one of a signed word of 64 bits. -/
def isSignedWord (number : Int) : Bool :=
  -9223372036854775808 ≤ number && number ≤ 9223372036854775807

/-- The widths of the two number fields of a word; the sign is the bit above them. -/
structure Layout where
  fractionBits : Nat
  exponentBits : Nat

namespace Layout

def single : Layout := ⟨23, 8⟩

def double : Layout := ⟨52, 11⟩

def maxBiased (layout : Layout) : Nat := twoTo layout.exponentBits - 1

def bias (layout : Layout) : Nat := twoTo (layout.exponentBits - 1) - 1

end Layout

/-- A positive number `significand * 2 ^ exponent` together with the fact whether the next smaller
number of its layout is only half as far away as the next larger one. -/
structure Binary where
  significand : Nat
  exponent : Int
  narrowBelow : Bool

inductive Reading where
  | nan
  | infinite (negative : Bool)
  | zero (negative : Bool)
  | finite (negative : Bool) (magnitude : Binary)

def Layout.read (layout : Layout) (word : Nat) : Reading :=
  let fraction := word % twoTo layout.fractionBits
  let biased := word / twoTo layout.fractionBits % twoTo layout.exponentBits
  let negative := word / twoTo (layout.fractionBits + layout.exponentBits) % 2 = 1
  let offset : Int := layout.bias + layout.fractionBits
  if biased = layout.maxBiased then
    if fraction = 0 then .infinite negative else .nan
  else if biased = 0 then
    if fraction = 0 then .zero negative
    else .finite negative ⟨fraction, 1 - offset, false⟩
  else .finite negative ⟨twoTo layout.fractionBits + fraction, biased - offset,
    fraction = 0 && biased > 1⟩

/-- Two words are equal as numbers: no NaN equals anything, and the two zeros are equal. -/
def Layout.sameNumber (layout : Layout) (left right : Nat) : Bool :=
  match layout.read left, layout.read right with
  | .nan, _ => false
  | _, .nan => false
  | .zero _, .zero _ => true
  | _, _ => left = right

end ShadowTrace.Decimal
