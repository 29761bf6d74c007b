import ShadowTrace.Decimal.Nearest
import ShadowTrace.Json

/-! # JSON numbers

A number without fraction and exponent that fits a word, signed or unsigned, is an integer. Every
other number becomes a double in three steps, each of which rounds: as many leading digits as fit an
unsigned word are taken as one number, this becomes a double, and that is multiplied or divided by a
power of ten. The result may differ from the double nearest to what is written. A number too large
for a double is refused. -/

namespace ShadowTrace.Json

def digitsNumber (digits : List Char) : Nat :=
  digits.foldl (fun number c => 10 * number + (c.toNat - '0'.toNat)) 0

/-- The digits of a whole number: no zero in front of others. -/
def readWhole (text : List Char) : Option (List Char × List Char) :=
  let digits := text.takeWhile Char.isDigit
  if digits = [] || (digits.length > 1 && digits.head? = some '0') then none
  else some (digits, text.dropWhile Char.isDigit)

/-- The digits after a decimal point, if there is one. -/
def readFraction : List Char → Option (List Char × List Char)
  | '.' :: rest =>
    let digits := rest.takeWhile Char.isDigit
    if digits = [] then none else some (digits, rest.dropWhile Char.isDigit)
  | text => some ([], text)

def readSign : List Char → Bool × List Char
  | '-' :: rest => (true, rest)
  | '+' :: rest => (false, rest)
  | text => (false, text)

/-- The exponent, if there is one. -/
def readExponent : List Char → Option (Option Int × List Char)
  | c :: rest =>
    if c = 'e' || c = 'E' then
      let (negative, rest) := readSign rest
      let digits := rest.takeWhile Char.isDigit
      if digits = [] then none
      else
        let number : Int := digitsNumber digits
        some (some (if negative then -number else number), rest.dropWhile Char.isDigit)
    else some (none, c :: rest)
  | [] => some (none, [])

/-- Appends digits to a number as long as it fits an unsigned word. Gives also how many digits
were left. -/
def appendDigits (number : Nat) : List Char → Nat × Nat
  | [] => (number, 0)
  | c :: rest =>
    let longer := 10 * number + (c.toNat - '0'.toNat)
    if longer < UInt64.size then appendDigits longer rest else (number, rest.length + 1)

/-- The word of a power of ten up to the largest that is a double. -/
def powerWord (exponent : Nat) : Nat := Decimal.wordOfDecimal 1 exponent

/-- The word of a number below `2 ^ 64` times a power of ten, `none` if that is too large. A power
that is too small is divided by in two parts; one that is smaller still leaves nothing. -/
def scaledWord? (number : Nat) (scale : Int) : Option Nat :=
  let word := Decimal.wordOfDecimal number 0
  if 308 < scale then
    if number = 0 then some 0 else none
  else if 0 ≤ scale then
    let product := Decimal.product word (powerWord scale.toNat)
    if product = Decimal.infinityWord then none else some product
  else if -308 ≤ scale then some (Decimal.quotient word (powerWord (-scale).toNat))
  else if -616 ≤ scale then
    some (Decimal.quotient (Decimal.quotient word (powerWord 308)) (powerWord (-scale - 308).toNat))
  else some 0

/-- The number as a double. Digits of the whole part that do not fit raise the scale, those of the
fraction are dropped. -/
def realNumber? (negative : Bool) (whole fraction : List Char) (exponent : Int) : Option Json := do
  let (number, surplus) := appendDigits 0 whole
  let (number, dropped) := appendDigits number fraction
  let word ← scaledWord? number (exponent + surplus - (fraction.length - dropped : Nat))
  return double (UInt64.ofNat (word + if negative then Decimal.twoTo 63 else 0))

/-- The integer, if it is one of a signed or an unsigned word. There is no negative zero
among them. -/
def integer? (negative : Bool) (number : Nat) : Option Json :=
  if negative then
    if number ≠ 0 && Decimal.isSignedWord (-number) then some (int (-number)) else none
  else if number < UInt64.size then some (int number) else none

def readNumber (text : List Char) : Option (Json × List Char) := do
  let (negative, text) := match text with
    | '-' :: rest => (true, rest)
    | other => (false, other)
  let (whole, text) ← readWhole text
  let (fraction, text) ← readFraction text
  let (exponent, text) ← readExponent text
  let exact :=
    if fraction = [] && exponent.isNone then integer? negative (digitsNumber whole) else none
  match exact with
  | some value => return (value, text)
  | none => return (← realNumber? negative whole fraction (exponent.getD 0), text)

end ShadowTrace.Json
