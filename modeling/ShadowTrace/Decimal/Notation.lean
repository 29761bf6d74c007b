import ShadowTrace.Decimal.Shortest
import ShadowTrace.Text

/-! # Decimal notation

The same digits can be written with a plain decimal point or with an exponent. A style says which,
and how a whole number ends. -/

namespace ShadowTrace.Decimal

structure Style where
  tie : Tie
  /-- The exponents of the first digit for which the number is written without an exponent. -/
  isPlain : Int → Bool
  /-- What follows the digits of a whole number. -/
  wholeEnd : String

/-- The digits with the decimal point after the first `point` of them, zeros filling the gap on
either side. -/
def plain (wholeEnd : String) (digits : List Char) (point : Int) : String :=
  if point ≤ 0 then
    "0." ++ String.ofList (List.replicate (-point).toNat '0' ++ digits)
  else
    let whole := point.toNat
    if digits.length ≤ whole then
      String.ofList (digits ++ List.replicate (whole - digits.length) '0') ++ wholeEnd
    else String.ofList (digits.take whole ++ '.' :: digits.drop whole)

/-- One digit before the point, and a signed exponent. -/
def scientific (digits : List Char) (exponent : Int) : String :=
  String.ofList (digits.take 1) ++ (if digits.length ≤ 1 then ""
    else "." ++ String.ofList (digits.drop 1)) ++
    "e" ++ (if exponent < 0 then "-" else "+") ++ Text.decimal exponent.natAbs

def Style.digits (style : Style) (digits : Digits) : String :=
  let written := Nat.toDigits 10 digits.coefficient
  let exponent : Int := digits.scale + written.length - 1
  if style.isPlain exponent then plain style.wholeEnd written (exponent + 1)
  else scientific written exponent

def sign (negative : Bool) : String := if negative then "-" else ""

/-- The text of a finite number, `none` for the others. -/
def Style.finite? (style : Style) : Reading → Option String
  | .nan => none
  | .infinite _ => none
  | .zero negative => some (sign negative ++ "0" ++ style.wholeEnd)
  | .finite negative magnitude =>
    some (sign negative ++ style.digits (magnitude.shortest style.tie))

end ShadowTrace.Decimal
