import ShadowTrace.Decimal.Notation
import ShadowTrace.Text.Quoted
import ShadowTrace.Value

/-! # The text of a value

Every kind has its own shape: numbers end in their type, characters are quoted, references start
with an at sign. -/

namespace ShadowTrace.Value

/-- Floating-point numbers are written in full, without an exponent and without a fraction
that is zero. -/
def textStyle : Decimal.Style where
  tie := .up
  isPlain _ := true
  wholeEnd := ""

def floatText (layout : Decimal.Layout) (word : Nat) : String :=
  match layout.read word with
  | .nan => "NaN"
  | .infinite negative => Decimal.sign negative ++ "inf"
  | reading => (textStyle.finite? reading).getD ""

def text : Value → String
  | bool truth => if truth then "true" else "false"
  | char unit => Text.quoteUnit unit
  | byte number => Text.signed number.toInt ++ "i8"
  | short number => Text.signed number.toInt ++ "i16"
  | int number => Text.signed number.toInt ++ "i32"
  | long number => Text.signed number.toInt ++ "i64"
  | float word => floatText .single word.toNat ++ "f32"
  | double word => floatText .double word.toNat ++ "f64"
  | null => "null"
  | reference id => "@0x" ++ Text.hex id.toNat

end ShadowTrace.Value
