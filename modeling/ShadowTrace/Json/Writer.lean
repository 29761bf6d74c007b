import ShadowTrace.Decimal.Notation
import ShadowTrace.Json

/-! # Compact JSON text

No blank is written between tokens. A number that is not finite has no JSON form and is
written as null. -/

namespace ShadowTrace.Json

/-- Small and large numbers get an exponent, the others at least one digit after the point. -/
def numberStyle (least greatest : Int) : Decimal.Style where
  tie := .toEven
  isPlain exponent := least ≤ exponent && exponent ≤ greatest
  wholeEnd := ".0"

def singleText (word : UInt32) : String :=
  ((numberStyle (-6) 12).finite? (Decimal.Layout.single.read word.toNat)).getD "null"

def doubleText (word : UInt64) : String :=
  ((numberStyle (-5) 15).finite? (Decimal.Layout.double.read word.toNat)).getD "null"

def escapeChar (c : Char) : String :=
  if c = '"' then "\\\""
  else if c = '\\' then "\\\\"
  else if c = '\x08' then "\\b"
  else if c = '\x0c' then "\\f"
  else if c = '\n' then "\\n"
  else if c = '\r' then "\\r"
  else if c = '\t' then "\\t"
  else if c.toNat < 32 then
    "\\u00" ++ (if c.toNat < 16 then "0" else "") ++ Text.hex c.toNat
  else String.singleton c

def quote (text : String) : String :=
  "\"" ++ String.join (text.toList.map escapeChar) ++ "\""

mutual

def compact : Json → String
  | null => "null"
  | bool truth => if truth then "true" else "false"
  | int number => Text.signed number
  | single word => singleText word
  | double word => doubleText word
  | string text => quote text
  | array items => "[" ++ compactItems items ++ "]"
  | object fields => "\x7b" ++ compactFields fields ++ "\x7d"

def compactItems : List Json → String
  | [] => ""
  | [item] => compact item
  | item :: rest => compact item ++ "," ++ compactItems rest

def compactFields : List (String × Json) → String
  | [] => ""
  | [(key, value)] => quote key ++ ":" ++ compact value
  | (key, value) :: rest => quote key ++ ":" ++ compact value ++ "," ++ compactFields rest

end

end ShadowTrace.Json
