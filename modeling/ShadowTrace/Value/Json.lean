import ShadowTrace.Json
import ShadowTrace.Value

/-! # Values as JSON

An object with the kind of the value and, for every kind but null, the value itself. -/

namespace ShadowTrace.Value

def kind : Value → String
  | bool _ => "bool"
  | char _ => "char"
  | byte _ => "byte"
  | short _ => "short"
  | int _ => "int"
  | long _ => "long"
  | float _ => "float"
  | double _ => "double"
  | null => "null"
  | reference _ => "reference"

def content? : Value → Option Json
  | bool truth => some (.bool truth)
  | char unit => some (.int unit.toNat)
  | byte number => some (.int number.toInt)
  | short number => some (.int number.toInt)
  | int number => some (.int number.toInt)
  | long number => some (.int number.toInt)
  | float word => some (.single word)
  | double word => some (.double word)
  | null => none
  | reference id => some (.int id.toNat)

def toJson (value : Value) : Json :=
  .object
    (("kind", .string value.kind) :: (value.content?.map fun content => ("value", content)).toList)

end ShadowTrace.Value
