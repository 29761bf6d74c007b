import ShadowTrace.Decimal.Binary
import ShadowTrace.Shadow

/-! # Values

The concrete value an operand had when it was read. Floating-point values are kept as their words,
so that every NaN keeps its payload. -/

namespace ShadowTrace

inductive Value where
  | bool (truth : Bool)
  | char (unit : UInt16)
  | byte (number : Int8)
  | short (number : Int16)
  | int (number : Int32)
  | long (number : Int64)
  | float (word : UInt32)
  | double (word : UInt64)
  | null
  | reference (id : ObjectId)
deriving DecidableEq

namespace Value

/-- Two values are the same when they are of one kind and equal there; floating-point values are
compared as numbers, so a NaN is not even the same as itself. -/
def same : Value → Value → Bool
  | float left, float right => Decimal.Layout.single.sameNumber left.toNat right.toNat
  | double left, double right => Decimal.Layout.double.sameNumber left.toNat right.toNat
  | left, right => left = right

end Value

end ShadowTrace
