import ShadowTrace.Json.Writer
import ShadowTrace.Value.Json
import ShadowTrace.Value.Text

/-! # Records

A record names an instruction whose execution read a symbolic operand, with the values of the
operands that were concrete, in the order they were read. -/

namespace ShadowTrace

abbrev InstructionId := UInt64

structure Snapshot where
  position : UInt32
  value : Value
deriving DecidableEq

structure Record where
  instruction : InstructionId
  operands : List Snapshot := []
deriving DecidableEq

namespace Snapshot

def text (operand : Snapshot) : String :=
  Text.decimal operand.position.toNat ++ ": " ++ operand.value.text

def toJson (operand : Snapshot) : Json :=
  .object [("position", .int operand.position.toNat), ("value", operand.value.toJson)]

def same (left right : Snapshot) : Bool :=
  left.position = right.position && left.value.same right.value

end Snapshot

namespace Record

def add (record : Record) (position : UInt32) (value : Value) : Record :=
  { record with operands := record.operands ++ [⟨position, value⟩] }

/-- The value seen last at the position. -/
def operand? (record : Record) (position : UInt32) : Option Value :=
  (record.operands.reverse.find? (·.position = position)).map (·.value)

def text (record : Record) : String :=
  Text.decimal record.instruction.toNat ++ " \x7b" ++
    ", ".intercalate (record.operands.map (·.text)) ++ "\x7d"

def toJson (record : Record) : Json :=
  .object [("instruction", .int record.instruction.toNat),
    ("concrete_operands", .array (record.operands.map (·.toJson)))]

def sameOperands : List Snapshot → List Snapshot → Bool
  | [], [] => true
  | left :: lefts, right :: rights => left.same right && sameOperands lefts rights
  | _, _ => false

def same (left right : Record) : Bool :=
  left.instruction = right.instruction && sameOperands left.operands right.operands

end Record

end ShadowTrace
