import ShadowTrace.CallStack
import ShadowTrace.Decimal.Binary
import ShadowTrace.Settings
import ShadowTrace.Tables
import ShadowTrace.Text.Quoted

/-! # Setting up the state

Settings may ask for what cannot be built: a number of parts that is not a power of two above one,
room for more entries than can be addressed, a file extension that is not one. -/

namespace ShadowTrace

inductive SetupError where
  | singleShard
  | unevenShards
  | capacityOverflow
  | separatorInExtension (extension : String)
deriving DecidableEq

def SetupError.message : SetupError → String
  | singleShard => "assertion failed: shard_amount > 1"
  | unevenShards => "assertion failed: shard_amount.is_power_of_two()"
  | capacityOverflow => "capacity overflow"
  | separatorInExtension extension =>
    "extension cannot contain path separators: " ++ Text.quote extension

/-- There is room for `count` entries of `size` bytes if their bytes can be counted by a
signed word. -/
def reserve (count : UInt64) (size : Nat) : Except SetupError Unit :=
  if count.toNat * size < Decimal.twoTo 63 then .ok () else .error .capacityOverflow

def frameBytes : Nat := 64

def recordBytes : Nat := 32

def shardBytes : Nat := 128

def isPowerOfTwo (n : Nat) : Bool := n = Decimal.twoTo n.log2

def checkShards : Option UInt64 → Except SetupError Unit
  | none => .ok ()
  | some shards =>
    if shards ≤ 1 then .error .singleShard
    else if isPowerOfTwo shards.toNat then reserve shards shardBytes
    else .error .unevenShards

def Tables.create (settings : HeapSettings) : Except SetupError Tables := do
  checkShards settings.shards
  return { heap := { skipConcrete := settings.skipConcrete, denseLimit := settings.denseLimit } }

def CallStack.create (settings : StackSettings) : Except SetupError CallStack := do
  reserve settings.capacity frameBytes
  return {}

end ShadowTrace
