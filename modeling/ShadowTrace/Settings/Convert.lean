import ShadowTrace.Decimal.Nearest
import ShadowTrace.Json
import ShadowTrace.Setup
import ShadowTrace.Text

/-! # Settings from values

The values of a document are loosely typed, those of the environment are all text; numbers and truth
values are read from whatever can stand for one. The description of a dump is exact: nothing in it
is converted. A section is an object, or an array that gives its entries in order; an entry that is
missing has its default. -/

namespace ShadowTrace

inductive LoadError where
  /-- A source is not well formed. -/
  | unreadable
  /-- A value cannot be read as what its place asks for. -/
  | invalid (path : List String)
  /-- A key names a place that no array can have. -/
  | unusable (error : SetupError)
deriving DecidableEq

namespace Settings

/-- Decimal digits, after an optional plus sign, of a number below `2 ^ 64`. -/
def digitsToWord? (text : String) : Option UInt64 :=
  let digits := match text.toList with
    | '+' :: rest => rest
    | other => other
  let number := digits.foldl (fun number c => 10 * number + (c.toNat - '0'.toNat)) 0
  if digits ≠ [] && digits.all Char.isDigit && number < UInt64.size then some (UInt64.ofNat number)
  else none

def isOnWord (word : String) : Bool := word = "true" || word = "on" || word = "yes"

def isOffWord (word : String) : Bool := word = "false" || word = "off" || word = "no"

def toWord? : Json → Option UInt64
  | .bool truth => some (if truth then 1 else 0)
  | .int number =>
    if 0 ≤ number && number < UInt64.size then some (UInt64.ofNat number.toNat) else none
  | .double word =>
    some (UInt64.ofNat ((Decimal.Layout.double.read word.toNat).roundClamped (UInt64.size - 1)))
  | .string text =>
    let word := Text.lower text
    if isOnWord word then some 1 else if isOffWord word then some 0 else digitsToWord? text
  | _ => none

def toHalfWord? (value : Json) : Option UInt32 := do
  let word ← toWord? value
  if word.toNat < UInt32.size then some (UInt32.ofNat word.toNat) else none

def toBool? : Json → Option Bool
  | .bool truth => some truth
  | .int number => some (number != 0)
  | .double word => some !(Decimal.Layout.double.read word.toNat).isZero
  | .string text =>
    let word := Text.lower text
    if word = "1" || isOnWord word then some true
    else if word = "0" || isOffWord word then some false
    else none
  | _ => none

/-- A number of parts: null asks for the default, zero parts are refused. -/
def toShards? : Json → Option (Option UInt64)
  | .null => some none
  | value => do
    let word ← toWord? value
    if word = 0 then none else some (some word)

def toText? : Json → Option (Option String)
  | .null => some none
  | .string text => some (some text)
  | _ => none

def formatNamed? (name : String) : Option DumpFormat :=
  if name = "text" || name = "txt" then some .text
  else if name = "json_lines" || name = "jsonl" then some .jsonLines
  else none

/-- A format is named by a text, or by the only key of an object that says nothing more. -/
def toFormat? : Json → Option DumpFormat
  | .string name => formatNamed? name
  | .object [(name, .null)] => formatNamed? name
  | .object [(name, .object [])] => formatNamed? name
  | _ => none

/-- An entry of a section, by its name or its place. -/
def item? : Json → Nat → String → Option Json
  | .object fields, _, name => fields.lookup name
  | .array items, place, _ => items[place]?
  | _, _, _ => none

def isSection : Json → Bool
  | .object _ => true
  | .array _ => true
  | _ => false

def convert {α : Type} (path : List String) (fallback : α) (read : Json → Option α) :
    Option Json → Except LoadError α
  | none => .ok fallback
  | some value =>
    match read value with
    | some result => .ok result
    | none => .error (.invalid path)

/-- Reads a section that may be missing. -/
def readSection {α : Type} (path : List String) (fallback : α) (read : Json → Except LoadError α) :
    Option Json → Except LoadError α
  | none => .ok fallback
  | some value => if isSection value then read value else .error (.invalid path)

def heapOf (fields : Json) : Except LoadError HeapSettings := do
  let skipConcrete ← convert ["heap", "skip_concrete_allocation"] true toBool?
    (item? fields 0 "skip_concrete_allocation")
  let denseLimit ← convert ["heap", "dense_elements_limit"] 65536 toHalfWord?
    (item? fields 1 "dense_elements_limit")
  let shards ← convert ["heap", "shards"] none toShards? (item? fields 2 "shards")
  return { skipConcrete, denseLimit, shards }

def stackOf (fields : Json) : Except LoadError StackSettings := do
  let capacity ← convert ["stack",
    "initial_capacity"] 32 toWord? (item? fields 0 "initial_capacity")
  return { capacity }

/-- The entries of a dump behind its type. -/
def dumpOf (fields : Json) : Except LoadError DumpSettings := do
  let directory ← convert ["trace", "dump", "directory"] none toText? (item? fields 0 "directory")
  let format ← convert ["trace", "dump", "format"] .jsonLines toFormat? (item? fields 1 "format")
  let namePrefix ← convert ["trace", "dump", "prefix"] none toText? (item? fields 2 "prefix")
  let extension ← convert ["trace", "dump", "extension"] none toText? (item? fields 3 "extension")
  return { directory, format, namePrefix, extension }

def isFileType : Json → Bool
  | .string name => name = "file"
  | _ => false

/-- A dump names its type: in an object under its key, in an array as the first of at most
five items. -/
def dump? : Option Json → Except LoadError (Option DumpSettings)
  | none => .ok none
  | some .null => .ok none
  | some (.object fields) =>
    match fields.lookup "type" with
    | some type =>
      if isFileType type then (dumpOf (.object fields)).map some
      else .error (.invalid ["trace", "dump", "type"])
    | none => .error (.invalid ["trace", "dump", "type"])
  | some (.array (type :: items)) =>
    if isFileType type && items.length ≤ 4 then (dumpOf (.array items)).map some
    else .error (.invalid ["trace", "dump"])
  | some _ => .error (.invalid ["trace", "dump"])

def traceOf (fields : Json) : Except LoadError TraceSettings := do
  let capacity ← convert ["trace",
    "initial_capacity"] 32 toWord? (item? fields 0 "initial_capacity")
  let dump ← dump? (item? fields 1 "dump")
  return { capacity, dump }

def ofJson (root : Json) : Except LoadError Settings := do
  let heap ← readSection ["heap"] {} heapOf (item? root 0 "heap")
  let stack ← readSection ["stack"] {} stackOf (item? root 1 "stack")
  let trace ← readSection ["trace"] {} traceOf (item? root 2 "trace")
  return { heap, stack, trace }

end Settings

end ShadowTrace
