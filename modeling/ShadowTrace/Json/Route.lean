import ShadowTrace.Decimal.Binary
import ShadowTrace.Json

/-! # Routes

A route leads into a value, by the name of a field or the place of an item at each step. It is
written as a word, followed by further words after dots and places in brackets. A negative place
counts from the end of the items. -/

namespace ShadowTrace.Json

inductive Selector where
  | field (name : String)
  | item (place : Int)
deriving DecidableEq

abbrev Route := List Selector

namespace Route

def isWordChar (c : Char) : Bool := c.isAlphanum || c = '_' || c = '-'

def isBlank (c : Char) : Bool := c = ' ' || c = '\t'

def readWord (text : List Char) : Option (Selector × List Char) :=
  let word := text.takeWhile isWordChar
  if word = [] then none else some (.field (String.ofList word), text.dropWhile isWordChar)

def cutMinus : List Char → Bool × List Char
  | '-' :: rest => (true, rest)
  | text => (false, text)

/-- A place after its opening bracket, a number of a signed word with blanks around it. -/
def readPlace (text : List Char) : Option (Selector × List Char) :=
  let (negative, text) := cutMinus (text.dropWhile isBlank)
  let digits := text.takeWhile Char.isDigit
  let number : Int := digits.foldl (fun number c => 10 * number + (c.toNat - '0'.toNat : Nat)) 0
  let place := if negative then -number else number
  match (text.dropWhile Char.isDigit).dropWhile isBlank with
  | ']' :: rest =>
    if digits ≠ [] && Decimal.isSignedWord place then some (.item place, rest) else none
  | _ => none

/-- The steps behind the first, of which there are fewer than characters. -/
def readSteps : Nat → List Char → Option Route
  | _, [] => some []
  | 0, _ => none
  | fuel + 1, c :: rest => do
    let (step, rest) ← if c = '.' then readWord rest else if c = '[' then readPlace rest else none
    return step :: (← readSteps fuel rest)

def read? (text : String) : Option Route := do
  let (first, rest) ← readWord text.toList
  return first :: (← readSteps rest.length rest)

/-- The route a key stands for. A key that is not written as a route is the name of a field. -/
def ofKey (key : String) : Route := (read? key).getD [.field key]

end Route

/-- How many items an array needs to have one at the place. -/
def Selector.room : Selector → Nat
  | field _ => 0
  | item place => if 0 ≤ place then place.toNat + 1 else (-place).toNat

/-- The value under a key, null if there is none. -/
def field (value : Json) (key : String) : Json :=
  match value with
  | object fields => (fields.lookup key).getD null
  | _ => null

/-- Sets the value under a key; what is no object gives way to one. -/
def withField (below : Json) (key : String) (value : Json) : Json :=
  match below with
  | object fields => object (setField key value fields)
  | _ => object [(key, value)]

theorem field_withField (below : Json) (key other : String) (value : Json) :
    (below.withField key value).field other = if other = key then value else below.field other := by
  cases below with
  | object fields =>
    simp only [withField, field, lookup_setField]
    split <;> rfl
  | _ =>
    by_cases same : other = key
    · simp [withField, field, same]
    · simp [withField, field, List.lookup_cons, same, beq_false_of_ne same]

def items : Json → List Json
  | array items => items
  | _ => []

/-- The items with nulls added until there is one at the place, behind them or, for a negative
place, in front. Gives also where that item is. -/
def reach (items : List Json) (place : Int) : List Json × Nat :=
  let room := (Selector.item place).room
  let added := List.replicate (room - items.length) null
  if 0 ≤ place then (items ++ added, place.toNat) else (added ++ items, items.length - room)

/-- Changes the value at the end of a route. What is on the way and is neither object nor array, as
the step asks for, gives way to an empty one. -/
def modifyAt (change : Json → Json) : Route → Json → Json
  | [], below => change below
  | .field key :: rest, below => below.withField key (modifyAt change rest (below.field key))
  | .item place :: rest, below =>
    let (items, index) := reach below.items place
    array (items.set index (modifyAt change rest (items.getD index null)))

end ShadowTrace.Json
