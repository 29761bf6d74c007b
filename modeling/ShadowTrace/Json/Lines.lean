import ShadowTrace.Json.Writer

/-! # Lines of JSON

Values are written one after another into one output. A newline follows an object that stands in no
other object, so a sequence of objects becomes a sequence of lines; the nesting is counted in
objects alone. A writer is handed the parts of a value one by one and keeps that count from one
value to the next. -/

namespace ShadowTrace.Json

/-- What ends an object that stands at the given depth of enclosing objects. -/
def lineEnd : Nat → String
  | 0 => "\n"
  | _ + 1 => ""

mutual

/-- The text of a value inside `depth` enclosing objects. -/
def lines (depth : Nat) : Json → String
  | null => compact null
  | bool truth => compact (bool truth)
  | int number => compact (int number)
  | single word => compact (single word)
  | double word => compact (double word)
  | string text => compact (string text)
  | array items => "[" ++ linesItems depth items ++ "]"
  | object fields => "\x7b" ++ linesFields (depth + 1) fields ++ "\x7d" ++ lineEnd depth

def linesItems (depth : Nat) : List Json → String
  | [] => ""
  | [item] => lines depth item
  | item :: rest => lines depth item ++ "," ++ linesItems depth rest

def linesFields (depth : Nat) : List (String × Json) → String
  | [] => ""
  | [(key, value)] => quote key ++ ":" ++ lines depth value
  | (key, value) :: rest => quote key ++ ":" ++ lines depth value ++ "," ++ linesFields depth rest

end

def writeLines (values : List Json) : String :=
  String.join (values.map (lines 0))

/-! ## Writing -/

/-- What is handed to a writer: that an object begins or ends, and all other text. -/
inductive Token where
  | opening
  | closing
  | plain (text : String)

mutual

/-- A value as it is handed to a writer. -/
def tokens : Json → List Token
  | null => [.plain (compact null)]
  | bool truth => [.plain (compact (bool truth))]
  | int number => [.plain (compact (int number))]
  | single word => [.plain (compact (single word))]
  | double word => [.plain (compact (double word))]
  | string text => [.plain (compact (string text))]
  | array items => [.plain "["] ++ tokensItems items ++ [.plain "]"]
  | object fields => [.opening] ++ tokensFields fields ++ [.closing]

def tokensItems : List Json → List Token
  | [] => []
  | [item] => tokens item
  | item :: rest => tokens item ++ [.plain ","] ++ tokensItems rest

def tokensFields : List (String × Json) → List Token
  | [] => []
  | [(key, value)] => [.plain (quote key), .plain ":"] ++ tokens value
  | (key, value) :: rest =>
    [.plain (quote key), .plain ":"] ++ tokens value ++ [.plain ","] ++ tokensFields rest

end

/-- A writer with the number of objects that are open. -/
structure LineWriter where
  depth : Nat := 0
  text : String := ""

/-- Writes a token. An object that ends has to be open, as the count cannot go below zero; a newline
follows it if no other is open. -/
def LineWriter.write? (writer : LineWriter) : Token → Option LineWriter
  | .opening => some ⟨writer.depth + 1, writer.text ++ "\x7b"⟩
  | .closing =>
    match writer.depth with
    | 0 => none
    | depth + 1 => some ⟨depth, writer.text ++ "\x7d" ++ lineEnd depth⟩
  | .plain text => some ⟨writer.depth, writer.text ++ text⟩

end ShadowTrace.Json
