import ShadowTrace.Toml.Scalar
import ShadowTrace.Toml.Strings
import ShadowTrace.Toml.Table

/-! # Reading TOML

A document is a sequence of lines, each of them a header, a key with its value, or nothing, and each
with an optional comment. -/

namespace ShadowTrace.Toml

def isBlank (c : Char) : Bool := c = ' ' || c = '\t'

def skipBlanks (text : List Char) : List Char := text.dropWhile isBlank

/-- The text behind a comment, if one starts here; `none` if it holds a control character. -/
def skipComment : List Char → Option (List Char)
  | '#' :: rest =>
    let ends (c : Char) : Bool := c = '\n' || c = '\r'
    let comment := rest.takeWhile fun c => !ends c
    if comment.any isControl then none else some (rest.dropWhile fun c => !ends c)
  | text => some text

/-- The rest behind the end of this line, on which nothing else may stand. -/
def endLine (text : List Char) : Option (List Char) := do
  match ← skipComment (skipBlanks text) with
  | [] => some []
  | '\n' :: rest => some rest
  | '\r' :: '\n' :: rest => some rest
  | _ => none

/-- Skips blanks, comments and whole lines. -/
def skipSpace : Nat → List Char → Option (List Char)
  | 0, _ => none
  | fuel + 1, text => do
    match ← skipComment (skipBlanks text) with
    | '\n' :: rest => skipSpace fuel rest
    | '\r' :: '\n' :: rest => skipSpace fuel rest
    | rest => some rest

def isBareChar (c : Char) : Bool := c.isAlphanum || c = '_' || c = '-'

/-- One part of a key: a bare word or a string on one line. -/
def readKeyPart (text : List Char) : Option (String × List Char) :=
  match text with
  | '"' :: rest => (readBasic rest).map fun (content, rest) => (String.ofList content, rest)
  | '\'' :: rest => (readLiteral rest).map fun (content, rest) => (String.ofList content, rest)
  | _ =>
    let word := text.takeWhile isBareChar
    if word = [] then none else some (String.ofList word, text.dropWhile isBareChar)

/-- The most parts a key may have, and the most levels to which arrays and inline tables may
be nested. -/
def greatestDepth : Nat := 80

/-- A key of one or more parts with dots between them, at most as many as given. -/
def readParts : Nat → List Char → Option (List String × List Char)
  | 0, _ => none
  | most + 1, text => do
    let (part, rest) ← readKeyPart (skipBlanks text)
    match skipBlanks rest with
    | '.' :: rest =>
      let (parts, rest) ← readParts most rest
      return (part :: parts, rest)
    | rest => return ([part], rest)

def readKey (text : List Char) : Option (List String × List Char) := readParts greatestDepth text

mutual

/-- A value of at most `depth` levels of nesting. -/
def readValue : Nat → Nat → List Char → Option (Json × List Char)
  | 0, _, _ => none
  | fuel + 1, depth, text =>
    match text with
    | '"' :: _ => (readString text).map fun (content, rest) => (.string content, rest)
    | '\'' :: _ => (readString text).map fun (content, rest) => (.string content, rest)
    | '[' :: rest =>
      if depth = 0 then none
      else (readItems fuel (depth - 1) rest).map fun (items, rest) => (.array items, rest)
    | '\x7b' :: rest =>
      if depth = 0 then none
      else (readInline fuel (depth - 1) [] rest).map fun (table, rest) =>
        (.object (entriesToJson table), rest)
    | _ => readScalar text

/-- The items of an array, with lines and comments between them, up to the closing bracket. -/
def readItems : Nat → Nat → List Char → Option (List Json × List Char)
  | 0, _, _ => none
  | fuel + 1, depth, text => do
    match ← skipSpace (text.length + 1) text with
    | ']' :: rest => return ([], rest)
    | start =>
      let (item, rest) ← readValue fuel depth start
      match ← skipSpace (rest.length + 1) rest with
      | ',' :: rest =>
        let (items, rest) ← readItems fuel depth rest
        return (item :: items, rest)
      | ']' :: rest => return ([item], rest)
      | _ => none

/-- The entries of an inline table, with lines and comments between them, up to the
closing brace. -/
def readInline : Nat → Nat → Table → List Char → Option (Table × List Char)
  | 0, _, _, _ => none
  | fuel + 1, depth, table, text => do
    match ← skipSpace (text.length + 1) text with
    | '\x7d' :: rest => return (table, rest)
    | start =>
      let (key, rest) ← readKey start
      match ← skipSpace (rest.length + 1) rest with
      | '=' :: rest =>
        let (value, rest) ← readValue fuel depth (← skipSpace (rest.length + 1) rest)
        let table ← table.insert value key
        match ← skipSpace (rest.length + 1) rest with
        | ',' :: rest => readInline fuel depth table rest
        | '\x7d' :: rest => return (table, rest)
        | _ => none
      | _ => none

end

/-- What has been read: all entries, and the table that the next keys belong to. -/
structure State where
  root : Table := []
  path : List String := []

/-- Enters the table of a header. -/
def State.enter (state : State) (key : List String) (declare : String → Table → Option Table) :
    Option State := do
  let last ← key.getLast?
  let root ← state.root.within (declare last) key.dropLast
  return { root, path := key }

/-- A line of the document that is not empty. -/
def readLine (state : State) (text : List Char) : Option (State × List Char) := do
  match text with
  | '[' :: '[' :: rest =>
    let (key, rest) ← readKey rest
    match rest with
    | ']' :: ']' :: rest => return (← state.enter key Table.declareNext, ← endLine rest)
    | _ => none
  | '[' :: rest =>
    let (key, rest) ← readKey rest
    match rest with
    | ']' :: rest => return (← state.enter key Table.declare, ← endLine rest)
    | _ => none
  | _ =>
    let (key, rest) ← readKey text
    match rest with
    | '=' :: rest =>
      let (value, rest) ← readValue (rest.length + 1) greatestDepth (skipBlanks rest)
      let root ← state.root.within (Table.insert value key) state.path
      return ({ state with root }, ← endLine rest)
    | _ => none

def readLines : Nat → State → List Char → Option Table
  | 0, _, _ => none
  | fuel + 1, state, text => do
    match ← skipSpace (text.length + 1) text with
    | [] => return state.root
    | rest =>
      let (state, rest) ← readLine state rest
      readLines fuel state rest

/-- The entries of a document. -/
def read? (text : String) : Option (List (String × Json)) :=
  let chars := match text.toList with
    | '\ufeff' :: rest => rest
    | other => other
  (readLines (chars.length + 1) {} chars).map entriesToJson

end ShadowTrace.Toml
