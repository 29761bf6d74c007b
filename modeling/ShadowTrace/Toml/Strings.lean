import ShadowTrace.Json.Reader

/-! # TOML strings

A basic string has escapes, a literal one has none; either may span lines between triple quotes. -/

namespace ShadowTrace.Toml

/-- Control characters other than the tab stand in no string and no comment. -/
def isControl (c : Char) : Bool := (c.toNat < 32 && c ≠ '\t') || c.toNat = 127

def escaped? : Char → Option Char
  | '"' => some '"'
  | '\\' => some '\\'
  | 'b' => some '\x08'
  | 'e' => some '\x1b'
  | 'f' => some '\x0c'
  | 'n' => some '\n'
  | 'r' => some '\r'
  | 't' => some '\t'
  | _ => none

/-- The character with the code written in hexadecimal, unless it is no character. -/
def scalar? (digits : List Char) : Option Char := do
  let code ← Json.hexNumber? digits
  if code < 0xd800 || (0xdfff < code && code < 0x110000) then some (Char.ofNat code) else none

def prepend (c : Char) : List Char × List Char → List Char × List Char
  | (content, rest) => (c :: content, rest)

/-- A basic string on one line, after its opening quote. -/
def readBasic : List Char → Option (List Char × List Char)
  | [] => none
  | '"' :: rest => some ([], rest)
  | '\\' :: 'x' :: a :: b :: rest => do
    let char ← scalar? [a, b]
    (readBasic rest).map (prepend char)
  | '\\' :: 'u' :: a :: b :: c :: d :: rest => do
    let char ← scalar? [a, b, c, d]
    (readBasic rest).map (prepend char)
  | '\\' :: 'U' :: a :: b :: c :: d :: e :: f :: g :: h :: rest => do
    let char ← scalar? [a, b, c, d, e, f, g, h]
    (readBasic rest).map (prepend char)
  | '\\' :: c :: rest => do
    let char ← escaped? c
    (readBasic rest).map (prepend char)
  | c :: rest => if isControl c || c = '\\' then none else (readBasic rest).map (prepend c)

/-- A literal string on one line, after its opening quote. -/
def readLiteral : List Char → Option (List Char × List Char)
  | [] => none
  | '\'' :: rest => some ([], rest)
  | c :: rest => if isControl c then none else (readLiteral rest).map (prepend c)

/-- How the reader of a long basic string treats blanks: it takes them, it looks for the end of a
line that ends with a backslash, or it skips blanks and line ends after such a line. -/
inductive Blanks where
  | taken
  | untilLineEnd
  | skipped
deriving DecidableEq

/-- Closing quotes: one or two more before the last three belong to the string. -/
def readEnd (quote : Char) : List Char → List Char × List Char
  | a :: b :: rest =>
    if a = quote && b = quote then ([quote, quote], rest)
    else if a = quote then ([quote], b :: rest)
    else ([], a :: b :: rest)
  | [a] => if a = quote then ([quote], []) else ([], [a])
  | [] => ([], [])

/-- A basic string over several lines, after its opening quotes. -/
def readLongBasic : Blanks → List Char → Option (List Char × List Char)
  | _, [] => none
  | blanks, '\r' :: '\n' :: rest =>
    if blanks = .taken then (readLongBasic .taken rest).map (prepend '\r' ∘ prepend '\n')
    else readLongBasic .skipped rest
  | blanks, '\n' :: rest =>
    if blanks = .taken then (readLongBasic .taken rest).map (prepend '\n')
    else readLongBasic .skipped rest
  | .untilLineEnd, c :: rest =>
    if c = ' ' || c = '\t' then readLongBasic .untilLineEnd rest else none
  | _, '"' :: '"' :: '"' :: rest => some (readEnd '"' rest)
  | _, '\\' :: '\r' :: '\n' :: rest => readLongBasic .skipped rest
  | _, '\\' :: '\n' :: rest => readLongBasic .skipped rest
  | _, '\\' :: ' ' :: rest => readLongBasic .untilLineEnd rest
  | _, '\\' :: '\t' :: rest => readLongBasic .untilLineEnd rest
  | _, '\\' :: 'x' :: a :: b :: rest => do
    let char ← scalar? [a, b]
    (readLongBasic .taken rest).map (prepend char)
  | _, '\\' :: 'u' :: a :: b :: c :: d :: rest => do
    let char ← scalar? [a, b, c, d]
    (readLongBasic .taken rest).map (prepend char)
  | _, '\\' :: 'U' :: a :: b :: c :: d :: e :: f :: g :: h :: rest => do
    let char ← scalar? [a, b, c, d, e, f, g, h]
    (readLongBasic .taken rest).map (prepend char)
  | _, '\\' :: c :: rest => do
    let char ← escaped? c
    (readLongBasic .taken rest).map (prepend char)
  | blanks, c :: rest =>
    if blanks = .skipped && (c = ' ' || c = '\t') then readLongBasic .skipped rest
    else if isControl c || c = '\\' then none
    else (readLongBasic .taken rest).map (prepend c)

/-- A literal string over several lines, after its opening quotes. -/
def readLongLiteral : List Char → Option (List Char × List Char)
  | [] => none
  | '\r' :: '\n' :: rest => (readLongLiteral rest).map (prepend '\r' ∘ prepend '\n')
  | '\'' :: '\'' :: '\'' :: rest => some (readEnd '\'' rest)
  | c :: rest => if isControl c && c ≠ '\n' then none else (readLongLiteral rest).map (prepend c)

/-- A line end right after the opening quotes is not part of the string. -/
def dropLineEnd : List Char → List Char
  | '\r' :: '\n' :: rest => rest
  | '\n' :: rest => rest
  | text => text

/-- A string of any kind, `none` also if there is none. -/
def readString : List Char → Option (String × List Char)
  | '"' :: '"' :: '"' :: rest =>
    (readLongBasic .taken (dropLineEnd rest)).map fun (content, rest) =>
      (String.ofList content, rest)
  | '"' :: rest => (readBasic rest).map fun (content, rest) => (String.ofList content, rest)
  | '\'' :: '\'' :: '\'' :: rest =>
    (readLongLiteral (dropLineEnd rest)).map fun (content, rest) => (String.ofList content, rest)
  | '\'' :: rest => (readLiteral rest).map fun (content, rest) => (String.ofList content, rest)
  | _ => none

end ShadowTrace.Toml
