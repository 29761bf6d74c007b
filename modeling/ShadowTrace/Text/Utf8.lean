/-! # Text as bytes

A character is one byte or a sequence of up to four. Bytes that are no text are read as far as they
go: the bytes of a sequence that breaks off are read as one replacement character, and so is a byte
that neither begins nor continues a sequence. -/

namespace ShadowTrace.Text

def utf8 (text : String) : ByteArray := text.toUTF8

/-- A sequence that has begun: the number its bytes give so far, how many bytes are still to come,
and the bounds of the next one. -/
structure Sequence where
  number : Nat
  missing : Nat
  low : Nat := 0x80
  high : Nat := 0xbf

/-- The sequence a byte begins. The bounds of its second byte keep out longer forms of smaller
numbers, surrogates, and numbers above the last character. -/
def Sequence.begin? (byte : Nat) : Option Sequence :=
  if byte = 0xe0 then some { number := 0, missing := 2, low := 0xa0 }
  else if byte = 0xed then some { number := 13, missing := 2, high := 0x9f }
  else if byte = 0xf0 then some { number := 0, missing := 3, low := 0x90 }
  else if byte = 0xf4 then some { number := 4, missing := 3, high := 0x8f }
  else if 0xc2 ≤ byte && byte ≤ 0xdf then some { number := byte - 0xc0, missing := 1 }
  else if 0xe1 ≤ byte && byte ≤ 0xef then some { number := byte - 0xe0, missing := 2 }
  else if 0xf1 ≤ byte && byte ≤ 0xf3 then some { number := byte - 0xf0, missing := 3 }
  else none

def replacement : Char := '�'

/-- The characters a byte completes when no sequence has begun, and the sequence it begins. -/
def firstByte (byte : Nat) : List Char × Option Sequence :=
  if byte < 0x80 then ([Char.ofNat byte], none)
  else match Sequence.begin? byte with
    | some sequence => ([], some sequence)
    | none => ([replacement], none)

/-- The characters a byte completes when a sequence has begun, and the sequence that is
then open. -/
def nextByte (sequence : Sequence) (byte : Nat) : List Char × Option Sequence :=
  if sequence.low ≤ byte && byte ≤ sequence.high then
    let number := 64 * sequence.number + (byte - 0x80)
    if sequence.missing ≤ 1 then ([Char.ofNat number], none)
    else ([], some { number, missing := sequence.missing - 1 })
  else
    let (chars, begun) := firstByte byte
    (replacement :: chars, begun)

def decode : Option Sequence → List UInt8 → List Char
  | none, [] => []
  | some _, [] => [replacement]
  | none, byte :: rest =>
    let (chars, begun) := firstByte byte.toNat
    chars ++ decode begun rest
  | some sequence, byte :: rest =>
    let (chars, begun) := nextByte sequence byte.toNat
    chars ++ decode begun rest

/-- Reads bytes back as text. -/
def ofUtf8 (bytes : ByteArray) : String :=
  match String.fromUTF8? bytes with
  | some text => text
  | none => String.ofList (decode none bytes.toList)

end ShadowTrace.Text
