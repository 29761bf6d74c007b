import ShadowTrace.Text
import ShadowTrace.Text.Invisible

/-! # Quoted text

A quoted character or string stands on one line and can be read back: the closing quote, the
backslash and the common control characters get a backslash, and whatever could not be seen is
written by its code point. -/

namespace ShadowTrace.Text

/-- The code point as it stands between two `quote` characters. -/
def escape (quote : Char) (code : Nat) : String :=
  if code = 0 then "\\0"
  else if code = 9 then "\\t"
  else if code = 10 then "\\n"
  else if code = 13 then "\\r"
  else if code = 92 then "\\\\"
  else if code = quote.toNat then String.ofList ['\\', quote]
  else if isInvisible code then "\\u\x7b" ++ hex code ++ "\x7d"
  else String.singleton (Char.ofNat code)

/-- A UTF-16 unit between single quotes. A lone surrogate is invisible, so it is written by its
code point. -/
def quoteUnit (unit : UInt16) : String :=
  "'" ++ escape '\'' unit.toNat ++ "'"

def quote (text : String) : String :=
  "\"" ++ String.join (text.toList.map fun c => escape '"' c.toNat) ++ "\""

end ShadowTrace.Text
