/-! # Text

Numbers as text, lower case, and cutting a text at a separator. -/

namespace ShadowTrace.Text

/-! ## Numbers

Digits are written most significant first, lower case, with no leading zero. -/

def decimal (n : Nat) : String :=
  String.ofList (Nat.toDigits 10 n)

def signed : Int → String
  | .ofNat n => decimal n
  | .negSucc n => "-" ++ decimal (n + 1)

def hex (n : Nat) : String :=
  String.ofList (Nat.toDigits 16 n)

/-- Binary digits, filled with zeros on the left to at least `width`. -/
def binary (width n : Nat) : String :=
  let digits := Nat.toDigits 2 n
  String.ofList (List.replicate (width - digits.length) '0' ++ digits)

/-! ## Lower case

Only the letters of ASCII matter to the words and names compared here. Besides `A` to `Z` the Kelvin
sign is the one character whose lower case is such a letter. -/

def lowerChar (c : Char) : Char :=
  if c = '\u212a' then 'k' else c.toLower

def lower (text : String) : String :=
  String.ofList (text.toList.map lowerChar)

/-! ## Splitting

A text is cut at every separator; joining the parts with the separator gives it back. -/

def splitChars (separator : Char) : List Char → List (List Char)
  | [] => [[]]
  | c :: rest =>
    if c = separator then [] :: splitChars separator rest
    else match splitChars separator rest with
      | [] => [[c]]
      | part :: parts => (c :: part) :: parts

def split (separator : Char) (text : String) : List String :=
  (splitChars separator text.toList).map String.ofList

theorem splitChars_ne_nil (separator : Char) (text : List Char) :
    splitChars separator text ≠ [] := by
  cases text with
  | nil => simp [splitChars]
  | cons c rest =>
    simp only [splitChars]
    split
    · simp
    · split <;> simp

end ShadowTrace.Text
