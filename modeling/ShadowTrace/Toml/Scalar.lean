import ShadowTrace.Json.Reader

/-! # TOML numbers, truth values and dates

A scalar that is not a string is a run of letters, digits, signs, points and colons. Dates and times
have no type of their own in the result: they are kept as text in their usual spelling. -/

namespace ShadowTrace.Toml

/-- The digits of a number without the underscores, each of which has to stand between
two digits. -/
def plainDigits? (isDigit : Char → Bool) : List Char → Option (List Char)
  | [] => none
  | [c] => if isDigit c then some [c] else none
  | c :: '_' :: d :: rest =>
    if isDigit c then (plainDigits? isDigit (d :: rest)).map (c :: ·) else none
  | c :: rest => if isDigit c then (plainDigits? isDigit rest).map (c :: ·) else none

def digitValue (c : Char) : Nat := (Json.hexDigit? c).getD 0

def numberIn (base : Nat) (digits : List Char) : Nat :=
  digits.foldl (fun number c => base * number + digitValue c) 0

def isDigitIn (base : Nat) (c : Char) : Bool :=
  match Json.hexDigit? c with
  | some digit => digit < base
  | none => false

def signedWord? (number : Int) : Option Json :=
  if Decimal.isSignedWord number then some (.int number) else none

def basedInteger? (base : Nat) (text : List Char) : Option Json := do
  let digits ← plainDigits? (isDigitIn base) text
  signedWord? (numberIn base digits)

/-- Decimal digits with no zero in front of others. -/
def wholeDigits? (text : List Char) : Option (List Char) := do
  let digits ← plainDigits? Char.isDigit text
  if digits.length > 1 && digits.head? = some '0' then none else some digits

def cutSign : List Char → Bool × List Char
  | '-' :: rest => (true, rest)
  | '+' :: rest => (false, rest)
  | text => (false, text)

def integer? (text : List Char) : Option Json :=
  match text with
  | '0' :: 'x' :: rest => basedInteger? 16 rest
  | '0' :: 'o' :: rest => basedInteger? 8 rest
  | '0' :: 'b' :: rest => basedInteger? 2 rest
  | _ => do
    let (negative, text) := cutSign text
    let digits ← wholeDigits? text
    let number : Int := numberIn 10 digits
    signedWord? (if negative then -number else number)

/-- The text before and after the first character that satisfies the test. -/
def cutAt (test : Char → Bool) (text : List Char) : List Char × Option (List Char) :=
  match text.dropWhile (fun c => !test c) with
  | [] => (text, none)
  | _ :: rest => (text.takeWhile (fun c => !test c), some rest)

def exponent? : Option (List Char) → Option Int
  | none => some 0
  | some text => do
    let (negative, text) := cutSign text
    let digits ← plainDigits? Char.isDigit text
    let number : Int := numberIn 10 digits
    return if negative then -number else number

def fraction? : Option (List Char) → Option (List Char)
  | none => some []
  | some text => plainDigits? Char.isDigit text

/-- The word of NaN, infinity and their negatives. -/
def special? (negative : Bool) (text : List Char) : Option Json :=
  let sign : Nat := if negative then Decimal.twoTo 63 else 0
  if text = ['i', 'n', 'f'] then some (.double (UInt64.ofNat (Decimal.infinityWord + sign)))
  else if text = ['n', 'a', 'n'] then
    some (.double (UInt64.ofNat (Decimal.infinityWord + Decimal.twoTo 51 + sign)))
  else none

/-- The double nearest to a decimal, unless that is infinite. -/
def real? (negative : Bool) (coefficient : Nat) (scale : Int) : Option Json :=
  let word := Decimal.doubleWord negative coefficient scale
  match Decimal.Layout.double.read word.toNat with
  | .infinite _ => none
  | _ => some (.double word)

def float? (text : List Char) : Option Json := do
  let (negative, text) := cutSign text
  match special? negative text with
  | some value => return value
  | none =>
    let (mantissa, exponentText) := cutAt (fun c => c = 'e' || c = 'E') text
    let (wholeText, fractionText) := cutAt (· = '.') mantissa
    if exponentText.isNone && fractionText.isNone then none
    let whole ← wholeDigits? wholeText
    let fraction ← fraction? fractionText
    let exponent ← exponent? exponentText
    real? negative (numberIn 10 (whole ++ fraction)) (exponent - fraction.length)

/-- A number of exactly so many digits, within bounds. -/
def field? (width least greatest : Nat) (text : List Char) : Option Nat :=
  let number := numberIn 10 text
  if text.length = width && text.all Char.isDigit && least ≤ number && number ≤ greatest then
    some number
  else none

def isLeapYear (year : Nat) : Bool := year % 4 = 0 && (year % 100 ≠ 0 || year % 400 = 0)

def daysIn (year month : Nat) : Nat :=
  if month = 2 then (if isLeapYear year then 29 else 28)
  else if month = 4 || month = 6 || month = 9 || month = 11 then 30
  else 31

def isDate (text : List Char) : Bool :=
  match text.take 4, (text.drop 4).take 1, (text.drop 5).take 2, (text.drop 7).take 1,
    text.drop 8 with
  | year, ['-'], month, ['-'], day =>
    match field? 4 0 9999 year, field? 2 1 12 month with
    | some year, some month => (field? 2 1 (daysIn year month) day).isSome
    | _, _ => false
  | _, _, _, _, _ => false

def dropZeros (digits : List Char) : List Char := (digits.reverse.dropWhile (· = '0')).reverse

/-- The fraction of a second, if there is one: nine digits count, and of zeros at the end only a
single digit is kept. -/
def secondFraction? : List Char → Option (List Char)
  | [] => some []
  | '.' :: digits =>
    if digits ≠ [] && digits.all Char.isDigit then
      let kept := dropZeros (digits.take 9)
      some ('.' :: if kept = [] then ['0'] else kept)
    else none
  | _ => none

/-- The seconds of a time, if there are any. -/
def seconds? : List Char → Option (List Char)
  | [] => some []
  | ':' :: rest =>
    if (field? 2 0 60 (rest.take 2)).isSome then
      (secondFraction? (rest.drop 2)).map (':' :: rest.take 2 ++ ·) else none
  | _ => none

/-- A time of day in its usual spelling. -/
def time? (text : List Char) : Option (List Char) :=
  match text.take 2, (text.drop 2).take 1, (text.drop 3).take 2 with
  | hour, [':'], minute =>
    if (field? 2 0 23 hour).isSome && (field? 2 0 59 minute).isSome then
      (seconds? (text.drop 5)).map (text.take 5 ++ ·)
    else none
  | _, _, _ => none

/-- A distance from universal time in hours and minutes, after its sign. No distance at all has a
plus sign. -/
def offset? (sign : Char) (text : List Char) : Option (List Char) :=
  match text.take 2, (text.drop 2).take 1, text.drop 3 with
  | hour, [':'], minute =>
    match field? 2 0 23 hour, field? 2 0 59 minute with
    | some hours, some minutes => some ((if hours = 0 && minutes = 0 then '+' else sign) :: text)
    | _, _ => none
  | _, _, _ => none

/-- A time of day with or without a distance from universal time. -/
def offsetTime? (text : List Char) : Option (List Char) := do
  let clock := text.takeWhile fun c => c.isDigit || c = ':' || c = '.'
  let time ← time? clock
  match text.drop clock.length with
  | [] => return time
  | [z] => if z = 'Z' || z = 'z' then return time ++ ['Z'] else none
  | sign :: distance =>
    if sign = '+' || sign = '-' then return time ++ (← offset? sign distance) else none

def dateTime? (text : List Char) : Option Json :=
  let date := text.take 10
  if isDate date then
    match text.drop 10 with
    | [] => some (.string (String.ofList date))
    | c :: rest =>
      if c = 'T' || c = 't' || c = ' ' then
        (offsetTime? rest).map fun time => .string (String.ofList (date ++ 'T' :: time))
      else none
  else (time? text).map fun time => .string (String.ofList time)

/-- The value of a run of characters. -/
def scalar (text : List Char) : Option Json :=
  if text = ['t', 'r', 'u', 'e'] then some (.bool true)
  else if text = ['f', 'a', 'l', 's', 'e'] then some (.bool false)
  else integer? text <|> float? text <|> dateTime? text

def isScalarChar (c : Char) : Bool :=
  c.isAlphanum || c = '_' || c = '+' || c = '-' || c = '.' || c = ':'

/-- A date may be followed by a blank and a time. -/
def scalarRun (text : List Char) : List Char × List Char :=
  let run := text.takeWhile isScalarChar
  let rest := text.dropWhile isScalarChar
  match rest with
  | ' ' :: c :: more =>
    if isDate run && c.isDigit then
      (run ++ ' ' :: (c :: more).takeWhile isScalarChar, (c :: more).dropWhile isScalarChar)
    else (run, rest)
  | _ => (run, rest)

def readScalar (text : List Char) : Option (Json × List Char) :=
  let (run, rest) := scalarRun text
  (scalar run).map fun value => (value, rest)

end ShadowTrace.Toml
