import ShadowTrace.Proofs.Lines
import ShadowTrace.Proofs.Splitting

/-! # Reading records back

The form of a record says what the record is, as long as no floating-point number is in it. Its
parts can be taken off from the left, one after another: each can be told from the others by how it
starts, and ends by itself or before what cannot continue it. A numeral ends before what is no
digit, a quoted character at its quote, a list at its bracket. -/

namespace ShadowTrace

namespace Text

/-! ## Numerals -/

/-- A digit of a base up to sixteen. -/
def isDigit (c : Char) : Bool := "0123456789abcdef".toList.contains c

/-- What cannot continue a numeral. -/
def Stops (rest : List Char) : Prop := ∀ c ∈ rest.head?, isDigit c = false

@[simp]
theorem stops_nil : Stops [] := by simp [Stops]

@[simp]
theorem stops_cons (c : Char) (rest : List Char) :
    Stops (c :: rest) ↔ isDigit c = false := by simp [Stops]

/-- What is printed for the two tells them apart and ends where it ends, before anything that cannot
continue a numeral. -/
def Legible {α : Type} (print : α → String) (one two : α) : Prop :=
  ∀ ⦃rest other : List Char⦄, Stops rest → Stops other →
    (print one).toList ++ rest = (print two).toList ++ other →
    one = two ∧ rest = other

theorem isDigit_of_mem_toDigits {base : Nat} (large : 1 < base) (small : base ≤ 16) {number : Nat}
    {c : Char} (member : c ∈ Nat.toDigits base number) : isDigit c = true := by
  obtain ⟨digit, below, rfl⟩ := mem_toDigits large number member
  have all : ∀ digit < 16, isDigit digit.digitChar = true := by decide
  exact all digit (by omega)

theorem digitChar_inj {first second : Nat} (below : first < 16) (below' : second < 16)
    (same : first.digitChar = second.digitChar) : first = second := by
  have all : ∀ first < 16, ∀ second < 16, Nat.digitChar first = Nat.digitChar second →
    first = second := by decide
  exact all first below second below' same

theorem toDigits_inj {base : Nat} (large : 1 < base) (small : base ≤ 16) {first second : Nat}
    (same : Nat.toDigits base first = Nat.toDigits base second) : first = second := by
  -- On the leading digits; the last digit is the remainder.
  induction first using Nat.strongRecOn generalizing second with
  | ind first ih =>
    rw [@Nat.toDigits_eq_if base first large, @Nat.toDigits_eq_if base second large] at same
    split at same <;> split at same
    next below below' => exact digitChar_inj (by omega) (by omega) (by simpa using same)
    next =>
      have lengths := congrArg List.length same
      simp [Nat.toDigits_ne_nil] at lengths
    next =>
      have lengths := congrArg List.length same
      simp [Nat.toDigits_ne_nil] at lengths
    next above above' =>
      obtain ⟨leading, last⟩ := List.append_inj' same rfl
      have quotients := ih _ (Nat.div_lt_self (by omega) large) leading
      have remainders : first % base = second % base :=
        digitChar_inj (by have := Nat.mod_lt first (by omega : 0 < base); omega)
          (by have := Nat.mod_lt second (by omega : 0 < base); omega) (by simpa using last)
      rw [← Nat.div_add_mod first base, ← Nat.div_add_mod second base, quotients, remainders]

theorem legible_toDigits {base : Nat} (large : 1 < base) (small : base ≤ 16) (first second : Nat) :
    Legible (fun number => String.ofList (Nat.toDigits base number)) first second := by
  intro rest other stops stops' same
  simp only [String.toList_ofList] at same
  -- The numeral is all the digits there are at the front.
  have front (number : Nat) {rest : List Char} (stops : Stops rest) :
      (Nat.toDigits base number ++ rest).takeWhile isDigit = Nat.toDigits base number := by
    rw [List.takeWhile_append_of_pos fun c member => isDigit_of_mem_toDigits large small member]
    cases rest with
    | nil => simp
    | cons c rest => simp [(stops_cons c rest).mp stops]
  have numerals := congrArg (List.takeWhile isDigit) same
  rw [front first stops, front second stops'] at numerals
  rw [numerals] at same
  exact ⟨toDigits_inj large small numerals, List.append_cancel_left same⟩

theorem legible_decimal (first second : Nat) : Legible decimal first second :=
  legible_toDigits (by decide) (by decide) first second

theorem legible_hex (first second : Nat) : Legible hex first second :=
  legible_toDigits (by decide) (by decide) first second

/-! ## How a text starts -/

/-- The character, but one for all that numbers start with and one for both truth values. -/
def mark (c : Char) : Char := if c.isDigit || c = '-' then '0' else if c = 'f' then 't' else c

def start? (text : String) : Option Char := text.toList.head?.map mark

theorem start?_append {text : String} {c : Char} (starts : start? text = some c) (rest : String) :
    start? (text ++ rest) = some c := by
  cases first : text.toList with
  | nil => simp [start?, first] at starts
  | cons d tail => simpa [start?, first] using starts

theorem decimal_eq_cons (number : Nat) :
    ∃ c rest, (decimal number).toList = c :: rest ∧ c.isDigit = true := by
  cases digits : Nat.toDigits 10 number with
  | nil => exact absurd digits Nat.toDigits_ne_nil
  | cons c rest =>
    have member : c ∈ Nat.toDigits 10 number := by simp [digits]
    exact ⟨c, rest, by simp [decimal, digits],
      Nat.isDigit_of_mem_toDigits (by decide) (by decide) member⟩

theorem start?_decimal (number : Nat) : start? (decimal number) = some '0' := by
  obtain ⟨c, rest, digits, digit⟩ := decimal_eq_cons number
  simp [start?, digits, mark, digit]

theorem start?_signed (number : Int) : start? (signed number) = some '0' := by
  cases number with
  | ofNat number => exact start?_decimal number
  | negSucc number => exact start?_append rfl _

/-- Two texts that agree, whatever follows them, start in the same way. -/
theorem start_eq (first second : String) {rest other : List Char}
    (same : first.toList ++ rest = second.toList ++ other) {c d : Char}
    (starts : start? first = some c) (starts' : start? second = some d) : c = d := by
  cases one : first.toList with
  | nil => simp [start?, one] at starts
  | cons a tail =>
    cases two : second.toList with
    | nil => simp [start?, two] at starts'
    | cons b tail' =>
      simp only [start?, one, two, List.head?_cons, Option.map_some, Option.some.injEq]
        at starts starts'
      simp only [one, two, List.cons_append, List.cons.injEq] at same
      rw [← starts, ← starts', same.1]

theorem legible_signed (first second : Int) : Legible signed first second := by
  intro rest other stops stops' same
  -- No numeral starts with the sign.
  have unsigned (number : Nat)
      (rest other : List Char) : (decimal number).toList ++ rest ≠ '-' :: other := by
    obtain ⟨c, tail, digits, digit⟩ := decimal_eq_cons number
    rw [digits]
    intro same
    obtain rfl := (List.cons.inj same).1
    contradiction
  cases first with
  | ofNat first =>
    cases second with
    | ofNat second =>
      obtain ⟨rfl, after⟩ := legible_decimal first second stops stops' same
      exact ⟨rfl, after⟩
    | negSucc second =>
      exact absurd (by simpa [signed] using same)
        (unsigned first rest ((decimal (second + 1)).toList ++ other))
  | negSucc first =>
    cases second with
    | ofNat second =>
      exact absurd (by simpa [signed] using same.symm)
        (unsigned second other ((decimal (first + 1)).toList ++ rest))
    | negSucc second =>
      obtain ⟨next, after⟩ :=
        legible_decimal (first + 1) (second + 1) stops stops' (by simpa [signed] using same)
      obtain rfl : first = second := by omega
      exact ⟨rfl, after⟩

/-! ## Escapes -/

/-- How a character between quotes is written: behind a backslash, by its code, or as it is if it is
neither of these. -/
inductive Spelled {α : Type} (quote : Char) (named plain : Char → α)
    (Coded : α → List Char → Prop) : α → List Char → Prop where
  | named (c : Char) (other : c ≠ 'u') : Spelled quote named plain Coded (named c) ['\\', c]
  | coded (value : α) (digits : List Char) (code : Coded value digits) :
    Spelled quote named plain Coded value ('\\' :: 'u' :: digits)
  | plain (c : Char) (other : c ≠ '\\') (inside : c ≠ quote) :
    Spelled quote named plain Coded (plain c) [c]

section

variable {α : Type} {quote : Char} {named plain : Char → α} {Coded : α → List Char → Prop}
  {first second : α}
  {text text' rest other : List Char}

/-- The backslash and what is behind it tell the three ways apart, so only the codes have to
be compared. -/
theorem Spelled.append_inj (spelled : Spelled quote named plain Coded first text)
    (spelled' : Spelled quote named plain Coded second text')
    (codes : ∀ {digits digits'}, Coded first digits → Coded second digits' →
      digits ++ rest = digits' ++ other → first = second ∧ rest = other)
    (same : text ++ rest = text' ++ other) : first = second ∧ rest = other := by
  cases spelled with
  | named c ordinary =>
    cases spelled' with
    | named d ordinary' =>
      obtain ⟨rfl, after⟩ : c = d ∧ rest = other := by simpa using same
      exact ⟨rfl, after⟩
    | coded _ digits code => exact absurd (List.cons.inj (List.cons.inj same).2).1 ordinary
    | plain d ordinary' => exact absurd (List.cons.inj same).1.symm ordinary'
  | coded _ digits code =>
    cases spelled' with
    | named d ordinary' => exact absurd (List.cons.inj (List.cons.inj same).2).1.symm ordinary'
    | coded _ digits' code' => exact codes code code' (List.cons.inj (List.cons.inj same).2).2
    | plain d ordinary' => exact absurd (List.cons.inj same).1.symm ordinary'
  | plain c ordinary =>
    cases spelled' with
    | named | coded => exact absurd (List.cons.inj same).1 ordinary
    | plain d ordinary' =>
      obtain ⟨rfl, after⟩ : c = d ∧ rest = other := by simpa using same
      exact ⟨rfl, after⟩

/-- What is inside the quotes does not look like the closing quote. -/
theorem Spelled.ne_quote (spelled : Spelled quote named plain Coded first text)
    (mark : quote ≠ '\\') :
    quote :: rest ≠ text ++ other := by
  intro same
  cases spelled with
  | named | coded => exact mark (List.cons.inj same).1
  | plain c _ inside => exact inside (List.cons.inj same).1.symm

end

/-- What a character stands for behind a backslash. -/
def named (c : Char) : Nat :=
  if c = '0' then 0 else if c = 't' then 9 else if c = 'n' then 10 else if c = 'r' then 13
  else c.toNat

theorem spelled_escape {code : Nat} (shown : code.isValidChar ∨ isInvisible code = true) :
    Spelled '\'' named Char.toNat
      (fun code digits => digits = '\x7b' :: ((hex code).toList ++ ['\x7d'])) code
      (escape '\'' code).toList := by
  unfold escape
  split
  next zero => exact zero ▸ .named '0' (by decide)
  split
  next tab => exact tab ▸ .named 't' (by decide)
  split
  next newline => exact newline ▸ .named 'n' (by decide)
  split
  next feed => exact feed ▸ .named 'r' (by decide)
  split
  next backslash => exact backslash ▸ .named '\\' (by decide)
  next not_backslash =>
  split
  next quote => exact quote ▸ .named '\'' (by decide)
  next not_quote =>
  split
  · have text : ("\\u\x7b" ++ hex code ++ "\x7d").toList =
      '\\' :: 'u' :: '\x7b' :: ((hex code).toList ++ ['\x7d']) := by simp
    rw [text]
    exact .coded code _ rfl
  next visible =>
    obtain ⟨c, rfl⟩ : ∃ c : Char, c.toNat = code :=
      ⟨Char.ofNat code, toNat_ofNat (shown.resolve_right visible)⟩
    rw [Char.ofNat_toNat, String.toList_singleton]
    refine .plain c ?_ ?_
    · rintro rfl
      exact not_backslash rfl
    · rintro rfl
      exact not_quote rfl

theorem shown_toNat (unit : UInt16) : unit.toNat.isValidChar ∨ isInvisible unit.toNat = true := by
  have below := unit.toNat_lt
  by_cases valid : unit.toNat.isValidChar
  · exact .inl valid
  · -- The surrogates are in one range of what cannot be seen.
    have surrogate : 0xd800 ≤ unit.toNat ∧ unit.toNat ≤ 0xdfff := by
      simp only [Nat.isValidChar] at valid
      omega
    have range : (0xd7fc, 0xf8ff) ∈ invisibleRanges := by decide +kernel
    refine .inr (List.any_eq_true.mpr ⟨_, range, ?_⟩)
    simp
    omega

theorem legible_quoteUnit (first second : UInt16) : Legible quoteUnit first second := by
  intro rest other _ _ same
  simp only [quoteUnit, String.toList_append, List.append_assoc] at same
  have inside := List.append_cancel_left same
  obtain ⟨codes, after⟩ :=
    (spelled_escape (shown_toNat first)).append_inj (spelled_escape (shown_toNat second))
      (by
        rintro _ _ rfl rfl digits
        simp only [List.cons_append, List.append_assoc, List.cons.injEq, true_and] at digits
        obtain ⟨codes, after⟩ := legible_hex _ _ (by simp; decide) (by simp; decide) digits
        exact ⟨codes, (List.cons.inj after).2⟩)
      inside
  exact ⟨UInt16.toNat_inj.mp codes, List.append_cancel_left after⟩

/-! ## Lists -/

section

variable {α : Type} {print : α → String} {separator : String} {blank : List Char} {bracket : Char}
  {first second : List α}
  {rest other : List Char}

/-- Behind an element a comma goes on or the bracket ends the list, and each element ends
before these. -/
theorem following_inj (comma : separator.toList = ',' :: blank) (distinct : bracket ≠ ',')
    (stops : isDigit bracket = false)
    (legible : ∀ one ∈ first, ∀ two ∈ second, Legible print one two)
    (same : ((first.map print).flatMap fun text => separator.toList ++ text.toList) ++
        bracket :: rest =
      ((second.map print).flatMap fun text => separator.toList ++ text.toList) ++
        bracket :: other) :
    first = second ∧ rest = other := by
  have stopped (elements : List α) (rest : List Char) :
      Stops (((elements.map print).flatMap fun text => separator.toList ++ text.toList) ++
        bracket :: rest) := by
    cases elements with
    | nil => simpa using stops
    | cons element elements => simp [comma, isDigit]
  -- One list ends where the other does: a comma is no bracket.
  induction first generalizing second with
  | nil =>
    cases second with
    | nil => exact ⟨rfl, (List.cons.inj same).2⟩
    | cons two second =>
      simp only [comma, List.map_cons, List.flatMap_cons, List.map_nil, List.flatMap_nil,
        List.nil_append, List.cons_append, List.cons.injEq] at same
      exact absurd same.1 distinct
  | cons one first ih =>
    cases second with
    | nil =>
      simp only [comma, List.map_cons, List.flatMap_cons, List.map_nil, List.flatMap_nil,
        List.nil_append, List.cons_append, List.cons.injEq] at same
      exact absurd same.1.symm distinct
    | cons two second =>
      simp only [List.map_cons, List.flatMap_cons, List.append_assoc] at same
      obtain ⟨rfl, after⟩ :=
        legible one (by simp) two (by simp) (stopped first rest) (stopped second other)
        (List.append_cancel_left same)
      obtain ⟨rfl, ended⟩ :=
        ih (fun one member two member' => legible one (by simp [member]) two (by simp [member']))
          after
      exact ⟨rfl, ended⟩

/-- A list can be read if its elements can, and none of them looks like its end. -/
theorem intercalate_append_inj (comma : separator.toList = ',' :: blank) (distinct : bracket ≠ ',')
    (stops : isDigit bracket = false)
    (legible : ∀ one ∈ first, ∀ two ∈ second, Legible print one two)
    (inside : ∀ element, element ∈ first ∨ element ∈ second →
      ∃ c, start? (print element) = some c ∧ c ≠ mark bracket)
    (same : (separator.intercalate (first.map print)).toList ++ bracket :: rest =
      (separator.intercalate (second.map print)).toList ++ bracket :: other) :
    first = second ∧ rest = other := by
  -- The bracket of an empty list stands where another list has its first element.
  have ends : start? (String.singleton bracket) = some (mark bracket) := by simp [start?]
  cases first with
  | nil =>
    cases second with
    | nil => exact ⟨rfl, (List.cons.inj same).2⟩
    | cons two second =>
      obtain ⟨c, starts, outside⟩ := inside two (by simp)
      rw [List.map_cons, toList_intercalate_cons, List.append_assoc] at same
      exact absurd
        (start_eq (String.singleton bracket) (print two) (by simpa using same) ends starts).symm
        outside
  | cons one first =>
    cases second with
    | nil =>
      obtain ⟨c, starts, outside⟩ := inside one (by simp)
      rw [List.map_cons, toList_intercalate_cons, List.append_assoc] at same
      exact absurd
        (start_eq (print one) (String.singleton bracket) (by simpa using same) starts ends) outside
    | cons two second =>
      rw [List.map_cons, List.map_cons, toList_intercalate_cons, toList_intercalate_cons] at same
      refine following_inj comma distinct stops legible ?_
      simp only [List.map_cons, List.flatMap_cons, List.append_assoc] at same ⊢
      rw [same]

end

end Text

/-! ## The text form -/

/-- Floating-point values are written by their number, and different words can be one number. -/
def Value.isExact : Value → Bool
  | .float _ | .double _ => false
  | _ => true

def Snapshot.isExact (operand : Snapshot) : Bool := operand.value.isExact

def Record.isExact (record : Record) : Bool := record.operands.all (·.isExact)

namespace Value

open Text

/-- How the text of the value starts. -/
def mark : Value → Char
  | bool _ => 't'
  | char _ => '\''
  | null => 'n'
  | reference _ => '@'
  | byte _ | short _ | int _ | long _ | float _ | double _ => '0'

theorem start?_text {value : Value} (exact : value.isExact = true) :
    start? value.text = some value.mark := by
  cases value with
  | bool truth => cases truth <;> rfl
  | char unit => exact start?_append (start?_append rfl _) _
  | byte | short | int | long => exact start?_append (start?_signed _) _
  | float | double => contradiction
  | null => rfl
  | reference id => exact start?_append rfl _

/-- An integer and the type that is written behind it. -/
def numeral? : Value → Option (Int × String)
  | byte number => some (number.toInt, "i8")
  | short number => some (number.toInt, "i16")
  | int number => some (number.toInt, "i32")
  | long number => some (number.toInt, "i64")
  | _ => none

theorem text_of_numeral? {value : Value} {number : Int} {type : String}
    (numeral : value.numeral? = some (number, type)) :
    value.text = signed number ++ type ∧ type ∈ ["i8", "i16", "i32", "i64"] := by
  cases value with
  | byte | short | int | long =>
    cases numeral
    exact ⟨rfl, by simp⟩
  | _ => cases numeral

theorem numeral?_inj {one two : Value} {numeral : Int × String}
    (numerals : one.numeral? = some numeral) (numerals' : two.numeral? = some numeral) :
    one = two := by
  cases one <;> cases numerals <;> cases two <;>
    simp_all [numeral?, Int8.toInt_inj, Int16.toInt_inj, Int32.toInt_inj, Int64.toInt_inj]

theorem type_append_inj {type type' : String} (member : type ∈ ["i8", "i16", "i32", "i64"])
    (member' : type' ∈ ["i8", "i16", "i32", "i64"]) {rest other : List Char}
    (same : type.toList ++ rest = type'.toList ++ other) : type = type' ∧ rest = other := by
  simp only [List.mem_cons, List.not_mem_nil, or_false] at member member'
  rcases member with rfl | rfl | rfl | rfl <;> rcases member' with rfl | rfl | rfl | rfl <;>
    simp_all

/-- Integers of different types end differently. -/
theorem legible_numeral {one two : Value} {numeral numeral' : Int × String}
    (numerals : one.numeral? = some numeral) (numerals' : two.numeral? = some numeral') :
    Legible text one two := by
  intro rest other _ _ same
  obtain ⟨number, type⟩ := numeral
  obtain ⟨number', type'⟩ := numeral'
  obtain ⟨text, typed⟩ := text_of_numeral? numerals
  obtain ⟨text', typed'⟩ := text_of_numeral? numerals'
  have stops {type : String} (typed : type ∈ ["i8", "i16", "i32", "i64"])
      (rest : List Char) : Stops (type.toList ++ rest) := by
    simp only [List.mem_cons, List.not_mem_nil, or_false] at typed
    rcases typed with rfl | rfl | rfl | rfl <;> simp [isDigit]
  rw [text, text', String.toList_append, String.toList_append, List.append_assoc, List.append_assoc]
    at same
  obtain ⟨rfl, types⟩ := legible_signed number number' (stops typed rest) (stops typed' other) same
  obtain ⟨rfl, after⟩ := type_append_inj typed typed' types
  exact ⟨numeral?_inj numerals numerals', after⟩

theorem legible_text {one two : Value} (exact : one.isExact = true) (exact' : two.isExact = true) :
    Legible text one two := by
  intro rest other stops stops' same
  -- How they start says of what kind they are.
  have marks := start_eq one.text two.text same (start?_text exact) (start?_text exact')
  cases one with
  | float | double => contradiction
  | bool truth =>
    cases two with
    | bool truth' => cases truth <;> cases truth' <;> simp_all [text]
    | _ => simp [mark] at marks
  | char unit =>
    cases two with
    | char unit' =>
      obtain ⟨rfl, after⟩ := legible_quoteUnit unit unit' stops stops' same
      exact ⟨rfl, after⟩
    | _ => simp [mark] at marks
  | null =>
    cases two with
    | null => exact ⟨rfl, List.append_cancel_left same⟩
    | _ => simp [mark] at marks
  | reference id =>
    cases two with
    | reference id' =>
      simp only [text, String.toList_append, List.append_assoc] at same
      obtain ⟨ids, after⟩ := legible_hex _ _ stops stops' (List.append_cancel_left same)
      exact ⟨by rw [UInt64.toNat_inj.mp ids], after⟩
    | _ => simp [mark] at marks
  | byte | short | int | long =>
    cases two with
    | byte | short | int | long => exact legible_numeral rfl rfl stops stops' same
    | float | double => contradiction
    | _ => simp [mark] at marks

end Value

theorem Snapshot.legible_text {one two : Snapshot} (exact : one.isExact = true)
    (exact' : two.isExact = true) :
    Text.Legible Snapshot.text one two := by
  intro rest other stops stops' same
  simp only [Snapshot.text, String.toList_append, List.append_assoc] at same
  obtain ⟨positions, after⟩ := Text.legible_decimal _ _ (by simp; decide) (by simp; decide) same
  obtain ⟨values, after⟩ :=
    Value.legible_text exact exact' stops stops' (List.append_cancel_left after)
  cases one
  cases two
  simp_all [UInt32.toNat_inj]

theorem Record.legible_text {one two : Record} (exact : one.isExact = true)
    (exact' : two.isExact = true) :
    Text.Legible Record.text one two := by
  intro rest other _ _ same
  simp only [Record.text, String.toList_append, List.append_assoc] at same
  obtain ⟨instructions, after⟩ := Text.legible_decimal _ _ (by simp; decide) (by simp; decide) same
  simp only [Record.isExact, List.all_eq_true] at exact exact'
  obtain ⟨operands, after⟩ :=
    Text.intercalate_append_inj (show ", ".toList = [',', ' '] from rfl) (by decide) (by decide)
      (fun one member two member' => Snapshot.legible_text (exact one member) (exact' two member'))
      (fun operand _ =>
        ⟨'0', Text.start?_append (Text.start?_append (Text.start?_decimal _) _) _, by decide⟩)
      (List.append_cancel_left after)
  cases one
  cases two
  simp_all [UInt64.toNat_inj]

/-! ## The JSON form -/

namespace Json

open Text

/-- What a character stands for behind a backslash. -/
def named (c : Char) : Char :=
  if c = 'b' then '\x08' else if c = 'f' then '\x0c' else if c = 'n' then '\n'
  else if c = 'r' then '\r'
  else if c = 't' then '\t' else c

/-- The two digits of a control character. -/
def controlDigits (code : Nat) : List Char :=
  (if code < 16 then ['0'] else []) ++ Nat.toDigits 16 code

theorem spelled_escapeChar (c : Char) :
    Spelled '"' named id (fun c digits => c.toNat < 32 ∧
      digits = '0' :: '0' :: controlDigits c.toNat) c (escapeChar c).toList := by
  unfold escapeChar
  split
  next quote =>
    subst quote
    exact .named '"' (by decide)
  next not_quote =>
  split
  next backslash => exact backslash ▸ .named '\\' (by decide)
  next not_backslash =>
  split
  next bell => exact bell ▸ .named 'b' (by decide)
  split
  next page => exact page ▸ .named 'f' (by decide)
  split
  next newline => exact newline ▸ .named 'n' (by decide)
  split
  next feed => exact feed ▸ .named 'r' (by decide)
  split
  next tab => exact tab ▸ .named 't' (by decide)
  split
  next control =>
    have text : ("\\u00" ++ (if c.toNat < 16 then "0" else "") ++ hex c.toNat).toList =
        '\\' :: 'u' :: '0' :: '0' :: controlDigits c.toNat := by
      simp only [controlDigits, hex]
      split <;> simp
    rw [text]
    exact .coded c _ ⟨control, rfl⟩
  · rw [String.toList_singleton]
    exact .plain c not_backslash not_quote

theorem controlDigits_append_inj {first second : Nat} (small : first < 32) (small' : second < 32)
    {rest other : List Char} (same : controlDigits first ++ rest = controlDigits second ++ other) :
    first = second ∧ rest = other := by
  have two : ∀ code < 32, (controlDigits code).length = 2 := by decide
  have distinct : ∀ first < 32, ∀ second < 32, controlDigits first = controlDigits second →
    first = second := by decide
  obtain ⟨digits, after⟩ := List.append_inj same (by rw [two first small, two second small'])
  exact ⟨distinct first small second small' digits, after⟩

theorem escapeChar_append_inj {c d : Char} {rest other : List Char}
    (same : (escapeChar c).toList ++ rest = (escapeChar d).toList ++ other) :
    c = d ∧ rest = other := by
  refine (spelled_escapeChar c).append_inj (spelled_escapeChar d) ?_ same
  rintro _ _ ⟨small, rfl⟩ ⟨small', rfl⟩ digits
  obtain ⟨codes, after⟩ :=
    controlDigits_append_inj small small' (List.cons.inj (List.cons.inj digits).2).2
  exact ⟨Char.toNat_inj.mp codes, after⟩

theorem legible_quote (first second : String) : Legible quote first second := by
  intro rest other _ _ same
  have body (text : String) (rest : List Char) : (quote text).toList ++ rest =
      '"' :: ((text.toList.flatMap fun c => (escapeChar c).toList) ++ '"' :: rest) := by
    simp [quote, String.toList_join, List.flatMap_map]
  rw [body, body] at same
  have inside := (List.cons.inj same).2
  -- Character by character; the closing quote is none of them.
  suffices first.toList = second.toList ∧ rest = other by simpa [String.toList_inj] using this
  generalize first.toList = one at inside ⊢
  generalize second.toList = two at inside ⊢
  induction one generalizing two with
  | nil =>
    cases two with
    | nil => exact ⟨rfl, (List.cons.inj inside).2⟩
    | cons d two =>
      exact absurd (by simpa using inside) ((spelled_escapeChar d).ne_quote (by decide))
  | cons c one ih =>
    cases two with
    | nil => exact absurd (by simpa using inside.symm) ((spelled_escapeChar c).ne_quote (by decide))
    | cons d two =>
      simp only [List.flatMap_cons, List.append_assoc] at inside
      obtain ⟨rfl, after⟩ := escapeChar_append_inj inside
      obtain ⟨rfl, ended⟩ := ih two after
      exact ⟨rfl, ended⟩

/-- No floating-point number is in the value. -/
inductive Exact : Json → Prop where
  | null : Exact null
  | bool (truth : Bool) : Exact (bool truth)
  | int (number : Int) : Exact (int number)
  | string (text : String) : Exact (string text)
  | array (items : List Json) (each : ∀ item ∈ items, Exact item) : Exact (array items)
  | object (fields : List (String × Json)) (each : ∀ field ∈ fields, Exact field.2) : Exact
      (object fields)

/-- A field as it stands in an object. -/
def fieldText (field : String × Json) : String := quote field.1 ++ ":" ++ field.2.compact

theorem compactItems_eq (items : List Json) :
    compactItems items = ",".intercalate (items.map compact) := by
  induction items with
  | nil => rfl
  | cons item rest ih =>
    cases rest with
    | nil => simp [compactItems]
    | cons next rest =>
      simp only [List.map_cons] at ih ⊢
      rw [compactItems, ih, String.intercalate_cons_cons]
      simp

theorem compactFields_eq (fields : List (String × Json)) :
    compactFields fields = ",".intercalate (fields.map fieldText) := by
  induction fields with
  | nil => rfl
  | cons field rest ih =>
    cases rest with
    | nil => simp [compactFields, fieldText]
    | cons next rest =>
      simp only [List.map_cons] at ih ⊢
      rw [compactFields, ih, String.intercalate_cons_cons]
      · rfl
      · simp

/-- How the text of the value starts. -/
def mark : Json → Char
  | null => 'n'
  | bool _ => 't'
  | string _ => '"'
  | array _ => '['
  | object _ => '\x7b'
  | int _ | single _ | double _ => '0'

theorem start?_compact {value : Json} (exact : value.Exact) :
    start? value.compact = some value.mark := by
  cases exact with
  | null => rfl
  | bool truth => cases truth <;> rfl
  | int number => exact start?_signed number
  | string | array | object => exact start?_append (start?_append rfl _) _

theorem mark_eq {one two : Json} (exact : one.Exact) (exact' : two.Exact) {rest other : List Char}
    (same : one.compact.toList ++ rest = two.compact.toList ++ other) : one.mark = two.mark :=
  start_eq _ _ same (start?_compact exact) (start?_compact exact')

theorem legible_fieldText {one two : String × Json} (legible : Legible compact one.2 two.2) :
    Legible fieldText one two := by
  intro rest other stops stops' same
  simp only [fieldText, String.toList_append, List.append_assoc] at same
  obtain ⟨keys, after⟩ := legible_quote _ _ (by simp; decide) (by simp; decide) same
  obtain ⟨values, after⟩ := legible stops stops' (List.append_cancel_left after)
  exact ⟨Prod.ext keys values, after⟩

theorem legible_compact {one two : Json} (exact : one.Exact) (exact' : two.Exact) :
    Legible compact one two := by
  -- By induction on the first value; how the two start says that the second is of the same kind.
  induction exact generalizing two with
  | null =>
    intro rest other _ _ same
    have marks := mark_eq .null exact' same
    cases exact' with
    | null => exact ⟨rfl, List.append_cancel_left same⟩
    | _ => simp [mark] at marks
  | bool truth =>
    intro rest other _ _ same
    have marks := mark_eq (.bool truth) exact' same
    cases exact' with
    | bool truth' => cases truth <;> cases truth' <;> simp_all [compact]
    | _ => simp [mark] at marks
  | int number =>
    intro rest other stops stops' same
    have marks := mark_eq (.int number) exact' same
    cases exact' with
    | int number' =>
      obtain ⟨rfl, after⟩ := legible_signed number number' stops stops' same
      exact ⟨rfl, after⟩
    | _ => simp [mark] at marks
  | string text =>
    intro rest other stops stops' same
    have marks := mark_eq (.string text) exact' same
    cases exact' with
    | string text' =>
      obtain ⟨rfl, after⟩ := legible_quote text text' stops stops' same
      exact ⟨rfl, after⟩
    | _ => simp [mark] at marks
  | array items each ih =>
    intro rest other _ _ same
    have marks := mark_eq (.array items each) exact' same
    cases exact' with
    | array items' each' =>
      simp only [compact, compactItems_eq, String.toList_append, List.append_assoc] at same
      have starts (item : Json) (member : item ∈ items ∨ item ∈ items') :
          ∃ c, start? item.compact = some c ∧ c ≠ Text.mark ']' := by
        refine ⟨item.mark, start?_compact (member.elim (each item) (each' item)), ?_⟩
        cases item <;> simp [mark, Text.mark]
      obtain ⟨rfl, after⟩ :=
        intercalate_append_inj (show ",".toList = [','] from rfl) (by decide) (by decide)
        (fun item member item' member' => ih item member (each' item' member')) starts
          (List.append_cancel_left same)
      exact ⟨rfl, after⟩
    | _ => simp [mark] at marks
  | object fields each ih =>
    intro rest other _ _ same
    have marks := mark_eq (.object fields each) exact' same
    cases exact' with
    | object fields' each' =>
      simp only [compact, compactFields_eq, String.toList_append, List.append_assoc] at same
      have starts (field : String × Json) (_ : field ∈ fields ∨ field ∈ fields') :
          ∃ c, start? (fieldText field) = some c ∧ c ≠ Text.mark '\x7d' :=
        ⟨'"', start?_append (start?_append (start?_append (start?_append rfl _) _) _) _, by decide⟩
      obtain ⟨rfl, after⟩ :=
        intercalate_append_inj (show ",".toList = [','] from rfl) (by decide) (by decide)
        (fun field member field' member' => legible_fieldText
          (ih field member (each' field' member'))) starts
        (List.append_cancel_left same)
      exact ⟨rfl, after⟩
    | _ => simp [mark] at marks

end Json

theorem Value.exact_toJson {value : Value} (exact : value.isExact = true) : value.toJson.Exact := by
  refine .object _ ?_
  intro field member
  simp only [List.mem_cons, Option.mem_toList, Option.map_eq_some_iff] at member
  rcases member with rfl | ⟨content, there, rfl⟩
  · exact .string _
  · cases value with
    | bool truth =>
      cases there
      exact .bool truth
    | char | byte | short | int | long | reference =>
      cases there
      exact .int _
    | float | double => contradiction
    | null => cases there

theorem Value.toJson_inj {one two : Value} (same : one.toJson = two.toJson) : one = two := by
  -- The kinds tell the constructors apart, then the contents are the same.
  cases one <;> cases two <;>
    simp only [toJson, kind, content?, Option.map_some, Option.map_none, Option.toList_some,
      Option.toList_none, Json.object.injEq, List.cons.injEq, Prod.mk.injEq, Json.string.injEq,
      Json.bool.injEq, Json.int.injEq, Json.single.injEq, Json.double.injEq, Int.natCast_inj,
      UInt16.toNat_inj, UInt64.toNat_inj, Int8.toInt_inj, Int16.toInt_inj, Int32.toInt_inj,
      Int64.toInt_inj, String.reduceEq, reduceCtorEq, true_and, and_true, false_and, and_false]
        at same
  case null.null => rfl
  all_goals rw [same]

theorem Snapshot.exact_toJson {operand : Snapshot} (exact : operand.isExact = true) :
    operand.toJson.Exact := by
  refine .object _ ?_
  simp only [List.forall_mem_cons, List.not_mem_nil, false_imp_iff, implies_true, and_true]
  exact ⟨.int _, Value.exact_toJson exact⟩

theorem Snapshot.toJson_inj {one two : Snapshot} (same : one.toJson = two.toJson) : one = two := by
  obtain ⟨position, value⟩ := one
  obtain ⟨position', value'⟩ := two
  simp only [toJson, Json.object.injEq, List.cons.injEq, Prod.mk.injEq, true_and, Json.int.injEq,
    Int.natCast_inj, UInt32.toNat_inj, and_true] at same
  rw [same.1, Value.toJson_inj same.2]

theorem Record.exact_toJson {record : Record} (exact : record.isExact = true) :
    record.toJson.Exact := by
  simp only [isExact, List.all_eq_true] at exact
  refine .object _ ?_
  simp only [List.forall_mem_cons, List.not_mem_nil, false_imp_iff, implies_true, and_true]
  refine ⟨.int _, .array _ ?_⟩
  intro item member
  obtain ⟨operand, inside, rfl⟩ := List.mem_map.mp member
  exact Snapshot.exact_toJson (exact operand inside)

theorem Record.toJson_inj {one two : Record} (same : one.toJson = two.toJson) : one = two := by
  obtain ⟨instruction, operands⟩ := one
  obtain ⟨instruction', operands'⟩ := two
  simp only [toJson, Json.object.injEq, List.cons.injEq, Prod.mk.injEq, true_and, Json.int.injEq,
    Int.natCast_inj, UInt64.toNat_inj, Json.array.injEq, and_true] at same
  rw [same.1, (List.map_inj_right fun _ _ => Snapshot.toJson_inj).mp same.2]

/-! ## Dumps -/

namespace DumpFormat

theorem form_inj {format : DumpFormat} {one two : Record} (exact : one.isExact = true)
    (exact' : two.isExact = true) (same : format.form one = format.form two) : one = two := by
  cases format with
  | text =>
    exact (Record.legible_text exact exact' Text.stops_nil Text.stops_nil
      (by simpa [form, String.toList_inj] using same)).1
  | jsonLines =>
    have values :=
      Json.legible_compact (Record.exact_toJson exact) (Record.exact_toJson exact') Text.stops_nil
        Text.stops_nil
      (by simpa [form, String.toList_inj] using same)
    exact Record.toJson_inj values.1

theorem forms_inj {format : DumpFormat} {first second : List Record}
    (exact : ∀ record ∈ first, record.isExact = true)
    (exact' : ∀ record ∈ second, record.isExact = true)
    (same : first.map format.form = second.map format.form) :
    first = second := by
  induction first generalizing second with
  | nil => exact (List.map_eq_nil_iff.mp same.symm).symm
  | cons one first ih =>
    cases second with
    | nil => cases same
    | cons two second =>
      simp only [List.map_cons, List.cons.injEq] at same
      rw [form_inj (exact one (by simp)) (exact' two (by simp)) same.1,
        ih (fun record member => exact record (by simp [member]))
          (fun record member => exact' record (by simp [member])) same.2]

/-- What records are dumped as. -/
theorem join_line (format : DumpFormat) (records : List Record) :
    String.join (records.map format.line) =
      String.join ((records.map format.form).map (· ++ String.singleton '\n')) := by
  rw [List.map_map]
  congr 1
  exact List.map_congr_left fun record _ => format.line_eq record

theorem split_lines (format : DumpFormat) (records : List Record) :
    Text.split '\n' (String.join (records.map format.line)) = records.map format.form ++ [""] := by
  rw [join_line, Text.split_join]
  rintro _ member
  obtain ⟨record, -, rfl⟩ := List.mem_map.mp member
  exact format.oneLine_form record

theorem count_lines (format : DumpFormat) (records : List Record) :
    (String.join (records.map format.line)).toList.count '\n' = records.length := by
  rw [String.toList_join]
  induction records with
  | nil => rfl
  | cons record records ih =>
    have none_inside : (format.form record).toList.count '\n' = 0 :=
      List.count_eq_zero.mpr (format.oneLine_form record)
    simp only [List.map_cons, List.flatMap_cons, List.count_append, ih, format.line_eq,
      String.toList_append, none_inside, List.length_cons]
    simp [Nat.add_comm]

/-- A dump can be read back. Each line is the form of one record, with no newline in it, and one
newline behind it; so the newlines are as many as the records, and cutting there gives the forms.
And as long as there are no floating-point numbers, a line is the line of one record only, and a
whole dump that of one list of records. -/
theorem dump_determines_records (format : DumpFormat) :
    (∀ record,
      format.line record = format.form record ++ "\n" ∧ '\n' ∉ (format.form record).toList) ∧
      (∀ records : List Record,
        (String.join (records.map format.line)).toList.count '\n' = records.length ∧
          Text.split '\n' (String.join (records.map format.line)) =
            records.map format.form ++ [""]) ∧
      (∀ one two : Record, one.isExact = true → two.isExact = true →
        format.line one = format.line two → one = two) ∧
      ∀ first second : List Record, (∀ record ∈ first, record.isExact = true) →
        (∀ record ∈ second, record.isExact = true) →
        String.join (first.map format.line) = String.join (second.map format.line) →
          first = second := by
  refine ⟨fun record => ⟨format.line_eq record, format.oneLine_form record⟩,
    fun records => ⟨format.count_lines records, format.split_lines records⟩, ?_, ?_⟩
  · intro one two exact exact' same
    rw [format.line_eq, format.line_eq] at same
    exact form_inj exact exact' ((String.append_left_inj "\n").mp same)
  · intro first second exact exact' same
    have parts := congrArg (Text.split '\n') same
    rw [format.split_lines, format.split_lines] at parts
    exact forms_inj exact exact' (List.append_cancel_right parts)

/-- A newline, a comma and a lone surrogate among the operands. -/
theorem dump_determines_records_escaped :
    let one : Record := ⟨7, [⟨0, .char 10⟩, ⟨1, .char 44⟩]⟩
    let two : Record := ⟨7, [⟨0, .char 10⟩, ⟨1, .char 0xd800⟩]⟩
    one.isExact = true ∧ two.isExact = true ∧ text.line one ≠ text.line two ∧
      Text.split '\n' (String.join ([one, two].map jsonLines.line)) =
        [one, two].map jsonLines.form ++ [""] ∧
      String.join ([one, two].map jsonLines.line) ≠
        String.join ([two, one].map jsonLines.line) := by
  intro one two
  obtain ⟨-, -, lines, -⟩ := text.dump_determines_records
  obtain ⟨-, cut, -, dumps⟩ := jsonLines.dump_determines_records
  have exact : ∀ record ∈ [one, two], record.isExact = true := by decide
  refine ⟨by decide, by decide, fun same => ?_, (cut _).2, fun same => ?_⟩
  · exact absurd (lines one two (by decide) (by decide) same) (by decide)
  · exact absurd (dumps _ _ exact (by decide) same) (by decide)

end DumpFormat

end ShadowTrace
