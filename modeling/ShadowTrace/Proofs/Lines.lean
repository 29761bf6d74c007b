import ShadowTrace.Trace.Dump

/-! # Lines of records

A record is an object, and inside an object no line ends. So its line is its text, or its compact
JSON, and one newline; and neither form has a newline of its own. A writer that counts the objects
which are open is back at the same count behind every value, so what was written before a record
does not show in its line. -/

namespace ShadowTrace

namespace Json

mutual

/-- Inside an object a value is written as it is alone. -/
theorem lines_inner (depth : Nat) (value : Json) : lines (depth + 1) value = compact value := by
  cases value with
  | null | bool | int | single | double | string => rfl
  | array items => rw [lines, compact, linesItems_inner depth items]
  | object fields =>
    rw [lines, compact, linesFields_inner (depth + 1) fields]
    simp [lineEnd]

theorem linesItems_inner (depth : Nat) (items : List Json) :
    linesItems (depth + 1) items = compactItems items := by
  match items with
  | [] => rfl
  | [item] => exact lines_inner depth item
  | item :: next :: rest =>
    rw [linesItems, compactItems, lines_inner depth item, linesItems_inner depth (next :: rest)]
    all_goals simp

theorem linesFields_inner (depth : Nat) (fields : List (String × Json)) :
    linesFields (depth + 1) fields = compactFields fields := by
  match fields with
  | [] => rfl
  | [(key, value)] => rw [linesFields, compactFields, lines_inner depth value]
  | (key, value) :: next :: rest =>
    rw [linesFields, compactFields, lines_inner depth value, linesFields_inner depth (next :: rest)]
    all_goals simp

end

theorem lines_object (fields : List (String × Json)) :
    lines 0 (object fields) = compact (object fields) ++ "\n" := by
  rw [lines, compact, linesFields_inner 0 fields]
  rfl

/-! ## The count of open objects -/

namespace LineWriter

/-- From the depth on, the tokens can be written: they add the text and leave the count
where it was. -/
def Writes (depth : Nat) (tokens : List Token) (text : String) : Prop :=
  ∀ before, tokens.foldlM write? ⟨depth, before⟩ = some ⟨depth, before ++ text⟩

variable {depth : Nat}

theorem writes_nil : Writes depth [] "" := by
  intro before
  simp

theorem writes_plain (text : String) : Writes depth [.plain text] text := by
  intro before
  simp [write?]

theorem Writes.append {first rest : List Token} {text other : String}
    (writes : Writes depth first text) (onward : Writes depth rest other) :
    Writes depth (first ++ rest) (text ++ other) := by
  intro before
  rw [List.foldlM_append, writes before, ← String.append_assoc]
  exact onward (before ++ text)

/-- What is written inside an object is written one deeper. -/
theorem Writes.object {fields : List Token} {text : String}
    (inner : Writes (depth + 1) fields text) :
    Writes depth ([.opening] ++ fields ++ [.closing])
      ("\x7b" ++ text ++ "\x7d" ++ lineEnd depth) := by
  intro before
  simp [write?, inner _, String.append_assoc]

mutual

/-- The count is only ever compared with zero, so the text of a value depends on nothing that was
written before it. -/
theorem writes_tokens (depth : Nat) (value : Json) :
    Writes depth value.tokens (lines depth value) := by
  cases value with
  | null | bool | int | single | double | string => exact writes_plain _
  | array items =>
    exact ((writes_plain "[").append (writes_tokensItems depth items)).append (writes_plain "]")
  | object fields => exact (writes_tokensFields (depth + 1) fields).object

theorem writes_tokensItems (depth : Nat) (items : List Json) :
    Writes depth (tokensItems items) (linesItems depth items) := by
  match items with
  | [] => exact writes_nil
  | [item] => exact writes_tokens depth item
  | item :: next :: rest =>
    exact ((writes_tokens depth item).append (writes_plain ",")).append
      (writes_tokensItems depth (next :: rest))

theorem writes_tokensFields (depth : Nat) (fields : List (String × Json)) :
    Writes depth (tokensFields fields) (linesFields depth fields) := by
  -- A name and its value, as they are written wherever they stand.
  have field (key : String) (value : Json)
      (writes : Writes depth value.tokens (lines depth value)) :
      Writes depth ([.plain (quote key), .plain ":"] ++ value.tokens)
        (quote key ++ ":" ++ lines depth value) :=
    ((writes_plain (quote key)).append (writes_plain ":")).append writes
  match fields with
  | [] => exact writes_nil
  | [(key, value)] => exact field key value (writes_tokens depth value)
  | (key, value) :: next :: rest =>
    exact ((field key value (writes_tokens depth value)).append (writes_plain ",")).append
      (writes_tokensFields depth (next :: rest))

end

end LineWriter

end Json

namespace DumpFormat

/-- The line of a record without its end. -/
def form (format : DumpFormat) (record : Record) : String :=
  match format with
  | text => record.text
  | jsonLines => record.toJson.compact

theorem line_eq (format : DumpFormat) (record : Record) :
    format.line record = format.form record ++ "\n" := by
  cases format with
  | text => rfl
  | jsonLines => exact Json.lines_object _

/-- What a dump of the records holds. -/
def content (format : DumpFormat) (records : List Record) : String :=
  String.join (records.map fun record => format.form record ++ "\n")

theorem content_append (format : DumpFormat) (first rest : List Record) :
    format.content (first ++ rest) = format.content first ++ format.content rest := by
  rw [← String.toList_inj]
  simp [content, String.toList_join]

end DumpFormat

/-! ## Writing a record -/

namespace Dump

/-- A record leaves the count of open objects as it was, so a dump that starts at zero writes the
lines of its records. -/
theorem print?_eq (file : List String) (format : DumpFormat) (offset : Nat) (record : Record) :
    print? ⟨file, format, offset, 0⟩ record = some (format.line record, 0) := by
  cases format with
  | text => rfl
  | jsonLines => simp [print?, DumpFormat.line, Json.LineWriter.writes_tokens 0 record.toJson ""]

end Dump

/-! ## No newline inside

Whatever the operands of a record are, its text is on one line: digits and words have no newline,
and a character that is one is escaped. -/

namespace Text

def OneLine (text : String) : Prop := '\n' ∉ text.toList

instance (text : String) : Decidable (OneLine text) :=
  inferInstanceAs (Decidable ('\n' ∉ text.toList))

theorem oneLine_append {first second : String} :
    OneLine (first ++ second) ↔ OneLine first ∧ OneLine second := by
  simp [OneLine]

theorem oneLine_join {texts : List String} (each : ∀ text ∈ texts, OneLine text) :
    OneLine (String.join texts) := by
  simpa [OneLine, String.toList_join] using each

theorem oneLine_intercalate {separator : String} (between : OneLine separator) {texts : List String}
    (each : ∀ text ∈ texts, OneLine text) : OneLine (separator.intercalate texts) := by
  induction texts with
  | nil => simp [OneLine]
  | cons text rest ih =>
    cases rest with
    | nil => simpa using each
    | cons next rest =>
      rw [String.intercalate_cons_cons, oneLine_append, oneLine_append]
      exact ⟨⟨each text (by simp), between⟩, ih fun other member => each other (by simp [member])⟩

/-- A numeral is made of the digits of its base. -/
theorem mem_toDigits {base : Nat} (large : 1 < base) {c : Char} (number : Nat)
    (member : c ∈ Nat.toDigits base number) :
    ∃ digit < base, c = digit.digitChar := by
  induction number using Nat.strongRecOn with
  | ind number ih =>
    rw [Nat.toDigits_eq_if large] at member
    split at member
    next below => exact ⟨number, below, by simpa using member⟩
    next above =>
      rcases List.mem_append.mp member with front | last
      · exact ih _ (Nat.div_lt_self (by omega) large) front
      · exact ⟨number % base, Nat.mod_lt _ (by omega), by simpa using last⟩

theorem newline_not_mem_toDigits {base : Nat} (large : 1 < base) (number : Nat) :
    '\n' ∉ Nat.toDigits base number := by
  intro member
  obtain ⟨digit, -, same⟩ := mem_toDigits large number member
  exact Nat.digitChar_ne '\n' (by decide) same.symm

theorem oneLine_decimal (number : Nat) : OneLine (decimal number) := by
  simpa [OneLine, decimal] using newline_not_mem_toDigits (by decide) number

theorem oneLine_hex (number : Nat) : OneLine (hex number) := by
  simpa [OneLine, hex] using newline_not_mem_toDigits (by decide) number

theorem oneLine_signed (number : Int) : OneLine (signed number) := by
  cases number with
  | ofNat number => exact oneLine_decimal number
  | negSucc number => exact oneLine_append.mpr ⟨by decide, oneLine_decimal _⟩

theorem toNat_ofNat {code : Nat} (valid : code.isValidChar) : (Char.ofNat code).toNat = code := by
  rw [Char.ofNat, dif_pos valid]
  rfl

theorem oneLine_escape {quote : Char} (other : quote ≠ '\n') (code : Nat) :
    OneLine (escape quote code) := by
  unfold escape
  split; · decide
  split; · decide
  split; · decide
  next not_newline =>
  split; · decide
  split; · decide
  split; · simpa [OneLine] using Ne.symm other
  split
  · exact oneLine_append.mpr ⟨oneLine_append.mpr ⟨by decide, oneLine_hex code⟩, by decide⟩
  · -- Only the newline has its code.
    simp only [OneLine, String.toList_singleton, List.mem_singleton]
    intro same
    by_cases valid : code.isValidChar
    · rw [← toNat_ofNat valid, ← same] at not_newline
      contradiction
    · have zero : Char.ofNat code = '\x00' := dif_neg valid
      rw [zero] at same
      contradiction

theorem oneLine_quoteUnit (unit : UInt16) : OneLine (quoteUnit unit) :=
  oneLine_append.mpr ⟨oneLine_append.mpr ⟨by decide, oneLine_escape (by decide) _⟩, by decide⟩

end Text

namespace Decimal

open Text

theorem oneLine_sign (negative : Bool) : OneLine (sign negative) := by
  cases negative <;> decide

theorem oneLine_plain {wholeEnd : String} (ending : OneLine wholeEnd) {digits : List Char}
    (whole : '\n' ∉ digits) (point : Int) :
    OneLine (plain wholeEnd digits point) := by
  have zeros (count : Nat) : '\n' ∉ List.replicate count '0' := by simp [List.mem_replicate]
  unfold plain
  split
  · simp [OneLine, whole]
  · simp only
    split
    · rw [oneLine_append]
      exact ⟨by simp [OneLine, whole], ending⟩
    · have front : '\n' ∉ digits.take point.toNat :=
        fun member => whole (List.mem_of_mem_take member)
      have back : '\n' ∉ digits.drop point.toNat :=
        fun member => whole (List.mem_of_mem_drop member)
      simp [OneLine, front, back]

theorem oneLine_scientific {digits : List Char} (whole : '\n' ∉ digits) (exponent : Int) :
    OneLine (scientific digits exponent) := by
  have front : '\n' ∉ digits.take 1 := fun member => whole (List.mem_of_mem_take member)
  have back : '\n' ∉ digits.drop 1 := fun member => whole (List.mem_of_mem_drop member)
  unfold scientific
  simp only [oneLine_append]
  refine ⟨⟨⟨⟨by simpa [OneLine] using front, ?_⟩, by decide⟩, ?_⟩, oneLine_decimal _⟩
  · split
    · decide
    · rw [oneLine_append]
      exact ⟨by decide, by simpa [OneLine] using back⟩
  · split <;> decide

theorem oneLine_finite? {style : Style} (ending : OneLine style.wholeEnd) {word : String}
    (instead : OneLine word) (reading : Reading) : OneLine ((style.finite? reading).getD word) := by
  cases reading with
  | nan | infinite => exact instead
  | zero negative =>
    simp only [Style.finite?, Option.getD_some, oneLine_append]
    exact ⟨⟨oneLine_sign negative, by decide⟩, ending⟩
  | finite negative magnitude =>
    simp only [Style.finite?, Option.getD_some, oneLine_append]
    refine ⟨oneLine_sign negative, ?_⟩
    have whole :=
      newline_not_mem_toDigits (show 1 < 10 by decide) (magnitude.shortest style.tie).coefficient
    simp only [Style.digits]
    split
    · exact oneLine_plain ending whole _
    · exact oneLine_scientific whole _

end Decimal

namespace Value

open Text

theorem oneLine_floatText (layout : Decimal.Layout) (word : Nat) :
    OneLine (floatText layout word) := by
  unfold floatText
  split
  · decide
  · exact oneLine_append.mpr ⟨Decimal.oneLine_sign _, by decide⟩
  · exact Decimal.oneLine_finite? (by decide) (by decide) _

theorem oneLine_text (value : Value) : OneLine value.text := by
  cases value with
  | bool truth => cases truth <;> decide
  | char unit => exact oneLine_quoteUnit unit
  | byte number | short number | int number | long number =>
    exact oneLine_append.mpr ⟨oneLine_signed _, by decide⟩
  | float word | double word => exact oneLine_append.mpr ⟨oneLine_floatText _ _, by decide⟩
  | null => decide
  | reference id => exact oneLine_append.mpr ⟨by decide, oneLine_hex _⟩

end Value

theorem Snapshot.oneLine_text (operand : Snapshot) : Text.OneLine operand.text := by
  simp only [Snapshot.text, Text.oneLine_append]
  exact ⟨⟨Text.oneLine_decimal _, by decide⟩, operand.value.oneLine_text⟩

theorem Record.oneLine_text (record : Record) : Text.OneLine record.text := by
  simp only [Record.text, Text.oneLine_append]
  refine ⟨⟨⟨Text.oneLine_decimal _, by decide⟩, Text.oneLine_intercalate (by decide) ?_⟩, by decide⟩
  rintro _ member
  obtain ⟨operand, -, rfl⟩ := List.mem_map.mp member
  exact operand.oneLine_text

namespace Json

open Text

theorem oneLine_escapeChar (c : Char) : OneLine (escapeChar c) := by
  unfold escapeChar
  split; · decide
  split; · decide
  split; · decide
  split; · decide
  split; · decide
  next not_newline =>
  split; · decide
  split; · decide
  split
  · simp only [oneLine_append]
    exact ⟨⟨by decide, by split <;> decide⟩, oneLine_hex _⟩
  · simpa [OneLine] using Ne.symm not_newline

theorem oneLine_quote (text : String) : OneLine (quote text) := by
  simp only [quote, oneLine_append]
  refine ⟨⟨by decide, oneLine_join ?_⟩, by decide⟩
  rintro _ member
  obtain ⟨c, -, rfl⟩ := List.mem_map.mp member
  exact oneLine_escapeChar c

mutual

theorem oneLine_compact (value : Json) : OneLine value.compact := by
  cases value with
  | null => decide
  | bool truth => cases truth <;> decide
  | int number => exact oneLine_signed number
  | single word | double word => exact Decimal.oneLine_finite? (by decide) (by decide) _
  | string text => exact oneLine_quote text
  | array items =>
    simp only [compact, oneLine_append]
    exact ⟨⟨by decide, oneLine_compactItems items⟩, by decide⟩
  | object fields =>
    simp only [compact, oneLine_append]
    exact ⟨⟨by decide, oneLine_compactFields fields⟩, by decide⟩

theorem oneLine_compactItems (items : List Json) : OneLine (compactItems items) := by
  match items with
  | [] => decide
  | [item] => exact oneLine_compact item
  | item :: next :: rest =>
    simp only [compactItems, oneLine_append]
    exact ⟨⟨oneLine_compact item, by decide⟩, oneLine_compactItems (next :: rest)⟩

theorem oneLine_compactFields (fields : List (String × Json)) : OneLine (compactFields fields) := by
  match fields with
  | [] => decide
  | [(key, value)] =>
    simp only [compactFields, oneLine_append]
    exact ⟨⟨oneLine_quote key, by decide⟩, oneLine_compact value⟩
  | (key, value) :: next :: rest =>
    simp only [compactFields, oneLine_append]
    exact ⟨⟨⟨⟨oneLine_quote key, by decide⟩, oneLine_compact value⟩, by decide⟩,
      oneLine_compactFields (next :: rest)⟩

end

end Json

theorem DumpFormat.oneLine_form (format : DumpFormat) (record : Record) :
    Text.OneLine (format.form record) := by
  cases format with
  | text => exact record.oneLine_text
  | jsonLines => exact record.toJson.oneLine_compact

end ShadowTrace
