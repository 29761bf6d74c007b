import ShadowTrace.Proofs.Lines

/-! # Values on lines of their own

Values are written one after another, and the writer counts the objects that are open. The count is
back at zero after every value. A newline is written where an object ends and none is open any more;
so it is the objects that stand in no other object that end lines, wherever they stand, and not the
values. The text is one line for each value exactly if all values are objects: other values go on on
the same line, and an object in an array breaks the line of the array. -/

namespace ShadowTrace.Json

theorem LineWriter.writes_values (values : List Json) :
    Writes 0 (values.flatMap tokens) (writeLines values) := by
  induction values with
  | nil => exact writes_nil
  | cons value values ih =>
    rw [List.flatMap_cons, writeLines, List.map_cons, String.join_cons]
    exact (writes_tokens 0 value).append ih

/-! ## Where lines end -/

mutual

/-- How many objects of the value stand in no other object. -/
def outermost : Json → Nat
  | null | bool _ | int _ | single _ | double _ | string _ => 0
  | array items => outermostItems items
  | object _ => 1

def outermostItems : List Json → Nat
  | [] => 0
  | item :: rest => outermost item + outermostItems rest

end

/-- The text is the plain one with a number of newlines put into it. -/
structure Broken (text plain : String) (newlines : Nat) : Prop where
  kept : text.toList.filter (· ≠ '\n') = plain.toList
  count : text.toList.count '\n' = newlines

theorem broken_oneLine {text : String} (whole : Text.OneLine text) : Broken text text 0 := by
  refine ⟨?_, List.count_eq_zero.mpr whole⟩
  rw [List.filter_eq_self]
  intro c member
  have other : c ≠ '\n' := by
    rintro rfl
    exact whole member
  simpa using other

theorem Broken.append {text plain other plain' : String} {newlines newlines' : Nat}
    (broken : Broken text plain newlines) (onward : Broken other plain' newlines') :
    Broken (text ++ other) (plain ++ plain') (newlines + newlines') := by
  refine ⟨?_, ?_⟩
  · simp only [String.toList_append, List.filter_append, broken.kept, onward.kept]
  · simp only [String.toList_append, List.count_append, broken.count, onward.count]

theorem broken_newline : Broken "\n" "" 1 := ⟨rfl, rfl⟩

mutual

/-- Without its newlines the text of a value is the compact one, and there is one for each
outermost object. -/
theorem broken_lines (value : Json) : Broken (lines 0 value) value.compact value.outermost := by
  cases value with
  | null | bool | int | single | double | string => exact broken_oneLine (oneLine_compact _)
  | array items =>
    have opened : Broken "[" "[" 0 := broken_oneLine (by decide)
    have closed : Broken "]" "]" 0 := broken_oneLine (by decide)
    simpa [lines, compact, outermost] using (opened.append (broken_linesItems items)).append closed
  | object fields =>
    rw [lines_object]
    simpa [outermost] using (broken_oneLine (oneLine_compact (object fields))).append broken_newline

theorem broken_linesItems (items : List Json) :
    Broken (linesItems 0 items) (compactItems items) (outermostItems items) := by
  have comma : Broken "," "," 0 := broken_oneLine (by decide)
  match items with
  | [] => exact broken_oneLine (by decide)
  | [item] => simpa [linesItems, compactItems, outermostItems] using broken_lines item
  | item :: next :: rest =>
    have onward := ((broken_lines item).append comma).append (broken_linesItems (next :: rest))
    rw [linesItems, compactItems, outermostItems]
    exact onward
    all_goals simp

end

theorem broken_writeLines (values : List Json) :
    Broken (writeLines values) (String.join (values.map compact)) (outermostItems values) := by
  induction values with
  | nil => exact broken_oneLine (by decide)
  | cons value values ih =>
    simp only [writeLines, List.map_cons, String.join_cons, outermostItems]
    exact (broken_lines value).append ih

/-! ## One line for each value -/

/-- Newlines that stand inside a text, or are missing at its end, cannot be made up for by
what follows. -/
theorem append_ne_line {text rest plain after : List Char} (kept : text.filter (· ≠ '\n') = plain)
    (last : text.getLast? ≠ some '\n') (next : rest.head? ≠ some '\n') :
    text ++ rest ≠ plain ++ '\n' :: after := by
  have whole : '\n' ∉ plain := by simp [← kept]
  intro same
  induction text generalizing plain with
  | nil =>
    obtain rfl : [] = plain := kept
    have rest_eq : rest = '\n' :: after := same
    simp [rest_eq] at next
  | cons c text ih =>
    cases plain with
    | nil =>
      -- Nothing but newlines is in the text, so one is at its end.
      have newlines : ∀ other ∈ c :: text, other = '\n' := by
        simpa using List.filter_eq_nil_iff.mp kept
      apply last
      rw [List.getLast?_eq_some_getLast (List.cons_ne_nil c text), newlines _ (List.getLast_mem _)]
    | cons first plain =>
      obtain ⟨rfl, onward⟩ := List.cons.inj same
      have other : c ≠ '\n' := fun newline => whole (by simp [newline])
      rw [List.filter_cons_of_pos (by simpa using other)] at kept
      refine ih (List.cons.inj kept).2 ?_ (fun member => whole (by simp [member])) onward
      cases text with
      | nil => simp
      | cons second text => rwa [List.getLast?_cons_cons] at last

theorem getLast?_lines {value : Json} (flat : ∀ fields, value ≠ object fields) :
    (lines 0 value).toList.getLast? ≠ some '\n' := by
  have whole (text : String) (oneLine : Text.OneLine text) : text.toList.getLast? ≠ some '\n' :=
    fun newline => oneLine (List.mem_of_getLast? newline)
  cases value with
  | null | bool | int | single | double | string => exact whole _ (oneLine_compact _)
  | array items =>
    simp only [lines, String.toList_append]
    rw [List.getLast?_append]
    simp
  | object fields => exact absurd rfl (flat fields)

theorem head?_lines (value : Json) : (lines 0 value).toList.head? ≠ some '\n' := by
  have whole (text : String) (oneLine : Text.OneLine text) : text.toList.head? ≠ some '\n' :=
    fun newline => oneLine (List.mem_of_head? newline)
  cases value with
  | null | bool | int | single | double | string => exact whole _ (oneLine_compact _)
  | array items => simp [lines]
  | object fields => simp [lines]

theorem head?_writeLines (values : List Json) : (writeLines values).toList.head? ≠ some '\n' := by
  induction values with
  | nil => simp [writeLines]
  | cons value values ih =>
    have here := head?_lines value
    simp only [writeLines, List.map_cons, String.join_cons, String.toList_append, List.head?_append]
      at ih ⊢
    cases first : (lines 0 value).toList.head? with
    | none => exact ih
    | some c => rwa [first] at here

/-- The text is one line for each value if and only if every value is an object. -/
theorem writeLines_eq_lines_iff (values : List Json) :
    writeLines values = String.join (values.map fun value => value.compact ++ "\n") ↔
      ∀ value ∈ values, ∃ fields, value = object fields := by
  induction values with
  | nil => simp [writeLines]
  | cons value values ih =>
    have first : writeLines (value :: values) = lines 0 value ++ writeLines values := by
      simp [writeLines]
    rw [first, List.map_cons, String.join_cons, List.forall_mem_cons, ← ih]
    constructor
    · intro same
      by_cases object : ∃ fields, value = object fields
      · obtain ⟨fields, rfl⟩ := object
        rw [lines_object, String.append_right_inj] at same
        exact ⟨⟨fields, rfl⟩, same⟩
      · -- A value that is no object does not end its line, and the next one does not begin with
        -- a newline.
        have flat (fields : List (String × Json)) : value ≠ .object fields :=
          fun here => object ⟨fields, here⟩
        rw [← String.toList_inj] at same
        simp only [String.toList_append, List.append_assoc] at same
        exact absurd same
          (append_ne_line (broken_lines value).kept (getLast?_lines flat) (head?_writeLines values))
    · rintro ⟨⟨fields, rfl⟩, same⟩
      rw [lines_object, same]

/-- What any values give when they are written one after another. The count of open objects never
goes below zero and is back at zero after each value. Without the newlines the text is that of the
compact values in their order, and it has as many newlines as there are objects that stand in no
other object. It is the compact values with one newline after each, and no other, if and only if
every value is an object. -/
theorem lines_by_outermost_objects (values : List Json) :
    (values.flatMap tokens).foldlM LineWriter.write? {} = some ⟨0, writeLines values⟩ ∧
    (writeLines values).toList.filter (· ≠ '\n') = (String.join (values.map compact)).toList ∧
    (writeLines values).toList.count '\n' = outermostItems values ∧
    (writeLines values = String.join (values.map fun value => value.compact ++ "\n") ↔
      ∀ value ∈ values, ∃ fields, value = object fields) := by
  have broken := broken_writeLines values
  refine ⟨?_, broken.kept, broken.count, writeLines_eq_lines_iff values⟩
  rw [LineWriter.writes_values values "", String.empty_append]

/-- Objects are on lines of their own, whatever they hold. -/
theorem lines_of_objects :
    writeLines [object [], object [("a", array [object []])]] =
      "\x7b\x7d\n\x7b\"a\":[\x7b\x7d]\x7d\n" :=
  ((lines_by_outermost_objects _).2.2.2.mpr (by simp)).trans (by decide +kernel)

/-- A number does not end its line, and an object in an array ends a line inside the array. -/
theorem lines_of_flat_values :
    writeLines [int 1, array [object []]] = "1[\x7b\x7d\n]" ∧
      writeLines [int 1, array [object []]] ≠
        String.join ([int 1, array [object []]].map fun value => value.compact ++ "\n") := by
  decide +kernel

end ShadowTrace.Json
