import ShadowTrace.Files.Path

/-! # Splitting and joining

Splitting a text at a separator and joining parts that do not have it are inverse to each other, so
a text and its parts determine one another. What is appended to a text without a separator is
appended to its last part. -/

namespace ShadowTrace

namespace Text

variable {separator : Char}

/-- What is appended and has no separator in it belongs to the last part. -/
theorem splitChars_append (text : List Char) {rest : List Char} (whole : separator ∉ rest) :
    ∃ parts last, splitChars separator text = parts ++ [last] ∧
      splitChars separator (text ++ rest) = parts ++ [last ++ rest] := by
  induction text with
  | nil =>
    refine ⟨[], [], rfl, ?_⟩
    simp only [List.nil_append]
    induction rest with
    | nil => rfl
    | cons c rest ih =>
      rw [List.mem_cons, not_or] at whole
      rw [splitChars, if_neg (Ne.symm whole.1), ih whole.2]
  | cons c text ih =>
    obtain ⟨parts, last, alone, together⟩ := ih
    simp only [List.cons_append, splitChars, alone, together]
    by_cases cut : c = separator
    · exact ⟨[] :: parts, last, by simp [cut], by simp [cut]⟩
    · -- The character joins the first part, which may be the last one as well.
      cases parts with
      | nil => exact ⟨[], c :: last, by simp [cut], by simp [cut]⟩
      | cons part parts => exact ⟨(c :: part) :: parts, last, by simp [cut], by simp [cut]⟩

theorem not_mem_of_mem_splitChars {text part : List Char}
    (member : part ∈ splitChars separator text) :
    separator ∉ part := by
  induction text generalizing part with
  | nil => simp_all [splitChars]
  | cons c text ih =>
    simp only [splitChars] at member
    split at member
    · rcases List.mem_cons.mp member with rfl | member
      · simp
      · exact ih member
    next other =>
      split at member
      next nothing => exact absurd nothing (splitChars_ne_nil separator text)
      next first rest parts =>
        rcases List.mem_cons.mp member with rfl | member
        · have whole : separator ∉ first := ih (by simp [parts])
          simp [Ne.symm other, whole]
        · exact ih (by simp [parts, member])

theorem intercalate_splitChars (text : List Char) :
    [separator].intercalate (splitChars separator text) = text := by
  induction text with
  | nil => rfl
  | cons c text ih =>
    obtain ⟨first, rest, parts⟩ := List.exists_cons_of_ne_nil (splitChars_ne_nil separator text)
    simp only [splitChars, parts] at ih ⊢
    split
    next cut => rw [List.intercalate_cons_cons, ih, cut]; rfl
    · cases rest with
      | nil => simpa using ih
      | cons second rest => simpa [List.intercalate_cons_cons] using ih

theorem splitChars_append_separator {part : List Char} (whole : separator ∉ part)
    (rest : List Char) :
    splitChars separator (part ++ separator :: rest) = part :: splitChars separator rest := by
  induction part with
  | nil => simp [splitChars]
  | cons c part ih =>
    rw [List.mem_cons, not_or] at whole
    rw [List.cons_append, splitChars, if_neg (Ne.symm whole.1), ih whole.2]

theorem splitChars_intercalate {parts : List (List Char)} (some : parts ≠ [])
    (whole : ∀ part ∈ parts, separator ∉ part) :
    splitChars separator ([separator].intercalate parts) = parts := by
  induction parts with
  | nil => exact absurd rfl some
  | cons part parts ih =>
    cases parts with
    | nil =>
      obtain ⟨before, last, alone, together⟩ := splitChars_append [] (whole part (by simp))
      cases before with
      | nil => simp_all [splitChars]
      | cons => simp [splitChars] at alone
    | cons second parts =>
      rw [List.intercalate_cons_cons, List.append_assoc, List.singleton_append,
        splitChars_append_separator (whole part (by simp)), ih (by simp)]
      intro part member
      exact whole part (by simp [member])

theorem split_append (text : String) {rest : String} (whole : separator ∉ rest.toList) :
    ∃ parts last,
      split separator text = parts ++ [last] ∧
      split separator (text ++ rest) = parts ++ [last ++ rest] := by
  obtain ⟨parts, last, alone, together⟩ := splitChars_append text.toList whole
  refine ⟨parts.map String.ofList, String.ofList last, by simp [split, alone], ?_⟩
  simp [split, String.toList_append, together, String.ofList_append]

theorem not_mem_of_mem_split {text part : String} (member : part ∈ split separator text) :
    separator ∉ part.toList := by
  obtain ⟨chars, inside, rfl⟩ := List.mem_map.mp member
  simpa using not_mem_of_mem_splitChars inside

theorem intercalate_split (separator : Char) (text : String) :
    (String.singleton separator).intercalate (split separator text) = text := by
  have same : String.toList ∘ String.ofList = id := by
    funext chars
    simp
  rw [← String.toList_inj, String.toList_intercalate, split, List.map_map, same, List.map_id,
    String.toList_singleton]
  exact intercalate_splitChars text.toList

theorem split_intercalate {parts : List String} (some : parts ≠ [])
    (whole : ∀ part ∈ parts, separator ∉ part.toList) :
    split separator ((String.singleton separator).intercalate parts) = parts := by
  have chars : splitChars separator ([separator].intercalate (parts.map String.toList)) =
      parts.map String.toList :=
    splitChars_intercalate (by simpa) (by simpa using whole)
  rw [split, String.toList_intercalate, String.toList_singleton, chars, List.map_map]
  simp [Function.comp_def]

/-- Joined parts are the first one, and the others with the separator before each. -/
theorem toList_intercalate_cons (separator first : String) (parts : List String) :
    (separator.intercalate (first :: parts)).toList =
      first.toList ++ parts.flatMap fun part => separator.toList ++ part.toList := by
  induction parts generalizing first with
  | nil => simp
  | cons part parts ih =>
    rw [String.intercalate_cons_cons, String.toList_append, ih part]
    simp

/-- Parts that each have a separator behind them are split into the parts and an empty one. -/
theorem split_join {parts : List String} (whole : ∀ part ∈ parts, separator ∉ part.toList) :
    split separator (String.join (parts.map (· ++ String.singleton separator))) =
      parts ++ [""] := by
  have chars : splitChars separator (parts.flatMap fun part => part.toList ++ [separator]) =
      parts.map String.toList ++ [[]] := by
    induction parts with
    | nil => rfl
    | cons part parts ih =>
      rw [List.flatMap_cons, List.append_assoc, List.singleton_append,
        splitChars_append_separator (whole part (by simp)),
        ih fun other member => whole other (by simp [member])]
      rfl
  have joined : (String.join (parts.map (· ++ String.singleton separator))).toList =
      parts.flatMap fun part => part.toList ++ [separator] := by
    simp [String.toList_join, List.flatMap_map]
  rw [split, joined, chars]
  simp [Function.comp_def]

end Text

namespace Path

theorem segments_append (path : String) {name : String} (whole : '/' ∉ name.toList) :
    ∃ before last,
      segments path = before ++ [last] ∧ segments (path ++ name) = before ++ [last ++ name] :=
  Text.split_append path whole

theorem not_mem_of_mem_segments {path segment : String} (member : segment ∈ segments path) :
    '/' ∉ segment.toList :=
  Text.not_mem_of_mem_split member

theorem intercalate_segments (path : String) : "/".intercalate (segments path) = path :=
  Text.intercalate_split '/' path

theorem segments_intercalate {parts : List String} (some : parts ≠ [])
    (whole : ∀ part ∈ parts, '/' ∉ part.toList) :
    segments ("/".intercalate parts) = parts :=
  Text.split_intercalate some whole

end Path

end ShadowTrace
