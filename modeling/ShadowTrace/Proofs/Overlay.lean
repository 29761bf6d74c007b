import ShadowTrace.Proofs.Documents
import ShadowTrace.Proofs.Splitting

/-! # Values of layered documents

What stands at a path after documents are laid over one another depends only on what stands at that
path in each of them, as long as the upper ones have tables on the way there. A variable of the
environment is a text at the end of its path: it changes what is at that path, above it and below
it, and nothing else. -/

namespace ShadowTrace

namespace Json

/-! ## Paths -/

/-- The value under a key. -/
def get? (value : Json) (key : String) : Option Json :=
  match value with
  | object fields => fields.lookup key
  | _ => none

/-- The value at the end of a path of keys. -/
def at? (value : Json) : List String → Option Json
  | [] => some value
  | key :: path => (value.get? key).bind fun inner => inner.at? path

theorem get?_object (fields : List (String × Json)) (key : String) :
    (object fields).get? key = fields.lookup key := rfl

@[simp]
theorem at?_nil (value : Json) : value.at? [] = some value := by rw [at?]

theorem at?_cons (value : Json) (key : String) (path : List String) :
    value.at? (key :: path) = (value.get? key).bind fun inner => inner.at? path := by rw [at?]

theorem at?_append (value : Json) (path rest : List String) :
    value.at? (path ++ rest) = (value.at? path).bind fun inner => inner.at? rest := by
  induction path generalizing value with
  | nil => simp
  | cons key path ih =>
    rw [List.cons_append, at?_cons, at?_cons, Option.bind_assoc]
    exact Option.bind_congr fun inner _ => ih inner

theorem isObject_of_at? {value inner : Json} {key : String} {path : List String}
    (found : value.at? (key :: path) = some inner) :
    value.isObject = true := by
  cases value with
  | object => rfl
  | _ => simp [at?_cons, get?] at found

theorem field_eq (value : Json) (key : String) : value.field key = (value.get? key).getD null := by
  cases value <;> rfl

/-- Null under a missing key leads nowhere. -/
theorem getD_null_at? (value : Option Json) (key : String) (path : List String) :
    (value.getD null).at? (key :: path) = value.bind fun inner => inner.at? (key :: path) := by
  cases value with
  | none => rfl
  | some value => rfl

theorem get?_withField (below : Json) (key other : String) (value : Json) :
    (below.withField key value).get? other = if other = key then some value
      else below.get? other := by
  cases below with
  | object fields => simp only [withField, get?, lookup_setField]
  | _ =>
    by_cases same : other = key
    · simp [withField, get?, same]
    · simp [withField, get?, List.lookup_cons, same, beq_false_of_ne same]

theorem get?_asObject (below : Json) (key : String) : below.asObject.get? key = below.get? key := by
  cases below <;> rfl

/-! ## Overlaying -/

theorem overlay_flat (below : Json) {value : Json} (flat : value.isObject = false) :
    below.overlay value = value := by
  cases value with
  | object => cases flat
  | _ => rw [overlay]; simp

theorem get?_overlayFields (below : Json) {fields : List (String × Json)}
    (keys : (fields.map (·.1)).Nodup) (key : String) :
    (below.overlayFields fields).get? key =
      match fields.lookup key with
      | none => below.get? key
      | some value => some ((below.field key).overlay value) := by
  induction fields generalizing below with
  | nil => rw [overlayFields]; rfl
  | cons field rest ih =>
    obtain ⟨first, value⟩ := field
    obtain ⟨absent, keys⟩ := List.nodup_cons.mp keys
    rw [overlayFields, ih _ keys]
    by_cases same : key = first
    · subst same
      simp [Keyed.lookup_of_absent absent, get?_withField]
    · rw [List.lookup_cons, beq_false_of_ne same, get?_withField, if_neg same, field_withField,
        if_neg same]

theorem get?_overlay (below : Json) {fields : List (String × Json)}
    (keys : (fields.map (·.1)).Nodup) (key : String) :
    (below.overlay (object fields)).get? key =
      match fields.lookup key with
      | none => below.get? key
      | some value => some ((below.field key).overlay value) := by
  rw [overlay, get?_overlayFields _ keys, get?_asObject, field_eq, get?_asObject, ← field_eq]

/-- What is laid over has tables above the end of the path. -/
def TablesAbove (path : List String) (value : Json) : Prop :=
  ∀ before after inner, path = before ++ after → after ≠ [] → value.at? before = some inner →
    inner.isObject = true

theorem TablesAbove.nil (value : Json) : value.TablesAbove [] := by
  intro before after inner parts some_left
  exact absurd (List.append_eq_nil_iff.mp parts.symm).2 some_left

theorem tablesAbove_cons {key : String} {path : List String} {value : Json} :
    value.TablesAbove (key :: path) ↔ value.isObject = true ∧ ∀ inner, value.get? key = some inner →
      inner.TablesAbove path := by
  constructor
  · intro tables
    refine ⟨tables [] (key :: path) value rfl (by simp) (at?_nil value), ?_⟩
    rintro next there before after inner rfl some_left found
    refine tables (key :: before) after inner rfl some_left ?_
    rw [at?_cons, there]
    exact found
  · rintro ⟨table, inside⟩ before after inner parts some_left found
    cases before with
    | nil =>
      cases found
      exact table
    | cons first before =>
      obtain ⟨rfl, rfl⟩ := List.cons.inj parts
      obtain ⟨next, there, found⟩ := Option.bind_eq_some_iff.mp (at?_cons value key before ▸ found)
      exact inside next there before after inner rfl some_left found

instance decidableTablesAbove :
    (path : List String) → (value : Json) → Decidable (value.TablesAbove path)
  | [], value => isTrue (.nil value)
  | key :: path, value =>
    match found : value.get? key with
    | none => decidable_of_iff (value.isObject = true) (by simp [tablesAbove_cons, found])
    | some inner =>
      have := decidableTablesAbove path inner
      decidable_of_iff (value.isObject = true ∧ inner.TablesAbove path)
        (by simp [tablesAbove_cons, found])

theorem at?_overlay {below above : Json} (distinct : above.Distinct) {path : List String}
    (tables : above.TablesAbove path) :
    (below.overlay above).at? path =
      match above.at? path with
      | none => below.at? path
      | some value => some (((below.at? path).getD null).overlay value) := by
  -- Along the path: as long as the upper value has the key, what is under it in both is laid over
  -- one another.
  induction path generalizing below above with
  | nil => simp
  | cons key path ih =>
    obtain ⟨table, inside⟩ := tablesAbove_cons.mp tables
    cases above with
    | object fields =>
      have keyed := distinct_object.mp distinct
      rw [at?_cons, get?_overlay below keyed.keys, at?_cons (object fields), at?_cons below,
        get?_object]
      cases found : fields.lookup key with
      | none => rfl
      | some value =>
        simp only [Option.bind_some]
        rw [ih (keyed.lookup found) (inside value found), field_eq]
        cases path with
        | nil => cases below.get? key <;> rfl
        | cons next path => rw [getD_null_at?]
    | _ => cases table

theorem isObject_withField (below : Json) (key : String) (value : Json) :
    (below.withField key value).isObject = true := by
  cases below <;> rfl

theorem isObject_overlayFields {below : Json} (table : below.isObject = true)
    (fields : List (String × Json)) :
    (below.overlayFields fields).isObject = true := by
  induction fields generalizing below with
  | nil => rwa [overlayFields]
  | cons field rest ih =>
    rw [overlayFields]
    exact ih (isObject_withField _ _ _)

theorem isObject_overlay (below : Json) {above : Json} (table : above.isObject = true) :
    (below.overlay above).isObject = true := by
  cases above with
  | object fields =>
    rw [overlay]
    exact isObject_overlayFields (by cases below <;> rfl) fields
  | _ => cases table

theorem TablesAbove.of_append {path rest : List String} {value : Json}
    (tables : value.TablesAbove (path ++ rest)) :
    value.TablesAbove path := by
  rintro before after inner rfl some_left
  exact tables before (after ++ rest) inner (List.append_assoc ..) (by simp [some_left])

/-- New fields are added behind those that are there. -/
theorem overlayFields_append {before rest : List (String × Json)}
    (keys : ((before ++ rest).map (·.1)).Nodup)
    (each : ∀ field ∈ rest, null.overlay field.2 = field.2) :
    (object before).overlayFields rest = object (before ++ rest) := by
  induction rest generalizing before with
  | nil => simp [overlayFields]
  | cons field rest ih =>
    obtain ⟨key, value⟩ := field
    have absent : key ∉ before.map (·.1) := by
      simp only [List.map_append, List.map_cons, List.nodup_append] at keys
      exact fun member => keys.2.2 key member key (by simp) rfl
    have same : null.overlay value = value := each (key, value) (by simp)
    rw [overlayFields, field_eq, get?_object, Keyed.lookup_of_absent absent, Option.getD_none, same,
      withField, Keyed.setField_eq_put, Keyed.put_of_absent absent, ih]
    · simp
    · simpa using keys
    · exact fun field member => each field (by simp [member])

/-- A value laid over something that is no table is as it was. -/
theorem overlay_eq_self {value : Json} (distinct : value.Distinct) {below : Json}
    (flat : below.isObject = false) :
    below.overlay value = value := by
  -- Each field of a table is laid over nothing, so it stays as it is, and the keys come in
  -- their order.
  induction distinct generalizing below with
  | flat value nothing => exact overlay_flat below nothing
  | object fields keys each ih =>
    have empty : below.asObject = object [] := by
      cases below with
      | object => cases flat
      | _ => rfl
    rw [overlay, empty,
      overlayFields_append (by simpa using keys) fun field member => ih field member rfl,
      List.nil_append]

theorem Distinct.at? {value : Json} (distinct : value.Distinct) {path : List String} {inner : Json}
    (found : value.at? path = some inner) : inner.Distinct := by
  induction path generalizing value with
  | nil =>
    cases found
    exact distinct
  | cons key path ih =>
    cases value with
    | object fields =>
      rw [at?_cons, get?_object, Option.bind_eq_some_iff] at found
      obtain ⟨next, there, found⟩ := found
      exact ih ((distinct_object.mp distinct).lookup there) found
    | _ => cases isObject_of_at? found

/-- The order in which the fields of a table come does not show behind its keys. -/
theorem at?_perm {fields other : List (String × Json)} (same : other.Perm fields)
    (keys : (fields.map (·.1)).Nodup) {path : List String} (some_key : path ≠ []) :
    (object other).at? path = (object fields).at? path := by
  cases path with
  | nil => contradiction
  | cons key path => rw [at?_cons, at?_cons, get?_object, get?_object, Keyed.lookup_perm same keys]

theorem TablesAbove.perm {fields other : List (String × Json)} {path : List String}
    (tables : (object fields).TablesAbove path) (same : other.Perm fields)
    (keys : (fields.map (·.1)).Nodup) : (object other).TablesAbove path := by
  intro before after inner parts some_left found
  cases before with
  | nil =>
    cases found
    rfl
  | cons key before =>
    rw [at?_perm same keys (List.cons_ne_nil _ _)] at found
    exact tables _ after inner parts some_left found

/-! ## Texts at paths -/

/-- The value with another one at the end of the path. -/
def plant (path : List String) (value below : Json) : Json :=
  modifyAt (fun _ => value) (path.map .field) below

theorem plant_nil (value below : Json) : plant [] value below = value := rfl

theorem plant_cons (key : String) (path : List String) (value below : Json) :
    plant (key :: path) value below = below.withField key (plant path value (below.field key)) :=
  rfl

theorem get?_plant (key : String) (path : List String) (value below : Json) :
    (plant (key :: path) value below).get? key = some (plant path value (below.field key)) := by
  rw [plant_cons, get?_withField, if_pos rfl]

/-- At the end of the path and behind it there is what was planted. -/
theorem at?_plant_append (path rest : List String) (value below : Json) :
    (plant path value below).at? (path ++ rest) = value.at? rest := by
  induction path generalizing below with
  | nil => rw [List.nil_append, plant_nil]
  | cons key path ih =>
    rw [List.cons_append, at?_cons, get?_plant]
    exact ih _

/-- Above the end of the path it is planted in what was there. -/
theorem at?_plant_of_append (path rest : List String) (value below : Json) :
    (plant (path ++ rest) value below).at? path =
      some (plant rest value ((below.at? path).getD null)) := by
  induction path generalizing below with
  | nil => rw [List.nil_append, at?_nil, at?_nil, Option.getD_some]
  | cons key path ih =>
    rw [List.cons_append, at?_cons, get?_plant, Option.bind_some, ih, field_eq, at?_cons]
    cases below.get? key with
    | none => cases path <;> rfl
    | some inner => rfl

/-- Elsewhere nothing changes. -/
theorem at?_plant_apart {path other : List String} (above : ¬ path <+: other)
    (under : ¬ other <+: path) (value below : Json) :
    (plant path value below).at? other = below.at? other := by
  -- Up to the key where the paths part, both lead through the same tables; there the other one is
  -- left alone.
  induction path generalizing other below with
  | nil => exact absurd List.nil_prefix above
  | cons key path ih =>
    cases other with
    | nil => exact absurd List.nil_prefix under
    | cons next other =>
      rw [at?_cons, at?_cons, plant_cons, get?_withField]
      split
      · next same =>
        subst same
        rw [List.cons_prefix_cons] at above under
        have inside := ih (by simpa using above) (by simpa using under) (below.field next)
        rw [Option.bind_some, inside, field_eq]
        cases other with
        | nil => simp at under
        | cons last other => exact getD_null_at? _ last other
      · rfl

/-! ## Keys as paths -/

namespace Route

/-- A key that is one word. -/
def isPlain (key : String) : Bool := key.toList ≠ [] && key.toList.all isWordChar

theorem readWord_append {word : String} (plain : isPlain word = true) {rest : List Char}
    (ends : ∀ c ∈ rest.head?, isWordChar c = false) :
    readWord (word.toList ++ rest) = some (.field word, rest) := by
  simp only [isPlain, ne_eq, decide_not, Bool.and_eq_true, Bool.not_eq_true',
    decide_eq_false_iff_not, List.all_eq_true] at plain
  obtain ⟨something, all⟩ := plain
  have stop : rest.takeWhile isWordChar = [] ∧ rest.dropWhile isWordChar = rest := by
    cases rest with
    | nil => exact ⟨rfl, rfl⟩
    | cons c rest => simp [ends c rfl]
  simp only [readWord, List.takeWhile_append_of_pos all, List.dropWhile_append_of_pos all, stop,
    List.append_nil, something, if_false, String.ofList_toList]

theorem readSteps_words {words : List String} (plain : ∀ word ∈ words, isPlain word = true)
    {fuel : Nat} (enough : words.length ≤ fuel) :
    readSteps fuel (words.flatMap fun word => '.' :: word.toList) = some (words.map .field) := by
  induction words generalizing fuel with
  | nil => simp [readSteps]
  | cons word words ih =>
    obtain _ | fuel := fuel
    · cases enough
    · have ends : ∀ c ∈ (words.flatMap fun word => '.' :: word.toList).head?,
          isWordChar c = false := by
        cases words with
        | nil => simp
        | cons next words => simp [isWordChar]
      rw [List.flatMap_cons, List.cons_append, readSteps, if_pos rfl,
        readWord_append (plain word (by simp)) ends]
      simp [ih (fun word member => plain word (by simp [member])) (Nat.le_of_succ_le_succ enough)]

/-- A key of words with dots between them is the path of these words. -/
theorem ofKey_eq {key : String} (plain : ∀ part ∈ Text.split '.' key, isPlain part = true) :
    ofKey key = (Text.split '.' key).map .field := by
  have joined := Text.intercalate_split '.' key
  cases parts : Text.split '.' key with
  | nil => exact absurd (List.map_eq_nil_iff.mp parts) (Text.splitChars_ne_nil '.' key.toList)
  | cons first rest =>
    rw [parts] at joined plain
    -- The first word is read as it is, each other one behind its dot.
    have chars : key.toList = first.toList ++ rest.flatMap fun word => '.' :: word.toList := by
      rw [← joined, Text.toList_intercalate_cons]
      simp
    have ends : ∀ c ∈ (rest.flatMap fun word => '.' :: word.toList).head?,
        isWordChar c = false := by
      cases rest with
      | nil => simp
      | cons next rest => simp [isWordChar]
    have enough : rest.length ≤ (rest.flatMap fun word => '.' :: word.toList).length := by
      clear parts joined plain chars ends
      induction rest with
      | nil => simp
      | cons next rest ih =>
        simp only [List.flatMap_cons, List.length_append, List.length_cons]
        omega
    have steps := readSteps_words (fun word member => plain word (by simp [member])) enough
    rw [ofKey, read?, chars, readWord_append (plain first (by simp)) ends]
    simp only [Option.bind_eq_bind, Option.bind_some, steps]
    rfl

theorem ofKey_plain {key : String} (plain : isPlain key = true) : ofKey key = [.field key] := by
  have whole : '.' ∉ key.toList := by
    intro member
    simp only [isPlain, Bool.and_eq_true, List.all_eq_true] at plain
    exact absurd (plain.2 '.' member) (by decide)
  have single : Text.split '.' key = [key] := by
    simpa using Text.split_intercalate (List.cons_ne_nil key []) (by simpa using whole)
  rw [ofKey_eq, single]
  · rfl
  · simpa [single] using plain

end Route

theorem overlayEntries_cons (below : Json) (key : String) (value : Json)
    (entries : List (String × Json)) :
    below.overlayEntries ((key, value) :: entries) =
      (modifyAt (·.overlay value) (Route.ofKey key) below).overlayEntries entries := rfl

/-- Entries under plain keys are laid over as the fields of a table. -/
theorem overlayEntries_plain (below : Json) {entries : List (String × Json)}
    (plain : ∀ entry ∈ entries, Route.isPlain entry.1 = true) :
    below.overlayEntries entries = below.overlayFields entries := by
  induction entries generalizing below with
  | nil => rw [overlayFields]; rfl
  | cons entry entries ih =>
    obtain ⟨key, value⟩ := entry
    have first : Route.ofKey key = [.field key] := Route.ofKey_plain (plain (key, value) (by simp))
    rw [overlayEntries_cons, overlayFields, first]
    exact ih _ fun entry member => plain entry (by simp [member])

/-! ## Variables -/

/-- A table with a text somewhere inside. -/
def HoldsText (value : Json) : Prop := ∃ key path text, value.at? (key :: path) = some (string text)

theorem holdsText_plant (key : String) (path : List String) (text : String) (below : Json) :
    (plant (key :: path) (string text) below).HoldsText := by
  refine ⟨key, path, text, ?_⟩
  have planted := at?_plant_append (key :: path) [] (string text) below
  rwa [List.append_nil, at?_nil] at planted

/-- What texts leave at a path where there was `below`, and what they make alone: nothing, a text of
their own, or a table with one of them inside. -/
inductive Decides (own : Prop) (below : Option Json) : Option Json → Option Json → Prop where
  | nothing : Decides own below none below
  | text (text : String) (set : own) : Decides own below (some (string text)) (some (string text))
  | inside (alone merged : Json) (holds : alone.HoldsText) (holds' : merged.HoldsText) :
    Decides own below (some alone) (some merged)

theorem HoldsText.isObject {value : Json} (holds : value.HoldsText) : value.isObject = true := by
  obtain ⟨key, path, text, found⟩ := holds
  exact isObject_of_at? found

/-- Where no text ends there is a table, if there is anything new. -/
theorem Decides.cases_of_not {below alone merged : Option Json}
    (decides : Decides False below alone merged) :
    merged.isSome = (alone.isSome || below.isSome) ∧ ∀ value, merged = some value →
      value.isObject = true ∨ below = some value := by
  cases decides with
  | nothing => exact ⟨rfl, fun value same => .inr same⟩
  | text _ set => exact set.elim
  | inside alone merged holds holds' =>
    refine ⟨rfl, fun value same => .inl ?_⟩
    cases same
    exact holds'.isObject

/-- One text more. -/
theorem Decides.plant {own : Prop} {below : Option Json} {alone merged : Json} {path : List String}
    (decides : Decides own below (alone.at? path) (merged.at? path)) {place : List String}
    (above : place <+: path → place = path) (set : place = path → own) (text : String) :
    Decides own below ((plant place (string text) alone).at? path)
      ((plant place (string text) merged).at? path) := by
  -- The text is planted at the path or below it, or nothing changes there.
  by_cases under : path <+: place
  · obtain ⟨rest, rfl⟩ := under
    rw [at?_plant_of_append, at?_plant_of_append]
    cases rest with
    | nil => exact .text text (set (by simp))
    | cons key rest =>
      exact .inside _ _ (holdsText_plant key rest text _) (holdsText_plant key rest text _)
  · have apart : ¬ place <+: path := fun shorter => under (above shorter ▸ List.prefix_rfl)
    rw [at?_plant_apart apart under, at?_plant_apart apart under]
    exact decides

theorem modifyAt_flat {key : String}
    (plain : ∀ part ∈ Text.split '.' key, Route.isPlain part = true) {value : Json}
    (flat : value.isObject = false) (below : Json) :
    modifyAt (·.overlay value) (Route.ofKey key) below =
      plant (Text.split '.' key) value below := by
  have constant : (fun below : Json => below.overlay value) = fun _ => value :=
    funext fun below => overlay_flat below flat
  rw [Route.ofKey_eq plain, constant, plant]

theorem isObject_overlayEntries {entries : List (String × Json)}
    (texts : ∀ entry ∈ entries, ∃ text, entry.2 = string text)
    (plain : ∀ entry ∈ entries, ∀ part ∈ Text.split '.' entry.1, Route.isPlain part = true)
    {below : Json} (table : below.isObject = true) :
    (below.overlayEntries entries).isObject = true := by
  induction entries generalizing below with
  | nil => exact table
  | cons entry entries ih =>
    obtain ⟨key, value⟩ := entry
    obtain ⟨text, rfl⟩ := texts (key, value) (by simp)
    rw [overlayEntries_cons, modifyAt_flat (plain (key, string text) (by simp)) rfl]
    refine ih (fun entry member => texts entry (by simp [member]))
      (fun entry member => plain entry (by simp [member])) ?_
    cases parts : Text.split '.' key with
    | nil => exact absurd (List.map_eq_nil_iff.mp parts) (Text.splitChars_ne_nil '.' key.toList)
    | cons first rest => exact isObject_withField _ _ _

/-- The texts of variables, laid over what is below and by themselves. -/
theorem decides_overlayEntries {entries : List (String × Json)}
    (texts : ∀ entry ∈ entries, ∃ text, entry.2 = string text)
    (plain : ∀ entry ∈ entries, ∀ part ∈ Text.split '.' entry.1, Route.isPlain part = true)
    {path : List String}
    (above : ∀ entry ∈ entries, Text.split '.' entry.1 <+: path → Text.split '.' entry.1 = path)
    {below : Option Json} {alone merged : Json} {own : Prop}
    (set : ∀ entry ∈ entries, Text.split '.' entry.1 = path → own)
    (decides : Decides own below (alone.at? path) (merged.at? path)) :
    Decides own below ((alone.overlayEntries entries).at? path)
      ((merged.overlayEntries entries).at? path) := by
  induction entries generalizing alone merged with
  | nil => exact decides
  | cons entry entries ih =>
    obtain ⟨key, value⟩ := entry
    obtain ⟨text, rfl⟩ := texts (key, value) (by simp)
    have own_plain := plain (key, string text) (by simp)
    rw [overlayEntries_cons, overlayEntries_cons, modifyAt_flat own_plain rfl,
      modifyAt_flat own_plain rfl]
    refine ih (fun entry member => texts entry (by simp [member]))
      (fun entry member => plain entry (by simp [member]))
      (fun entry member => above entry (by simp [member]))
        (fun entry member => set entry (by simp [member])) ?_
    exact decides.plant (above (key, string text) (by simp)) (set (key, string text) (by simp)) text

/-- What texts can make at a path by themselves, depending on the order in which they come: nothing,
if none leads there, the text that ends there, or a table with one of them inside. -/
inductive Makes (entries : List (String × Json)) (path : List String) : Option Json → Prop where
  | nothing (none_there : ∀ entry ∈ entries, ¬ path <+: Text.split '.' entry.1) :
    Makes entries path none
  | text (entry : String × Json) (member : entry ∈ entries) (ends : Text.split '.' entry.1 = path) :
    Makes entries path (some entry.2)
  | inside (entry : String × Json) (value : Json) (member : entry ∈ entries)
      (leads : path <+: Text.split '.' entry.1) (further : Text.split '.' entry.1 ≠ path)
      (holds : value.HoldsText) :
    Makes entries path (some value)

/-- One text more. -/
theorem Makes.plant {entries : List (String × Json)} {path : List String} {made : Json}
    (makes : Makes entries path (made.at? path)) {key text : String}
    (above : Text.split '.' key <+: path → Text.split '.' key = path) :
    Makes (entries ++ [(key, string text)]) path
      ((Json.plant (Text.split '.' key) (string text) made).at? path) := by
  have last : (key, string text) ∈ entries ++ [(key, string text)] := by simp
  by_cases under : path <+: Text.split '.' key
  · obtain ⟨rest, whole⟩ := id under
    rw [← whole, at?_plant_of_append]
    cases rest with
    | nil => exact .text (key, string text) last (by simp [← whole])
    | cons next rest =>
      exact .inside (key, string text) _ last under (by simp [← whole])
        (holdsText_plant next rest text _)
  · have apart : ¬ Text.split '.' key <+: path :=
      fun shorter => under (above shorter ▸ List.prefix_rfl)
    rw [at?_plant_apart apart under]
    generalize made.at? path = there at makes ⊢
    cases makes with
    | nothing none_there =>
      refine .nothing fun entry member => ?_
      rcases List.mem_append.mp member with earlier | last
      · exact none_there entry earlier
      · rwa [List.mem_singleton.mp last]
    | text entry member ends => exact .text entry (List.mem_append_left _ member) ends
    | inside entry value member leads further holds =>
      exact .inside entry value (List.mem_append_left _ member) leads further holds

theorem makes_overlayEntries {entries : List (String × Json)}
    (texts : ∀ entry ∈ entries, ∃ text, entry.2 = string text)
    (plain : ∀ entry ∈ entries, ∀ part ∈ Text.split '.' entry.1, Route.isPlain part = true)
    {path : List String} (some_key : path ≠ [])
    (above : ∀ entry ∈ entries, Text.split '.' entry.1 <+: path → Text.split '.' entry.1 = path) :
    Makes entries path (((object []).overlayEntries entries).at? path) := by
  -- Some entries have made something already, and the others are laid over that.
  suffices onward : ∀ (done rest : List (String × Json)) (made : Json), done ++ rest = entries →
      Makes done path (made.at? path) → Makes entries path ((made.overlayEntries rest).at? path) by
    refine onward [] entries (object []) rfl ?_
    cases path with
    | nil => contradiction
    | cons key path => exact .nothing (by simp)
  intro done rest made parts makes
  induction rest generalizing done made with
  | nil =>
    rw [List.append_nil] at parts
    exact parts ▸ makes
  | cons entry rest ih =>
    have member : entry ∈ entries := by simp [← parts]
    obtain ⟨key, value⟩ := entry
    obtain ⟨text, rfl⟩ : ∃ text, value = string text := texts (key, value) member
    rw [overlayEntries_cons, modifyAt_flat (plain _ member) rfl]
    exact ih (done ++ [(key, string text)]) _ (by simp [← parts]) (makes.plant (above _ member))

theorem Makes.perm {entries other : List (String × Json)} {path : List String} {made : Option Json}
    (makes : Makes entries path made) (same : other.Perm entries) : Makes other path made := by
  cases makes with
  | nothing none_there =>
    exact .nothing fun entry member => none_there entry (same.mem_iff.mp member)
  | text entry member ends => exact .text entry (same.mem_iff.mpr member) ends
  | inside entry value member leads further holds =>
    exact .inside entry value (same.mem_iff.mpr member) leads further holds

theorem Makes.isSome_iff {entries : List (String × Json)} {path : List String} {made : Option Json}
    (makes : Makes entries path made) :
    made.isSome = true ↔ ∃ entry ∈ entries, path <+: Text.split '.' entry.1 := by
  cases makes with
  | nothing none_there => simpa using none_there
  | text entry member ends => exact iff_of_true rfl ⟨entry, member, ends ▸ List.prefix_rfl⟩
  | inside entry value member leads => exact iff_of_true rfl ⟨entry, member, leads⟩

/-- A key is determined by its parts. -/
theorem eq_of_split_eq {entries : List (String × Json)} (keys : (entries.map (·.1)).Nodup)
    {entry other : String × Json} (member : entry ∈ entries) (member' : other ∈ entries)
    (same : Text.split '.' entry.1 = Text.split '.' other.1) : entry = other := by
  obtain ⟨key, value⟩ := entry
  obtain ⟨key', value'⟩ := other
  obtain rfl : key = key' := by
    rw [← Text.intercalate_split '.' key, same, Text.intercalate_split]
  have found := (Keyed.lookup_eq_some_iff keys).mpr member
  rw [(Keyed.lookup_eq_some_iff keys).mpr member'] at found
  rw [Option.some.inj found]

/-- What is made at a path is made of the same texts. No text ends there while others lead further,
so it does not matter in which order they come. -/
theorem Makes.decides {entries others : List (String × Json)} {path : List String}
    {made made' : Option Json} (makes : Makes entries path made) (makes' : Makes others path made')
    (keys : (entries.map (·.1)).Nodup)
    (same : ∀ entry, path <+: Text.split '.' entry.1 → (entry ∈ others ↔ entry ∈ entries))
    (texts : ∀ entry ∈ entries, ∃ text, entry.2 = string text)
    (settled : ∀ one ∈ entries, ∀ other ∈ entries, Text.split '.' one.1 = path →
      path <+: Text.split '.' other.1 → Text.split '.' other.1 = path) (below : Option Json) :
    Decides True below made' (made.or below) := by
  cases makes with
  | nothing none_there =>
    cases makes' with
    | nothing => exact .nothing
    | text entry member ends =>
      have leads : path <+: Text.split '.' entry.1 := ends ▸ List.prefix_rfl
      exact absurd leads (none_there entry ((same entry leads).mp member))
    | inside entry value member leads =>
      exact absurd leads (none_there entry ((same entry leads).mp member))
  | text entry member ends =>
    have leads : path <+: Text.split '.' entry.1 := ends ▸ List.prefix_rfl
    cases makes' with
    | nothing none_there => exact absurd leads (none_there entry ((same entry leads).mpr member))
    | text other member' ends' =>
      have leads' : path <+: Text.split '.' other.1 := ends' ▸ List.prefix_rfl
      obtain rfl :=
        eq_of_split_eq keys member ((same other leads').mp member') (ends.trans ends'.symm)
      obtain ⟨text, written⟩ := texts entry member
      rw [written]
      exact .text text trivial
    | inside other value member' leads' further =>
      exact absurd (settled entry member other ((same other leads').mp member') ends leads') further
  | inside entry value member leads further holds =>
    cases makes' with
    | nothing none_there => exact absurd leads (none_there entry ((same entry leads).mpr member))
    | text other member' ends' =>
      have leads' : path <+: Text.split '.' other.1 := ends' ▸ List.prefix_rfl
      exact absurd (settled other ((same other leads').mp member') entry member ends' leads) further
    | inside other value' member' leads' further' holds' => exact .inside value' value holds' holds

end Json

end ShadowTrace
