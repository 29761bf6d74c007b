import ShadowTrace.Settings.Load

/-! # Keys of documents

Whatever is read, no object has a key twice: a reader either keeps the last value of a repeated key
or refuses it. What is inside arrays does not matter here, since nothing is ever merged there. -/

namespace ShadowTrace

/-! ## Entries -/

namespace Keyed

variable {α : Type} {P : α → Prop} {entries : List (String × α)}

/-- The entries with one of them set, in its place if it was there. -/
def put (key : String) (value : α) : List (String × α) → List (String × α)
  | [] => [(key, value)]
  | entry :: rest => if entry.1 = key then (key, value) :: rest else entry :: put key value rest

theorem setField_eq_put : Json.setField = put := by
  funext key value fields
  induction fields with
  | nil => rfl
  | cons field rest ih => rw [Json.setField, put, ih]

theorem set_eq_put : Toml.Table.set = put := by
  funext key item table
  induction table with
  | nil => rfl
  | cons entry rest ih => rw [Toml.Table.set, put, ih]

theorem nil : Keyed P [] := ⟨by simp, by simp⟩

theorem mem_put {key : String} {value : α} {entry : String × α}
    (member : entry ∈ put key value entries) :
    entry = (key, value) ∨ entry ∈ entries := by
  induction entries with
  | nil => exact .inl (List.mem_singleton.mp member)
  | cons first rest ih =>
    simp only [put] at member
    split at member
    · rcases List.mem_cons.mp member with rfl | inside
      · exact .inl rfl
      · exact .inr (.tail _ inside)
    · rcases List.mem_cons.mp member with rfl | inside
      · exact .inr (.head _)
      · exact (ih inside).imp id (.tail _)

theorem keys_put (key : String) (value : α) (entries : List (String × α)) :
    (put key value entries).map (·.1) =
      if key ∈ entries.map (·.1) then entries.map (·.1) else entries.map (·.1) ++ [key] := by
  induction entries with
  | nil => rfl
  | cons first rest ih =>
    simp only [put]
    split
    · next same => simp [same]
    · next other =>
      simp only [List.map_cons, ih, List.mem_cons, Ne.symm other, false_or]
      split <;> rfl

theorem lookup_of_absent {key : String} (absent : key ∉ entries.map (·.1)) :
    entries.lookup key = none := by
  rw [List.lookup_eq_none_iff]
  intro entry member
  rw [bne_iff_ne]
  rintro rfl
  exact absent (List.mem_map.mpr ⟨entry, member, rfl⟩)

theorem put_of_absent {key : String} (absent : key ∉ entries.map (·.1)) (value : α) :
    put key value entries = entries ++ [(key, value)] := by
  induction entries with
  | nil => rfl
  | cons first rest ih =>
    simp only [List.map_cons, List.mem_cons, not_or] at absent
    rw [put, if_neg (Ne.symm absent.1), ih absent.2, List.cons_append]

theorem set (keyed : Keyed P entries) (key : String) {value : α} (as_said : P value) :
    Keyed P (put key value entries) := by
  constructor
  · rw [keys_put]
    split
    · exact keyed.keys
    · next absent =>
      rw [List.nodup_append]
      refine ⟨keyed.keys, by simp, ?_⟩
      rintro one member two last same
      rw [same, List.mem_singleton.mp last] at member
      exact absent member
  · intro entry member
    rcases mem_put member with rfl | inside
    · exact as_said
    · exact keyed.each entry inside

theorem lookup (keyed : Keyed P entries) {key : String} {value : α}
    (found : entries.lookup key = some value) : P value := by
  obtain ⟨before, after, parts, -⟩ := List.lookup_eq_some_iff.mp found
  exact keyed.each (key, value) (by simp [parts])

theorem lookup_eq_some_iff (keys : (entries.map (·.1)).Nodup) {key : String} {value : α} :
    entries.lookup key = some value ↔ (key, value) ∈ entries := by
  constructor
  · intro found
    obtain ⟨before, after, parts, -⟩ := List.lookup_eq_some_iff.mp found
    simp [parts]
  · intro member
    obtain ⟨before, after, rfl⟩ := List.append_of_mem member
    refine List.lookup_eq_some_iff.mpr ⟨before, after, rfl, fun entry earlier => ?_⟩
    rw [List.map_append, List.nodup_append] at keys
    rw [bne_iff_ne]
    exact (keys.2.2 entry.1 (List.mem_map_of_mem earlier) key (by simp)).symm

/-- The order of entries does not matter. -/
theorem lookup_perm {other : List (String × α)} (same : other.Perm entries)
    (keys : (entries.map (·.1)).Nodup) (key : String) : other.lookup key = entries.lookup key := by
  apply Option.ext
  intro value
  rw [lookup_eq_some_iff keys, lookup_eq_some_iff ((same.map _).nodup_iff.mpr keys), same.mem_iff]

theorem perm (keyed : Keyed P entries) {other : List (String × α)} (same : other.Perm entries) :
    Keyed P other :=
  ⟨(same.map _).nodup_iff.mpr keyed.keys,
    fun entry member => keyed.each entry (same.mem_iff.mp member)⟩

end Keyed

/-! ## JSON -/

namespace Json

theorem distinct_object {fields : List (String × Json)} :
    Distinct (object fields) ↔ Keyed Distinct fields := by
  constructor
  · intro distinct
    cases distinct with
    | flat _ flat => cases flat
    | object _ keys each => exact ⟨keys, each⟩
  · exact fun keyed => .object fields keyed.keys keyed.each

theorem flat_integer? {negative : Bool} {number : Nat} {value : Json}
    (read : integer? negative number = some value) :
    value.isObject = false := by
  unfold integer? at read
  split at read <;> split at read <;> cases read <;> rfl

theorem flat_readNumber {text rest : List Char} {value : Json}
    (read : readNumber text = some (value, rest)) :
    value.isObject = false := by
  simp only [readNumber, Option.bind_eq_bind, Option.bind_eq_some_iff] at read
  obtain ⟨⟨whole, _⟩, -, ⟨fraction, _⟩, -, ⟨exponent, _⟩, -, read⟩ := read
  split at read
  next exact written =>
    cases read
    split at written
    · exact flat_integer? written
    · cases written
  · simp only [realNumber?, Option.bind_eq_bind, Option.bind_eq_some_iff] at read
    obtain ⟨_, ⟨word, -, written⟩, read⟩ := read
    cases written
    cases read
    rfl

/-- A value is read by reading its fields, and a field by reading its value. -/
theorem distinct_readValue (fuel : Nat) :
    (∀ depth text value rest, readValue fuel depth text = some (value, rest) → Distinct value) ∧
      ∀ depth fields text all rest, Keyed Distinct fields →
        readFields fuel depth fields text = some (all, rest) →
        Keyed Distinct all := by
  induction fuel with
  | zero => simp [readValue, readFields]
  | succ fuel ih =>
    obtain ⟨values, others⟩ := ih
    constructor
    · intro depth text value rest read
      rw [readValue] at read
      split at read
      -- The three words are values by themselves.
      · cases read
        exact .flat _ rfl
      · cases read
        exact .flat _ rfl
      · cases read
        exact .flat _ rfl
      -- Texts and arrays are no objects.
      · obtain ⟨_, -, written⟩ := Option.map_eq_some_iff.mp read
        cases written
        exact .flat _ rfl
      · split at read
        · cases read
        · split at read
          · cases read
            exact .flat _ rfl
          · obtain ⟨_, -, written⟩ := Option.map_eq_some_iff.mp read
            cases written
            exact .flat _ rfl
      -- The fields of an object are added one by one to none.
      · split at read
        · cases read
        · split at read
          · cases read
            exact distinct_object.mpr .nil
          · obtain ⟨⟨fields, _⟩, inside, written⟩ := Option.map_eq_some_iff.mp read
            cases written
            exact distinct_object.mpr (others _ [] _ _ _ .nil inside)
      · exact .flat _ (flat_readNumber read)
    · intro depth fields text all rest keyed read
      rw [readFields] at read
      split at read
      · simp only [Option.bind_eq_bind, Option.bind_eq_some_iff] at read
        obtain ⟨⟨key, _⟩, -, read⟩ := read
        split at read
        · simp only [Option.bind_eq_some_iff] at read
          obtain ⟨⟨value, _⟩, inner, read⟩ := read
          have longer := keyed.set key (values _ _ _ _ inner)
          rw [Keyed.setField_eq_put] at read
          split at read
          · exact others _ _ _ _ _ longer read
          · cases read
            exact longer
          · cases read
        · cases read
      · cases read

theorem distinct_read? {text : String} {value : Json} (read : read? text = some value) :
    Distinct value := by
  unfold read? at read
  split at read
  next result _ inside =>
    split at read
    · cases read
      exact (distinct_readValue _).1 _ _ _ _ inside
    · cases read
  · cases read

end Json

/-! ## TOML -/

namespace Toml

/-- What stands under a key will have no key twice; several tables become an array. -/
inductive Item.Distinct : Item → Prop where
  | value (value : Json) (distinct : value.Distinct) : Item.Distinct (.value value)
  | table (kind : Kind) (entries : Table) (keys : (entries.map (·.1)).Nodup)
      (each : ∀ entry ∈ entries, Item.Distinct entry.2) :
    Item.Distinct (.table kind entries)
  | tables (all : List Table) : Item.Distinct (.tables all)

theorem Item.distinct_table {kind : Kind} {entries : Table} :
    Item.Distinct (.table kind entries) ↔ Keyed Item.Distinct entries := by
  constructor
  · rintro (_ | ⟨_, _, keys, each⟩)
    exact ⟨keys, each⟩
  · exact fun keyed => .table kind entries keyed.keys keyed.each

theorem entriesToJson_eq (entries : Table) :
    entriesToJson entries = entries.map fun entry => (entry.1, entry.2.toJson) := by
  induction entries with
  | nil => rfl
  | cons entry rest ih => rw [entriesToJson, ih, List.map_cons]

theorem keys_entriesToJson (entries : Table) :
    (entriesToJson entries).map (·.1) = entries.map (·.1) := by
  rw [entriesToJson_eq, List.map_map]
  rfl

theorem Item.Distinct.toJson {item : Item} (distinct : item.Distinct) : item.toJson.Distinct := by
  induction distinct with
  | value value distinct => exact distinct
  | table kind entries keys each ih =>
    refine .object _ ?_ ?_
    · rw [keys_entriesToJson]
      exact keys
    · intro field member
      rw [entriesToJson_eq] at member
      obtain ⟨entry, inside, rfl⟩ := List.mem_map.mp member
      exact ih entry inside
  | tables all => exact .flat _ rfl

theorem keyed_entriesToJson {entries : Table} (keyed : Keyed Item.Distinct entries) :
    Keyed Json.Distinct (entriesToJson entries) :=
  Json.distinct_object.mp
    (Item.distinct_table.mpr keyed : Item.Distinct (.table .implied entries)).toJson

namespace Table

variable {table after : Table}

theorem keyed_set (keyed : Keyed Item.Distinct table) (key : String) {item : Item}
    (distinct : item.Distinct) :
    Keyed Item.Distinct (set key item table) := by
  rw [Keyed.set_eq_put]
  exact keyed.set key distinct

/-- A change of an inner table that repeats no key leads to no repeated key. -/
theorem keyed_within {change : Table → Option Table}
    (keeps : ∀ inner after, Keyed Item.Distinct inner → change inner = some after →
      Keyed Item.Distinct after)
    {path : List String} (keyed : Keyed Item.Distinct table)
    (changed : within change path table = some after) : Keyed Item.Distinct after := by
  induction path generalizing table after with
  | nil => exact keeps table after keyed changed
  | cons key rest ih =>
    rw [within] at changed
    split at changed
    · obtain ⟨inner, made, rfl⟩ := Option.map_eq_some_iff.mp changed
      exact keyed_set keyed key (Item.distinct_table.mpr (ih .nil made))
    · next found =>
      obtain ⟨inner, made, rfl⟩ := Option.map_eq_some_iff.mp changed
      exact keyed_set keyed key
        (Item.distinct_table.mpr (ih (Item.distinct_table.mp (keyed.lookup found)) made))
    · obtain ⟨latest, -, rfl⟩ := Option.map_eq_some_iff.mp changed
      exact keyed_set keyed key (.tables _)
    · cases changed

theorem keyed_declare {key : String} (keyed : Keyed Item.Distinct table)
    (declared : declare key table = some after) :
    Keyed Item.Distinct after := by
  rw [declare] at declared
  split at declared
  · cases declared
    exact keyed_set keyed key (Item.distinct_table.mpr .nil)
  · next found =>
    cases declared
    exact keyed_set keyed key
      (Item.distinct_table.mpr (Item.distinct_table.mp (keyed.lookup found)))
  · cases declared

theorem keyed_declareNext {key : String} (keyed : Keyed Item.Distinct table)
    (declared : declareNext key table = some after) :
    Keyed Item.Distinct after := by
  rw [declareNext] at declared
  split at declared
  · cases declared
    exact keyed_set keyed key (.tables _)
  · cases declared
    exact keyed_set keyed key (.tables _)
  · cases declared

theorem keyed_insert {value : Json} (distinct : value.Distinct) {path : List String}
    (keyed : Keyed Item.Distinct table) (inserted : insert value path table = some after) :
    Keyed Item.Distinct after := by
  induction path generalizing table after with
  | nil => cases inserted
  | cons key rest ih =>
    cases rest with
    | nil =>
      rw [insert] at inserted
      split at inserted
      · cases inserted
      · cases inserted
        exact keyed_set keyed key (.value value distinct)
    | cons next rest =>
      rw [insert] at inserted
      · split at inserted
        · obtain ⟨inner, made, rfl⟩ := Option.map_eq_some_iff.mp inserted
          exact keyed_set keyed key (Item.distinct_table.mpr (ih .nil made))
        · next found =>
          obtain ⟨inner, made, rfl⟩ := Option.map_eq_some_iff.mp inserted
          exact keyed_set keyed key
            (Item.distinct_table.mpr (ih (Item.distinct_table.mp (keyed.lookup found)) made))
        · next found =>
          obtain ⟨inner, made, rfl⟩ := Option.map_eq_some_iff.mp inserted
          exact keyed_set keyed key
            (Item.distinct_table.mpr (ih (Item.distinct_table.mp (keyed.lookup found)) made))
        · split at inserted
          · cases inserted
          · obtain ⟨latest, -, rfl⟩ := Option.map_eq_some_iff.mp inserted
            exact keyed_set keyed key (.tables _)
        · cases inserted
      · simp

end Table

theorem flat_signedWord? {number : Int} {value : Json} (read : signedWord? number = some value) :
    value.isObject = false := by
  unfold signedWord? at read
  split at read <;> cases read
  rfl

theorem flat_integer? {text : List Char} {value : Json} (read : integer? text = some value) :
    value.isObject = false := by
  unfold integer? basedInteger? at read
  simp only [Option.bind_eq_bind] at read
  split at read <;>
  · obtain ⟨digits, -, word⟩ := Option.bind_eq_some_iff.mp read
    exact flat_signedWord? word

theorem flat_special? {negative : Bool} {text : List Char} {value : Json}
    (read : special? negative text = some value) :
    value.isObject = false := by
  simp only [special?] at read
  split at read
  · cases read
    rfl
  · split at read <;> cases read
    rfl

theorem flat_real? {negative : Bool} {coefficient : Nat} {scale : Int} {value : Json}
    (read : real? negative coefficient scale = some value) : value.isObject = false := by
  simp only [real?] at read
  split at read <;> cases read
  rfl

theorem flat_float? {text : List Char} {value : Json} (read : float? text = some value) :
    value.isObject = false := by
  simp only [float?] at read
  split at read
  next special =>
    cases read
    exact flat_special? special
  · split at read
    · cases read
    · simp only [Option.bind_eq_bind, Option.bind_eq_some_iff] at read
      obtain ⟨_, -, _, -, _, -, real⟩ := read
      exact flat_real? real

theorem flat_dateTime? {text : List Char} {value : Json} (read : dateTime? text = some value) :
    value.isObject = false := by
  simp only [dateTime?] at read
  split at read
  · split at read
    · cases read
      rfl
    · split at read
      · obtain ⟨time, -, rfl⟩ := Option.map_eq_some_iff.mp read
        rfl
      · cases read
  · obtain ⟨time, -, rfl⟩ := Option.map_eq_some_iff.mp read
    rfl

theorem flat_scalar {text : List Char} {value : Json} (read : scalar text = some value) :
    value.isObject = false := by
  unfold scalar at read
  split at read
  · cases read
    rfl
  · split at read
    · cases read
      rfl
    · simp only [Option.orElse_eq_orElse, Option.orElse_eq_or, Option.or_eq_some_iff] at read
      rcases read with integer | ⟨-, float | ⟨-, date⟩⟩
      · exact flat_integer? integer
      · exact flat_float? float
      · exact flat_dateTime? date

theorem flat_readScalar {text rest : List Char} {value : Json}
    (read : readScalar text = some (value, rest)) :
    value.isObject = false := by
  unfold readScalar at read
  obtain ⟨_, inner, written⟩ := Option.map_eq_some_iff.mp read
  cases written
  exact flat_scalar inner

theorem distinct_readValue (fuel : Nat) :
    (∀ depth text value rest, readValue fuel depth text = some (value, rest) → value.Distinct) ∧
      ∀ depth table text all rest, Keyed Item.Distinct table →
        readInline fuel depth table text = some (all, rest) →
        Keyed Item.Distinct all := by
  induction fuel with
  | zero => simp [readValue, readInline]
  | succ fuel ih =>
    obtain ⟨values, others⟩ := ih
    constructor
    · intro depth text value rest read
      unfold readValue at read
      split at read
      -- Texts in both kinds of quotes, and arrays.
      · obtain ⟨_, -, written⟩ := Option.map_eq_some_iff.mp read
        cases written
        exact .flat _ rfl
      · obtain ⟨_, -, written⟩ := Option.map_eq_some_iff.mp read
        cases written
        exact .flat _ rfl
      · split at read
        · cases read
        · obtain ⟨_, -, written⟩ := Option.map_eq_some_iff.mp read
          cases written
          exact .flat _ rfl
      -- An inline table is read into an empty one.
      · split at read
        · cases read
        · obtain ⟨⟨table, _⟩, inside, written⟩ := Option.map_eq_some_iff.mp read
          cases written
          exact Json.distinct_object.mpr (keyed_entriesToJson (others _ [] _ _ _ .nil inside))
      · exact .flat _ (flat_readScalar read)
    · intro depth table text all rest keyed read
      rw [readInline] at read
      simp only [Option.bind_eq_bind, Option.bind_eq_some_iff] at read
      obtain ⟨start, -, read⟩ := read
      split at read
      · cases read
        exact keyed
      · simp only [Option.bind_eq_some_iff] at read
        obtain ⟨⟨key, _⟩, -, _, -, read⟩ := read
        split at read
        · simp only [Option.bind_eq_some_iff] at read
          obtain ⟨_, -, ⟨value, _⟩, inner, longer, inserted, _, -, read⟩ := read
          have keyed := Table.keyed_insert (values _ _ _ _ inner) keyed inserted
          split at read
          · exact others _ _ _ _ _ keyed read
          · cases read
            exact keyed
          · cases read
        · cases read

theorem keyed_readLine {state after : State} {text rest : List Char}
    (keyed : Keyed Item.Distinct state.root) (read : readLine state text = some (after, rest)) :
    Keyed Item.Distinct after.root := by
  -- A header enters a table; a key adds its value to the one that was entered.
  have entered {key : List String} {declare : String → Table → Option Table} {after : State}
      (keeps : ∀ key table after, Keyed Item.Distinct table → declare key table = some after →
        Keyed Item.Distinct after)
      (enter : state.enter key declare = some after) : Keyed Item.Distinct after.root := by
    simp only [State.enter, Option.bind_eq_bind, Option.bind_eq_some_iff] at enter
    obtain ⟨last, -, root, changed, made⟩ := enter
    cases made
    exact Table.keyed_within (keeps last) keyed changed
  unfold readLine at read
  simp only [Option.bind_eq_bind] at read
  -- The header of a next table, that of a single one, and a key with its value.
  split at read
  · obtain ⟨_, -, read⟩ := Option.bind_eq_some_iff.mp read
    split at read
    · simp only [Option.bind_eq_some_iff] at read
      obtain ⟨state, enter, _, -, made⟩ := read
      cases made
      exact entered (fun _ _ _ => Table.keyed_declareNext) enter
    · cases read
  · obtain ⟨_, -, read⟩ := Option.bind_eq_some_iff.mp read
    split at read
    · simp only [Option.bind_eq_some_iff] at read
      obtain ⟨state, enter, _, -, made⟩ := read
      cases made
      exact entered (fun _ _ _ => Table.keyed_declare) enter
    · cases read
  · obtain ⟨⟨key, _⟩, -, read⟩ := Option.bind_eq_some_iff.mp read
    split at read
    · simp only [Option.bind_eq_some_iff] at read
      obtain ⟨⟨value, _⟩, inner, root, changed, _, -, made⟩ := read
      cases made
      exact Table.keyed_within
        (fun _ _ keyed inserted => Table.keyed_insert ((distinct_readValue _).1 _ _ _ _ inner) keyed
          inserted) keyed changed
    · cases read

theorem keyed_readLines {fuel : Nat} {state : State} {text : List Char} {table : Table}
    (keyed : Keyed Item.Distinct state.root) (read : readLines fuel state text = some table) :
    Keyed Item.Distinct table := by
  induction fuel generalizing state text with
  | zero => cases read
  | succ fuel ih =>
    simp only [readLines, Option.bind_eq_bind, Option.bind_eq_some_iff] at read
    obtain ⟨_, -, read⟩ := read
    split at read
    · cases read
      exact keyed
    · simp only [Option.bind_eq_some_iff] at read
      obtain ⟨⟨state, _⟩, line, read⟩ := read
      exact ih (keyed_readLine keyed line) read

theorem keyed_read? {text : String} {entries : List (String × Json)}
    (read : read? text = some entries) :
    Keyed Json.Distinct entries := by
  obtain ⟨table, lines, rfl⟩ := Option.map_eq_some_iff.mp read
  exact keyed_entriesToJson (keyed_readLines .nil lines)

end Toml

theorem Markup.keyed_entries {markup : Markup} {readers : Readers} {text : String}
    {entries : List (String × Json)} (read : markup.entries readers text = .ok entries) :
    Keyed Json.Distinct entries := by
  unfold Markup.entries at read
  split at read
  next all found =>
    cases read
    cases markup with
    | toml => exact Toml.keyed_read? found
    | json =>
      simp only [Markup.read?] at found
      split at found
      next document =>
        cases found
        exact Json.distinct_object.mp (Json.distinct_read? document)
      · cases found
    | json5 => exact readers.json5.keyed text entries found
    | yaml => exact readers.yaml.keyed text entries found
    | ron => exact readers.ron.keyed text entries found
    | ini => exact readers.ini.keyed text entries found
  · cases read

namespace Settings

/-- The document that is used, with its text. -/
def document? (here : Surroundings) : Option (Markup × String) :=
  (here.files.nearest? here.searched fileName).bind (documentIn? here)

theorem fileEntries_eq (here : Surroundings) :
    fileEntries here =
      (document? here).elim (.ok []) fun document =>
        document.1.entries here.readers document.2 := by
  unfold fileEntries document?
  cases here.files.nearest? here.searched fileName with
  | none => rfl
  | some folder =>
    simp only [Option.bind_some]
    cases documentIn? here folder <;> rfl

theorem keyed_fileEntries {here : Surroundings} {entries : List (String × Json)}
    (read : fileEntries here = .ok entries) : Keyed Json.Distinct entries := by
  rw [fileEntries_eq] at read
  cases found : document? here with
  | none =>
    rw [found] at read
    cases read
    exact .nil
  | some document =>
    rw [found] at read
    exact Markup.keyed_entries read

theorem keyed_inlineEntries {here : Surroundings} {entries : List (String × Json)}
    (read : inlineEntries here = .ok entries) :
    Keyed Json.Distinct entries := by
  unfold inlineEntries at read
  split at read
  · split at read
    · exact Markup.keyed_entries read
    · cases read
      exact .nil
  · cases read
    exact .nil

end Settings

end ShadowTrace
