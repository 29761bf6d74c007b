import ShadowTrace.Proofs.Fields

/-! # Which source a setting comes from

Every setting is read from one value: that of a variable of the environment if there is one, else
that of the document in the environment, else that of the file; else the default is taken. Only
where both documents have a table is the value made of two, and the only setting that may be a table
is the format of dumps. Nothing else in the sources matters, and where no variable goes on below a
setting of another, neither does the order in which they come. -/

namespace ShadowTrace

open Json (Distinct HoldsText Decides)

namespace Settings

/-! ## Values that decide -/

/-- Nothing is made of a table with a text inside. -/
def Refuses {α : Type} (read : Json → Option α) : Prop :=
  ∀ value, value.HoldsText → read value = none

theorem Refuses.of_tables {α : Type} {read : Json → Option α}
    (tables : ∀ fields, read (.object fields) = none) : Refuses read := by
  intro value holds
  cases value with
  | object fields => exact tables fields
  | _ => cases holds.isObject

theorem refuses_toBool? : Refuses toBool? := .of_tables fun _ => rfl

theorem refuses_toWord? : Refuses toWord? := .of_tables fun _ => rfl

theorem refuses_toHalfWord? : Refuses toHalfWord? := .of_tables fun _ => rfl

theorem refuses_toShards? : Refuses toShards? := .of_tables fun _ => rfl

theorem refuses_toText? : Refuses toText? := .of_tables fun _ => rfl

/-- A format may be a table that names it and says nothing more, but then there is no text in it. -/
theorem refuses_toFormat? : Refuses toFormat? := by
  rintro value ⟨key, path, text, found⟩
  have single {name : String} {inner : Json}
      (found : (Json.object [(name, inner)]).at? (key :: path) = some (.string text)) :
      inner.at? path = some (.string text) := by
    rw [Json.at?_cons, Json.get?_object, List.lookup_cons] at found
    split at found
    · exact found
    · cases found
  unfold toFormat?
  split
  -- The name of a format is no table; beside a name there is null or an empty table, where no path
  -- leads to a text.
  · cases Json.isObject_of_at? found
  · cases path with
    | nil => cases single found
    | cons next path => cases Json.isObject_of_at? (single found)
  · cases path with
    | nil => cases single found
    | cons next path => cases single found
  · rfl

section

variable {own : Prop} {below alone merged : Option Json} (decides : Decides own below alone merged)

include decides

theorem convert_congr {α : Type} (path : List String) (fallback : α) {read : Json → Option α}
    (refuses : Refuses read) :
    convert path fallback read merged = convert path fallback read (alone.or below) := by
  cases decides with
  | nothing => rfl
  | text => rfl
  | inside alone merged holds holds' =>
    simp only [convert, Option.some_or, refuses _ holds, refuses _ holds']

theorem any_isFileType_eq : merged.any isFileType = (alone.or below).any isFileType := by
  have refuses {value : Json} (holds : value.HoldsText) : isFileType value = false := by
    cases value with
    | object => rfl
    | _ => cases holds.isObject
  cases decides with
  | nothing => rfl
  | text => rfl
  | inside alone merged holds holds' =>
    simp only [Option.any_some, Option.some_or, refuses holds, refuses holds']

end

theorem fromPaths_congr {below alone merged : List String → Option Json}
    (decides : ∀ field ∈ known, Decides True (below field.1) (alone field.1) (merged field.1))
    (dumped : Bool) :
    fromPaths merged dumped = fromPaths (fun path => (alone path).or (below path)) dumped := by
  simp only [known, List.forall_mem_cons] at decides
  obtain ⟨skip, dense, shards, stack, trace, type, directory, format, before, extension, -⟩ :=
    decides
  simp only [fromPaths, dumpAt, dumpFields, convert_congr skip _ _ refuses_toBool?,
    convert_congr dense _ _ refuses_toHalfWord?, convert_congr shards _ _ refuses_toShards?,
    convert_congr stack _ _ refuses_toWord?, convert_congr trace _ _ refuses_toWord?,
    any_isFileType_eq type, convert_congr directory _ _ refuses_toText?,
    convert_congr format _ _ refuses_toFormat?, convert_congr before _ _ refuses_toText?,
    convert_congr extension _ _ refuses_toText?]

/-! ## The sources together -/

theorem known_ne_nil {field : List String × (Json → Bool)} (member : field ∈ known) :
    field.1 ≠ [] := by
  have all : ∀ field ∈ known, field.1 ≠ [] := by simp [known]
  exact all field member

/-- The sources can be read, their keys are words, and on the way to a setting there are
only tables. -/
structure Layers (here : Surroundings) (file inline : List (String × Json)) : Prop where
  file_read : fileEntries here = .ok file
  inline_read : inlineEntries here = .ok inline
  plain : ∀ entry ∈ file ++ inline, Json.Route.isPlain entry.1 = true
  plain_variables : ∀ entry ∈ variableEntries here, ∀ part ∈ Text.split '.' entry.1,
    Json.Route.isPlain part = true
  tables : ∀ field ∈ known,
    (Json.object file).TablesAbove field.1 ∧ (Json.object inline).TablesAbove field.1
  texts : ∀ field ∈ known, ∀ entry ∈ variableEntries here,
    Text.split '.' entry.1 <+: field.1 → Text.split '.' entry.1 = field.1

/-- The single variables in the order in which they come. -/
def laidVariables (here : Surroundings) : List (String × Json) :=
  here.arrangement.entries .environment (variableEntries here)

/-- What the single variables make by themselves: each is a text at the end of its path. -/
def variableTree (here : Surroundings) : Json :=
  (Json.object []).overlayEntries (laidVariables here)

/-- The documents laid over one another. -/
def documents (here : Surroundings) (file inline : List (String × Json)) : Json :=
  (Json.object (here.arrangement.entries .file file)).overlay
    (.object (here.arrangement.entries .inline inline))

/-- All sources laid over one another. -/
def merged (here : Surroundings) (file inline : List (String × Json)) : Json :=
  (documents here file inline).overlayEntries (laidVariables here)

/-- What the documents have at a path: that of the environment goes before that of the file, and two
tables are merged. -/
def documentAt? (file inline : Json) (path : List String) : Option Json :=
  match inline.at? path, file.at? path with
  | some (.object upper), some (.object lower) => some ((Json.object lower).overlay (.object upper))
  | some value, _ => some value
  | none, value => value

/-- The value that is used for the setting at the path. -/
def used? (file inline environment : Json) (path : List String) : Option Json :=
  (environment.at? path).or (documentAt? file inline path)

/-- The value of the first source that has one. -/
def first? (file inline environment : Json) (path : List String) : Option Json :=
  (environment.at? path).or ((inline.at? path).or (file.at? path))

/-- Some source has something for the dump, which is a table then. -/
def isDumped (file inline environment : Json) : Bool :=
  (environment.at? ["trace", "dump"]).isSome || (inline.at? ["trace", "dump"]).isSome ||
    (file.at? ["trace", "dump"]).isSome

theorem used?_eq_first? {file inline : Json} {path : List String}
    (apart : ∀ upper lower, inline.at? path = some (.object upper) →
      file.at? path ≠ some (.object lower))
    (environment : Json) :
    used? file inline environment path = first? file inline environment path := by
  have documents : documentAt? file inline path = (inline.at? path).or (file.at? path) := by
    unfold documentAt?
    split
    next upper lower there below => exact absurd below (apart upper lower there)
    next there _ => rw [there, Option.some_or]
    next nothing => rw [nothing, Option.none_or]
  rw [used?, first?, documents]

theorem isSome_documentAt? (file inline : Json) (path : List String) :
    (documentAt? file inline path).isSome =
      ((inline.at? path).isSome || (file.at? path).isSome) := by
  unfold documentAt?
  split <;> simp [*]

theorem isObject_documentAt? {file inline : Json} {path : List String} {value : Json}
    (upper : ∀ value, inline.at? path = some value → value.isObject = true)
    (lower : ∀ value, file.at? path = some value → value.isObject = true)
    (found : documentAt? file inline path = some value) : value.isObject = true := by
  unfold documentAt? at found
  split at found
  · cases found
    exact Json.isObject_overlay _ rfl
  next there _ =>
    cases found
    exact upper value there
  · exact lower value found

theorem keyed_variableEntries (here : Surroundings) :
    Keyed (fun value => ∃ text, value = Json.string text) (variableEntries here) := by
  refine List.foldlRecOn (motive := Keyed fun value => ∃ text, value = Json.string text)
    here.environment _ .nil ?_
  rintro entries keyed ⟨name, text⟩ -
  -- A variable sets one entry to its text, if its name starts as it should.
  simp only
  split
  · rw [Keyed.setField_eq_put]
    exact keyed.set _ ⟨text, rfl⟩
  · exact keyed

theorem perm_laidVariables (here : Surroundings) :
    (laidVariables here).Perm (variableEntries here) :=
  here.arrangement.entries_perm _ _

theorem text_of_mem_laidVariables {here : Surroundings} (entry : String × Json)
    (member : entry ∈ laidVariables here) : ∃ text, entry.2 = .string text :=
  ((keyed_variableEntries here).perm (perm_laidVariables here)).each entry member

theorem checkPlaces_fields {entries : List (String × Json)}
    (fields : ∀ entry ∈ entries, ∃ path : List String, Json.Route.ofKey entry.1 = path.map .field) :
    checkPlaces entries = .ok () := by
  have all (rooms : List Nat) (none_needed : ∀ room ∈ rooms, room = 0) :
      (rooms.forM fun room => reserve (UInt64.ofNat room) placeBytes) = .ok () := by
    induction rooms with
    | nil => rfl
    | cons first rooms ih =>
      rw [List.forM_eq_forM, List.forM_cons, none_needed first (by simp)]
      exact ih fun room member => none_needed room (by simp [member])
  simp only [checkPlaces]
  rw [all]
  intro room member
  obtain ⟨entry, inside, member⟩ := List.mem_flatMap.mp member
  obtain ⟨path, route⟩ := fields entry inside
  simp only [route, List.map_map] at member
  obtain ⟨key, -, rfl⟩ := List.mem_map.mp member
  rfl

section

variable {here : Surroundings} {file inline : List (String × Json)}
  (layers : Layers here file inline)

include layers

theorem Layers.keyed_file : Keyed Distinct (here.arrangement.entries .file file) :=
  (keyed_fileEntries layers.file_read).perm (here.arrangement.entries_perm _ _)

theorem Layers.keyed_inline : Keyed Distinct (here.arrangement.entries .inline inline) :=
  (keyed_inlineEntries layers.inline_read).perm (here.arrangement.entries_perm _ _)

theorem Layers.plain_laid (entry : String × Json)
    (member : entry ∈ here.arrangement.entries .file file ∨
      entry ∈ here.arrangement.entries .inline inline) :
    Json.Route.isPlain entry.1 = true := by
  rw [(here.arrangement.entries_perm _ _).mem_iff, (here.arrangement.entries_perm _ _).mem_iff]
    at member
  exact layers.plain entry (List.mem_append.mpr member)

theorem Layers.plain_laidVariables (entry : String × Json) (member : entry ∈ laidVariables here) :
    ∀ part ∈ Text.split '.' entry.1, Json.Route.isPlain part = true :=
  layers.plain_variables entry ((perm_laidVariables here).mem_iff.mp member)

theorem Layers.documents_eq :
    ((Json.object []).overlayEntries (here.arrangement.entries .file file)).overlayEntries
      (here.arrangement.entries .inline inline) = documents here file inline := by
  -- The file is laid over nothing, which leaves it as it is.
  have alone : (Json.object []).overlayFields (here.arrangement.entries .file file) =
      .object (here.arrangement.entries .file file) := by
    have keyed := layers.keyed_file
    rw [Json.overlayFields_append (by simpa using keyed.keys), List.nil_append]
    exact fun field member => Json.overlay_eq_self (keyed.each field member) rfl
  rw [Json.overlayEntries_plain _ fun entry member => layers.plain_laid entry (.inl member),
    Json.overlayEntries_plain _ fun entry member => layers.plain_laid entry (.inr member), alone,
    documents, Json.overlay]
  rfl

theorem Layers.at?_documents {path : List String} (some_key : path ≠ [])
    (tables : (Json.object inline).TablesAbove path) :
    (documents here file inline).at? path = documentAt? (.object file) (.object inline) path := by
  have files : (Json.object (here.arrangement.entries .file file)).at? path = _ :=
    Json.at?_perm (here.arrangement.entries_perm _ _) (keyed_fileEntries layers.file_read).keys
      some_key
  have keyed := keyed_inlineEntries layers.inline_read
  have same := here.arrangement.entries_perm .inline inline
  rw [documents, Json.at?_overlay (Json.distinct_object.mpr layers.keyed_inline)
    (tables.perm same keyed.keys), Json.at?_perm same keyed.keys some_key, files, documentAt?]
  cases upper : (Json.object inline).at? path with
  | none => rfl
  | some value =>
    have distinct := (Json.distinct_object.mpr keyed).at? upper
    cases value with
    | object upper =>
      cases lower : (Json.object file).at? path with
      | none => exact congrArg some (Json.overlay_eq_self distinct rfl)
      | some other =>
        cases other with
        | object => rfl
        | _ => exact congrArg some (Json.overlay_eq_self distinct rfl)
    | _ => exact congrArg some (Json.overlay_flat _ rfl)

/-- What is at a path when all sources are laid over one another. -/
theorem Layers.decides {path : List String} (some_key : path ≠ [])
    (tables : (Json.object inline).TablesAbove path) {own : Prop}
    (above : ∀ entry ∈ variableEntries here, Text.split '.' entry.1 <+: path →
      Text.split '.' entry.1 = path)
    (set : ∀ entry ∈ variableEntries here, Text.split '.' entry.1 = path → own) :
    Decides own (documentAt? (.object file) (.object inline) path) ((variableTree here).at? path)
      ((merged here file inline).at? path) := by
  have member {entry : String × Json} : entry ∈ laidVariables here → entry ∈ variableEntries here :=
    (perm_laidVariables here).mem_iff.mp
  refine Json.decides_overlayEntries text_of_mem_laidVariables layers.plain_laidVariables
    (fun entry inside => above entry (member inside))
    (fun entry inside => set entry (member inside)) ?_
  have nothing : (Json.object []).at? path = none := by
    cases path with
    | nil => contradiction
    | cons key path => rfl
  rw [nothing, ← layers.at?_documents some_key tables]
  exact .nothing

theorem Layers.makes {path : List String} (some_key : path ≠ [])
    (above : ∀ entry ∈ variableEntries here, Text.split '.' entry.1 <+: path →
      Text.split '.' entry.1 = path) :
    Json.Makes (variableEntries here) path ((variableTree here).at? path) := by
  refine Json.Makes.perm ?_ (perm_laidVariables here).symm
  exact Json.makes_overlayEntries text_of_mem_laidVariables layers.plain_laidVariables some_key
    fun entry member => above entry ((perm_laidVariables here).mem_iff.mp member)

/-- No variable ends on the way to a setting: it would end before the setting. -/
theorem Layers.none_above {path rest : List String} (member : path ++ rest ∈ known.map (·.1))
    (some_left : rest ≠ []) :
    ∀ entry ∈ variableEntries here, ¬ Text.split '.' entry.1 <+: path := by
  obtain ⟨field, member, parts⟩ := List.mem_map.mp member
  intro entry inside shorter
  have whole :=
    layers.texts field member entry inside (parts ▸ shorter.trans (List.prefix_append path rest))
  rw [whole, parts] at shorter
  have length := shorter.length_le
  rw [List.length_append] at length
  exact some_left (List.eq_nil_of_length_eq_zero (by omega))

/-- On the way to a setting there are tables, from whatever source. -/
theorem Layers.section_at? (path rest : List String) (member : path ++ rest ∈ known.map (·.1))
    (some_key : path ≠ []) (some_left : rest ≠ []) :
    (∀ value, (merged here file inline).at? path = some value → value.isObject = true) ∧
      ((merged here file inline).at? path).isSome =
        (((variableTree here).at? path).isSome || ((Json.object inline).at? path).isSome ||
          ((Json.object file).at? path).isSome) := by
  have none_above := layers.none_above member some_left
  obtain ⟨field, member, parts⟩ := List.mem_map.mp member
  obtain ⟨tables, tables'⟩ := layers.tables field member
  rw [parts] at tables tables'
  have decides := layers.decides some_key tables'.of_append
    (fun entry inside shorter => absurd shorter (none_above entry inside))
    (fun entry inside same => none_above entry inside (same ▸ List.prefix_rfl))
  obtain ⟨present, cases⟩ := decides.cases_of_not
  constructor
  · intro value found
    rcases cases value found with table | document
    · exact table
    · exact isObject_documentAt? (fun value => tables' path rest value rfl some_left)
        (fun value => tables path rest value rfl some_left) document
  · rw [present, isSome_documentAt?, Bool.or_assoc]

theorem Layers.tables_above (path : List String) (member : path ∈ sections) (value : Json)
    (found : (merged here file inline).at? path = some value) : value.isObject = true := by
  have on_the_way (rest : List String) (member : path ++ rest ∈ known.map (·.1))
      (some_key : path ≠ []) (some_left : rest ≠ []) : value.isObject = true :=
    (layers.section_at? path rest member some_key some_left).1 value found
  simp only [sections, List.mem_cons, List.not_mem_nil, or_false] at member
  rcases member with rfl | rfl | rfl | rfl | rfl
  · cases found
    exact Json.isObject_overlayEntries text_of_mem_laidVariables layers.plain_laidVariables
      (Json.isObject_overlay _ rfl)
  · exact on_the_way ["shards"] (by simp [known]) (by simp) (by simp)
  · exact on_the_way ["initial_capacity"] (by simp [known]) (by simp) (by simp)
  · exact on_the_way ["initial_capacity"] (by simp [known]) (by simp) (by simp)
  · exact on_the_way ["type"] (by simp [known]) (by simp) (by simp)

theorem Layers.load_eq_ofJson : load here = ofJson (merged here file inline) := by
  -- No key names a place in a list, so there is room enough.
  have words {entries : List (String × Json)}
      (plain : ∀ entry ∈ entries, Json.Route.isPlain entry.1 = true) :
      checkPlaces entries = .ok () :=
    checkPlaces_fields fun entry member => ⟨[entry.1], Json.Route.ofKey_plain (plain entry member)⟩
  have inFile := words fun entry member => layers.plain_laid entry (.inl member)
  have inInline := words fun entry member => layers.plain_laid entry (.inr member)
  have inVariables : checkPlaces (laidVariables here) = .ok () :=
    checkPlaces_fields fun entry member =>
      ⟨_, Json.Route.ofKey_eq (layers.plain_laidVariables entry member)⟩
  rw [merged, ← layers.documents_eq, load, layers.file_read, layers.inline_read]
  rw [laidVariables] at inVariables ⊢
  simp only [laid, bind, Except.bind, pure, Except.pure, inFile, inInline, inVariables]

/-- The settings are read from the values that are used at their paths. -/
theorem Layers.load_eq :
    load here = fromPaths (used? (.object file) (.object inline) (variableTree here))
      (isDumped (.object file) (.object inline) (variableTree here)) := by
  have dumped :=
    (layers.section_at? ["trace", "dump"] ["type"] (by simp [known]) (by simp) (by simp)).2
  rw [layers.load_eq_ofJson, ofJson_eq layers.tables_above, dumped]
  refine fromPaths_congr (fun field member => ?_) _
  exact layers.decides (known_ne_nil member) (layers.tables field member).2
    (layers.texts field member) fun _ _ _ => trivial

end

/-! ## What does not matter -/

/-- A path that neither leads to a setting nor behind one, and not into the table of the dump. -/
def Unrelated (path : List String) : Prop :=
  (∀ field ∈ known, ¬ path <+: field.1 ∧ ¬ field.1 <+: path) ∧ ¬ ["trace", "dump"] <+: path

instance (path : List String) : Decidable (Unrelated path) := inferInstanceAs (Decidable (_ ∧ _))

/-- The values differ only by what they have at unrelated paths. -/
def SameElsewhere (one other : Json) : Prop :=
  ∀ path, (∀ place, Unrelated place → ¬ place <+: path ∧ ¬ path <+: place) →
    one.at? path = other.at? path

theorem SameElsewhere.refl (value : Json) : SameElsewhere value value := fun _ _ => rfl

/-- An entry is added at an unrelated path. -/
theorem SameElsewhere.plant {one other : Json} (same : SameElsewhere one other)
    {place : List String} (unrelated : Unrelated place) (value : Json) :
    SameElsewhere one (Json.plant place value other) := by
  intro path apart
  obtain ⟨above, under⟩ := apart place unrelated
  rw [Json.at?_plant_apart above under, same path apart]

theorem SameElsewhere.at_setting {one other : Json} (same : SameElsewhere one other)
    {field : List String × (Json → Bool)} (member : field ∈ known) :
    one.at? field.1 = other.at? field.1 :=
  same field.1 fun _ unrelated => unrelated.1 field member

theorem SameElsewhere.at_dump {one other : Json} (same : SameElsewhere one other) :
    one.at? ["trace", "dump"] = other.at? ["trace", "dump"] := by
  refine same _ fun place unrelated => ⟨fun above => ?_, unrelated.2⟩
  -- What leads to the table leads on to the type in it.
  have type := unrelated.1 (["trace", "dump", "type"], isFileType) (by simp [known])
  exact type.1 (above.trans (List.prefix_append ["trace", "dump"] ["type"]))

theorem fromPaths_eq {value? other? : List String → Option Json}
    (same : ∀ field ∈ known, value? field.1 = other? field.1) (dumped : Bool) :
    fromPaths value? dumped = fromPaths other? dumped := by
  have decides : ∀ field ∈ known, Decides True (other? field.1) none (value? field.1) :=
    fun field member => same field member ▸ .nothing
  exact @fromPaths_congr other? (fun _ => none) value? decides dumped

theorem variableEntries_append {here : Surroundings} {name key : String}
    (named : variableKey? name = some key) (absent : key ∉ (variableEntries here).map (·.1))
    (text : String) :
    variableEntries { here with environment := here.environment ++ [(name, text)] } =
      variableEntries here ++ [(key, .string text)] := by
  rw [← Keyed.put_of_absent absent, ← Keyed.setField_eq_put, variableEntries, List.foldl_append]
  simp only [List.foldl_cons, List.foldl_nil, named]
  rfl

theorem laidVariables_of_listed {here : Surroundings} (listed : here.arrangement = .listed) :
    laidVariables here = variableEntries here := by
  rw [laidVariables, listed]
  rfl

/-- A variable that sets nothing of interest and comes last. -/
theorem sameElsewhere_variable {here : Surroundings} (listed : here.arrangement = .listed)
    {name key : String} (named : variableKey? name = some key)
    (absent : key ∉ (variableEntries here).map (·.1))
    (plain : ∀ part ∈ Text.split '.' key, Json.Route.isPlain part = true)
    (unrelated : Unrelated (Text.split '.' key)) (text : String) :
    SameElsewhere (variableTree here)
      (variableTree { here with environment := here.environment ++ [(name, text)] }) := by
  have planted : variableTree { here with environment := here.environment ++ [(name, text)] } =
      Json.plant (Text.split '.' key) (.string text) (variableTree here) := by
    let there := { here with environment := here.environment ++ [(name, text)] }
    have order : laidVariables there = variableEntries there := laidVariables_of_listed listed
    rw [variableTree, variableTree, laidVariables_of_listed listed, order,
      variableEntries_append named absent, Json.overlayEntries, List.foldl_append]
    exact Json.modifyAt_flat plain rfl _
  rw [planted]
  exact (SameElsewhere.refl _).plant unrelated _

/-! ## The law -/

theorem used?_of_undumped {file inline environment : Json}
    (undumped : isDumped file inline environment = false) (name : String) :
    used? file inline environment ["trace", "dump", name] = none := by
  have inside (value : Json) (nothing : (value.at? ["trace", "dump"]).isSome = false) :
      value.at? ["trace", "dump", name] = none := by
    rw [at?_triple, Option.isNone_iff_eq_none.mp (Option.isSome_eq_false_iff.mp nothing),
      Option.bind_none]
  simp only [isDumped, Bool.or_eq_false_iff] at undumped
  obtain ⟨⟨fromEnvironment, fromInline⟩, fromFile⟩ := undumped
  rw [used?, documentAt?, inside environment fromEnvironment, inside inline fromInline,
    inside file fromFile]
  rfl

/-- No variable leads into a setting that another one sets. -/
def Settled (here : Surroundings) : Prop :=
  ∀ field ∈ known, ∀ one ∈ variableEntries here, ∀ other ∈ variableEntries here,
    Text.split '.' one.1 = field.1 → field.1 <+: Text.split '.' other.1 →
      Text.split '.' other.1 = field.1

instance (here : Surroundings) : Decidable (Settled here) :=
  inferInstanceAs
    (Decidable (∀ field ∈ known, ∀ one ∈ variableEntries here, ∀ other ∈ variableEntries here, _))

/-- The same variables are there for settings, in whatever order. -/
def SameVariables (here there : Surroundings) : Prop :=
  ∀ entry, ¬ Unrelated (Text.split '.' entry.1) →
    (entry ∈ variableEntries there ↔ entry ∈ variableEntries here)

section

variable {here there : Surroundings} {file inline file' inline' : List (String × Json)}

/-- A variable for a setting is what is used for it. -/
theorem Layers.used?_variable (layers : Layers here file inline) (settled : Settled here)
    {field : List String × (Json → Bool)} (known : field ∈ known) {entry : String × Json}
    (member : entry ∈ variableEntries here) (ends : Text.split '.' entry.1 = field.1)
    (file inline : Json) :
    used? file inline (variableTree here) field.1 = some entry.2 := by
  have makes := layers.makes (known_ne_nil known) (layers.texts field known)
  rw [used?]
  generalize (variableTree here).at? field.1 = made at makes ⊢
  cases makes with
  | nothing none_there => exact absurd (ends ▸ List.prefix_rfl) (none_there entry member)
  | text other member' ends' =>
    rw [Json.eq_of_split_eq (keyed_variableEntries here).keys member member'
      (ends.trans ends'.symm)]
    rfl
  | inside other value member' leads further =>
    exact absurd (settled field known entry member other member' ends leads) further

theorem Layers.isSome_dump (layers : Layers here file inline) :
    ((variableTree here).at? ["trace", "dump"]).isSome = true ↔
      ∃ entry ∈ variableEntries here, ["trace", "dump"] <+: Text.split '.' entry.1 := by
  have inside : ["trace", "dump"] ++ ["type"] ∈ known.map (·.1) := by simp [known]
  have none_above := layers.none_above inside (by simp)
  have makes := layers.makes (List.cons_ne_nil _ _)
    fun entry member shorter => absurd shorter (none_above entry member)
  exact makes.isSome_iff

/-- The order in which variables come does not matter, nor do those that have nothing to do
with settings. -/
theorem Layers.load_of_sameVariables (layers : Layers here file inline)
    (layers' : Layers there file' inline') (settled : Settled here)
    (files : SameElsewhere (.object file) (.object file'))
    (inlines : SameElsewhere (.object inline) (.object inline')) (same : SameVariables here there) :
    load there = load here := by
  have dumped : isDumped (.object file') (.object inline') (variableTree there) =
      isDumped (.object file) (.object inline) (variableTree here) := by
    have dumping : ((variableTree there).at? ["trace", "dump"]).isSome =
        ((variableTree here).at? ["trace", "dump"]).isSome := by
      rw [Bool.eq_iff_iff, layers.isSome_dump, layers'.isSome_dump]
      refine exists_congr fun entry => and_congr_left fun leads => ?_
      exact same entry fun unrelated => unrelated.2 leads
    simp only [isDumped, dumping, files.at_dump, inlines.at_dump]
  rw [layers.load_eq, layers'.load_eq, dumped]
  have documents : ∀ field ∈ known,
      used? (.object file') (.object inline') (variableTree there) field.1 =
        used? (.object file) (.object inline) (variableTree there) field.1 := by
    intro field member
    simp only [used?, documentAt?, files.at_setting member, inlines.at_setting member]
  rw [fromPaths_eq documents]
  refine (fromPaths_congr (fun field member => ?_) _).symm
  have makes := layers.makes (known_ne_nil member) (layers.texts field member)
  have makes' := layers'.makes (known_ne_nil member) (layers'.texts field member)
  have keyed := keyed_variableEntries here
  -- What leads to a setting has to do with it.
  have own := fun (entry : String × Json) (leads : field.1 <+: Text.split '.' entry.1) =>
    same entry fun unrelated => (unrelated.1 field member).2 leads
  exact makes.decides makes' keyed.keys own keyed.each (settled field member) _

end

/-- Every setting is made of the one value that is used at its path: that of the first source that
has one there, unless both documents have a table. Loading fails exactly when such a value is
refused or a dump has no type. What the sources have elsewhere does not matter. This is so whatever
language the documents are written in, however it is read, and in whatever order the entries of a
source come. Where no variable leads into a setting that another one sets, that order does not
matter at all. -/
theorem load_by_precedence {here : Surroundings} {file inline : List (String × Json)}
    (layers : Layers here file inline) :
    let used := used? (.object file) (.object inline) (variableTree here)
    let dumped := isDumped (.object file) (.object inline) (variableTree here)
    (∀ path,
        (∀ upper lower, (Json.object inline).at? path = some (.object upper) →
          (Json.object file).at? path ≠ some (.object lower)) →
        used path = first? (.object file) (.object inline) (variableTree here) path) ∧
      (∀ settings, load here = .ok settings → MadeFrom used dumped settings) ∧
      ((∃ error, load here = .error error) ↔
        (∃ field ∈ known, ∃ value, used field.1 = some value ∧ field.2 value = false) ∨
          (dumped = true ∧ used ["trace", "dump", "type"] = none)) ∧
      (∀ {there : Surroundings} {file' inline' : List (String × Json)}, Layers there file' inline' →
        SameElsewhere (.object file) (.object file') →
        SameElsewhere (.object inline) (.object inline') →
        SameElsewhere (variableTree here) (variableTree there) → load there = load here) ∧
      (Settled here → ∀ field ∈ known, ∀ entry ∈ variableEntries here,
        Text.split '.' entry.1 = field.1 → used field.1 = some entry.2) ∧
      (Settled here → ∀ {there : Surroundings} {file' inline' : List (String × Json)},
        Layers there file' inline' → SameElsewhere (.object file) (.object file') →
        SameElsewhere (.object inline) (.object inline') → SameVariables here there →
        load there = load here) := by
  intro used dumped
  refine ⟨fun path apart => used?_eq_first? apart _,
    fun settings loaded => fromPaths_eq_ok.mp (layers.load_eq ▸ loaded), ?_, ?_, ?_, ?_⟩
  · have fails : (∃ error, load here = .error error) ↔ ¬ ∃ settings, load here = .ok settings := by
      cases load here <;> simp
    -- What is asked for on the right is what settings cannot be made without.
    rw [fails, layers.load_eq]
    simp only [fromPaths_eq_ok]
    rw [exists_madeFrom used?_of_undumped, Classical.not_and_iff_not_or_not]
    simp [used, dumped]
  · intro there file' inline' layers' files inlines environment
    -- All that is read of the sources is what they have at the paths of settings and of the dump.
    rw [layers.load_eq, layers'.load_eq]
    simp only [isDumped, files.at_dump, inlines.at_dump, environment.at_dump]
    refine fromPaths_eq (fun field member => ?_) _
    simp only [used?, documentAt?, files.at_setting member, inlines.at_setting member,
      environment.at_setting member]
  · exact fun settled field member entry inside ends =>
      layers.used?_variable settled member inside ends _ _
  · exact fun settled _ _ _ layers' files inlines same =>
      layers.load_of_sameVariables layers' settled files inlines same

/-- Whether the documents of the surroundings can be read and laid over one another, and are as the
test says. -/
def areLayers (here : Surroundings) (test : Json → Json → Bool) : Bool :=
  (fileEntries here).toOption.any fun file =>
    (inlineEntries here).toOption.any fun inline =>
      decide ((∀ entry ∈ file ++ inline, Json.Route.isPlain entry.1 = true) ∧
        ∀ field ∈ known,
          (Json.object file).TablesAbove field.1 ∧ (Json.object inline).TablesAbove field.1) &&
      test (.object file) (.object inline)

/-- What is asked of the variables is asked of their keys. -/
theorem Layers.of_keys {here : Surroundings} {file inline : List (String × Json)}
    {keys : List String} (all : (variableEntries here).map (·.1) = keys)
    (file_read : fileEntries here = .ok file) (inline_read : inlineEntries here = .ok inline)
    (words : ∀ entry ∈ file ++ inline, Json.Route.isPlain entry.1 = true)
    (tables : ∀ field ∈ known,
      (Json.object file).TablesAbove field.1 ∧ (Json.object inline).TablesAbove field.1)
    (plain : ∀ key ∈ keys, ∀ part ∈ Text.split '.' key, Json.Route.isPlain part = true)
    (texts : ∀ field ∈ known, ∀ key ∈ keys, Text.split '.' key <+: field.1 →
      Text.split '.' key = field.1) :
    Layers here file inline := by
  subst all
  refine ⟨file_read, inline_read, words, ?_, tables, ?_⟩
  · exact fun entry member => plain entry.1 (List.mem_map_of_mem member)
  · exact fun field known entry member => texts field known entry.1 (List.mem_map_of_mem member)

theorem exists_layers {here : Surroundings} {test : Json → Json → Bool} {keys : List String}
    (documents : areLayers here test = true) (all : (variableEntries here).map (·.1) = keys)
    (plain : ∀ key ∈ keys, ∀ part ∈ Text.split '.' key, Json.Route.isPlain part = true)
    (texts : ∀ field ∈ known, ∀ key ∈ keys, Text.split '.' key <+: field.1 →
      Text.split '.' key = field.1) :
    ∃ file inline, Layers here file inline ∧ test (.object file) (.object inline) = true := by
  have read {α : Type} {entries : Except LoadError α} {test : α → Bool}
      (holds : entries.toOption.any test = true) :
      ∃ value, entries = .ok value ∧ test value = true := by
    cases entries with
    | error => cases holds
    | ok value => exact ⟨value, rfl, holds⟩
  obtain ⟨file, file_read, documents⟩ := read documents
  obtain ⟨inline, inline_read, documents⟩ := read documents
  rw [Bool.and_eq_true, decide_eq_true_iff] at documents
  obtain ⟨⟨words, tables⟩, holds⟩ := documents
  exact ⟨file, inline, .of_keys all file_read inline_read words tables plain texts, holds⟩

/-- The reader of JSON. What is JSON may stand in documents of some other languages as well. -/
def jsonReader : Reader where
  read? text := Markup.json.read? {} text
  keyed text entries read := by
    have whole : Markup.json.entries {} text = .ok entries := by rw [Markup.entries, read]
    exact Markup.keyed_entries whole

/-- A document in the folder, one in the environment, and single variables. -/
def sources (file inline format : String) (more : List (String × String)) : Surroundings where
  files := ({} : Files).put ["collector_config.json"] (.file (Text.utf8 file))
  environment := [("COLLECTOR_CONFIG_STR", inline), ("COLLECTOR_CONFIG_STR_FMT", format)] ++ more
  readers := { json5 := jsonReader, yaml := jsonReader }

/-- The shards are set three times, the directory twice, the limit, the format and a capacity
once each. -/
def spread : Surroundings :=
  sources
    ("\x7b\"heap\":\x7b\"shards\":4,\"dense_elements_limit\":100\x7d," ++
      "\"trace\":\x7b\"dump\":\x7b\"type\":\"file\",\"directory\":\"out\"\x7d\x7d\x7d")
    ("\x7b\"heap\":\x7b\"shards\":8\x7d," ++
      "\"trace\":\x7b\"dump\":\x7b\"directory\":null,\"format\":\"text\"\x7d\x7d\x7d")
    "json5" [("COLLECTOR_HEAP__SHARDS", "16"), ("COLLECTOR_STACK__INITIAL_CAPACITY", "5")]

/-- The environment decides on the shards, the document in it on the directory. -/
def gathered : Settings where
  heap := { denseLimit := 100, shards := some 16 }
  stack := { capacity := 5 }
  trace := { dump := some { directory := none, format := .text } }

/-- A variable for something in the table of the heap that is no setting. -/
def noted : Surroundings :=
  { spread with environment := spread.environment ++ [("COLLECTOR_HEAP__NOTE", "16")] }

/-- Everything comes the other way round. -/
def turned : Surroundings :=
  { spread with
    arrangement :=
      ⟨Markup.all.reverse, List.reverse_perm _, fun _ => List.reverse, fun _ => List.reverse_perm⟩ }

theorem load_by_precedence_spread :
    ∃ file inline, Layers spread file inline ∧ load spread = .ok gathered ∧
      MadeFrom (used? (.object file) (.object inline) (variableTree spread)) true gathered ∧
      (∃ entry ∈ variableEntries spread, entry.1 = "heap.shards" ∧
        used? (.object file) (.object inline) (variableTree spread) ["heap", "shards"] =
          some entry.2) ∧
      Layers noted file inline ∧ load noted = load spread ∧
      Layers turned file inline ∧ load turned = load spread := by
  have keys : (variableEntries spread).map (·.1) =
      ["config_str", "config_str_fmt", "heap.shards", "stack.initial_capacity"] := by decide +kernel
  obtain ⟨file, inline, layers, -⟩ :=
    exists_layers (show areLayers spread (fun _ _ => true) = true by decide +kernel)
      keys (by decide +kernel) (by decide +kernel)
  obtain ⟨-, made, -, elsewhere, decide_on, order⟩ := load_by_precedence layers
  have loaded : load spread = .ok gathered := by
    have found : (load spread).toOption = some gathered := by decide +kernel
    cases result : load spread with
    | error => simp [result, Except.toOption] at found
    | ok settings =>
      rw [result] at found
      cases found
      rfl
  have dumped : isDumped (.object file) (.object inline) (variableTree spread) = true :=
    (made gathered loaded).dumps.symm
  have settled : Settled spread := by
    have below : ∀ field ∈ known, ∀ one ∈ (variableEntries spread).map (·.1),
        ∀ other ∈ (variableEntries spread).map (·.1), Text.split '.' one = field.1 →
          field.1 <+: Text.split '.' other → Text.split '.' other = field.1 := by
      rw [keys]
      decide +kernel
    exact fun field member one inside other inside' =>
      below field member _ (List.mem_map_of_mem inside) _ (List.mem_map_of_mem inside')
  -- One variable more, and nothing in the order it was in.
  have named : variableKey? "COLLECTOR_HEAP__NOTE" = some "heap.note" := by decide +kernel
  have absent : "heap.note" ∉ (variableEntries spread).map (·.1) := by rw [keys]; decide
  have noted_keys : (variableEntries noted).map (·.1) =
      ["config_str", "config_str_fmt", "heap.shards", "stack.initial_capacity", "heap.note"] := by
    rw [noted, variableEntries_append named absent, List.map_append, keys]
    rfl
  have noted_layers : Layers noted file inline :=
    .of_keys noted_keys layers.file_read layers.inline_read layers.plain layers.tables
      (by decide +kernel) (by decide +kernel)
  have turned_layers : Layers turned file inline := by
    have same : document? turned = document? spread := by decide +kernel
    refine { layers with file_read := ?_, inline_read := layers.inline_read }
    rw [← layers.file_read, fileEntries_eq, fileEntries_eq, same]
    rfl
  obtain ⟨entry, member, own⟩ : ∃ entry ∈ variableEntries spread, entry.1 = "heap.shards" := by
    rw [← List.mem_map, keys]
    decide
  refine ⟨file, inline, layers, loaded, dumped ▸ made gathered loaded, ?_, noted_layers, ?_,
    turned_layers, ?_⟩
  · refine ⟨entry, member, own,
      decide_on settled (["heap", "shards"], _) (by simp [known]; rfl) entry member ?_⟩
    rw [own]
    decide +kernel
  · refine elsewhere noted_layers (.refl _) (.refl _) ?_
    exact sameElsewhere_variable rfl named absent (by decide +kernel) (by decide +kernel) "16"
  · exact order settled turned_layers (.refl _) (.refl _) fun _ _ => Iff.rfl

/-- Both documents have a table for the format. -/
def crossing : Surroundings :=
  sources
    "\x7b\"trace\":\x7b\"dump\":\x7b\"type\":\"file\",\"format\":\x7b\"text\":null\x7d\x7d\x7d\x7d"
    "\x7b\"trace\":\x7b\"dump\":\x7b\"format\":\x7b\"json_lines\":null\x7d\x7d\x7d\x7d"
    "json" []

/-- Each of the tables names a format, but merged they do not. -/
theorem load_merges_tables :
    ∃ file inline, Layers crossing file inline ∧
      (∀ field ∈ known,
        ∀ value ∈ first? (.object file) (.object inline) (variableTree crossing) field.1,
        field.2 value = true) ∧
      (first? (.object file) (.object inline) (variableTree crossing)
        ["trace", "dump", "type"]).isSome = true ∧
      (load crossing).toOption = none := by
  let accepted (file inline : Json) : Bool :=
    known.all (fun field => (first? file inline (variableTree crossing) field.1).all field.2) &&
      (first? file inline (variableTree crossing) ["trace", "dump", "type"]).isSome
  have keys : (variableEntries crossing).map (·.1) = ["config_str", "config_str_fmt"] := by
    decide +kernel
  obtain ⟨file, inline, layers, accepts⟩ :=
    exists_layers (show areLayers crossing accepted = true by decide +kernel)
      keys (by decide +kernel) (by decide +kernel)
  simp only [accepted, Bool.and_eq_true, List.all_eq_true, Option.all_eq_true] at accepts
  exact ⟨file, inline, layers, accepts.1, accepts.2, by decide +kernel⟩

end Settings

end ShadowTrace
