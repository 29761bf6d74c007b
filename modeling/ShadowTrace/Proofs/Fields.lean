import ShadowTrace.Proofs.Overlay

/-! # What settings are made of

Settings are read section by section, but each of their entries depends on one value only: the one
at its path. So they can be made exactly if every value at the path of an entry is one that the
entry can take, and a dump has its type. -/

namespace ShadowTrace.Settings

/-! ## Reading by paths -/

/-- What is made of a value that may be missing. -/
def chosen {α : Type} (fallback : α) (read : Json → Option α) : Option Json → Option α
  | none => some fallback
  | some value => read value

/-- The entries of a dump from the values at their paths. -/
def dumpFields (value? : List String → Option Json) : Except LoadError DumpSettings := do
  let directory ← convert ["trace", "dump",
    "directory"] none toText? (value? ["trace", "dump", "directory"])
  let format ← convert ["trace", "dump",
    "format"] .jsonLines toFormat? (value? ["trace", "dump", "format"])
  let namePrefix ← convert ["trace", "dump",
    "prefix"] none toText? (value? ["trace", "dump", "prefix"])
  let extension ← convert ["trace", "dump",
    "extension"] none toText? (value? ["trace", "dump", "extension"])
  return { directory, format, namePrefix, extension }

def dumpAt (value? : List String → Option Json) (dumped : Bool) :
    Except LoadError (Option DumpSettings) :=
  if dumped then
    if (value? ["trace", "dump", "type"]).any isFileType then (dumpFields value?).map some
    else .error (.invalid ["trace", "dump", "type"])
  else .ok none

/-- The settings from the values at their paths, and whether there is a dump. -/
def fromPaths (value? : List String → Option Json) (dumped : Bool) : Except LoadError Settings := do
  let skipConcrete ← convert ["heap", "skip_concrete_allocation"] true toBool?
    (value? ["heap", "skip_concrete_allocation"])
  let denseLimit ← convert ["heap", "dense_elements_limit"] 65536 toHalfWord?
    (value? ["heap", "dense_elements_limit"])
  let shards ← convert ["heap", "shards"] none toShards? (value? ["heap", "shards"])
  let stackCapacity ← convert ["stack",
    "initial_capacity"] 32 toWord? (value? ["stack", "initial_capacity"])
  let traceCapacity ← convert ["trace",
    "initial_capacity"] 32 toWord? (value? ["trace", "initial_capacity"])
  let dump ← dumpAt value? dumped
  return {
    heap := { skipConcrete, denseLimit, shards }
    stack := { capacity := stackCapacity }
    trace := { capacity := traceCapacity, dump } }

theorem item?_eq {value : Json} (table : value.isObject = true) (place : Nat) (name : String) :
    item? value place name = value.get? name := by
  cases value with
  | object => rfl
  | _ => cases table

theorem at?_single (value : Json) (key : String) : value.at? [key] = value.get? key := by
  rw [Json.at?_cons]
  cases value.get? key with
  | none => rfl
  | some inner => exact Json.at?_nil inner

theorem at?_pair (value : Json) (first second : String) :
    value.at? [first, second] = (value.get? first).bind (·.get? second) := by
  rw [Json.at?_cons]
  exact Option.bind_congr fun inner _ => at?_single inner second

theorem at?_triple (value : Json) (first second third : String) :
    value.at? [first, second, third] = (value.at? [first, second]).bind (·.get? third) := by
  have parts : [first, second, third] = [first, second] ++ [third] := rfl
  rw [parts, Json.at?_append]
  exact Option.bind_congr fun inner _ => at?_single inner third

/-- The tables that lead to settings. -/
def sections : List (List String) := [[], ["heap"], ["stack"], ["trace"], ["trace", "dump"]]

section

variable {root : Json}
  (tables : ∀ path ∈ sections, ∀ value, root.at? path = some value → value.isObject = true)

include tables

theorem readSection_heap :
    readSection ["heap"] {} heapOf (item? root 0 "heap") = (do
      let skipConcrete ← convert ["heap", "skip_concrete_allocation"] true toBool?
        (root.at? ["heap", "skip_concrete_allocation"])
      let denseLimit ← convert ["heap", "dense_elements_limit"] 65536 toHalfWord?
        (root.at? ["heap", "dense_elements_limit"])
      let shards ← convert ["heap", "shards"] none toShards? (root.at? ["heap", "shards"])
      return { skipConcrete, denseLimit, shards }) := by
  rw [item?_eq (tables [] (by simp [sections]) root (Json.at?_nil root))]
  simp only [at?_pair]
  cases found : root.get? "heap" with
  | none => rfl
  | some value =>
    have table := tables ["heap"] (by simp [sections]) value (by rw [at?_single, found])
    cases value with
    | object => rfl
    | _ => cases table

theorem readSection_stack :
    readSection ["stack"] {} stackOf (item? root 1 "stack") = (do
      let capacity ← convert ["stack",
        "initial_capacity"] 32 toWord? (root.at? ["stack", "initial_capacity"])
      return { capacity }) := by
  rw [item?_eq (tables [] (by simp [sections]) root (Json.at?_nil root)), at?_pair]
  cases found : root.get? "stack" with
  | none => rfl
  | some value =>
    have table := tables ["stack"] (by simp [sections]) value (by rw [at?_single, found])
    cases value with
    | object => rfl
    | _ => cases table

theorem dump?_eq :
    dump? (root.at? ["trace", "dump"]) = dumpAt root.at? (root.at? ["trace", "dump"]).isSome := by
  simp only [dumpAt, dumpFields, at?_triple]
  cases found : root.at? ["trace", "dump"] with
  | none => rfl
  | some value =>
    have table := tables ["trace", "dump"] (by simp [sections]) value found
    cases value with
    | object fields =>
      simp only [dump?, Option.isSome_some, if_true, Option.bind_some, Json.get?_object]
      split
      next type there =>
        simp only [there, Option.any_some]
        rfl
      next missing => simp [missing]
    | _ => cases table

theorem readSection_trace :
    readSection ["trace"] {} traceOf (item? root 2 "trace") = (do
      let capacity ← convert ["trace",
        "initial_capacity"] 32 toWord? (root.at? ["trace", "initial_capacity"])
      let dump ← dumpAt root.at? (root.at? ["trace", "dump"]).isSome
      return { capacity, dump }) := by
  rw [← dump?_eq tables, item?_eq (tables [] (by simp [sections]) root (Json.at?_nil root)),
    at?_pair, at?_pair]
  cases found : root.get? "trace" with
  | none => rfl
  | some value =>
    have table := tables ["trace"] (by simp [sections]) value (by rw [at?_single, found])
    cases value with
    | object => rfl
    | _ => cases table

theorem ofJson_eq : ofJson root = fromPaths root.at? (root.at? ["trace", "dump"]).isSome := by
  -- The entries of a section are read in a row, and the sections are, so all entries are.
  rw [ofJson, readSection_heap tables, readSection_stack tables, readSection_trace tables,
    fromPaths]
  simp only [bind_assoc, pure_bind]

end

/-! ## Success and failure -/

/-- The paths of the settings, and whether a value can be taken for what is asked for there. -/
def known : List (List String × (Json → Bool)) :=
  [(["heap", "skip_concrete_allocation"], fun value => (toBool? value).isSome),
    (["heap", "dense_elements_limit"], fun value => (toHalfWord? value).isSome),
    (["heap", "shards"], fun value => (toShards? value).isSome),
    (["stack", "initial_capacity"], fun value => (toWord? value).isSome),
    (["trace", "initial_capacity"], fun value => (toWord? value).isSome),
    (["trace", "dump", "type"], isFileType),
    (["trace", "dump", "directory"], fun value => (toText? value).isSome),
    (["trace", "dump", "format"], fun value => (toFormat? value).isSome),
    (["trace", "dump", "prefix"], fun value => (toText? value).isSome),
    (["trace", "dump", "extension"], fun value => (toText? value).isSome)]

theorem bind_eq_ok {α β : Type} {first : Except LoadError α} {rest : α → Except LoadError β}
    {result : β} :
    (first >>= rest) = .ok result ↔ ∃ value, first = .ok value ∧ rest value = .ok result := by
  cases first with
  | error error => simp [bind, Except.bind]
  | ok value => simp [bind, Except.bind]

theorem convert_eq_ok {α : Type} {path : List String} {fallback : α} {read : Json → Option α}
    {value : Option Json} {result : α} :
    convert path fallback read value = .ok result ↔ chosen fallback read value = some result := by
  cases value with
  | none => simp [convert, chosen]
  | some value => cases made : read value <;> simp [convert, chosen, made]

theorem dumpFields_eq_ok {value? : List String → Option Json} {dump : DumpSettings} :
    dumpFields value? = .ok dump ↔
      chosen none toText? (value? ["trace", "dump", "directory"]) = some dump.directory ∧
      chosen .jsonLines toFormat? (value? ["trace", "dump", "format"]) = some dump.format ∧
      chosen none toText? (value? ["trace", "dump", "prefix"]) = some dump.namePrefix ∧
      chosen none toText? (value? ["trace", "dump", "extension"]) = some dump.extension := by
  simp only [dumpFields, bind_eq_ok, convert_eq_ok]
  constructor
  · rintro ⟨_, directory, _, format, _, before, _, extension, made⟩
    cases made
    exact ⟨directory, format, before, extension⟩
  · rintro ⟨directory, format, before, extension⟩
    exact ⟨_, directory, _, format, _, before, _, extension, rfl⟩

theorem dumpAt_eq_ok {value? : List String → Option Json} {dumped : Bool}
    {dump : Option DumpSettings} :
    dumpAt value? dumped = .ok dump ↔
      if dumped then
        (value? ["trace", "dump", "type"]).any isFileType = true ∧ ∃ inner,
          dump = some inner ∧ dumpFields value? = .ok inner
      else dump = none := by
  unfold dumpAt
  cases dumped with
  | false => simp [eq_comm]
  | true =>
    by_cases typed : (value? ["trace", "dump", "type"]).any isFileType = true
    · cases dumpFields value? <;> simp [typed, Except.map, eq_comm]
    · simp [typed]

/-- Each entry of the settings is made of its own value. -/
structure MadeFrom (value? : List String → Option Json) (dumped : Bool) (settings : Settings) :
    Prop where
  skipConcrete : chosen true toBool? (value? ["heap", "skip_concrete_allocation"]) =
    some settings.heap.skipConcrete
  denseLimit : chosen 65536 toHalfWord? (value? ["heap", "dense_elements_limit"]) =
    some settings.heap.denseLimit
  shards : chosen none toShards? (value? ["heap", "shards"]) = some settings.heap.shards
  stackCapacity : chosen 32 toWord? (value? ["stack", "initial_capacity"]) =
    some settings.stack.capacity
  traceCapacity : chosen 32 toWord? (value? ["trace", "initial_capacity"]) =
    some settings.trace.capacity
  dumps : settings.trace.dump.isSome = dumped
  type : dumped = true → (value? ["trace", "dump", "type"]).any isFileType = true
  directory : ∀ dump ∈ settings.trace.dump,
    chosen none toText? (value? ["trace", "dump", "directory"]) = some dump.directory
  format : ∀ dump ∈ settings.trace.dump,
    chosen .jsonLines toFormat? (value? ["trace", "dump", "format"]) = some dump.format
  namePrefix : ∀ dump ∈ settings.trace.dump,
    chosen none toText? (value? ["trace", "dump", "prefix"]) = some dump.namePrefix
  extension : ∀ dump ∈ settings.trace.dump,
    chosen none toText? (value? ["trace", "dump", "extension"]) = some dump.extension

theorem fromPaths_eq_ok {value? : List String → Option Json} {dumped : Bool} {settings : Settings} :
    fromPaths value? dumped = .ok settings ↔ MadeFrom value? dumped settings := by
  simp only [fromPaths, bind_eq_ok, convert_eq_ok, dumpAt_eq_ok]
  constructor
  · rintro ⟨_, skip, _, dense, _, shards, _, stack, _, trace, dump, dumps, made⟩
    cases made
    cases dumped with
    | false =>
      -- Without a dump nothing is asked of its entries.
      obtain rfl : dump = none := by simpa using dumps
      exact ⟨skip, dense, shards, stack, trace, rfl, nofun, nofun, nofun, nofun, nofun⟩
    | true =>
      obtain ⟨type, inner, rfl, fields⟩ : _ ∧ ∃ inner, dump = some inner ∧ _ := by simpa using dumps
      obtain ⟨directory, format, before, extension⟩ := dumpFields_eq_ok.mp fields
      refine ⟨skip, dense, shards, stack, trace, rfl, fun _ => type, ?_, ?_, ?_, ?_⟩
      all_goals rintro _ ⟨⟩; assumption
  · intro made
    refine ⟨_, made.skipConcrete, _, made.denseLimit, _, made.shards, _, made.stackCapacity, _,
      made.traceCapacity, settings.trace.dump, ?_, rfl⟩
    have dumps := made.dumps
    cases there : settings.trace.dump with
    | none =>
      rw [there] at dumps
      simp [← dumps]
    | some dump =>
      rw [there] at dumps
      have type := made.type dumps.symm
      have fields := dumpFields_eq_ok.mpr
        ⟨made.directory dump there, made.format dump there, made.namePrefix dump there,
          made.extension dump there⟩
      simp [← dumps, type, fields]

theorem exists_chosen {α : Type} (fallback : α) {read : Json → Option α} {value : Option Json} :
    (∃ result, chosen fallback read value = some result) ↔ ∀ inner, value = some inner →
      (read inner).isSome = true := by
  cases value with
  | none => simp [chosen]
  | some value => simp [chosen, Option.isSome_iff_exists]

/-- Settings can be made exactly if no value is refused and a dump has its type. -/
theorem exists_madeFrom {value? : List String → Option Json} {dumped : Bool}
    (undumped : dumped = false → ∀ name, value? ["trace", "dump", name] = none) :
    (∃ settings, MadeFrom value? dumped settings) ↔
      (∀ field ∈ known, ∀ value, value? field.1 = some value → field.2 value = true) ∧
        (dumped = true → (value? ["trace", "dump", "type"]).isSome = true) := by
  constructor
  · rintro ⟨settings, made⟩
    have taken {α : Type} {fallback result : α} {read : Json → Option α} {value : Option Json}
        (found : chosen fallback read value = some result) : ∀ inner, value = some inner →
          (read inner).isSome = true :=
      (exists_chosen fallback).mp ⟨result, found⟩
    -- Without a dump there is nothing at the paths of its entries.
    have inside {α : Type} {fallback : α} {read : Json → Option α} {name : String}
        {entry : DumpSettings → α}
        (found : ∀ dump ∈ settings.trace.dump,
          chosen fallback read (value? ["trace", "dump", name]) = some (entry dump)) :
        ∀ inner, value? ["trace", "dump", name] = some inner → (read inner).isSome = true := by
      cases there : settings.trace.dump with
      | none =>
        rw [undumped (by rw [← made.dumps, there]; rfl)]
        exact nofun
      | some dump => exact taken (found dump there)
    have type : ∀ inner, value? ["trace", "dump", "type"] = some inner →
        isFileType inner = true := by
      intro inner found
      cases dumped with
      | false => simp [undumped rfl "type"] at found
      | true => simpa [found] using made.type rfl
    refine ⟨?_, fun dumps => ?_⟩
    · simp only [known, List.forall_mem_cons]
      exact ⟨taken made.skipConcrete, taken made.denseLimit, taken made.shards,
        taken made.stackCapacity, taken made.traceCapacity, type, inside made.directory,
        inside made.format, inside made.namePrefix, inside made.extension, nofun⟩
    · exact Option.isSome_of_any (made.type dumps)
  · rintro ⟨accepted, type⟩
    simp only [known, List.forall_mem_cons] at accepted
    obtain ⟨skip, dense, shards, stack, trace, isFile, directory, format, before, extension, -⟩ :=
      accepted
    obtain ⟨skipConcrete, skip⟩ := (exists_chosen true).mpr skip
    obtain ⟨denseLimit, dense⟩ := (exists_chosen 65536).mpr dense
    obtain ⟨shards, fromShards⟩ := (exists_chosen none).mpr shards
    obtain ⟨stackCapacity, stack⟩ := (exists_chosen 32).mpr stack
    obtain ⟨traceCapacity, trace⟩ := (exists_chosen 32).mpr trace
    obtain ⟨directory, fromDirectory⟩ := (exists_chosen none).mpr directory
    obtain ⟨format, fromFormat⟩ := (exists_chosen .jsonLines).mpr format
    obtain ⟨namePrefix, fromPrefix⟩ := (exists_chosen none).mpr before
    obtain ⟨extension, fromExtension⟩ := (exists_chosen none).mpr extension
    -- The entries of the dump are there in any case, but may have no dump to go into.
    let dump : Option DumpSettings :=
      if dumped then some { directory, format, namePrefix, extension } else none
    have entries : ∀ inner ∈ dump, inner = { directory, format, namePrefix, extension } := by
      cases dumped with
      | false => exact nofun
      | true => exact fun inner same => (Option.some.inj same).symm
    refine ⟨{ heap := { skipConcrete, denseLimit, shards }
              stack := { capacity := stackCapacity }
              trace := { capacity := traceCapacity, dump } }, skip, dense, fromShards, stack, trace,
                ?_, ?_, ?_, ?_, ?_, ?_⟩
    · cases dumped <;> rfl
    · intro dumps
      obtain ⟨value, found⟩ := Option.isSome_iff_exists.mp (type dumps)
      simp [found, isFile value found]
    all_goals
      intro inner member
      rw [entries inner member]
      assumption

end ShadowTrace.Settings
