import Mathlib.Logic.Relation
import ShadowTrace.Proofs.Refinement
import ShadowTrace.Proofs.Related

/-! # Taint is reachability in the data flow

The events of a run are numbered. A cell that holds a value remembers, instead of the value, the
number of the event that defined it last, and moves it along with the value when a call is prepared,
entered or returned from. So a read depends on one earlier event at most, and a write on the reads
of its window. No flag enters into that: a read is symbolic exactly if this relation leads from it
back to an event that made something symbolic.

References are the one place where it is asked what is in a cell. A cell with a reference says
nothing about the flag of the object, so what matters there is the event that set that flag last. -/

namespace ShadowTrace

/-! ## Sources -/

/-- For a thread, the events that defined its cells, and those that are the reads of its
open window. -/
structure EngineSources where
  cells : Plain.Cells (Option Nat) := {}
  window : Option (Span Nat) := none

/-- For what the threads share, the events that defined it: the cells, and the flags of objects. -/
structure TableSources where
  shared : Plain.Shared (Option Nat) := {}
  flag : ObjectId → Option Nat := fun _ => none

structure Sources where
  tables : TableSources := {}
  engine : String → EngineSources := fun _ => {}

/-- A seed defines the slots of the frame that it gives a value to. -/
def Seed.sources (seed : Seed) (number : Nat) : Plain.Frame (Option Nat) where
  receiver := if (seed.receiver.getD .concrete).isConcrete then none else some number
  argument := fun index => if (seed.arguments.get index).isConcrete then none else some number

namespace TableSources

def place (tables : TableSources) (location : Location) (number : Nat) : TableSources :=
  { tables with shared := tables.shared.place location (some number) }

def setFlag (tables : TableSources) (id : ObjectId) (number : Nat) : TableSources :=
  { tables with flag := Function.update tables.flag id (some number) }

/-- The event that a value of the given shadow, which comes from a cell, has its flag from. -/
def ofShadow (tables : TableSources) (cell : Option Nat) : Shadow → Option Nat
  | .reference id => tables.flag id
  | _ => cell

end TableSources

namespace EngineSources

/-- The cells after an access to the location by the instruction, which opens a window unless it
goes on with one. -/
def observe (engine : EngineSources) (id : InstructionId) (location : Location) :
    Plain.Cells (Option Nat) :=
  if engine.window.map (·.instruction) = some id then engine.cells else engine.cells.turn location

/-- What a hook defines that succeeds as the event with the given number. What its location holds
matters to a mark only, which leaves a reference where it is. -/
def define (engine : EngineSources) (tables : TableSources) (number : Nat)
    (holds : Location → Shadow) :
    Hook → Plain.Cells (Option Nat) × TableSources
  | .enter => (engine.cells.enter engine.cells.callee, tables)
  | .enterWith seed => (engine.cells.enter (seed.sources number), tables)
  | .exit => (engine.cells.exit, tables)
  | .read operand location =>
    (((engine.observe operand.instruction location).take location).forward (some number)
      operand.forward, tables)
  | .write id location (.reference (some object)) =>
    ((engine.observe id location).place location (some number),
      (tables.setFlag object number).place location number)
  | .write id location _ =>
    ((engine.observe id location).place location (some number), tables.place location number)
  | .assign location _ => (engine.cells.place location (some number), tables.place location number)
  | .markSymbolic location =>
    match holds location with
    | .reference id => (engine.cells, tables.setFlag id number)
    | _ => (engine.cells.place location (some number), tables.place location number)
  | .resolve _ | .close _ => (engine.cells, tables)
  | .reset => ({}, tables)

/-- The sources after a call. One that fails defines nothing. -/
def step (engine : EngineSources) (tables : TableSources) (number : Nat) (holds : Location → Shadow)
    (call : Call) :
    EngineSources × TableSources :=
  if call.result.isOk then
    let (cells, tables) := engine.define tables number holds call.hook
    ({ cells, window := (Span.next engine.window call (call.readings.map fun _ => number)).1 },
      tables)
  else (engine, tables)

/-- The events that a hook depends on: a read on the one that defined the cell, or set the flag of
the object in it, and a write on the reads of its window. -/
def dependencies (engine : EngineSources) (tables : TableSources) (holds : Location → Shadow) :
    Hook → List Nat
  | .read _ location =>
    (tables.ofShadow (engine.cells.look tables.shared location) (holds location)).toList
  | .write id _ _ => (Span.touch engine.window id).1.reads
  | _ => []

end EngineSources

/-- The hook makes something symbolic that was not read from anywhere. -/
def Hook.Introduces : Hook → Prop
  | markSymbolic _ => True
  | assign _ shadow => shadow = .symbolic
  | enterWith seed => seed.receiver = some .symbolic ∨ ∃ index, seed.arguments.get index = .symbolic
  | _ => False

/-- The hook that the event is, if it succeeds. -/
def Event.hook? (event : Event) : Option Hook :=
  match event.step.action, event.answer with
  | .hook hook, .hook _ => some hook
  | _, _ => none

/-- What is at a location for the thread of the event, before the event. -/
def Event.holds (event : Event) (location : Location) : Shadow :=
  (event.before.engine event.step.thread).look event.before.tables location

def Sources.dependencies (sources : Sources) (event : Event) (hook : Hook) : List Nat :=
  (sources.engine event.step.thread).dependencies sources.tables event.holds hook

def Sources.next (sources : Sources) (number : Nat) (event : Event) : Sources :=
  match event.call? event.step.thread, event.step.action with
  | some call, _ =>
    let (engine, tables) :=
      (sources.engine event.step.thread).step sources.tables number event.holds call
    { tables, engine := Function.update sources.engine event.step.thread engine }
  | none, .resetShared => { sources with tables := {} }
  | none, _ => sources

namespace Run

/-- The sources right before the event with the given number. -/
def sources (run : Run) : Nat → Sources
  | 0 => {}
  | number + 1 =>
    match run.events[number]? with
    | some event => (run.sources number).next number event
    | none => run.sources number

/-- The event with the first number depends on that with the second. -/
def Depends (run : Run) (number earlier : Nat) : Prop :=
  ∃ event ∈ run.events[number]?, ∃ hook ∈ event.hook?,
    earlier ∈ (run.sources number).dependencies event hook

def Introduces (run : Run) (number : Nat) : Prop :=
  ∃ event ∈ run.events[number]?, ∃ hook ∈ event.hook?, hook.Introduces

/-- The event is one that makes something symbolic, or depends on such an event through others. -/
def Tainted (run : Run) (number : Nat) : Prop :=
  ∃ source, run.Introduces source ∧ Relation.ReflTransGen run.Depends number source

end Run

/-! ## What a source tells -/

variable {tainted : Nat → Prop} {number : Nat}

/-- The source of a cell tells whether the cell is symbolic, unless there is a reference in it. -/
def Shadow.TracedBy (tainted : Nat → Prop) (shadow : Shadow) (source : Option Nat) : Prop :=
  match shadow with
  | reference _ => True
  | shadow => shadow = symbolic ↔ ∃ number ∈ source, tainted number

/-- The source of a flag tells whether it is symbolic. -/
def Flag.TracedBy (tainted : Nat → Prop) (flag : Flag) (source : Option Nat) : Prop :=
  flag.isSymbolic = true ↔ ∃ number ∈ source, tainted number

def Reading.TracedBy (tainted : Nat → Prop) (reading : Reading) (number : Nat) : Prop :=
  reading.flag.isSymbolic = true ↔ tainted number

theorem Shadow.tracedBy_default : TracedBy tainted default default := by
  simp [TracedBy, default]

theorem Shadow.tracedBy_some {shadow : Shadow}
    (agrees : (∀ id, shadow ≠ reference id) → (shadow = symbolic ↔ tainted number)) :
    shadow.TracedBy tainted (some number) := by
  cases shadow with
  | reference => trivial
  | concrete => simpa [TracedBy] using agrees (by simp)
  | symbolic => simpa [TracedBy] using agrees (by simp)

theorem Shadow.tracedBy_seed {shadow : Shadow} (introduced : shadow = symbolic → tainted number) :
    shadow.TracedBy tainted (if shadow.isConcrete then none else some number) := by
  cases shadow <;> simp_all [TracedBy, isConcrete]

theorem Shadow.tracedBy_ofFlag {flag : Flag} (agrees : flag.isSymbolic = true ↔ tainted number) :
    (ofFlag flag).TracedBy tainted (some number) := by
  apply tracedBy_some
  intro _
  rw [← agrees]
  cases symbolic : flag.isSymbolic <;> simp [ofFlag, symbolic]

namespace Plain

structure Tables.TracedBy (tainted : Nat → Prop) (tables : Tables) (sources : TableSources) :
    Prop where
  shared : tables.shared.Related (Shadow.TracedBy tainted) sources.shared
  flag : ∀ id, (tables.flag id).TracedBy tainted (sources.flag id)

structure Engine.TracedBy (tainted : Nat → Prop) (engine : Engine) (sources : EngineSources) :
    Prop where
  cells : engine.cells.Related (Shadow.TracedBy tainted) sources.cells
  window : ∃ current, engine.window.Shows current ∧
    Option.Rel (Span.Related (Reading.TracedBy tainted)) current sources.window

namespace Tables.TracedBy

variable {tables : Tables} {sources : TableSources}

theorem place (traced : tables.TracedBy tainted sources) (location : Location) {shadow : Shadow}
    (stored : shadow.TracedBy tainted (some number)) :
    (tables.place location shadow).TracedBy tainted (sources.place location number) :=
  ⟨traced.shared.place location stored, traced.flag⟩

theorem setFlag (traced : tables.TracedBy tainted sources) (id : ObjectId) {flag : Flag}
    (agrees : flag.isSymbolic = true ↔ tainted number) :
    (tables.setFlag id flag).TracedBy tainted (sources.setFlag id number) := by
  have stored : flag.TracedBy tainted (some number) := by simpa [Flag.TracedBy] using agrees
  exact ⟨traced.shared, related_update traced.flag id stored⟩

/-- The flag of what is in a cell is symbolic exactly if it comes from a tainted event. -/
theorem resolve (traced : tables.TracedBy tainted sources) {shadow : Shadow} {source : Option Nat}
    (cell : shadow.TracedBy tainted source) :
    (tables.resolve shadow).isSymbolic = true ↔ ∃ number ∈ sources.ofShadow source shadow,
      tainted number := by
  cases shadow with
  | reference id => exact traced.flag id
  | concrete => simpa [Shadow.TracedBy, Tables.resolve, TableSources.ofShadow] using cell
  | symbolic => simpa [Shadow.TracedBy, Tables.resolve, TableSources.ofShadow] using cell

end Tables.TracedBy

end Plain

theorem Span.Related.isSymbolic_iff {span : Span Reading} {sources : Span Nat}
    (related : span.Related (Reading.TracedBy tainted) sources) :
    span.isSymbolic = true ↔ ∃ number ∈ sources.reads, tainted number := by
  obtain ⟨instruction, reads⟩ := span
  have each := related.reads
  clear related
  simp only [isSymbolic] at each ⊢
  generalize sources.reads = numbers at each
  induction each with
  | nil => simp
  | cons traced _ ih => simp_all [Reading.TracedBy]

/-! ## One step -/

namespace Engine

variable {engine : Engine} {tables : Tables} {sources : EngineSources} {shared : TableSources}

private theorem traced_observe (own : engine.plain.TracedBy tainted sources) (id : InstructionId)
    (location : Location) :
    (engine.observe id location).1.cells.Related (Shadow.TracedBy tainted)
      (sources.observe id location) := by
  obtain ⟨current, shows, related⟩ := own.window
  have pending : engine.plain.window.pending? = sources.window.map (·.instruction) :=
    shows.pending?.trans (Span.related_instruction related)
  have same : (engine.observe id location).1.cells =
      (engine.plain.observe id location).1.cells := by
    rw [plain_observe]
    rfl
  rw [same, Plain.Engine.observe, EngineSources.observe, pending]
  split
  · exact own.cells
  · exact own.cells.turn Shadow.tracedBy_default location

/-- What is at a location is symbolic exactly if one of the events that a read of it depends on
is tainted. -/
theorem traced_look (own : engine.plain.TracedBy tainted sources)
    (all : tables.plain.TracedBy tainted shared) (operand : Operand) (location : Location) :
    (tables.plain.resolve (engine.look tables location)).isSymbolic = true ↔
      ∃ earlier ∈ sources.dependencies shared (engine.look tables) (.read operand location),
        tainted earlier := by
  have cell := own.cells.look Shadow.tracedBy_default all.shared location
  rw [plain_look] at cell
  rw [all.resolve cell]
  simp [EngineSources.dependencies]

/-- What a write finds in the accumulator depends on the reads of its window. -/
private theorem traced_accumulator (own : engine.plain.TracedBy tainted sources)
    (id : InstructionId) (location : Location) :
    (engine.observe id location).1.accumulator.isSymbolic = true ↔
      ∃ number ∈ (Span.touch sources.window id).1.reads, tainted number := by
  obtain ⟨current, shows, related⟩ := own.window
  obtain ⟨⟨accumulator, window, symbolic⟩, -⟩ := engine.shows_observe id location shows
  rw [← (Span.related_touch related id).1.isSymbolic_iff, Engine.accumulator, window,
    Window.accumulator, symbolic]

private theorem traced_write (own : engine.plain.TracedBy tainted sources)
    (all : tables.plain.TracedBy tainted shared) (active : engine.depth ≠ 0) (id : InstructionId)
    (location : Location) (value : Written)
    (origin : tainted number ↔ ∃ earlier ∈ (Span.touch sources.window id).1.reads,
      tainted earlier) :
    let outcome := engine.plain.step tables.plain (.write id location value)
    let defined := sources.define shared number (engine.look tables) (.write id location value)
    outcome.engine.cells.Related (Shadow.TracedBy tainted) defined.1 ∧
      outcome.tables.TracedBy tainted defined.2 := by
  have observed := traced_observe own id location
  have flag : (engine.observe id location).1.accumulator.isSymbolic = true ↔ tainted number :=
    (traced_accumulator own id location).trans origin.symm
  have stored : (Shadow.ofFlag (engine.observe id location).1.accumulator).TracedBy tainted
      (some number) :=
    Shadow.tracedBy_ofFlag flag
  simp only [Plain.Engine.step, access_active _ active, Plain.Engine.write, plain_observe]
  -- A reference takes its flag to the object, and leaves nothing in the cell that has to be traced.
  rcases value with _ | _ | object
  · exact ⟨observed.place Shadow.tracedBy_default location stored, all.place location stored⟩
  · exact ⟨observed.place Shadow.tracedBy_default location stored, all.place location stored⟩
  · rw [← Flag.isSymbolic_stored] at flag
    have marked := all.setFlag object flag
    exact ⟨observed.place Shadow.tracedBy_default location trivial, marked.place location trivial⟩

/-- The cells and tables after a hook that succeeds. -/
private theorem traced_define (own : engine.plain.TracedBy tainted sources)
    (all : tables.plain.TracedBy tainted shared) {hook : Hook} {reply : Reply}
    (ok : (engine.step tables hook).result = .ok reply)
    (origin : tainted number ↔
      hook.Introduces ∨ ∃ earlier ∈ sources.dependencies shared (engine.look tables) hook,
    tainted earlier) :
    let outcome := engine.plain.step tables.plain hook
    let defined := sources.define shared number (engine.look tables) hook
    outcome.engine.cells.Related (Shadow.TracedBy tainted) defined.1 ∧
      outcome.tables.TracedBy tainted defined.2 := by
  have base : Shadow.TracedBy tainted default default := Shadow.tracedBy_default
  have active (needs : Needs hook) : engine.depth ≠ 0 := engine.active_of_ok tables needs ok
  cases hook with
  | enter => exact ⟨own.cells.enter base own.cells.callee, all⟩
  | enterWith seed =>
    -- A slot that the seed leaves concrete has no source, so the seed's other slots do
    -- not taint it.
    have receiver (symbolic : seed.receiver.getD .concrete = .symbolic) :
        seed.receiver = some .symbolic := by
      cases given : seed.receiver <;> simp_all
    refine ⟨own.cells.enter base ⟨?_, fun index => ?_, fun _ => base⟩, all⟩
    · exact Shadow.tracedBy_seed fun symbolic => origin.mpr (.inl (.inl (receiver symbolic)))
    · exact Shadow.tracedBy_seed fun symbolic => origin.mpr (.inl (.inr ⟨index, symbolic⟩))
  | exit =>
    obtain ⟨cells, same⟩ := engine.plain.exit_cells tables.plain
    simp only [Plain.Engine.step, cells, same]
    exact ⟨own.cells.exit base, all⟩
  | read operand location =>
    simp only [Hook.Introduces, false_or] at origin
    have flag := (traced_look own all operand location).trans origin.symm
    -- What is forwarded has this read as its source; the read is tainted just if the value
    -- is symbolic.
    have passed : (engine.look tables location).TracedBy tainted (some number) := by
      cases shadow : engine.look tables location with
      | reference => trivial
      | concrete => simpa [shadow, Plain.Tables.resolve, Shadow.TracedBy] using flag
      | symbolic => simpa [shadow, Plain.Tables.resolve, Shadow.TracedBy] using flag
    simp only [Plain.Engine.step, access_active _ (active trivial), Plain.Engine.read,
      plain_observe, plain_look]
    exact ⟨((traced_observe own _ location).take base location).forward passed operand.forward, all⟩
  | write id location value =>
    simp only [Hook.Introduces, EngineSources.dependencies, false_or] at origin
    exact traced_write own all (active trivial) id location value origin
  | assign location shadow =>
    simp only [Plain.Engine.step, access_active _ (active trivial), Plain.Engine.assign]
    have stored : shadow.TracedBy tainted (some number) := by
      apply Shadow.tracedBy_some
      intro _
      simpa [Hook.Introduces, EngineSources.dependencies] using origin.symm
    exact ⟨own.cells.place base location stored, all.place location stored⟩
  | markSymbolic location =>
    have introduced : tainted number := origin.mpr (.inl trivial)
    have stored : Shadow.symbolic.TracedBy tainted (some number) := by
      simpa [Shadow.TracedBy] using introduced
    simp only [Plain.Engine.step, access_active _ (active trivial), Plain.Engine.markSymbolic,
      plain_look, EngineSources.define]
    cases engine.look tables location with
    | reference id => exact ⟨own.cells, all.setFlag id (by simpa using introduced)⟩
    | _ => exact ⟨own.cells.place base location stored, all.place location stored⟩
  | resolve location =>
    simp only [Plain.Engine.step, access_active _ (active trivial)]
    exact ⟨own.cells, all⟩
  | close id =>
    obtain ⟨cells, same⟩ := engine.plain.close_cells tables.plain id
    simp only [Plain.Engine.step, cells, same]
    exact ⟨own.cells, all⟩
  | reset => exact ⟨Plain.Cells.related_empty base, all⟩

theorem traced_read (own : engine.plain.TracedBy tainted sources)
    (all : tables.plain.TracedBy tainted shared) {operand : Operand} {location : Location}
    {flag : Flag} (read : (engine.step tables (.read operand location)).result = .ok (.flag flag)) :
    flag.isSymbolic = true ↔
      ∃ earlier ∈ sources.dependencies shared (engine.look tables) (.read operand location),
        tainted earlier := by
  have needs : Needs (.read operand location) := trivial
  rw [read_active _ _ _ _ (engine.active_of_ok tables needs read)] at read
  obtain rfl : tables.heap.resolve (engine.look tables location) = flag := by simpa using read
  rw [← Tables.plain_resolve]
  exact traced_look own all operand location

/-- The reads that a call adds to the window are traced by its own number. -/
private theorem traced_readings (own : engine.plain.TracedBy tainted sources)
    (all : tables.plain.TracedBy tainted shared) (hook : Hook)
    (origin : (engine.call tables hook).result.isOk = true →
      (tainted number ↔
      hook.Introduces ∨ ∃ earlier ∈ sources.dependencies shared (engine.look tables) hook,
    tainted earlier)) :
    List.Forall₂ (Reading.TracedBy tainted) (engine.call tables hook).readings
      ((engine.call tables hook).readings.map fun _ => number) := by
  rw [List.forall₂_map_right_iff, List.forall₂_same]
  intro reading member
  -- Only a read adds to the window, and only if it succeeds.
  cases hook with
  | read operand location =>
    cases result : (engine.step tables (.read operand location)).result with
    | error desync => simp [call, Call.readings, result] at member
    | ok reply =>
      cases reply with
      | done => simp [call, Call.readings, result] at member
      | flag flag =>
        obtain rfl : reading = ⟨operand.position, operand.value, flag⟩ := by
          simpa [call, Call.readings, result] using member
        have fresh := origin (by simp [call, result, Except.isOk, Except.toBool])
        simp only [Hook.Introduces, false_or] at fresh
        exact (traced_read own all result).trans fresh.symm
  | _ => simp [call, Call.readings] at member

/-- One hook: sources tell afterwards what they told before, provided that its own number does. -/
theorem traced_step (valid : tables.Valid) (own : engine.plain.TracedBy tainted sources)
    (all : tables.plain.TracedBy tainted shared) (hook : Hook)
    (origin : (engine.call tables hook).result.isOk = true →
      (tainted number ↔
      hook.Introduces ∨ ∃ earlier ∈ sources.dependencies shared (engine.look tables) hook,
    tainted earlier)) :
    let after := sources.step shared number (engine.look tables) (engine.call tables hook)
    (engine.step tables hook).engine.plain.TracedBy tainted after.1 ∧
      (engine.step tables hook).tables.plain.TracedBy tainted after.2 := by
  cases result : (engine.step tables hook).result with
  | error desync =>
    -- Neither the engine nor its sources change.
    simp only [engine.step_failed tables result, EngineSources.step, call]
    exact ⟨own, all⟩
  | ok reply =>
    have succeeded : (engine.call tables hook).result.isOk = true := by
      simp [call, result, Except.isOk, Except.toBool]
    have defined := traced_define own all result (origin succeeded)
    rw [← engine.plain_step valid hook] at defined
    -- The same call moves the window of readings and the window of event numbers.
    obtain ⟨current, shows, related⟩ := own.window
    have next :=
      Span.related_next related (.refl (engine.call tables hook))
        (traced_readings own all hook origin)
    simp only [EngineSources.step, succeeded, if_true]
    exact ⟨⟨defined.1, _, (Engine.keepsUp hook shows).1, next.1⟩, defined.2⟩

end Engine

/-! ## Whole runs -/

structure Collector.TracedBy (tainted : Nat → Prop) (collector : Collector) (sources : Sources) :
    Prop where
  tables : collector.tables.plain.TracedBy tainted sources.tables
  engine : ∀ name, (collector.engine name).plain.TracedBy tainted (sources.engine name)

theorem Event.Valid.hook?_eq {event : Event} (valid : event.Valid) :
    event.hook? =
      match event.step.action with
      | .hook hook =>
        if ((event.before.engine event.step.thread).call event.before.tables hook).result.isOk then
          some hook else none
      | _ => none := by
  have answer := valid.answer
  unfold Event.hook?
  cases action : event.step.action with
  | hook hook =>
    simp only [action] at answer
    cases result :
      ((event.before.engine event.step.thread).step event.before.tables hook).result <;>
      simp [answer, result, Answer.ofResult, Engine.call, Except.isOk, Except.toBool]
  | _ => rfl

theorem Event.Valid.traced {event : Event} (valid : event.Valid)
    (tables : event.before.tables.Valid) (indirect : ∀ call, event.step.action ≠ .table call)
    {sources : Sources} (before : event.before.TracedBy tainted sources)
    (origin : ∀ hook ∈ event.hook?,
      (tainted number ↔ hook.Introduces ∨ ∃ earlier ∈ sources.dependencies event hook,
      tainted earlier)) :
    event.after.TracedBy tainted (sources.next number event) := by
  have call := valid.call?_eq event.step.thread
  have hook? := valid.hook?_eq
  have tablesAfter := valid.tables
  have engineAfter := valid.engine
  cases action : event.step.action with
  | hook hook =>
    simp only [action, if_true] at call hook? tablesAfter engineAfter
    obtain ⟨own, all⟩ :=
      Engine.traced_step tables (before.engine event.step.thread) before.tables hook
      fun succeeded => origin hook (by simp [hook?, succeeded])
    simp only [Sources.next, call]
    refine ⟨by rw [tablesAfter]; exact all, fun name => ?_⟩
    rw [engineAfter]
    by_cases same : name = event.step.thread
    · simp only [same, if_true, Function.update_self]
      exact own
    · simpa [same] using before.engine name
  | table call => exact absurd action (indirect call)
  | resetShared =>
    simp only [action] at call tablesAfter engineAfter
    simp only [Sources.next, call, action]
    refine ⟨?_, fun name => by rw [engineAfter]; exact before.engine name⟩
    -- All shared cells are concrete again, and none of them has a source.
    rw [tablesAfter, Tables.plain_clear]
    exact ⟨Plain.Shared.related_empty Shadow.tracedBy_default, by simp [Flag.TracedBy]⟩
  | _ =>
    simp only [action] at call tablesAfter engineAfter
    simp only [Sources.next, call, action]
    exact ⟨by rw [tablesAfter]; exact before.tables,
      fun name => by rw [engineAfter]; exact before.engine name⟩

namespace Run

theorem tainted_iff (run : Run) (number : Nat) :
    run.Tainted number ↔ run.Introduces number ∨ ∃ earlier,
      run.Depends number earlier ∧ run.Tainted earlier := by
  simp only [Tainted, Relation.ReflTransGen.cases_head_iff (a := number)]
  constructor
  · rintro ⟨source, introduced, rfl | ⟨earlier, depends, rest⟩⟩
    · exact .inl introduced
    · exact .inr ⟨earlier, depends, source, introduced, rest⟩
  · rintro (introduced | ⟨earlier, depends, source, introduced, rest⟩)
    · exact ⟨number, introduced, .inl rfl⟩
    · exact ⟨source, introduced, .inr ⟨earlier, depends, rest⟩⟩

theorem depends_event_iff (run : Run) {number : Nat} {event : Event}
    (there : run.events[number]? = some event) {hook : Hook} (succeeded : event.hook? = some hook)
    (earlier : Nat) :
    run.Depends number earlier ↔ earlier ∈ (run.sources number).dependencies event hook := by
  simp [Depends, there, succeeded]

/-- An event with a hook that succeeds is tainted exactly if the hook makes something symbolic or
depends on a tainted event. -/
theorem tainted_event_iff (run : Run) {number : Nat} {event : Event}
    (there : run.events[number]? = some event) {hook : Hook} (succeeded : event.hook? = some hook) :
    run.Tainted number ↔
      hook.Introduces ∨ ∃ earlier ∈ (run.sources number).dependencies event hook,
        run.Tainted earlier := by
  rw [run.tainted_iff]
  simp [Introduces, run.depends_event_iff there succeeded, there, succeeded]

theorem traced (run : Run) (indirect : ∀ step ∈ run.steps, ∀ call, step.action ≠ .table call)
    {number : Nat} {event : Event} (there : run.events[number]? = some event) :
    event.before.tables.Valid ∧ event.before.TracedBy run.Tainted (run.sources number) := by
  -- On the number: the event before is there too, and leads to the state that this one starts from.
  induction number generalizing event with
  | zero =>
    obtain ⟨tables, engine, -⟩ := Collector.create_eq run.created
    rw [run.trail.first_before there]
    refine ⟨run.tables_valid, ?_, fun name => ?_⟩
    · rw [tables, Tables.plain_empty]
      exact ⟨Plain.Shared.related_empty Shadow.tracedBy_default, by simp [sources, Flag.TracedBy]⟩
    · rw [engine]
      simp only [Engine.plain, Engine.cells, sources, Plain.Frame.ofSeed_empty]
      exact ⟨Plain.Cells.related_empty Shadow.tracedBy_default, none, rfl, .none⟩
  | succ number ih =>
    have bound := (List.getElem?_eq_some_iff.mp there).1
    have here : run.events[number]? = some run.events[number] := List.getElem?_eq_getElem (by omega)
    generalize run.events[number] = earlier at here
    obtain ⟨tables, before⟩ := ih here
    have member : earlier ∈ run.events := List.mem_of_getElem? here
    have valid := run.trail.valid earlier member
    have direct := indirect earlier.step (List.mem_map_of_mem member)
    have stored : earlier.step.action.Stored := by
      cases action : earlier.step.action with
      | table call => exact absurd action (direct call)
      | _ => trivial
    rw [run.trail.next_before here there, sources, here]
    refine ⟨(valid.plain tables stored).1, valid.traced tables direct before ?_⟩
    exact fun hook succeeded => run.tainted_event_iff here succeeded

end Run

/-- Taint is reachability. In a run without direct accesses to the tables, a read gives a
symbolic flag exactly if its event depends, directly or through others, on one that made
something symbolic. -/
theorem Run.read_isSymbolic_iff_reaches (run : Run)
    (indirect : ∀ step ∈ run.steps, ∀ call, step.action ≠ .table call) (number : Nat)
    (event : Event) (there : run.events[number]? = some event) (operand : Operand)
    (location : Location) (asked : event.step.action = .hook (.read operand location)) (flag : Flag)
    (answered : event.answer = .hook (.flag flag)) :
    flag.isSymbolic = true ↔
      ∃ source, run.Introduces source ∧ Relation.TransGen run.Depends number source := by
  have valid := run.trail.valid event (List.mem_of_getElem? there)
  obtain ⟨-, traced⟩ := run.traced indirect there
  have read :
      ((event.before.engine event.step.thread).step event.before.tables
        (.read operand location)).result = .ok (.flag flag) := by
    have answer := valid.answer
    simp only [asked, answered] at answer
    generalize ((event.before.engine event.step.thread).step event.before.tables
      (.read operand location)).result = result at answer
    cases result <;> simp_all [Answer.ofResult]
  have hook : event.hook? = some (.read operand location) := by simp [Event.hook?, asked, answered]
  calc
    flag.isSymbolic = true ↔ ∃ earlier, run.Depends number earlier ∧ run.Tainted earlier := by
      simp only [run.depends_event_iff there hook]
      exact Engine.traced_read (traced.engine event.step.thread) traced.tables read
    _ ↔ ∃ source, run.Introduces source ∧ Relation.TransGen run.Depends number source := by
      simp only [Tainted, Relation.TransGen.head'_iff]
      constructor
      · rintro ⟨earlier, depends, source, introduced, rest⟩
        exact ⟨source, introduced, earlier, depends, rest⟩
      · rintro ⟨source, introduced, earlier, depends, rest⟩
        exact ⟨earlier, depends, source, introduced, rest⟩

/-- A marked argument is forwarded to a call, stored there in a field and read from it. -/
def Hook.sample : List Hook :=
  [.enter, .markSymbolic (.argument 0), .read ⟨1, 0, .int 5, some (.argument 2)⟩ (.argument 0),
    .enter, .read ⟨2, 0, .int 5, none⟩ (.argument 2), .write 2 (.object 9 (.field 0)) .primitive,
    .read ⟨3, 0, .int 5, none⟩ (.object 9 (.field 0))]

def Hook.sampleReplies : List Reply :=
  [.done, .done, .flag .symbolic, .done, .flag .symbolic, .done, .flag .symbolic]

theorem Run.read_isSymbolic_iff_reaches_call :
    ∃ (run : Run) (event : Event), (∀ step ∈ run.steps, ∀ call, step.action ≠ .table call) ∧
      run.steps = Hook.sample.map (fun hook => ⟨"main", "main", .hook hook⟩) ∧
      run.events[6]? = some event ∧
      event.step.action = .hook (.read ⟨3, 0, .int 5, none⟩ (.object 9 (.field 0))) ∧
      event.answer = .hook (.flag .symbolic) ∧
      ∃ source, run.Introduces source ∧ Relation.TransGen run.Depends 6 source := by
  obtain ⟨run, -, steps, answers⟩ :=
    Run.exists_of_answers {} {} (Hook.sample.map fun hook => ⟨"main", "main", .hook hook⟩)
      (Hook.sampleReplies.map .hook) (by decide +kernel)
  obtain ⟨event, there, asked, answered⟩ :=
    run.exists_event 6 (by rw [steps]; rfl) (by rw [answers]; rfl)
  have indirect : ∀ step ∈ run.steps, ∀ call, step.action ≠ .table call := by
    rw [steps]
    simp
  have action := congrArg Step.action asked
  have reaches :=
    Run.read_isSymbolic_iff_reaches run indirect 6 event there _ _ action .symbolic answered
  exact ⟨run, event, indirect, steps, there, action, answered, reaches.mp Flag.isSymbolic_symbolic⟩

end ShadowTrace
