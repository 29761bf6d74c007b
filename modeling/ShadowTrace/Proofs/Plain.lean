import Mathlib.Logic.Function.Basic
import ShadowTrace.Proofs.Run

/-! # The plain machine

The same hooks on total maps. Every slot, field, element and static field has a shadow, every object
has a flag, and a store changes the map at one point: nothing is skipped, removed or kept in two
parts, and there are no settings. Nothing here can say how many objects have an entry, so that is
not answered.

How contents move between the cells of a thread does not depend on what the contents are. So cells
hold anything that has a default, which is what a cell holds that was never stored to. -/

namespace ShadowTrace.Plain

variable {α : Type} [Inhabited α]

structure Frame (α : Type) [Inhabited α] where
  receiver : α := default
  argument : UInt32 → α := fun _ => default
  localVar : UInt32 → α := fun _ => default

/-- The cells of one thread. -/
structure Cells (α : Type) [Inhabited α] where
  frames : List (Frame α) := []
  /-- The frame of the next call as far as reads have prepared it. -/
  callee : Frame α := {}
  returned : α := default

/-- The cells that all threads share. -/
structure Shared (α : Type) [Inhabited α] where
  object : ObjectId → Key → α := fun _ _ => default
  static : FieldId → α := fun _ => default

namespace Shared

def put (shared : Shared α) (id : ObjectId) (key : Key) (content : α) : Shared α :=
  { shared with
    object := Function.update shared.object id (Function.update (shared.object id) key content) }

def putStatic (shared : Shared α) (field : FieldId) (content : α) : Shared α :=
  { shared with static := Function.update shared.static field content }

def place (shared : Shared α) (location : Location) (content : α) : Shared α :=
  match location with
  | .static field => shared.putStatic field content
  | .object id key => shared.put id key content
  | .this | .argument _ | .localVar _ | .returned => shared

end Shared

namespace Cells

def top (cells : Cells α) : Frame α := cells.frames.headD {}

def setTop (cells : Cells α) (frame : Frame α) : Cells α :=
  { cells with frames := frame :: cells.frames.tail }

def look (cells : Cells α) (shared : Shared α) : Location → α
  | .this => cells.top.receiver
  | .argument index => cells.top.argument index
  | .localVar index => cells.top.localVar index
  | .static field => shared.static field
  | .object id key => shared.object id key
  | .returned => cells.returned

def place (cells : Cells α) (location : Location) (content : α) : Cells α :=
  match location with
  | .this => cells.setTop { cells.top with receiver := content }
  | .argument index =>
    cells.setTop { cells.top with argument := Function.update cells.top.argument index content }
  | .localVar index =>
    cells.setTop { cells.top with localVar := Function.update cells.top.localVar index content }
  | .returned => { cells with returned := content }
  | .static _ | .object .. => cells

/-- A window opens with an access to the location: what was prepared for a call is dropped, and so
is what was returned, unless it is what is accessed. -/
def turn (cells : Cells α) (location : Location) : Cells α :=
  { cells with
    callee := {}
    returned := if location = Location.returned then cells.returned else default }

/-- What was returned can be read once. -/
def take (cells : Cells α) (location : Location) : Cells α :=
  { cells with returned := if location = Location.returned then default else cells.returned }

def forward (cells : Cells α) (content : α) : Option Position → Cells α
  | none => cells
  | some .receiver => { cells with callee := { cells.callee with receiver := content } }
  | some (.argument index) =>
    { cells with
      callee :=
        { cells.callee with argument := Function.update cells.callee.argument index content } }
  | some .result => { cells with returned := content }

def enter (cells : Cells α) (frame : Frame α) : Cells α := { frames := frame :: cells.frames }

def exit (cells : Cells α) : Cells α :=
  match cells.frames with
  | [] => cells
  | [_] => { cells with frames := [], callee := {} }
  | _ :: rest => { cells with frames := rest }

/-- Placing what is there already changes nothing. -/
theorem place_look (cells : Cells α) (shared : Shared α) (location : Location)
    (active : cells.frames ≠ []) :
    cells.place location (cells.look shared location) = cells := by
  obtain ⟨frame, rest, frames⟩ := List.exists_cons_of_ne_nil active
  obtain ⟨_, callee, returned⟩ := cells
  cases frames
  cases location <;> simp [place, look, setTop, top]

theorem shared_place_look (cells : Cells α) (shared : Shared α) (location : Location) :
    shared.place location (cells.look shared location) = shared := by
  cases location <;> simp [Shared.place, Shared.put, Shared.putStatic, look]

end Cells

structure Tables where
  shared : Shared Shadow := {}
  flag : ObjectId → Flag := fun _ => .concrete

structure Engine where
  cells : Cells Shadow := {}
  window : Window := .fresh

structure Outcome where
  result : Except Desync Reply
  engine : Engine
  tables : Tables
  recorded : Option Record := none

def Frame.ofSeed (seed : Seed) : Frame Shadow where
  receiver := seed.receiver.getD .concrete
  argument := seed.arguments.get

namespace Tables

def place (tables : Tables) (location : Location) (shadow : Shadow) : Tables :=
  { tables with shared := tables.shared.place location shadow }

def setFlag (tables : Tables) (id : ObjectId) (flag : Flag) : Tables :=
  { tables with flag := Function.update tables.flag id flag }

def resolve (tables : Tables) : Shadow → Flag
  | .concrete => .concrete
  | .symbolic => .symbolic
  | .reference id => tables.flag id

/-- A direct access. Whether there are entries at all is not answered. -/
def call (tables : Tables) : TableCall → Option TableReply × Tables
  | .shadow id key => (some (.shadow (tables.shared.object id key)), tables)
  | .get id key => (some (.flag (tables.resolve (tables.shared.object id key))), tables)
  | .put id key shadow => (some .done, { tables with shared := tables.shared.put id key shadow })
  | .flag id => (some (.flag (tables.flag id)), tables)
  | .setFlag id flag => (some .done, tables.setFlag id flag)
  | .resolve shadow => (some (.flag (tables.resolve shadow)), tables)
  | .clear => (some .done, { shared := { static := tables.shared.static } })
  | .static field => (some (.shadow (tables.shared.static field)), tables)
  | .putStatic field shadow =>
    (some .done, { tables with shared := tables.shared.putStatic field shadow })
  | .clearStatics => (some .done, { tables with shared := { object := tables.shared.object } })
  | .contains _ | .isEmpty | .staticsEmpty => (none, tables)

end Tables

namespace Engine

def observe (engine : Engine) (id : InstructionId) (location : Location) : Engine × Option Record :=
  if engine.window.pending? = some id then (engine, none)
  else ({ cells := engine.cells.turn location, window := .start id }, engine.window.finalize.2)

def enter (engine : Engine) (tables : Tables) (frame : Frame Shadow) : Outcome where
  result := .ok .done
  engine := { engine with cells := engine.cells.enter frame }
  tables := tables

def exit (engine : Engine) (tables : Tables) : Outcome :=
  match engine.cells.frames with
  | [] => { result := .error .stackUnderflow, engine, tables }
  | [_] =>
    { result := .ok .done
      engine := { cells := engine.cells.exit, window := engine.window.finalize.1 }
      tables
      recorded := engine.window.finalize.2 }
  | _ => { result := .ok .done, engine := { engine with cells := engine.cells.exit }, tables }

def read (engine : Engine) (tables : Tables) (operand : Operand) (location : Location) : Outcome :=
  let shadow := engine.cells.look tables.shared location
  let flag := tables.resolve shadow
  let (observed, recorded) := engine.observe operand.instruction location
  { result := .ok (.flag flag)
    engine :=
      { cells := (observed.cells.take location).forward shadow operand.forward
        window := observed.window.add operand.position flag operand.value }
    tables
    recorded }

def write (engine : Engine) (tables : Tables) (instruction : InstructionId) (location : Location)
    (value : Written) : Outcome :=
  let (observed, recorded) := engine.observe instruction location
  let flag := observed.window.accumulator
  match value with
  | .reference (some id) =>
    { result := .ok .done
      engine := { observed with cells := observed.cells.place location (.reference id) }
      tables := (tables.setFlag id flag.stored).place location (.reference id)
      recorded }
  | _ =>
    { result := .ok .done
      engine := { observed with cells := observed.cells.place location (.ofFlag flag) }
      tables := tables.place location (.ofFlag flag)
      recorded }

def assign (engine : Engine) (tables : Tables) (location : Location) (shadow : Shadow) :
    Outcome where
  result := .ok .done
  engine := { engine with cells := engine.cells.place location shadow }
  tables := tables.place location shadow

def markSymbolic (engine : Engine) (tables : Tables) (location : Location) : Outcome :=
  match engine.cells.look tables.shared location with
  | .reference id => { result := .ok .done, engine, tables := tables.setFlag id .symbolic }
  | _ => engine.assign tables location .symbolic

def resolve (engine : Engine) (tables : Tables) (location : Location) : Outcome where
  result := .ok (.flag (tables.resolve (engine.cells.look tables.shared location)))
  engine := engine
  tables := tables

def close (engine : Engine) (tables : Tables) (instruction : InstructionId) : Outcome :=
  match engine.window.close instruction with
  | .error desync => { result := .error desync, engine, tables }
  | .ok (window, recorded) =>
    { result := .ok .done, engine := { engine with window }, tables, recorded }

theorem exit_cells (engine : Engine) (tables : Tables) :
    (engine.exit tables).engine.cells = engine.cells.exit ∧
    (engine.exit tables).tables = tables := by
  rcases frames : engine.cells.frames with _ | ⟨frame, _ | ⟨caller, rest⟩⟩ <;>
    simp [exit, Cells.exit, frames]

theorem close_cells (engine : Engine) (tables : Tables) (instruction : InstructionId) :
    (engine.close tables instruction).engine.cells = engine.cells ∧
      (engine.close tables instruction).tables = tables := by
  rcases closed : engine.window.close instruction with _ | ⟨window, recorded⟩ <;>
    simp [close, closed]

/-- An access, which needs an active frame. -/
def access (engine : Engine) (tables : Tables) (outcome : Outcome) : Outcome :=
  match engine.cells.frames with
  | [] => { result := .error .noActiveFrame, engine, tables }
  | _ => outcome

def step (engine : Engine) (tables : Tables) : Hook → Outcome
  | .enter => engine.enter tables engine.cells.callee
  | .enterWith seed => engine.enter tables (.ofSeed seed)
  | .exit => engine.exit tables
  | .read operand location => engine.access tables (engine.read tables operand location)
  | .write instruction location value =>
    engine.access tables (engine.write tables instruction location value)
  | .assign location shadow => engine.access tables (engine.assign tables location shadow)
  | .markSymbolic location => engine.access tables (engine.markSymbolic tables location)
  | .resolve location => engine.access tables (engine.resolve tables location)
  | .close instruction => engine.close tables instruction
  | .reset => { result := .ok .done, engine := {}, tables }

end Engine

/-- All threads of the plain machine. -/
structure State where
  tables : Tables := {}
  engine : String → Engine := fun _ => {}
  records : String → List Record := fun _ => []

/-- What can be seen of a thread after a step. -/
structure Report where
  answer : Option Answer
  accumulator : Flag
  depth : Nat
  records : List Record

namespace State

def act (state : State) (name : String) : Action → Option Answer × State
  | .hook hook =>
    let outcome := (state.engine name).step state.tables hook
    (some (.ofResult outcome.result),
      { tables := outcome.tables
        engine := Function.update state.engine name outcome.engine
        records := Function.update state.records name
          (if hook = .reset then [] else state.records name ++ outcome.recorded.toList) })
  | .table call =>
    let (reply, tables) := state.tables.call call
    (reply.map .table, { state with tables })
  | .resetShared => (some .done, { state with tables := {} })
  | .records => (some (.records (state.records name)), state)
  | .instructionIds => (some (.ids ((state.records name).map (·.instruction))), state)
  | .texts => (some (.texts ((state.records name).map (·.text))), state)
  | .drain =>
    (some (.records (state.records name)),
      { state with records := Function.update state.records name [] })
  | .clearTrace => (some .done, { state with records := Function.update state.records name [] })

/-- What is seen of the thread after it has been given the answer. -/
def report (state : State) (name : String) (answer : Option Answer) : Report where
  answer := answer
  accumulator := (state.engine name).window.accumulator
  depth := (state.engine name).cells.frames.length
  records := state.records name

def run (state : State) : List Step → List Report
  | [] => []
  | step :: steps =>
    let (answer, after) := state.act step.thread step.action
    after.report step.thread answer :: after.run steps

end State

end ShadowTrace.Plain
