import ShadowTrace.CallStack
import ShadowTrace.Tables
import ShadowTrace.Window

/-! # The propagation engine

One thread's view of the running program. Reads merge the flags of operands into the pending window,
writes store its accumulator, and reads that are forwarded prepare the frame of the next callee or
the value on its way back to the caller. Every hook gives its result together with the state it
leaves behind, and the record of the window it ended, if that has to be kept. -/

namespace ShadowTrace

structure Engine where
  stack : CallStack := {}
  window : Window := .fresh
  /-- What forwarded reads have prepared for the next call. -/
  seed : Seed := {}
  /-- The value on its way back from the latest call. -/
  returned : Option Shadow := none
deriving DecidableEq

/-- One operand of an instruction, as it is read. -/
structure Operand where
  instruction : InstructionId
  position : UInt32
  value : Value
  forward : Option Position := none
deriving DecidableEq

/-- What a write stores: a plain value, or a reference to an object or to none. -/
inductive Written where
  | primitive
  | reference (id : Option ObjectId)
deriving DecidableEq

inductive Hook where
  | enter
  | enterWith (seed : Seed)
  | exit
  | read (operand : Operand) (location : Location)
  | write (instruction : InstructionId) (location : Location) (value : Written)
  | assign (location : Location) (shadow : Shadow)
  | markSymbolic (location : Location)
  | resolve (location : Location)
  | close (instruction : InstructionId)
  | reset
deriving DecidableEq

inductive Reply where
  | done
  | flag (flag : Flag)
deriving DecidableEq

/-- What a hook leaves behind. -/
structure Outcome where
  result : Except Desync Reply
  engine : Engine
  tables : Tables
  recorded : Option Record := none

namespace Engine

def accumulator (engine : Engine) : Flag := engine.window.accumulator

def depth (engine : Engine) : Nat := engine.stack.depth

def load (engine : Engine) (tables : Tables) (location : Location) : Except Desync Shadow :=
  match engine.stack.top with
  | .error desync => .error desync
  | .ok frame =>
    .ok <| match location with
      | .this => frame.receiver
      | .argument index => frame.argument index
      | .localVar index => frame.localVar index
      | .static field => tables.statics.get field
      | .object id key => tables.heap.shadow id key
      | .returned => engine.returned.getD .concrete

def storeInFrame (engine : Engine) (tables : Tables) (change : Frame → Frame) :
    Except Desync (Engine × Tables) :=
  match engine.stack.modifyTop change with
  | .error desync => .error desync
  | .ok stack => .ok ({ engine with stack }, tables)

def store (engine : Engine) (tables : Tables) (location : Location) (shadow : Shadow) :
    Except Desync (Engine × Tables) :=
  match location with
  | .this => engine.storeInFrame tables fun frame => frame.setReceiver shadow
  | .argument index => engine.storeInFrame tables fun frame => frame.setArgument index shadow
  | .localVar index => engine.storeInFrame tables fun frame => frame.setLocal index shadow
  | .static field => .ok (engine, { tables with statics := tables.statics.put field shadow })
  | .object id key => .ok (engine, { tables with heap := tables.heap.put id key shadow })
  | .returned => .ok ({ engine with returned := some shadow }, tables)

/-- Ends the pending window. -/
def finalize (engine : Engine) : Engine × Option Record :=
  ({ engine with window := engine.window.finalize.1 }, engine.window.finalize.2)

/-- Moves to the instruction. If it is not the pending one a new window opens: what was prepared for
a call is dropped, and so is a returned value unless this access picks it up. -/
def observe (engine : Engine) (id : InstructionId) (location : Location) : Engine × Option Record :=
  if engine.window.pending? = some id then (engine, none)
  else
    ({ engine with
        window := .start id
        seed := {}
        returned := if location = Location.returned then engine.returned else none },
      engine.finalize.2)

def forward (engine : Engine) (shadow : Shadow) : Option Position → Engine
  | none => engine
  | some .receiver => { engine with seed := engine.seed.setReceiver shadow }
  | some (.argument index) => { engine with seed := engine.seed.setArgument index shadow }
  | some .result => { engine with returned := some shadow }

def enter (engine : Engine) (tables : Tables) : Outcome where
  result := .ok .done
  engine := { engine with stack := engine.stack.push engine.seed, seed := {}, returned := none }
  tables := tables

def enterWith (engine : Engine) (tables : Tables) (seed : Seed) : Outcome where
  result := .ok .done
  engine := { engine with stack := engine.stack.push seed, seed := {}, returned := none }
  tables := tables

def exit (engine : Engine) (tables : Tables) : Outcome :=
  match engine.stack.pop with
  | .error desync => { result := .error desync, engine, tables }
  | .ok (_, stack) =>
    if stack.isEmpty then
      { result := .ok .done
        engine := { engine with stack, window := engine.window.finalize.1, seed := {} }
        tables
        recorded := engine.window.finalize.2 }
    else { result := .ok .done, engine := { engine with stack }, tables }

def read (engine : Engine) (tables : Tables) (operand : Operand) (location : Location) : Outcome :=
  match engine.load tables location with
  | .error desync => { result := .error desync, engine, tables }
  | .ok shadow =>
    let (observed, recorded) := engine.observe operand.instruction location
    let flag := tables.heap.resolve shadow
    let merged := { observed with
      window := observed.window.add operand.position flag operand.value
      returned := if location = Location.returned then none else observed.returned }
    { result := .ok (.flag flag), engine := merged.forward shadow operand.forward, tables,
      recorded }

def write (engine : Engine) (tables : Tables) (instruction : InstructionId) (location : Location)
    (value : Written) : Outcome :=
  match engine.stack.top with
  | .error desync => { result := .error desync, engine, tables }
  | .ok _ =>
    let (observed, recorded) := engine.observe instruction location
    let flag := observed.accumulator
    let (shadow, tables) := match value with
      | .reference (some id) =>
        (.reference id, { tables with heap := tables.heap.setFlag id flag.stored })
      | _ => (Shadow.ofFlag flag, tables)
    match observed.store tables location shadow with
    | .error desync => { result := .error desync, engine := observed, tables, recorded }
    | .ok (engine, tables) => { result := .ok .done, engine, tables, recorded }

/-- Stores a shadow without regard to the pending window. -/
def assign (engine : Engine) (tables : Tables) (location : Location) (shadow : Shadow) : Outcome :=
  match engine.stack.top with
  | .error desync => { result := .error desync, engine, tables }
  | .ok _ =>
    match engine.store tables location shadow with
    | .error desync => { result := .error desync, engine, tables }
    | .ok (engine, tables) => { result := .ok .done, engine, tables }

/-- Marks the value at the location. Through a reference the object is marked, so that every
alias sees it. -/
def markSymbolic (engine : Engine) (tables : Tables) (location : Location) : Outcome :=
  match engine.load tables location with
  | .error desync => { result := .error desync, engine, tables }
  | .ok (.reference id) =>
    { result := .ok .done, engine,
      tables := { tables with heap := tables.heap.setFlag id .symbolic } }
  | .ok _ =>
    match engine.store tables location .symbolic with
    | .error desync => { result := .error desync, engine, tables }
    | .ok (engine, tables) => { result := .ok .done, engine, tables }

def resolve (engine : Engine) (tables : Tables) (location : Location) : Outcome :=
  match engine.load tables location with
  | .error desync => { result := .error desync, engine, tables }
  | .ok shadow => { result := .ok (.flag (tables.heap.resolve shadow)), engine, tables }

def close (engine : Engine) (tables : Tables) (instruction : InstructionId) : Outcome :=
  match engine.window.close instruction with
  | .error desync => { result := .error desync, engine, tables }
  | .ok (window, recorded) =>
    { result := .ok .done, engine := { engine with window }, tables, recorded }

def step (engine : Engine) (tables : Tables) : Hook → Outcome
  | .enter => engine.enter tables
  | .enterWith seed => engine.enterWith tables seed
  | .exit => engine.exit tables
  | .read operand location => engine.read tables operand location
  | .write instruction location value => engine.write tables instruction location value
  | .assign location shadow => engine.assign tables location shadow
  | .markSymbolic location => engine.markSymbolic tables location
  | .resolve location => engine.resolve tables location
  | .close instruction => engine.close tables instruction
  | .reset => { result := .ok .done, engine := {}, tables }

end Engine

end ShadowTrace
