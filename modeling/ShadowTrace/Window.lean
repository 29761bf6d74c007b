import ShadowTrace.Record

/-! # Instruction windows

A window is the execution of one instruction as far as hooks show it: it opens at the first read or
write that names the instruction and is finalized by the next instruction, by an explicit close, or
by the end of the outermost call. While it is open its accumulator merges the flags of all operands
read. -/

namespace ShadowTrace

/-- Why a hook fails: the instrumentation and the recorded state have come apart. -/
inductive Desync where
  | stackUnderflow
  | noActiveFrame
  | finalizedTwice (id : InstructionId)
  | mismatch (pending : Option InstructionId) (closed : InstructionId)
deriving DecidableEq

def Desync.message : Desync → String
  | stackUnderflow => "Call stack underflow: exit from a call with no active frame"
  | noActiveFrame => "No active frame: hook called outside of any instrumented call"
  | finalizedTwice id => "Instruction " ++ Text.decimal id.toNat ++ " is finalized twice"
  | mismatch pending closed =>
    "Closing instruction " ++ Text.decimal closed.toNat ++ " while " ++
      (match pending with
        | none => "None"
        | some id => "Some(" ++ Text.decimal id.toNat ++ ")") ++ " is pending"

inductive Window where
  /-- No instruction has been seen. -/
  | fresh
  | pending (accumulator : Flag) (record : Record)
  /-- The last instruction seen has been finalized. -/
  | finalized (id : InstructionId)
deriving DecidableEq

namespace Window

def pending? : Window → Option InstructionId
  | pending _ record => some record.instruction
  | _ => none

def accumulator : Window → Flag
  | pending accumulator _ => accumulator
  | _ => .concrete

def start (id : InstructionId) : Window := pending .concrete { instruction := id }

/-- Merges the flag of an operand; a concrete one leaves its value in the record. -/
def add (window : Window) (position : UInt32) (flag : Flag) (value : Value) : Window :=
  match window with
  | pending accumulator record =>
    pending (accumulator.merge flag) (if flag.isConcrete then record.add position value else record)
  | other => other

/-- Ends the window. There is a record of it if its accumulator is symbolic. -/
def finalize : Window → Window × Option Record
  | pending accumulator record =>
    (finalized record.instruction, if accumulator.isSymbolic then some record else none)
  | other => (other, none)

/-- Ends the window of the given instruction, which has to be the pending one. -/
def close (window : Window) (id : InstructionId) : Except Desync (Window × Option Record) :=
  match window with
  | pending _ record =>
    if record.instruction = id then .ok window.finalize
    else .error (.mismatch (some record.instruction) id)
  | finalized last => if last = id then .error (.finalizedTwice id) else .error (.mismatch none id)
  | fresh => .error (.mismatch none id)

@[simp] theorem accumulator_start (id : InstructionId) : (start id).accumulator = .concrete := rfl

@[simp] theorem pending?_start (id : InstructionId) : (start id).pending? = some id := rfl

@[simp] theorem pending?_finalize (window : Window) : window.finalize.1.pending? = none := by
  cases window <;> rfl

end Window

end ShadowTrace
