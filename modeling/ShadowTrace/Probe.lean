import ShadowTrace.Collector
import ShadowTrace.Settings.Load

/-! # Probes

The flat calls an instrumented program makes. There is one collector for the whole program, made
at the first call with the settings that are loaded there, and a thread's state is made at its
own first call. A desynchronised call is a violation: it is reported as such, and leaves the
state as it was. -/

namespace ShadowTrace

inductive Probe where
  | init
  | enter
  | exit
  | read (operand : Operand) (location : Location)
  | write (instruction : InstructionId) (location : Location) (value : Written)
  | markSymbolic (location : Location)
  | close (instruction : InstructionId)
  | take
  | reset
deriving DecidableEq

structure Violation where
  desync : Desync
deriving DecidableEq

def Violation.message (violation : Violation) : String :=
  "Collector integrity violation: " ++ violation.desync.message

inductive ProbeReply where
  | done
  | flag (flag : Flag)
  | records (records : List Record)

/-- Why a call ends the program, unless that is caught: the settings cannot be loaded, what they ask
for cannot be built, or the call is a violation. -/
inductive Fault where
  | settings (error : LoadError)
  | setup (error : SetupError)
  | violation (violation : Violation)

namespace Collector

def perform (collector : Collector) (name : String) (hook : Hook) :
    Except Violation ProbeReply × Collector :=
  match collector.hook name hook with
  | (.error desync, after) => (.error ⟨desync⟩, after)
  | (.ok .done, after) => (.ok .done, after)
  | (.ok (.flag flag), after) => (.ok (.flag flag), after)

/-- Answers a call of a thread that has been set up. -/
def probe (collector : Collector) (name : String) :
    Probe → Except Violation ProbeReply × Collector
  | .init => (.ok .done, collector)
  | .enter => collector.perform name .enter
  | .exit => collector.perform name .exit
  | .read operand location => collector.perform name (.read operand location)
  | .write instruction location value => collector.perform name (.write instruction location value)
  | .markSymbolic location => collector.perform name (.markSymbolic location)
  | .close instruction => collector.perform name (.close instruction)
  | .take =>
    let thread := collector.thread name
    (.ok (.records thread.trace.records.toList),
      collector.setThread name { thread with trace := thread.trace.clear })
  | .reset =>
    let (result, after) := collector.perform name .reset
    (result, after.resetShared)

end Collector

/-- A program that runs: where it was started, and its collector once there is one. -/
structure Program where
  here : Surroundings := {}
  collector? : Option Collector := none

namespace Program

/-- The collector of the program, a new one if there is none. -/
def collector (program : Program) : Except Fault Collector :=
  match program.collector? with
  | some collector => .ok collector
  | none =>
    match Settings.load program.here with
    | .error error => .error (.settings error)
    | .ok settings =>
      match Collector.create settings program.here.files program.here.folder with
      | .error error => .error (.setup error)
      | .ok collector => .ok collector

/-- The program with the given collector. -/
def holding (program : Program) (collector : Collector) : Program :=
  { program with collector? := some collector }

/-- Answers a call of a thread. The label names the thread's dump, in case the call is its first.
The call that initializes the program concerns no thread. -/
def probe (program : Program) (thread label : String) (probe : Probe) :
    Except Fault ProbeReply × Program :=
  match program.collector with
  | .error fault => (.error fault, program)
  | .ok collector =>
    if probe = .init then (.ok .done, program.holding collector)
    else match collector.start thread label with
      | .error error => (.error (.setup error), program.holding collector)
      | .ok started =>
        match started.probe thread probe with
        | (.error violation, after) => (.error (.violation violation), program.holding after)
        | (.ok reply, after) => (.ok reply, program.holding after)

end Program

end ShadowTrace
