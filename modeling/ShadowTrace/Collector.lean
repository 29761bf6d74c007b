import ShadowTrace.Engine
import ShadowTrace.Trace

/-! # The collector

All threads of a program share the tables; each has an engine and a trace of its own. A collector
runs the actions of any number of threads, one at a time. -/

namespace ShadowTrace

structure Thread where
  engine : Engine := {}
  trace : Trace := {}
deriving DecidableEq

/-- The shared tables and the threads of a program that runs in a folder of some tree of files. -/
structure Collector where
  settings : Settings
  tables : Tables
  files : Files
  folder : List String
  threads : Std.TreeMap String Thread

/-- What can be asked of a collector on behalf of a thread. -/
inductive Action where
  | hook (hook : Hook)
  | table (call : TableCall)
  | resetShared
  | records
  | instructionIds
  | texts
  | drain
  | clearTrace
deriving DecidableEq

inductive Answer where
  | failed (desync : Desync)
  | hook (reply : Reply)
  | table (reply : TableReply)
  | done
  | records (records : List Record)
  | ids (ids : List InstructionId)
  | texts (texts : List String)
deriving DecidableEq

/-- An action of a thread. The label names the thread's dump, in case the action is its first. -/
structure Step where
  thread : String
  label : String
  action : Action
deriving DecidableEq

/-- What can be seen of a thread and of the shared tables from outside. -/
structure Status where
  accumulator : Flag
  depth : Nat
  records : Nat
  objects : Nat
  statics : Nat
deriving DecidableEq

namespace Thread

/-- Runs a hook and keeps the record of the window it ended. -/
def step (thread : Thread) (tables : Tables) (files : Files) (hook : Hook) :
    Except Desync Reply × Thread × Tables × Files :=
  let outcome := thread.engine.step tables hook
  let (trace, files) := thread.trace.append files outcome.recorded
  let trace := if hook = .reset then trace.clear else trace
  (outcome.result, { engine := outcome.engine, trace }, outcome.tables, files)

end Thread

namespace Collector

def create (settings : Settings) (files : Files) (folder : List String) :
    Except SetupError Collector := do
  let tables ← Tables.create settings.heap
  return { settings, tables, files, folder, threads := {} }

/-- Creates the state of a thread unless it is there. The dump of the thread is named by
its label. -/
def start (collector : Collector) (thread label : String) : Except SetupError Collector := do
  if collector.threads.contains thread then return collector
  let stack ← CallStack.create collector.settings.stack
  let (trace, files) ←
    Trace.create collector.settings.trace collector.files collector.folder label
  return { collector with
    files
    threads := collector.threads.insert thread { engine := { stack }, trace } }

def thread (collector : Collector) (name : String) : Thread := collector.threads.getD name {}

def setThread (collector : Collector) (name : String) (thread : Thread) : Collector :=
  { collector with threads := collector.threads.insert name thread }

def resetShared (collector : Collector) : Collector :=
  { collector with tables := collector.tables.clear }

def hook (collector : Collector) (name : String) (hook : Hook) : Except Desync Reply × Collector :=
  let (result, thread, tables, files) :=
    (collector.thread name).step collector.tables collector.files hook
  (result, { collector.setThread name thread with tables, files })

def act (collector : Collector) (name : String) : Action → Answer × Collector
  | .hook hook =>
    match collector.hook name hook with
    | (.error desync, after) => (.failed desync, after)
    | (.ok reply, after) => (.hook reply, after)
  | .table call =>
    let (reply, tables) := collector.tables.call call
    (.table reply, { collector with tables })
  | .resetShared => (.done, collector.resetShared)
  | .records => (.records (collector.thread name).trace.records.toList, collector)
  | .instructionIds =>
    (.ids ((collector.thread name).trace.records.toList.map (·.instruction)), collector)
  | .texts => (.texts ((collector.thread name).trace.records.toList.map (·.text)), collector)
  | .drain =>
    let thread := collector.thread name
    (.records thread.trace.records.toList,
      collector.setThread name { thread with trace := thread.trace.clear })
  | .clearTrace =>
    let thread := collector.thread name
    (.done, collector.setThread name { thread with trace := thread.trace.clear })

def status (collector : Collector) (name : String) : Status where
  accumulator := (collector.thread name).engine.accumulator
  depth := (collector.thread name).engine.depth
  records := (collector.thread name).trace.size
  objects := collector.tables.heap.size
  statics := collector.tables.statics.size

/-- Runs further steps after those whose answers are given, the latest first. -/
def runAfter (collector : Collector) (answers : List (Answer × Status)) :
    List Step → Except SetupError (List (Answer × Status) × Collector)
  | [] => .ok (answers.reverse, collector)
  | step :: rest =>
    match collector.start step.thread step.label with
    | .error error => .error error
    | .ok started =>
      let (answer, after) := started.act step.thread step.action
      after.runAfter ((answer, after.status step.thread) :: answers) rest

/-- Runs the steps in order. Each gives its answer and the status of its thread afterwards; a thread
that cannot be set up ends the run. -/
def run (collector : Collector) (steps : List Step) :
    Except SetupError (List (Answer × Status) × Collector) :=
  collector.runAfter [] steps

end Collector

end ShadowTrace
