import ShadowTrace.Trace.Dump

/-! # Traces

The records of one thread in the order they were made. Taking or clearing them leaves the
dump as it is. -/

namespace ShadowTrace

structure Trace where
  records : Array Record := #[]
  dump : Option Dump := none
deriving DecidableEq

namespace Trace

/-- A trace without records. Its dump is named by the thread and seen from the given folder. -/
def create (settings : TraceSettings) (files : Files) (here : List String) (thread : String) :
    Except SetupError (Trace × Files) := do
  reserve settings.capacity recordBytes
  match settings.dump with
  | none => return ({}, files)
  | some dumpSettings =>
    let (dump, files) ← Dump.create dumpSettings files here thread
    return ({ dump }, files)

def push (trace : Trace) (files : Files) (record : Record) : Trace × Files :=
  match trace.dump with
  | none => ({ trace with records := trace.records.push record }, files)
  | some dump =>
    let (dump, files) := dump.write files record
    ({ records := trace.records.push record, dump := some dump }, files)

def append (trace : Trace) (files : Files) : Option Record → Trace × Files
  | none => (trace, files)
  | some record => trace.push files record

def size (trace : Trace) : Nat := trace.records.size

def isEmpty (trace : Trace) : Bool := trace.records.isEmpty

def clear (trace : Trace) : Trace := { trace with records := #[] }

end Trace

end ShadowTrace
