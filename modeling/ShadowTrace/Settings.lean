/-! # Settings -/

namespace ShadowTrace

structure HeapSettings where
  /-- Whether storing something concrete makes no entry for an object that has none. -/
  skipConcrete : Bool := true
  /-- Elements below this index are kept in a row, the others one by one. -/
  denseLimit : UInt32 := 65536
  /-- Into how many parts the shared tables are divided. -/
  shards : Option UInt64 := none
deriving DecidableEq

inductive DumpFormat where
  | text
  | jsonLines
deriving DecidableEq

/-- Where and how the records of a thread are written to a file. -/
structure DumpSettings where
  directory : Option String := none
  format : DumpFormat := .jsonLines
  namePrefix : Option String := none
  extension : Option String := none
deriving DecidableEq

structure TraceSettings where
  capacity : UInt64 := 32
  dump : Option DumpSettings := none
deriving DecidableEq

structure StackSettings where
  capacity : UInt64 := 32
deriving DecidableEq

structure Settings where
  heap : HeapSettings := {}
  stack : StackSettings := {}
  trace : TraceSettings := {}
deriving DecidableEq

end ShadowTrace
