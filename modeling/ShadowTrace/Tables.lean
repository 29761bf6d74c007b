import ShadowTrace.Heap
import ShadowTrace.Statics

/-! # The shared tables

The heap and the static fields belong to the program as a whole: every thread sees the same ones.
They can also be looked up and changed directly, one call at a time. -/

namespace ShadowTrace

structure Tables where
  heap : Heap := {}
  statics : Statics := {}

/-- A direct access to the tables. -/
inductive TableCall where
  | shadow (id : ObjectId) (key : Key)
  | get (id : ObjectId) (key : Key)
  | put (id : ObjectId) (key : Key) (shadow : Shadow)
  | flag (id : ObjectId)
  | setFlag (id : ObjectId) (flag : Flag)
  | resolve (shadow : Shadow)
  | contains (id : ObjectId)
  | isEmpty
  | clear
  | static (field : FieldId)
  | putStatic (field : FieldId) (shadow : Shadow)
  | staticsEmpty
  | clearStatics
deriving DecidableEq

inductive TableReply where
  | done
  | flag (flag : Flag)
  | shadow (shadow : Shadow)
  | truth (holds : Bool)
deriving DecidableEq

namespace Tables

def clear (tables : Tables) : Tables := ⟨tables.heap.clear, {}⟩

def call (tables : Tables) : TableCall → TableReply × Tables
  | .shadow id key => (.shadow (tables.heap.shadow id key), tables)
  | .get id key => (.flag (tables.heap.get id key), tables)
  | .put id key shadow => (.done, { tables with heap := tables.heap.put id key shadow })
  | .flag id => (.flag (tables.heap.flag id), tables)
  | .setFlag id flag => (.done, { tables with heap := tables.heap.setFlag id flag })
  | .resolve shadow => (.flag (tables.heap.resolve shadow), tables)
  | .contains id => (.truth (tables.heap.contains id), tables)
  | .isEmpty => (.truth tables.heap.isEmpty, tables)
  | .clear => (.done, { tables with heap := tables.heap.clear })
  | .static field => (.shadow (tables.statics.get field), tables)
  | .putStatic field shadow => (.done, { tables with statics := tables.statics.put field shadow })
  | .staticsEmpty => (.truth tables.statics.isEmpty, tables)
  | .clearStatics => (.done, { tables with statics := {} })

end Tables

end ShadowTrace
