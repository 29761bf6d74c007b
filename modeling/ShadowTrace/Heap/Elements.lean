import ShadowTrace.Slots
import Std.Data.TreeMap
import Std.Data.TreeMap.Lemmas

/-! # Elements of an array

Elements below a limit lie in a dense row that grows to the highest index written; the others are
kept one by one. Absence means concrete in both parts. -/

namespace ShadowTrace

structure Elements where
  dense : Slots := {}
  sparse : Std.TreeMap UInt32 Shadow := {}

namespace Elements

def get (elements : Elements) (index : UInt32) : Shadow :=
  if index.toNat < elements.dense.size then elements.dense.get index
  else elements.sparse.getD index .concrete

/-- An index lies in the dense part if it is below the limit or the row already reaches it. -/
def isDense (elements : Elements) (limit index : UInt32) : Bool :=
  index.toNat < elements.dense.size || index < limit

def set (elements : Elements) (limit index : UInt32) (shadow : Shadow) : Elements :=
  if elements.isDense limit index then { elements with dense := elements.dense.set index shadow }
  else if shadow.isConcrete then { elements with sparse := elements.sparse.erase index }
  else { elements with sparse := elements.sparse.insert index shadow }

end Elements

end ShadowTrace
