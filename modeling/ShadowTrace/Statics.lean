import ShadowTrace.Location
import Std.Data.TreeMap
import Std.Data.TreeMap.Lemmas

/-! # Static fields

The table holds the fields that are not concrete and nothing else. -/

namespace ShadowTrace

structure Statics where
  fields : Std.TreeMap FieldId Shadow := {}

namespace Statics

def get (statics : Statics) (field : FieldId) : Shadow := statics.fields.getD field .concrete

def put (statics : Statics) (field : FieldId) (shadow : Shadow) : Statics :=
  if shadow.isConcrete then ⟨statics.fields.erase field⟩ else ⟨statics.fields.insert field shadow⟩

def size (statics : Statics) : Nat := statics.fields.size

def isEmpty (statics : Statics) : Bool := statics.fields.isEmpty

@[simp] theorem get_empty (field : FieldId) : Statics.get {} field = .concrete := by
  simp [get]

theorem get_put (statics : Statics) (field : FieldId) (shadow : Shadow) (other : FieldId) :
    (statics.put field shadow).get other = if other = field then shadow else statics.get other := by
  unfold put
  split
  · next concrete =>
    rw [Shadow.isConcrete_iff] at concrete
    by_cases same : other = field
    · simp [get, same, concrete]
    · simp [get, Std.TreeMap.getD_erase, same, Ne.symm same]
  · by_cases same : other = field
    · simp [get, same]
    · simp [get, Std.TreeMap.getD_insert, same, Ne.symm same]

end Statics

end ShadowTrace
