import ShadowTrace.Heap.Elements
import ShadowTrace.Location

/-! # Objects

The shadow of one object: the flag that references to it have, and the shadows of its fields
and elements. -/

namespace ShadowTrace

structure Object where
  flag : Flag := .concrete
  fields : Std.TreeMap FieldId Shadow := {}
  elements : Elements := {}

namespace Object

def get (object : Object) : Key → Shadow
  | .field id => object.fields.getD id .concrete
  | .element index => object.elements.get index

def set (object : Object) (limit : UInt32) (key : Key) (shadow : Shadow) : Object :=
  match key with
  | .field id =>
    if shadow.isConcrete then { object with fields := object.fields.erase id }
    else { object with fields := object.fields.insert id shadow }
  | .element index => { object with elements := object.elements.set limit index shadow }

end Object

end ShadowTrace
