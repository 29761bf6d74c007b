import ShadowTrace.Shadow

/-! # Places of data

Where a value lives: in the frame on top of the stack, in a static field, in an object, or on its
way back from a call. -/

namespace ShadowTrace

abbrev FieldId := UInt32

/-- A key inside one object. Fields and elements are numbered independently. -/
inductive Key where
  | field (id : FieldId)
  | element (index : UInt32)
deriving DecidableEq

inductive Location where
  | this
  | argument (index : UInt32)
  | localVar (index : UInt32)
  | static (field : FieldId)
  | object (id : ObjectId) (key : Key)
  | returned
deriving DecidableEq

/-- Where a value that is read goes in a call: into the callee's frame, or back to the caller. -/
inductive Position where
  | receiver
  | argument (index : UInt32)
  | result
deriving DecidableEq

def Key.text : Key → String
  | field id => "#" ++ Text.decimal id.toNat
  | element index => "[" ++ Text.decimal index.toNat ++ "]"

def Location.text : Location → String
  | this => "this"
  | argument index => "arg" ++ Text.decimal index.toNat
  | localVar index => "local" ++ Text.decimal index.toNat
  | static field => "static#" ++ Text.decimal field.toNat
  | object id (.field field) => "@0x" ++ Text.hex id.toNat ++ "." ++ Key.text (.field field)
  | object id (.element index) => "@0x" ++ Text.hex id.toNat ++ Key.text (.element index)
  | returned => "ret"

def Position.text : Position → String
  | receiver => "receiver"
  | argument index => "arg" ++ Text.decimal index.toNat
  | result => "return"

end ShadowTrace
