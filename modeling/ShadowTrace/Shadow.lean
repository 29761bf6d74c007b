import ShadowTrace.Flag

/-! # Shadows

The shadow of a value is what is kept in its place: that it is concrete, that it is
symbolic, or which object it refers to. The flag of a reference is that of the object, so
all aliases share it. -/

namespace ShadowTrace

abbrev ObjectId := UInt64

inductive Shadow where
  | concrete
  | symbolic
  | reference (id : ObjectId)
deriving DecidableEq

namespace Shadow

instance : Inhabited Shadow := ⟨concrete⟩

def ofFlag (flag : Flag) : Shadow :=
  if flag.isSymbolic then symbolic else concrete

def isConcrete : Shadow → Bool
  | concrete => true
  | _ => false

def reference? : Shadow → Option ObjectId
  | reference id => some id
  | _ => none

def text : Shadow → String
  | concrete => "Conc"
  | symbolic => "Sym"
  | reference id => "Ref(@0x" ++ Text.hex id.toNat ++ ")"

@[simp] theorem isConcrete_iff (shadow : Shadow) :
    shadow.isConcrete = true ↔ shadow = concrete := by
  cases shadow <;> simp [isConcrete]

end Shadow

end ShadowTrace
