import ShadowTrace.Slots

/-! # Frames

A frame shadows one active call. It starts from the seed its caller left: receiver and arguments,
no locals. -/

namespace ShadowTrace

/-- What a caller hands over to the frame of its callee. -/
structure Seed where
  receiver : Option Shadow := none
  arguments : Slots := {}
deriving DecidableEq

structure Frame where
  receiver? : Option Shadow := none
  arguments : Slots := {}
  locals : Slots := {}
deriving DecidableEq

namespace Seed

def isEmpty (seed : Seed) : Bool := seed.receiver.isNone && seed.arguments.size = 0

def setReceiver (seed : Seed) (shadow : Shadow) : Seed := { seed with receiver := some shadow }

def setArgument (seed : Seed) (index : UInt32) (shadow : Shadow) : Seed :=
  { seed with arguments := seed.arguments.set index shadow }

/-- The frame a call starts with. -/
def frame (seed : Seed) : Frame := ⟨seed.receiver, seed.arguments, {}⟩

end Seed

namespace Frame

/-- The receiver's shadow; a call without receiver has a concrete one. -/
def receiver (frame : Frame) : Shadow := frame.receiver?.getD .concrete

def hasReceiver (frame : Frame) : Bool := frame.receiver?.isSome

def setReceiver (frame : Frame) (shadow : Shadow) : Frame := { frame with receiver? := some shadow }

def argument (frame : Frame) (index : UInt32) : Shadow := frame.arguments.get index

def setArgument (frame : Frame) (index : UInt32) (shadow : Shadow) : Frame :=
  { frame with arguments := frame.arguments.set index shadow }

def localVar (frame : Frame) (index : UInt32) : Shadow := frame.locals.get index

def setLocal (frame : Frame) (index : UInt32) (shadow : Shadow) : Frame :=
  { frame with locals := frame.locals.set index shadow }

end Frame

end ShadowTrace
