import ShadowTrace.Text

/-! # Flags

A flag says whether a value depends on a symbolic input. Only the lowest bit carries that meaning;
the other seven are reserved: they are merged along with it but never decide anything, and storing a
flag drops them. -/

namespace ShadowTrace

structure Flag where
  bits : UInt8
deriving DecidableEq

namespace Flag

def concrete : Flag := ⟨0⟩

def symbolic : Flag := ⟨1⟩

def isSymbolic (flag : Flag) : Bool := flag.bits &&& 1 != 0

def isConcrete (flag : Flag) : Bool := !flag.isSymbolic

/-- The flag as it is stored: without its reserved bits. -/
def stored (flag : Flag) : Flag := ⟨flag.bits &&& 1⟩

def merge (left right : Flag) : Flag := ⟨left.bits ||| right.bits⟩

def text (flag : Flag) : String :=
  (if flag.isSymbolic then "Sym" else "Conc") ++ "(0b" ++ Text.binary 2 flag.bits.toNat ++ ")"

@[simp] theorem isSymbolic_concrete : concrete.isSymbolic = false := rfl

@[simp] theorem isSymbolic_symbolic : symbolic.isSymbolic = true := rfl

private theorem low_bit (bits : UInt8) : bits &&& 1 = 0 ∨ bits &&& 1 = 1 := by
  have all : ∀ word : BitVec 8, word &&& 1 = 0 ∨ word &&& 1 = 1 := by decide
  rcases all bits.toBitVec with zero | one
  · exact .inl (UInt8.toBitVec_inj.mp zero)
  · exact .inr (UInt8.toBitVec_inj.mp one)

private theorem low_bit_or (left right : UInt8) :
    (left ||| right) &&& 1 = (left &&& 1) ||| (right &&& 1) := by
  apply UInt8.toBitVec_inj.mp
  ext index bound
  simp [Bool.and_or_distrib_right]

theorem isSymbolic_merge (left right : Flag) :
    (left.merge right).isSymbolic = (left.isSymbolic || right.isSymbolic) := by
  simp only [isSymbolic, merge, low_bit_or]
  rcases low_bit left.bits with l | l <;> rcases low_bit right.bits with r | r <;> simp [l, r]

theorem isSymbolic_stored (flag : Flag) : flag.stored.isSymbolic = flag.isSymbolic := by
  simp only [isSymbolic, stored]
  rcases low_bit flag.bits with low | low <;> simp [low]

theorem stored_eq (flag : Flag) :
    flag.stored = if flag.isSymbolic then symbolic else concrete := by
  simp only [isSymbolic, stored, symbolic, concrete]
  rcases low_bit flag.bits with low | low <;> simp [low]

end Flag

end ShadowTrace
