import ShadowTrace.Shadow

/-! # Slots

A row of shadows that grows on demand. A slot that was never written is concrete, so writing a
concrete shadow beyond the end changes nothing and the row stays as short as its last other
shadow allows. -/

namespace ShadowTrace

structure Slots where
  cells : Array Shadow := #[]
deriving DecidableEq

namespace Slots

def size (slots : Slots) : Nat := slots.cells.size

def get (slots : Slots) (index : UInt32) : Shadow :=
  slots.cells.getD index.toNat .concrete

/-- The row lengthened by concrete slots and then the given one. -/
def extend (slots : Slots) (index : UInt32) (shadow : Shadow) : Slots :=
  ⟨(slots.cells ++ Array.replicate (index.toNat - slots.size) Shadow.concrete).push shadow⟩

def set (slots : Slots) (index : UInt32) (shadow : Shadow) : Slots :=
  if index.toNat < slots.size then ⟨slots.cells.setIfInBounds index.toNat shadow⟩
  else if shadow.isConcrete then slots
  else slots.extend index shadow

@[simp] theorem get_empty (index : UInt32) : Slots.get {} index = .concrete := by
  simp [get]

theorem get_of_size_le (slots : Slots) {index : UInt32} (beyond : slots.size ≤ index.toNat) :
    slots.get index = .concrete := by
  simp only [size] at beyond
  simp [get, Array.getD_eq_getD_getElem?, beyond]

theorem get_extend (slots : Slots) {index : UInt32} (shadow : Shadow)
    (beyond : slots.size ≤ index.toNat) (other : UInt32) :
    (slots.extend index shadow).get other = if other = index then shadow else slots.get other := by
  have length : slots.cells.size + (index.toNat - slots.size) = index.toNat := by
    simp only [size] at *; omega
  simp only [get, extend, Array.getD_eq_getD_getElem?, Array.getElem?_push, Array.size_append,
    Array.size_replicate, length]
  by_cases same : other = index
  · simp [same]
  · have different : other.toNat ≠ index.toNat := fun equal => same (UInt32.toNat_inj.mp equal)
    simp only [different, same, if_false, Array.getElem?_append]
    split
    · rfl
    · next outside =>
      have missing : slots.cells[other.toNat]? = none := by simp; omega
      rw [missing, Array.getElem?_replicate]
      split <;> rfl

theorem get_set (slots : Slots) (index : UInt32) (shadow : Shadow) (other : UInt32) :
    (slots.set index shadow).get other = if other = index then shadow else slots.get other := by
  unfold set
  split
  · next inside =>
    by_cases same : other = index
    · subst same
      simp only [size] at inside
      simp [get, Array.getD_eq_getD_getElem?, inside]
    · have different : index.toNat ≠ other.toNat :=
        fun equal => same (UInt32.toNat_inj.mp equal.symm)
      simp [get, Array.getD_eq_getD_getElem?, Array.getElem?_setIfInBounds_ne different, same]
  · next outside =>
    have beyond : slots.size ≤ index.toNat := by omega
    split
    · next concrete =>
      rw [Shadow.isConcrete_iff] at concrete
      by_cases same : other = index
      · simp [same, concrete, slots.get_of_size_le beyond]
      · simp [same]
    · exact slots.get_extend shadow beyond other

end Slots

end ShadowTrace
