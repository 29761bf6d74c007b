import Mathlib.Data.List.Induction
import ShadowTrace.Proofs.Storage

/-! # The two parts of the elements

Which elements lie in the dense row and which are kept one by one depends on the order of the stores
only through what they leave: the row reaches up to the highest index below the limit that was ever
given something other than a concrete shadow, and the map has the indices from the limit on that
hold such a shadow now. The row never grows over an index of the map, so looking an element up in
the row first finds what was last stored there. -/

namespace ShadowTrace

/-! ## Slots that have to be there -/

namespace Slots

/-- Puts a shadow into a slot, which has to be there. -/
def put? (slots : Slots) (place : Nat) (shadow : Shadow) : Option Slots :=
  if inside : place < slots.cells.size then some ⟨slots.cells.set place shadow inside⟩ else none

/-- The row with concrete slots at its end, up to the given size. -/
def lengthen (slots : Slots) (size : Nat) : Slots :=
  ⟨slots.cells ++ Array.replicate (size - slots.size) .concrete⟩

/-- Stores a shadow, with the slot checked wherever one is put into. -/
def set? (slots : Slots) (index : UInt32) (shadow : Shadow) : Option Slots :=
  if index.toNat < slots.size then slots.put? index.toNat shadow
  else if shadow.isConcrete then some slots
  else (slots.lengthen (index.toNat + 1)).put? index.toNat shadow

theorem put?_lengthen (slots : Slots) {index : UInt32} (shadow : Shadow)
    (beyond : slots.size ≤ index.toNat) :
    (slots.lengthen (index.toNat + 1)).put? index.toNat shadow =
      some (slots.extend index shadow) := by
  let front := slots.cells ++ Array.replicate (index.toNat - slots.size) Shadow.concrete
  have reaches : front.size = index.toNat := by
    simp only [front, size, Array.size_append, Array.size_replicate] at beyond ⊢
    omega
  -- The new row has one concrete slot behind those, and that is where the shadow goes.
  have longer : slots.lengthen (index.toNat + 1) = ⟨front.push .concrete⟩ := by
    simp [lengthen, front, Nat.succ_sub beyond, Array.replicate_succ]
  have inside : index.toNat < (front.push Shadow.concrete).size := by simp [reaches]
  rw [longer, put?, dif_pos inside, Array.set_push, dif_neg (by omega)]
  rfl

/-- No slot is missing where one is put into. -/
theorem set?_eq (slots : Slots) (index : UInt32) (shadow : Shadow) :
    slots.set? index shadow = some (slots.set index shadow) := by
  unfold set? Slots.set
  split
  next inside =>
    simp only [size] at inside
    simp [put?, inside, Array.setIfInBounds]
  next outside =>
    split
    · rfl
    · exact slots.put?_lengthen shadow (by omega)

end Slots

namespace Elements

/-- Stores an element, with the slot checked wherever one is put into. -/
def set? (elements : Elements) (limit index : UInt32) (shadow : Shadow) : Option Elements :=
  if elements.isDense limit index then
    (elements.dense.set? index shadow).map fun dense => { elements with dense }
  else if shadow.isConcrete then some { elements with sparse := elements.sparse.erase index }
  else some { elements with sparse := elements.sparse.insert index shadow }

theorem set?_eq (elements : Elements) (limit index : UInt32) (shadow : Shadow) :
    elements.set? limit index shadow = some (elements.set limit index shadow) := by
  unfold set? Elements.set
  split
  · rw [Slots.set?_eq, Option.map_some]
  · split <;> rfl

/-! ## Stores -/

/-- The elements after the stores, from none. -/
def ofStores (limit : UInt32) (stores : List (UInt32 × Shadow)) : Elements :=
  stores.foldl (fun elements store => elements.set limit store.1 store.2) {}

/-- The same, unless a slot is missing on the way. -/
def ofStores? (limit : UInt32) (stores : List (UInt32 × Shadow)) : Option Elements :=
  stores.foldlM (fun elements store => elements.set? limit store.1 store.2) {}

/-- What was last stored at the index, concrete if nothing was. -/
def latest (stores : List (UInt32 × Shadow)) (index : UInt32) : Shadow :=
  (stores.reverse.lookup index).getD .concrete

/-- The places below the limit that were ever given a shadow which is not concrete. -/
def raised (limit : UInt32) (stores : List (UInt32 × Shadow)) : List Nat :=
  (stores.filter fun store => store.1 < limit && !store.2.isConcrete).map (·.1.toNat)

theorem ofStores_concat (limit : UInt32) (stores : List (UInt32 × Shadow)) (index : UInt32)
    (shadow : Shadow) :
    ofStores limit (stores ++ [(index, shadow)]) =
      (ofStores limit stores).set limit index shadow := by
  simp [ofStores]

theorem ofStores?_eq (limit : UInt32) (stores : List (UInt32 × Shadow)) :
    ofStores? limit stores = some (ofStores limit stores) := by
  have checked :
    (fun (elements : Elements) (store : UInt32 × Shadow) => elements.set? limit store.1 store.2) =
      fun elements store => some (elements.set limit store.1 store.2) := by
    funext elements store
    exact elements.set?_eq limit store.1 store.2
  rw [ofStores?, ofStores, checked]
  exact List.foldlM_pure

theorem latest_concat (stores : List (UInt32 × Shadow)) (index : UInt32) (shadow : Shadow)
    (other : UInt32) :
    latest (stores ++ [(index, shadow)]) other = if other = index then shadow
      else latest stores other := by
  by_cases same : other = index
  · simp [latest, same]
  · simp [latest, same, List.lookup_cons, beq_false_of_ne same]

theorem mem_raised_concat (limit : UInt32) (stores : List (UInt32 × Shadow)) (index : UInt32)
    (shadow : Shadow) (place : Nat) :
    place ∈ raised limit (stores ++ [(index, shadow)]) ↔
      place ∈ raised limit stores ∨ place = index.toNat ∧ index < limit ∧
      shadow.isConcrete = false := by
  by_cases raises : index < limit ∧ shadow.isConcrete = false
  · simp [raised, raises]
  · have dropped : (index < limit && !shadow.isConcrete) = false := by simpa using raises
    simp [raised, dropped, raises]

theorem lt_of_mem_raised {limit : UInt32} {stores : List (UInt32 × Shadow)} {place : Nat}
    (member : place ∈ raised limit stores) : place < limit.toNat := by
  simp only [raised, List.mem_map, List.mem_filter, Bool.and_eq_true, decide_eq_true_eq] at member
  obtain ⟨store, ⟨-, below, -⟩, rfl⟩ := member
  exact UInt32.lt_iff_toNat_lt.mp below

/-! ## One store -/

/-- The parts are what the stores say: the row reaches as far as a place was raised, and the map has
from the limit on what is not concrete now. -/
structure Tracks (elements : Elements) (limit : UInt32) (stores : List (UInt32 × Shadow)) :
    Prop where
  reaches : ∀ place, place < elements.dense.size ↔ ∃ top ∈ raised limit stores, place ≤ top
  kept : ∀ index, elements.sparse[index]? =
    if limit ≤ index ∧ latest stores index ≠ .concrete then some (latest stores index) else none
  found : ∀ index, elements.get index = latest stores index

theorem tracks_empty (limit : UInt32) : Tracks {} limit [] := by
  refine ⟨?_, ?_, ?_⟩ <;> simp [Slots.size, raised, latest, Elements.get]

namespace Tracks

variable {elements : Elements} {limit : UInt32} {stores : List (UInt32 × Shadow)}

theorem size_le (tracks : elements.Tracks limit stores) : elements.dense.size ≤ limit.toNat := by
  apply Nat.le_of_not_lt
  intro beyond
  obtain ⟨top, member, above⟩ := (tracks.reaches limit.toNat).mp beyond
  have below := lt_of_mem_raised member
  omega

theorem split (tracks : elements.Tracks limit stores) : elements.Split limit := by
  intro index member
  rw [Std.TreeMap.mem_iff_isSome_getElem?, tracks.kept] at member
  split at member
  next here => exact here.1
  · cases member

/-- The row never reaches the limit, so it is the limit alone that divides the indices. -/
theorem isDense_iff (tracks : elements.Tracks limit stores) (index : UInt32) :
    elements.isDense limit index = true ↔ index < limit := by
  have size := tracks.size_le
  simp only [isDense, Bool.or_eq_true, decide_eq_true_eq, UInt32.lt_iff_toNat_lt]
  omega

/-- The row grows for an index below the limit alone, and only if the shadow is not concrete. -/
theorem reaches_set (tracks : elements.Tracks limit stores) (index : UInt32) (shadow : Shadow)
    (place : Nat) :
    place < (elements.set limit index shadow).dense.size ↔
      place < elements.dense.size ∨ place ≤ index.toNat ∧ index < limit ∧
      shadow.isConcrete = false := by
  have dense := tracks.isDense_iff index
  unfold Elements.set
  split
  next below =>
    have below := dense.mp below
    simp only [elements.dense.size_set index shadow, below, true_and]
    cases shadow.isConcrete <;> grind
  next above =>
    have above : ¬ index < limit := fun below => above (dense.mpr below)
    split <;> simp [above]

/-- The map changes for an index from the limit on alone. -/
theorem kept_set (tracks : elements.Tracks limit stores) (index : UInt32) (shadow : Shadow)
    (other : UInt32) :
    (elements.set limit index shadow).sparse[other]? =
      if limit ≤ index ∧ other = index then if shadow.isConcrete then none else some shadow
      else elements.sparse[other]? := by
  have dense := tracks.isDense_iff index
  unfold Elements.set
  split
  next below =>
    have below : ¬ limit ≤ index := UInt32.not_le.mpr (dense.mp below)
    simp [below]
  next above =>
    have above : limit ≤ index := UInt32.not_lt.mp fun below => above (dense.mpr below)
    by_cases same : other = index
    · cases concrete : shadow.isConcrete <;> simp [same, above]
    · cases concrete : shadow.isConcrete <;>
        simp [same, Ne.symm same, Std.TreeMap.getElem?_erase, Std.TreeMap.getElem?_insert]

theorem set (tracks : elements.Tracks limit stores) (index : UInt32) (shadow : Shadow) :
    (elements.set limit index shadow).Tracks limit (stores ++ [(index, shadow)]) := by
  refine ⟨?_, ?_, ?_⟩
  · intro place
    rw [tracks.reaches_set, tracks.reaches]
    simp only [mem_raised_concat, or_and_right, exists_or, and_assoc, exists_eq_left]
    simp only [and_comm, and_left_comm]
  · intro other
    rw [tracks.kept_set, tracks.kept, latest_concat]
    by_cases same : other = index
    · by_cases above : limit ≤ index
      · cases shadow <;> simp [same, above, Shadow.isConcrete]
      · simp [same, above]
    · simp [same]
  · intro other
    rw [tracks.split.get_set, latest_concat, tracks.found]

end Tracks

/-! ## Any number of stores -/

theorem tracks_ofStores (limit : UInt32) (stores : List (UInt32 × Shadow)) :
    (ofStores limit stores).Tracks limit stores := by
  -- From the end: the last store is made to what the others have left.
  induction stores using List.reverseRecOn with
  | nil => exact tracks_empty limit
  | append_singleton stores store ih =>
    obtain ⟨index, shadow⟩ := store
    rw [ofStores_concat]
    exact ih.set index shadow

/-- The size of the row is one more than the highest place that was raised. -/
theorem Tracks.size_eq {elements : Elements} {limit : UInt32} {stores : List (UInt32 × Shadow)}
    (tracks : elements.Tracks limit stores) :
    elements.dense.size = (raised limit stores).max?.elim 0 (· + 1) := by
  cases highest : (raised limit stores).max? with
  | none =>
    have none := List.max?_eq_none_iff.mp highest
    have empty := tracks.reaches 0
    simp only [none, List.not_mem_nil, false_and, exists_false, iff_false] at empty
    simp only [Option.elim_none]
    omega
  | some top =>
    obtain ⟨member, greatest⟩ := List.max?_eq_some_iff.mp highest
    have inside := (tracks.reaches top).mpr ⟨top, member, Nat.le_refl top⟩
    have outside : ¬ top + 1 < elements.dense.size := by
      intro further
      obtain ⟨higher, raised, above⟩ := (tracks.reaches (top + 1)).mp further
      have bound := greatest higher raised
      omega
    simp only [Option.elim_some]
    omega

/-- The parts of the elements, after any stores at any limit. The row has one slot more than the
highest index below the limit that was ever given a shadow other than concrete, none if there is no
such index, and never more than the limit. The map has indices from the limit on only, so none that
the row has; it holds no concrete shadow, and has exactly those of these indices where the shadow is
not concrete now. No slot is missing where one is put into, and every index is found with what was
last stored there, or concrete. -/
theorem parts_of_stores (limit : UInt32) (stores : List (UInt32 × Shadow)) :
    let elements := ofStores limit stores
    elements.dense.size = (raised limit stores).max?.elim 0 (· + 1) ∧
    elements.dense.size ≤ limit.toNat ∧
    (∀ index ∈ elements.sparse, limit ≤ index ∧ elements.dense.size ≤ index.toNat) ∧
    (∀ index : UInt32, elements.sparse[index]? ≠ some .concrete) ∧
    (∀ index, index ∈ elements.sparse ↔ limit ≤ index ∧ latest stores index ≠ .concrete) ∧
    ofStores? limit stores = some elements ∧
    ∀ index, elements.get index = latest stores index := by
  have tracks := tracks_ofStores limit stores
  refine ⟨tracks.size_eq, tracks.size_le, ?_, ?_, ?_, ofStores?_eq limit stores, tracks.found⟩
  · intro index member
    have above := tracks.split index member
    exact ⟨above, Nat.le_trans tracks.size_le (UInt32.le_iff_toNat_le.mp above)⟩
  · intro index
    rw [tracks.kept]
    split
    next here => simpa using here.2
    · simp
  · intro index
    rw [Std.TreeMap.mem_iff_isSome_getElem?, tracks.kept]
    split
    next here => simpa using here
    next missing => simpa using missing

/-- A store below the limit, one above it that is taken back, and one that stays. -/
theorem parts_of_stores_around_limit :
    let elements :=
  ofStores 2 [(0, .symbolic), (5, .reference 3), (1, .concrete), (5, .concrete), (7, .symbolic)]
    elements.dense.size = 1 ∧ 7 ∈ elements.sparse ∧ elements.dense.size ≤ (7 : UInt32).toNat ∧
      5 ∉ elements.sparse ∧
      elements.get 0 = .symbolic := by
  obtain ⟨size, -, apart, -, kept, -, found⟩ :=
    parts_of_stores 2 [(0, .symbolic), (5, .reference 3), (1, .concrete), (5, .concrete),
      (7, .symbolic)]
  have member := (kept 7).mpr (by decide)
  refine ⟨size, member, (apart 7 member).2, ?_, found 0⟩
  intro there
  exact ((kept 5).mp there).2 rfl

end Elements

end ShadowTrace
