import ShadowTrace.Proofs.Hooks

/-! # What is stored is what is found

The tables keep as little as they can: no entry for an object that is concrete throughout, no slot
beyond the last one needed, no static field that is concrete. None of this can be seen by looking
something up: a store changes what is found at its own key and nothing else. For elements this rests
on an invariant, since the dense row may grow over indices that could have been kept one by one. -/

namespace ShadowTrace

theorem Slots.size_set (slots : Slots) (index : UInt32) (shadow : Shadow) :
    (slots.set index shadow).size =
      if index.toNat < slots.size ∨ shadow.isConcrete = true then slots.size
        else index.toNat + 1 := by
  unfold Slots.set
  split
  next inside =>
    rw [if_pos (.inl inside)]
    simp [Slots.size]
  next outside =>
    cases concrete : shadow.isConcrete
    · simp only [Slots.size] at outside
      simp [Slots.size, Slots.extend, outside]
      omega
    · simp

namespace Elements

/-- Only elements from the limit on are kept one by one. -/
def Split (elements : Elements) (limit : UInt32) : Prop := ∀ index ∈ elements.sparse, limit ≤ index

theorem split_empty (limit : UInt32) : Split {} limit := by
  intro index member
  simp at member

theorem Split.set {elements : Elements} {limit : UInt32} (split : elements.Split limit)
    (index : UInt32) (shadow : Shadow) : (elements.set limit index shadow).Split limit := by
  unfold Elements.set
  split
  · exact split
  next sparse =>
    -- Only an index from the limit on gets past the dense part.
    have above : limit ≤ index := by
      simp only [isDense, Bool.or_eq_true, decide_eq_true_eq, not_or] at sparse
      exact UInt32.not_lt.mp sparse.2
    split
    · intro other member
      exact split other (Std.TreeMap.mem_of_mem_erase member)
    · intro other member
      rcases Std.TreeMap.mem_insert.mp member with same | old
      · rwa [← Std.LawfulEqCmp.compare_eq_iff_eq.mp same]
      · exact split other old

/-- What the dense part is responsible for, it has: an element below the limit that the row does not
reach is concrete. -/
theorem Split.get_dense {elements : Elements} {limit index : UInt32} (split : elements.Split limit)
    (dense : elements.isDense limit index = true) :
    elements.get index = elements.dense.get index := by
  unfold Elements.get
  split
  · rfl
  next outside =>
    have below : index < limit := by simpa [isDense, outside] using dense
    have absent : index ∉ elements.sparse :=
      fun member => UInt32.not_lt.mpr (split index member) below
    rw [Std.TreeMap.getD_eq_fallback absent, elements.dense.get_of_size_le (by omega)]

/-- Storing in the dense part leaves every index with the part that was responsible for it. -/
theorem isDense_set {elements : Elements} {limit index : UInt32}
    (dense : elements.isDense limit index = true) (shadow : Shadow) (other : UInt32) :
    (elements.set limit index shadow).isDense limit other = elements.isDense limit other := by
  have size := elements.dense.size_set index shadow
  rw [Elements.set, if_pos dense]
  simp only [isDense]
  split at size
  · rw [size]
  next grows =>
    -- The row grows, but not beyond the limit.
    simp only [isDense, Bool.or_eq_true, decide_eq_true_eq, UInt32.lt_iff_toNat_lt] at dense
    rw [Bool.eq_iff_iff]
    simp only [size, Bool.or_eq_true, decide_eq_true_eq, UInt32.lt_iff_toNat_lt]
    omega

theorem Split.get_set {elements : Elements} {limit : UInt32} (split : elements.Split limit)
    (index : UInt32) (shadow : Shadow) (other : UInt32) :
    (elements.set limit index shadow).get other = if other = index then shadow
      else elements.get other := by
  cases dense : elements.isDense limit index with
  | true =>
    have stored : elements.set limit index shadow =
        { elements with dense := elements.dense.set index shadow } := by
      simp [Elements.set, dense]
    -- The other index may be looked up in either part, and stays with it.
    cases own : elements.isDense limit other with
    | true =>
      have still := (isDense_set dense shadow other).trans own
      rw [(split.set index shadow).get_dense still, split.get_dense own, stored, Slots.get_set]
    | false =>
      have different : other ≠ index := by
        rintro rfl
        rw [dense] at own
        cases own
      have beyond := (isDense_set dense shadow other).trans own
      simp only [stored, isDense, Bool.or_eq_false_iff, decide_eq_false_iff_not] at beyond own
      simp [stored, Elements.get, beyond.1, own.1, different]
  | false =>
    have outside : ¬ index.toNat < elements.dense.size := by
      simp only [isDense, Bool.or_eq_false_iff, decide_eq_false_iff_not] at dense
      exact dense.1
    -- Here the map changes: a concrete shadow is removed from it, any other is inserted.
    by_cases same : other = index
    · subst same
      cases concrete : shadow.isConcrete with
      | true => simp [Elements.set, dense, Elements.get, outside, shadow.isConcrete_iff.mp concrete]
      | false => simp [Elements.set, dense, concrete, Elements.get, outside]
    · cases concrete : shadow.isConcrete <;>
        simp [Elements.set, dense, concrete, Elements.get, same, Ne.symm same,
          Std.TreeMap.getD_erase, Std.TreeMap.getD_insert]

end Elements

namespace Object

theorem get_set {object : Object} {limit : UInt32} (split : object.elements.Split limit) (key : Key)
    (shadow : Shadow) (other : Key) :
    (object.set limit key shadow).get other = if other = key then shadow else object.get other := by
  cases key with
  | element index => cases other <;> simp [set, get, split.get_set]
  | field id =>
    cases concrete : shadow.isConcrete with
    | true =>
      obtain rfl := shadow.isConcrete_iff.mp concrete
      cases other with
      | element index => simp [set, get, Shadow.isConcrete]
      | field other =>
        by_cases same : other = id
        · simp [set, get, Shadow.isConcrete, same]
        · simp [set, get, Shadow.isConcrete, Std.TreeMap.getD_erase, same, Ne.symm same]
    | false =>
      cases other with
      | element index => simp [set, get, concrete]
      | field other =>
        by_cases same : other = id
        · simp [set, get, concrete, same]
        · simp [set, get, concrete, Std.TreeMap.getD_insert, same, Ne.symm same]

@[simp] theorem flag_set (object : Object) (limit : UInt32) (key : Key) (shadow : Shadow) :
    (object.set limit key shadow).flag = object.flag := by
  cases key with
  | field id => simp only [set]; split <;> rfl
  | element index => rfl

theorem split_set {object : Object} {limit : UInt32} (split : object.elements.Split limit)
    (key : Key) (shadow : Shadow) : (object.set limit key shadow).elements.Split limit := by
  cases key with
  | field id => simp only [set]; split <;> exact split
  | element index => exact split.set index shadow

@[simp] theorem get_empty (key : Key) : Object.get {} key = .concrete := by
  cases key <;> simp [get, Elements.get, Slots.size]

end Object

namespace Heap

/-- The elements of every object are divided at the limit. -/
def Valid (heap : Heap) : Prop :=
  ∀ id object, heap.object? id = some object → object.elements.Split heap.denseLimit

theorem denseLimit_update (heap : Heap) (id : ObjectId) (needed : Bool) (change : Object → Object) :
    (heap.update id needed change).denseLimit = heap.denseLimit := by
  unfold update
  split
  · rfl
  · split <;> rfl

theorem Valid.update {heap : Heap} (valid : heap.Valid) (id : ObjectId) (needed : Bool)
    {change : Object → Object}
    (kept : ∀ object : Object, object.elements.Split heap.denseLimit →
      (change object).elements.Split heap.denseLimit) :
    (heap.update id needed change).Valid := by
  intro other object found
  rw [denseLimit_update]
  rw [object?_update] at found
  split at found
  · cases entry : heap.object? id with
    | some old =>
      simp only [entry, Option.elim_some, Function.comp_apply, Option.some.injEq] at found
      subst found
      exact kept old (valid id old entry)
    | none =>
      simp only [entry, Option.elim_none] at found
      split at found
      · obtain rfl := Option.some.inj found
        exact kept {} (Elements.split_empty _)
      · cases found
  · exact valid other object found

theorem Valid.put {heap : Heap} (valid : heap.Valid) (id : ObjectId) (key : Key) (shadow : Shadow) :
    (heap.put id key shadow).Valid :=
  valid.update id _ fun _ split => Object.split_set split key shadow

theorem Valid.setFlag {heap : Heap} (valid : heap.Valid) (id : ObjectId) (flag : Flag) :
    (heap.setFlag id flag).Valid :=
  valid.update id _ fun _ split => split

theorem valid_empty (skip : Bool) (limit : UInt32) :
    Heap.Valid { skipConcrete := skip, denseLimit := limit } := by
  intro id object found
  simp [object?] at found

/-- The entry of the object, or what an absent entry stands for. -/
def object (heap : Heap) (id : ObjectId) : Object := (heap.object? id).getD {}

theorem shadow_eq (heap : Heap) (id : ObjectId) (key : Key) :
    heap.shadow id key = (heap.object id).get key := by
  cases found : heap.object? id <;> simp [shadow, object, found]

theorem flag_eq (heap : Heap) (id : ObjectId) : heap.flag id = (heap.object id).flag := by
  cases found : heap.object? id <;> simp [flag, object, found]

/-- Where an entry is not needed, what an absent entry stands for must not change. -/
theorem object_update (heap : Heap) (id : ObjectId) (needed : Bool) (change : Object → Object)
    (other : ObjectId) :
    (heap.update id needed change).object other =
      if other = id then if (heap.object? id).isNone && !needed then {} else change (heap.object id)
      else heap.object other := by
  unfold object
  rw [object?_update]
  by_cases same : other = id
  · simp only [same, if_true]
    cases found : heap.object? id <;> cases needed <;> simp
  · simp [same]

theorem Valid.object {heap : Heap} (valid : heap.Valid) (id : ObjectId) :
    (heap.object id).elements.Split heap.denseLimit := by
  unfold Heap.object
  cases found : heap.object? id with
  | none => exact Elements.split_empty _
  | some object => exact valid id object found

theorem Valid.shadow_put {heap : Heap} (valid : heap.Valid) (id : ObjectId) (key : Key)
    (shadow : Shadow) (other : ObjectId) (place : Key) :
    (heap.put id key shadow).shadow other place =
      if other = id ∧ place = key then shadow else heap.shadow other place := by
  rw [shadow_eq, shadow_eq, Heap.put, object_update]
  by_cases same : other = id
  · subst same
    simp only [if_true, true_and]
    split
    next skipped =>
      -- A concrete shadow is not stored, and is what there was.
      simp only [Bool.not_not, Bool.and_eq_true, Shadow.isConcrete_iff, Option.isNone_iff_eq_none]
        at skipped
      obtain ⟨absent, rfl, -⟩ := skipped
      simp [Heap.object, absent]
    next => rw [Object.get_set (valid.object other)]
  · simp [same]

/-- What a change leaves alone in every object, an update leaves alone. -/
theorem object_update_same {β : Type} (heap : Heap) (id : ObjectId) (needed : Bool)
    {change : Object → Object} (part : Object → β)
    (kept : ∀ object, part (change object) = part object) (other : ObjectId) :
    part ((heap.update id needed change).object other) = part (heap.object other) := by
  rw [object_update]
  by_cases same : other = id
  · subst same
    simp only [if_true]
    split
    next skipped =>
      -- No entry is made, and there was none.
      have absent : heap.object? other = none := by simp_all
      simp [Heap.object, absent]
    next => exact kept (heap.object other)
  · simp [same]

@[simp] theorem flag_put (heap : Heap) (id : ObjectId) (key : Key) (shadow : Shadow)
    (other : ObjectId) :
    (heap.put id key shadow).flag other = heap.flag other := by
  rw [flag_eq, flag_eq]
  exact heap.object_update_same id _ (·.flag)
    (fun object => object.flag_set heap.denseLimit key shadow) other

@[simp] theorem shadow_setFlag (heap : Heap) (id : ObjectId) (flag : Flag) (other : ObjectId)
    (key : Key) :
    (heap.setFlag id flag).shadow other key = heap.shadow other key := by
  have kept (object : Object) : { object with flag := flag }.get key = object.get key := by
    cases key <;> rfl
  rw [shadow_eq, shadow_eq]
  exact heap.object_update_same id _ (·.get key) kept other

/-- A flag without reserved bits is found again. With them it is lost where it is concrete and
makes no entry. -/
theorem flag_setFlag (heap : Heap) (id : ObjectId) {flag : Flag} (stored : flag.stored = flag)
    (other : ObjectId) :
    (heap.setFlag id flag).flag other = if other = id then flag else heap.flag other := by
  rw [flag_eq, flag_eq, setFlag, object_update]
  by_cases same : other = id
  · simp only [same, if_true]
    split
    next skipped =>
      -- What makes no entry is concrete, and without reserved bits there is only one such flag.
      have concrete : flag.isSymbolic = false := by simp_all [Flag.isConcrete]
      rw [← stored, flag.stored_eq, concrete]
      rfl
    next => rfl
  · simp [same]

end Heap

namespace Statics

/-- No field of the table is concrete. -/
def Canonical (statics : Statics) : Prop :=
  ∀ field : FieldId, statics.fields[field]? ≠ some .concrete

theorem canonical_empty : Canonical {} := by
  intro field
  simp

theorem Canonical.put {statics : Statics} (canonical : statics.Canonical) (field : FieldId)
    (shadow : Shadow) :
    (statics.put field shadow).Canonical := by
  intro other
  unfold Statics.put
  split
  · rw [Std.TreeMap.getElem?_erase]
    split
    · simp
    · exact canonical other
  next other =>
    rw [Std.TreeMap.getElem?_insert]
    split
    · intro concrete
      rw [Option.some.inj concrete] at other
      exact other rfl
    · exact canonical _

/-- The fields that are found determine the table. -/
theorem Canonical.equiv {left right : Statics} (leftCanonical : left.Canonical)
    (rightCanonical : right.Canonical) (same : left.get = right.get) :
    left.fields.Equiv right.fields := by
  apply Std.TreeMap.Equiv.of_forall_constGet?_eq
  intro field
  have found := congrFun same field
  simp only [get, Std.TreeMap.getD_eq_getD_getElem?] at found
  -- A field that is absent reads as concrete, and no entry is concrete: so both have it or neither.
  have leftField := leftCanonical field
  have rightField := rightCanonical field
  cases l : left.fields[field]? <;> cases r : right.fields[field]? <;> simp_all

end Statics

namespace Tables

structure Valid (tables : Tables) : Prop where
  heap : tables.heap.Valid
  statics : tables.statics.Canonical

variable {tables : Tables}

theorem Valid.setFlag (valid : tables.Valid) (id : ObjectId) (flag : Flag) :
    Valid { tables with heap := tables.heap.setFlag id flag } :=
  ⟨valid.heap.setFlag id flag, valid.statics⟩

theorem Valid.place (valid : tables.Valid) (location : Location) (shadow : Shadow) :
    (tables.place location shadow).Valid := by
  cases location with
  | static field => exact ⟨valid.heap, valid.statics.put field shadow⟩
  | object id key => exact ⟨valid.heap.put id key shadow, valid.statics⟩
  | _ => exact valid

theorem Valid.mark (valid : tables.Valid) (location : Location) (shadow : Shadow) :
    (tables.mark location shadow).Valid := by
  cases shadow with
  | reference id => exact valid.setFlag id .symbolic
  | _ => exact valid.place location .symbolic

theorem Valid.written (valid : tables.Valid) (flag : Flag) (value : Written) :
    (value.mark tables flag).Valid := by
  rcases value with _ | _ | id
  · exact valid
  · exact valid
  · exact valid.setFlag id flag.stored

theorem valid_clear (tables : Tables) : tables.clear.Valid :=
  ⟨Heap.valid_empty tables.heap.skipConcrete tables.heap.denseLimit, Statics.canonical_empty⟩

end Tables

/-- No hook breaks the tables. -/
theorem Engine.valid_step (engine : Engine) {tables : Tables} (valid : tables.Valid) (hook : Hook) :
    (engine.step tables hook).tables.Valid := by
  by_cases failed : Needs hook ∧ engine.depth = 0
  · rw [engine.step_idle tables failed.1 failed.2]
    exact valid
  · have active (needs : Needs hook) : engine.depth ≠ 0 := fun idle => failed ⟨needs, idle⟩
    cases hook with
    | enter | enterWith | reset => exact valid
    | exit =>
      rcases frames : engine.stack.frames with _ | ⟨frame, _ | ⟨caller, rest⟩⟩
      · rwa [exit_idle _ _ (by simp [depth, CallStack.depth, frames])]
      · rwa [exit_last _ _ frames]
      · rwa [exit_inner _ _ frames]
    | read operand location => rwa [read_active _ _ _ _ (active trivial)]
    | write id location value =>
      rw [write_active _ _ _ _ _ (active trivial)]
      exact (valid.written _ value).place location _
    | assign location shadow =>
      rw [assign_active _ _ _ _ (active trivial)]
      exact valid.place location shadow
    | markSymbolic location =>
      rw [markSymbolic_active _ _ _ (active trivial)]
      exact valid.mark location _
    | resolve location => rwa [resolve_active _ _ _ (active trivial)]
    | close id =>
      by_cases pending : engine.window.pending? = some id
      · rwa [close_pending _ _ pending]
      · obtain ⟨desync, failed⟩ := engine.close_other tables pending
        rwa [failed]

end ShadowTrace
