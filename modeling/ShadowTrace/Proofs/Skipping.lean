import ShadowTrace.Proofs.Reserved

/-! # What skipping concrete entries loses

A heap that makes no entry for what is concrete holds the same shadows as one that makes an entry
for everything: what is absent is concrete. With flags this is not quite so. A flag counts as
concrete if its lowest bit is not set, whatever its reserved bits are. The one heap keeps these bits
in the entry that it makes; the other has no entry for them and loses them. This is all that can be
told apart, and no symbolic bit is ever among it. -/

namespace ShadowTrace

/-- What the calls make of an empty heap. -/
def Heap.after (skipConcrete : Bool) (limit : UInt32) (calls : List TableCall) : Heap :=
  (Tables.apply { heap := { skipConcrete, denseLimit := limit } } calls).heap

/-- The flag that the calls have set last for the object has reserved bits only, and when it was set
there was no entry for the object that was not concrete. -/
def TableCall.Loses (calls : List TableCall) (id : ObjectId) (flag : Flag) : Prop :=
  ∃ earlier later, calls = earlier ++ setFlag id flag :: later ∧ flag.isSymbolic = false ∧
    flag ≠ .concrete ∧
    (∀ call ∈ later, call.setsFlag id = false) ∧ ¬ Filled true earlier id

/-! ## Shadows -/

namespace Tables

variable {tables other : Tables}

/-- Which shadows a heap holds after a call depends on those that it held, and on nothing else. -/
theorem Valid.shadow_call (valid : tables.Valid) (valid' : other.Valid)
    (same : tables.heap.shadow = other.heap.shadow) (call : TableCall) :
    (tables.call call).2.heap.shadow = (other.call call).2.heap.shadow := by
  cases call with
  | put id key content =>
    funext object place
    simp only [Tables.call, valid.heap.shadow_put, valid'.heap.shadow_put, same]
  | setFlag id flag =>
    funext object place
    simp only [Tables.call, Heap.shadow_setFlag, same]
  | clear =>
    funext object place
    simp [Tables.call, Heap.clear, Heap.shadow, Heap.object?]
  | shadow | get | flag | resolve | contains | isEmpty | static | putStatic | staticsEmpty
    | clearStatics => exact same

theorem Valid.shadow_apply (valid : tables.Valid) (valid' : other.Valid)
    (same : tables.heap.shadow = other.heap.shadow) (calls : List TableCall) :
    (tables.apply calls).heap.shadow = (other.apply calls).heap.shadow := by
  induction calls generalizing tables other with
  | nil => exact same
  | cons call calls ih =>
    exact ih (valid.call call) (valid'.call call) (valid.shadow_call valid' same call)

theorem skipConcrete_apply (tables : Tables) (calls : List TableCall) :
    (tables.apply calls).heap.skipConcrete = tables.heap.skipConcrete := by
  induction calls generalizing tables with
  | nil => rfl
  | cons call calls ih => rw [apply_cons, ih, skipConcrete_call]

end Tables

/-! ## Flags -/

/-- The last of the calls that sets the flag of the object, if there is one. -/
theorem TableCall.last_setsFlag (calls : List TableCall) (id : ObjectId) :
    (∀ call ∈ calls, call.setsFlag id = false) ∨
      ∃ earlier call later, calls = earlier ++ call :: later ∧ call.setsFlag id = true ∧
        ∀ other ∈ later, other.setsFlag id = false := by
  induction calls with
  | nil => exact .inl (by simp)
  | cons call calls ih =>
    rcases ih with none | ⟨earlier, last, later, rfl, sets, none⟩
    · -- Nothing later sets it, so this call is the last if it does.
      cases sets : call.setsFlag id with
      | true => exact .inr ⟨[], call, calls, rfl, sets, none⟩
      | false => exact .inl (by simpa [sets] using none)
    · exact .inr ⟨call :: earlier, last, later, rfl, sets, none⟩

namespace Heap

variable (skipConcrete : Bool) (limit : UInt32) {calls : List TableCall} {id : ObjectId}

/-- A flag is found again, unless it is concrete and makes no entry. -/
theorem flag_setFlag_eq (heap : Heap) (id : ObjectId) (flag : Flag) :
    (heap.setFlag id flag).flag id =
      if flag.isSymbolic = false ∧ heap.skipConcrete = true ∧ heap.contains id = false then
        .concrete else flag := by
  rw [flag_eq, setFlag, object_update, if_pos rfl, contains_eq]
  cases entry : heap.object? id <;> cases skips : heap.skipConcrete <;>
    cases symbolic : flag.isSymbolic <;>
    simp [Flag.isConcrete, symbolic]

theorem contains_after_iff (calls : List TableCall) (id : ObjectId) :
    (after skipConcrete limit calls).contains id = true ↔
      TableCall.Filled skipConcrete calls id := by
  rw [after, Tables.contains_apply_iff]
  simp [contains]

/-- The flag of an object is the one set last, or concrete if that has made no entry. -/
theorem flag_after {earlier later : List TableCall} {flag : Flag}
    (last : ∀ call ∈ later, call.setsFlag id = false) :
    (after skipConcrete limit (earlier ++ .setFlag id flag :: later)).flag id =
      if flag.isSymbolic = false ∧ skipConcrete = true ∧
      (after skipConcrete limit earlier).contains id = false then .concrete
      else flag := by
  have skips := Tables.skipConcrete_apply { heap := { skipConcrete, denseLimit := limit } } earlier
  rw [after, Tables.apply_append, Tables.apply_cons, Tables.flag_apply_kept _ last, Tables.call,
    flag_setFlag_eq, skips]
  rfl

theorem flag_after_unset (unset : ∀ call ∈ calls, call.setsFlag id = false) :
    (after skipConcrete limit calls).flag id = .concrete := by
  rw [after, Tables.flag_apply_kept _ unset]
  simp [flag, object?]

theorem flag_after_clear {earlier later : List TableCall}
    (unset : ∀ call ∈ later, call.setsFlag id = false) :
    (after skipConcrete limit (earlier ++ .clear :: later)).flag id = .concrete := by
  rw [after, Tables.apply_append, Tables.apply_cons, Tables.flag_apply_kept _ unset]
  simp [Tables.call, clear, flag, object?]

theorem flag_of_loses {flag : Flag} (loses : TableCall.Loses calls id flag) :
    (after true limit calls).flag id = .concrete ∧ (after false limit calls).flag id = flag := by
  obtain ⟨earlier, later, rfl, concrete, -, last, unfilled⟩ := loses
  have absent : (after true limit earlier).contains id = false := by
    rwa [← contains_after_iff true limit, Bool.not_eq_true] at unfilled
  constructor
  · rw [flag_after true limit last, if_pos ⟨concrete, rfl, absent⟩]
  · simp [flag_after false limit last]

/-- The two heaps have the same flag for an object, unless a flag is lost. -/
theorem flag_skipping (calls : List TableCall) (id : ObjectId) :
    (after true limit calls).flag id = (after false limit calls).flag id ∨ ∃ flag,
      TableCall.Loses calls id flag := by
  rcases TableCall.last_setsFlag calls id with unset | ⟨earlier, call, later, rfl, sets, last⟩
  · rw [flag_after_unset true limit unset, flag_after_unset false limit unset]
    exact .inl rfl
  · cases call with
    | clear =>
      rw [flag_after_clear true limit last, flag_after_clear false limit last]
      exact .inl rfl
    | setFlag other flag =>
      obtain rfl : other = id := by simpa [TableCall.setsFlag] using sets
      simp only [flag_after true limit last, flag_after false limit last, Bool.false_eq_true,
        false_and, and_false, if_false]
      split
      next skipped =>
        obtain ⟨concrete, -, absent⟩ := skipped
        rw [← Bool.not_eq_true, contains_after_iff] at absent
        -- A flag without any bit is what an absent entry stands for.
        by_cases zero : flag = .concrete
        · exact .inl zero.symm
        · exact .inr ⟨flag, earlier, later, rfl, concrete, zero, last, absent⟩
      next => exact .inl rfl
    | shadow | get | put | flag | resolve | contains | isEmpty | static | putStatic | staticsEmpty
      | clearStatics =>
      cases sets

theorem flag_skipping_eq_iff (calls : List TableCall) (id : ObjectId) :
    (after true limit calls).flag id = (after false limit calls).flag id ↔
      ¬ ∃ flag, TableCall.Loses calls id flag := by
  constructor
  · rintro same ⟨flag, loses⟩
    obtain ⟨lost, kept⟩ := flag_of_loses limit loses
    obtain ⟨_, _, _, _, some, _⟩ := loses
    exact some (kept.symm.trans (same.symm.trans lost))
  · intro none
    exact (flag_skipping limit calls id).resolve_right none

theorem resolve_skipping_eq_iff (calls : List TableCall) (content : Shadow) :
    (after true limit calls).resolve content = (after false limit calls).resolve content ↔
      ¬ ∃ id flag, content = .reference id ∧ TableCall.Loses calls id flag := by
  cases content with
  | concrete | symbolic => simp [resolve]
  | reference id => simpa [resolve] using flag_skipping_eq_iff limit calls id

theorem isSymbolic_skipping (calls : List TableCall) (content : Shadow) :
    ((after true limit calls).resolve content).isSymbolic =
      ((after false limit calls).resolve content).isSymbolic := by
  cases content with
  | concrete | symbolic => rfl
  | reference id =>
    rcases flag_skipping limit calls id with same | ⟨flag, loses⟩
    · exact congrArg Flag.isSymbolic same
    · obtain ⟨lost, kept⟩ := flag_of_loses limit loses
      obtain ⟨_, _, _, concrete, _⟩ := loses
      simp [resolve, lost, kept, concrete]

end Heap

/-- What can be told from lookups about whether concrete entries are skipped, after any calls.
Shadows are the same. A flag differs exactly if it is lost: it has reserved bits only, it was the
last to be set for the object, and was set while the object had nothing that is not concrete. Then
the heap that skips it has a concrete flag, and the other has the flag that was set. Whatever
resolves to the flag of such an object differs likewise, and nothing else does; no symbolic bit
ever differs. -/
theorem Heap.skipping_loses_reserved (limit : UInt32) (calls : List TableCall) :
    let skipping := Heap.after true limit calls
    let keeping := Heap.after false limit calls
    (∀ id key, skipping.shadow id key = keeping.shadow id key) ∧
    (∀ id, skipping.flag id = keeping.flag id ↔ ¬ ∃ flag, TableCall.Loses calls id flag) ∧
    (∀ id flag, TableCall.Loses calls id flag →
      skipping.flag id = .concrete ∧ keeping.flag id = flag) ∧
    (∀ content, skipping.resolve content = keeping.resolve content ↔
      ¬ ∃ id flag, content = .reference id ∧ TableCall.Loses calls id flag) ∧
    (∀ id key, skipping.get id key = keeping.get id key ↔
      ¬ ∃ other flag, keeping.shadow id key = .reference other ∧ TableCall.Loses calls other flag) ∧
    ∀ content, (skipping.resolve content).isSymbolic = (keeping.resolve content).isSymbolic := by
  intro skipping keeping
  have empty (skips : Bool) :
      Tables.Valid { heap := { skipConcrete := skips, denseLimit := limit } } :=
    ⟨Heap.valid_empty skips limit, Statics.canonical_empty⟩
  have shadows : skipping.shadow = keeping.shadow :=
    (empty true).shadow_apply (empty false) rfl calls
  refine ⟨fun id key => by rw [shadows], Heap.flag_skipping_eq_iff limit calls,
    fun id flag loses => Heap.flag_of_loses limit loses,
    Heap.resolve_skipping_eq_iff limit calls, ?_, Heap.isSymbolic_skipping limit calls⟩
  intro id key
  rw [Heap.get, Heap.get, shadows]
  exact Heap.resolve_skipping_eq_iff limit calls _

/-- One flag is enough. The heap that skips concrete entries takes a flag without its symbolic bit
for none at all: the flag is lost, and there is no entry. The other heap has it. -/
theorem Heap.skipping_observable :
    (Heap.after true 65536 [.setFlag 7 ⟨2⟩]).flag 7 = ⟨0⟩ ∧
      (Heap.after true 65536 [.setFlag 7 ⟨2⟩]).contains 7 = false ∧
      (Heap.after false 65536 [.setFlag 7 ⟨2⟩]).flag 7 = ⟨2⟩ ∧
      (Heap.after false 65536 [.setFlag 7 ⟨2⟩]).contains 7 = true := by
  decide +kernel

/-- A flag with a reserved bit is set, then something symbolic is stored in the object, and a
reference to it in another. -/
def TableCall.reserving : List TableCall :=
  [.setFlag 7 ⟨2⟩, .put 7 (.field 0) .symbolic, .put 9 (.field 1) (.reference 7)]

/-- The flag is still lost once the object has an entry in both heaps, and it differs wherever there
is a reference to it. -/
theorem Heap.skipping_loses_reserved_entered :
    TableCall.Loses TableCall.reserving 7 ⟨2⟩ ∧
      (Heap.after true 65536 TableCall.reserving).contains 7 = true ∧
      (Heap.after false 65536 TableCall.reserving).contains 7 = true ∧
      (Heap.after true 65536 TableCall.reserving).flag 7 = .concrete ∧
      (Heap.after false 65536 TableCall.reserving).flag 7 = ⟨2⟩ ∧
      (Heap.after true 65536 TableCall.reserving).get 9 (.field 1) ≠
        (Heap.after false 65536 TableCall.reserving).get 9 (.field 1) := by
  have loses : TableCall.Loses TableCall.reserving 7 ⟨2⟩ := by
    refine ⟨[], _, rfl, by decide, by decide, ?_, ?_⟩
    · simp [TableCall.setsFlag]
    · simp [TableCall.Filled]
  obtain ⟨-, -, lost, -, got, -⟩ := Heap.skipping_loses_reserved 65536 TableCall.reserving
  refine ⟨loses, by decide +kernel, by decide +kernel, (lost 7 ⟨2⟩ loses).1,
    (lost 7 ⟨2⟩ loses).2, ?_⟩
  intro same
  exact (got 9 (.field 1)).mp same ⟨7, ⟨2⟩, by decide +kernel, loses⟩

end ShadowTrace
