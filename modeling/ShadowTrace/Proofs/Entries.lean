import Mathlib.Data.Set.Card
import ShadowTrace.Proofs.Activations
import ShadowTrace.Proofs.DataFlow

/-! # What the shared tables hold

Whatever a hook does to the shared tables could have been done by calling them directly. So a run
comes down to one list of direct calls, and which objects have an entry is a matter of that list:
those that something was stored for since the heap was last cleared. With concrete entries skipped
it has to be something that is not concrete. An object loses its entry in no other way, whereas a
static field that becomes concrete leaves its table at once. -/

namespace ShadowTrace

/-! ## Hooks as direct calls -/

/-- The direct calls that store a shadow at the location, as far as it is shared. -/
def Location.stores (shadow : Shadow) : Location → List TableCall
  | static field => [.putStatic field shadow]
  | object id key => [.put id key shadow]
  | this | argument _ | localVar _ | returned => []

/-- The direct calls that a hook which succeeds stands for. It depends on what its location holds,
and on the accumulator that it leaves. -/
def Hook.stores (holds : Location → Shadow) (accumulator : Flag) : Hook → List TableCall
  | write _ location (.reference (some id)) =>
    .setFlag id accumulator.stored :: location.stores (.reference id)
  | write _ location .primitive | write _ location (.reference none) =>
    location.stores (.ofFlag accumulator)
  | assign location shadow => location.stores shadow
  | markSymbolic location =>
    match holds location with
    | .reference id => [.setFlag id .symbolic]
    | .concrete | .symbolic => location.stores .symbolic
  | enter | enterWith _ | exit | read .. | resolve _ | close _ | reset => []

/-- The direct calls that the event stands for. -/
def Event.stores (event : Event) : List TableCall :=
  match event.step.action with
  | .hook _ =>
    (event.hook?.map
      (·.stores event.holds (event.after.status event.step.thread).accumulator)).getD []
  | .table call => [call]
  | .resetShared => [.clear, .clearStatics]
  | .records | .instructionIds | .texts | .drain | .clearTrace => []

namespace Tables

/-- The tables after the calls. -/
def apply (tables : Tables) (calls : List TableCall) : Tables :=
  calls.foldl (fun tables call => (tables.call call).2) tables

@[simp] theorem apply_nil (tables : Tables) : tables.apply [] = tables := rfl

@[simp] theorem apply_cons (tables : Tables) (call : TableCall) (calls : List TableCall) :
    tables.apply (call :: calls) = (tables.call call).2.apply calls := rfl

theorem apply_append (tables : Tables) (calls later : List TableCall) :
    tables.apply (calls ++ later) = (tables.apply calls).apply later :=
  List.foldl_append

theorem place_eq (tables : Tables) (location : Location) (shadow : Shadow) :
    tables.place location shadow = tables.apply (location.stores shadow) := by
  cases location <;> rfl

end Tables

/-- What a hook that succeeds does to the tables. -/
theorem Engine.tables_step (engine : Engine) (tables : Tables) {hook : Hook} {reply : Reply}
    (ok : (engine.step tables hook).result = .ok reply) :
    (engine.step tables hook).tables = tables.apply
      (hook.stores (engine.look tables) (engine.step tables hook).engine.accumulator) := by
  have active (needs : Needs hook) : engine.depth ≠ 0 := engine.active_of_ok tables needs ok
  cases hook with
  | enter | enterWith | reset => rfl
  | exit =>
    rcases frames : engine.stack.frames with _ | ⟨frame, _ | ⟨caller, rest⟩⟩
    · rw [exit_idle _ _ (by simp [depth, CallStack.depth, frames])] at ok
      cases ok
    · rw [exit_last _ _ frames]
      rfl
    · rw [exit_inner _ _ frames]
      rfl
  | read operand location =>
    rw [read_active _ _ _ _ (active trivial)]
    rfl
  | write id location value =>
    -- The accumulator that the write leaves is the one that it has stored.
    rw [write_active _ _ _ _ _ (active trivial)]
    simp only [Engine.accumulator, window_place, Tables.place_eq]
    rcases value with _ | _ | object <;> rfl
  | assign location shadow =>
    rw [assign_active _ _ _ _ (active trivial)]
    exact tables.place_eq location shadow
  | markSymbolic location =>
    rw [markSymbolic_active _ _ _ (active trivial)]
    simp only [Hook.stores, Tables.mark]
    cases engine.look tables location with
    | reference id => rfl
    | concrete | symbolic => exact tables.place_eq location .symbolic
  | resolve location =>
    rw [resolve_active _ _ _ (active trivial)]
    rfl
  | close id =>
    by_cases pending : engine.window.pending? = some id
    · rw [close_pending _ _ pending]
      rfl
    · obtain ⟨desync, failed⟩ := engine.close_other tables pending
      rw [failed] at ok
      cases ok

theorem Event.Valid.tables_eq {event : Event} (valid : event.Valid) :
    event.after.tables = event.before.tables.apply event.stores := by
  have tables := valid.tables
  have engine := valid.engine event.step.thread
  have hook? := valid.hook?_eq
  unfold Event.stores
  cases action : event.step.action with
  | hook hook =>
    simp only [action, if_true] at tables engine hook?
    cases result : ((event.before.engine event.step.thread).step event.before.tables hook).result
      with
    | ok reply =>
      have done : event.hook? = some hook := by
        simp [hook?, Engine.call, result, Except.isOk, Except.toBool]
      rw [tables, Engine.tables_step _ _ result, done, Collector.status_eq, ← engine]
      rfl
    | error desync =>
      have failed : event.hook? = none := by
        simp [hook?, Engine.call, result, Except.isOk, Except.toBool]
      rw [tables, Engine.step_failed _ _ result, failed]
      rfl
  | table | resetShared | records | instructionIds | texts | drain | clearTrace =>
    simp only [action] at tables
    rw [tables]
    rfl

theorem Trail.tables_eq {before final : Collector} {events : List Event}
    (trail : Trail before events final) :
    final.tables = before.tables.apply (events.flatMap (·.stores)) := by
  induction trail with
  | done => rfl
  | step valid rest ih => rw [ih, List.flatMap_cons, Tables.apply_append, valid.tables_eq]

/-! ## Entries -/

/-- Whether the call makes an entry for the object, if it has none. -/
def TableCall.fills (skipConcrete : Bool) (id : ObjectId) : TableCall → Bool
  | put other _ content => other = id ∧ (skipConcrete = true → content ≠ .concrete)
  | setFlag other mark => other = id ∧ (skipConcrete = true → mark.isSymbolic = true)
  | shadow .. | get .. | flag _ | resolve _ | contains _ | isEmpty | clear | static _ | putStatic ..
    | staticsEmpty
  | clearStatics => false

/-- Among the calls there is one that makes an entry for the object, and the heap was not
cleared since. -/
def TableCall.Filled (skipConcrete : Bool) (calls : List TableCall) (id : ObjectId) : Prop :=
  ∃ earlier call later, calls = earlier ++ call :: later ∧ call.fills skipConcrete id = true ∧
    clear ∉ later

theorem TableCall.filled_cons (skipConcrete : Bool) (call : TableCall) (calls : List TableCall)
    (id : ObjectId) :
    Filled skipConcrete (call :: calls) id ↔
      (call.fills skipConcrete id = true ∧ clear ∉ calls) ∨ Filled skipConcrete calls id := by
  constructor
  · rintro ⟨earlier, source, later, cut, fills, kept⟩
    cases earlier with
    | nil =>
      obtain ⟨rfl, rfl⟩ := List.cons.inj cut
      exact .inl ⟨fills, kept⟩
    | cons first earlier => exact .inr ⟨earlier, source, later, (List.cons.inj cut).2, fills, kept⟩
  · rintro (⟨fills, kept⟩ | ⟨earlier, source, later, rfl, fills, kept⟩)
    · exact ⟨[], call, calls, rfl, fills, kept⟩
    · exact ⟨call :: earlier, source, later, rfl, fills, kept⟩

/-- The size of a map counts its keys. -/
theorem size_eq_ncard {α β : Type} [Ord α] [DecidableEq α] [Std.TransOrd α] [Std.LawfulEqOrd α]
    (map : Std.TreeMap α β) :
    {key | map.contains key = true}.Finite ∧ map.size = {key | map.contains key = true}.ncard := by
  have keys : {key | map.contains key = true} = ↑map.keys.toFinset := by
    ext key
    simp
  rw [keys, Set.ncard_coe_finset, List.toFinset_card_of_nodup Std.TreeMap.nodup_keys,
    Std.TreeMap.length_keys]
  exact ⟨Finset.finite_toSet _, rfl⟩

namespace Heap

theorem contains_eq (heap : Heap) (id : ObjectId) :
    heap.contains id = (heap.object? id).isSome := by
  simp [contains, object?, Std.TreeMap.isSome_getElem?_eq_contains]

theorem contains_update (heap : Heap) (id : ObjectId) (needed : Bool) (change : Object → Object)
    (other : ObjectId) :
    (heap.update id needed change).contains other =
      (heap.contains other || decide (other = id) && needed) := by
  rw [contains_eq, contains_eq, object?_update]
  by_cases same : other = id
  · subst same
    cases found : heap.object? other <;> cases needed <;> simp
  · simp [same]

theorem skipConcrete_update (heap : Heap) (id : ObjectId) (needed : Bool)
    (change : Object → Object) :
    (heap.update id needed change).skipConcrete = heap.skipConcrete := by
  unfold update
  split
  · rfl
  · split <;> rfl

end Heap

namespace Tables

theorem skipConcrete_call (tables : Tables) (call : TableCall) :
    (tables.call call).2.heap.skipConcrete = tables.heap.skipConcrete := by
  cases call with
  | put | setFlag => exact Heap.skipConcrete_update _ _ _ _
  | shadow | get | flag | resolve | contains | isEmpty | clear | static | putStatic | staticsEmpty
    | clearStatics => rfl

theorem contains_call (tables : Tables) (call : TableCall) (id : ObjectId) :
    (tables.call call).2.heap.contains id =
      (decide (.clear ≠ call) && tables.heap.contains id ||
        call.fills tables.heap.skipConcrete id) := by
  cases call with
  | put other key shadow =>
    simp only [call, Heap.put, Heap.contains_update, TableCall.fills]
    cases shadow <;> cases tables.heap.skipConcrete <;> simp [Shadow.isConcrete, eq_comm]
  | setFlag other flag =>
    simp only [call, Heap.setFlag, Heap.contains_update, TableCall.fills, Flag.isConcrete]
    cases flag.isSymbolic <;> cases tables.heap.skipConcrete <;> simp [eq_comm]
  | clear => simp [call, Heap.clear, Heap.contains, TableCall.fills]
  | shadow | get | flag | resolve | contains | isEmpty | static | putStatic | staticsEmpty
    | clearStatics =>
    simp [call, TableCall.fills]

/-- Which objects have an entry after the calls: those that had one, unless the heap was cleared,
and those that were given one since. -/
theorem contains_apply_iff (tables : Tables) (calls : List TableCall) (id : ObjectId) :
    (tables.apply calls).heap.contains id = true ↔
      (tables.heap.contains id = true ∧ .clear ∉ calls) ∨
        TableCall.Filled tables.heap.skipConcrete calls id := by
  induction calls generalizing tables with
  | nil => simp [TableCall.Filled]
  | cons call calls ih =>
    rw [apply_cons, ih, contains_call, skipConcrete_call, TableCall.filled_cons]
    simp only [Bool.or_eq_true, Bool.and_eq_true, decide_eq_true_eq, List.mem_cons, not_or]
    tauto

/-- Calls that do not clear the heap take no entry away. -/
theorem size_le_apply (tables : Tables) (calls : List TableCall) (kept : .clear ∉ calls) :
    tables.heap.size ≤ (tables.apply calls).heap.size := by
  obtain ⟨-, before⟩ := size_eq_ncard tables.heap.objects
  obtain ⟨finite, after⟩ := size_eq_ncard (tables.apply calls).heap.objects
  rw [Heap.size, Heap.size, before, after]
  refine Set.ncard_le_ncard ?_ finite
  intro id present
  exact (tables.contains_apply_iff calls id).mpr (.inl ⟨present, kept⟩)

end Tables

/-! ## Static fields -/

/-- What a static field has after the call, given what it had before. -/
def TableCall.assigned (field : FieldId) (value : Shadow) : TableCall → Shadow
  | putStatic other content => if other = field then content else value
  | clearStatics => .concrete
  | shadow .. | get .. | put .. | flag _ | setFlag .. | resolve _ | contains _ | isEmpty | clear
    | static _
  | staticsEmpty => value

namespace Statics

theorem Canonical.contains_iff {statics : Statics} (canonical : statics.Canonical)
    (field : FieldId) :
    statics.fields.contains field = true ↔ statics.get field ≠ .concrete := by
  have entry := canonical field
  rw [← Std.TreeMap.isSome_getElem?_eq_contains, get, Std.TreeMap.getD_eq_getD_getElem?]
  cases found : statics.fields[field]? with
  | none => simp
  | some shadow => simpa [found] using entry

end Statics

theorem Tables.static_apply (tables : Tables) (calls : List TableCall) (field : FieldId) :
    (tables.apply calls).statics.get field =
      calls.foldl (TableCall.assigned field) (tables.statics.get field) := by
  induction calls generalizing tables with
  | nil => rfl
  | cons call calls ih =>
    rw [apply_cons, ih, List.foldl_cons]
    congr 1
    cases call with
    | putStatic other shadow => simp [Tables.call, Statics.get_put, TableCall.assigned, eq_comm]
    | clearStatics => simp [Tables.call, TableCall.assigned]
    | shadow | get | put | flag | setFlag | resolve | contains | isEmpty | clear | static
      | staticsEmpty => rfl

/-! ## Whole runs -/

/-- The hook neither sets the flag of an object nor stores anything under this one. -/
def Hook.PassesBy (id : ObjectId) : Hook → Prop
  | assign location _ => ∀ key, location ≠ .object id key
  | write .. | markSymbolic _ => False
  | enter | enterWith _ | exit | read .. | resolve _ | close _ | reset => True

theorem Hook.PassesBy.stores {hook : Hook} {id : ObjectId} (passes : hook.PassesBy id)
    (holds : Location → Shadow) (accumulator : Flag) (skipConcrete : Bool) :
    ∀ call ∈ hook.stores holds accumulator, .clear ≠ call ∧ call.fills skipConcrete id = false := by
  intro call member
  cases hook with
  | assign location shadow =>
    -- It stores at one place at most, and that belongs to another object.
    cases location with
    | object other key =>
      obtain rfl : call = .put other key shadow := by
        simpa [Hook.stores, Location.stores] using member
      have apart : other ≠ id := by
        rintro rfl
        exact passes key rfl
      simp [TableCall.fills, apart]
    | static field =>
      obtain rfl : call = .putStatic field shadow := by
        simpa [Hook.stores, Location.stores] using member
      exact ⟨by simp, rfl⟩
    | this | argument | localVar | returned => simp [Hook.stores, Location.stores] at member
  | write | markSymbolic => exact passes.elim
  | enter | enterWith | exit | read | resolve | close | reset => simp [Hook.stores] at member

theorem Tables.contains_apply_same (tables : Tables) {calls : List TableCall} {id : ObjectId}
    (others : ∀ call ∈ calls, .clear ≠ call ∧ call.fills tables.heap.skipConcrete id = false) :
    (tables.apply calls).heap.contains id = tables.heap.contains id := by
  have kept : .clear ∉ calls := fun cleared => (others _ cleared).1 rfl
  have unfilled : ¬ TableCall.Filled tables.heap.skipConcrete calls id := by
    rintro ⟨earlier, call, later, rfl, fills, -⟩
    have none := (others call (by simp)).2
    rw [fills] at none
    cases none
  rw [Bool.eq_iff_iff, contains_apply_iff]
  simp [kept, unfilled]

theorem Event.Valid.contains_same {event : Event} (valid : event.Valid) {hook : Hook}
    {id : ObjectId} (asked : event.step.action = .hook hook) (passes : hook.PassesBy id) :
    event.after.tables.heap.contains id = event.before.tables.heap.contains id := by
  rw [valid.tables_eq]
  apply Tables.contains_apply_same
  intro call member
  have hook? := valid.hook?_eq
  simp only [asked] at hook?
  simp only [Event.stores, asked, hook?] at member
  split at member
  · exact passes.stores _ _ _ call member
  · simp at member

/-- What the shared tables hold at any point of a run, in terms of all that was stored so far. An
object has an entry exactly if something was stored for it since the heap was last cleared, which
must not be concrete where concrete entries are skipped; the size counts these objects. Only
clearing makes it smaller; reads, calls and returns make no entry, and no more does assigning a
reference to the object anywhere outside the object. A static field has what was stored last since
the fields were cleared, and the table contains exactly those fields that are not concrete. -/
theorem Run.entries_iff_stored (run : Run) (past future : List Event) (event : Event)
    (parts : run.events = past ++ event :: future) :
    let stored := (past ++ [event]).flatMap (·.stores)
    let tables := event.after.tables
    (∀ id, tables.heap.contains id = true ↔
      TableCall.Filled run.settings.heap.skipConcrete stored id) ∧
      tables.heap.size = {id | TableCall.Filled run.settings.heap.skipConcrete stored id}.ncard ∧
      (.clear ∉ event.stores → event.before.tables.heap.size ≤ tables.heap.size) ∧
      (∀ hook id, event.step.action = .hook hook → hook.PassesBy id →
        tables.heap.contains id = event.before.tables.heap.contains id) ∧
      (∀ field, tables.statics.get field = stored.foldl (TableCall.assigned field) .concrete) ∧
      (∀ field, tables.statics.fields.contains field = true ↔
        tables.statics.get field ≠ .concrete) ∧
      tables.statics.size = {field | tables.statics.get field ≠ .concrete}.ncard := by
  intro stored tables
  have valid : event.Valid := run.trail.valid event (by simp [parts])
  have trail := run.trail_upto parts
  obtain ⟨created, -, -⟩ := Collector.create_eq run.created
  have contains (id : ObjectId) :
      tables.heap.contains id = true ↔
        TableCall.Filled run.settings.heap.skipConcrete stored id := by
    simp only [tables, trail.tables_eq, Tables.contains_apply_iff, created]
    simp [Heap.contains, stored]
  have static (field : FieldId) : tables.statics.fields.contains field = true ↔
      tables.statics.get field ≠ .concrete :=
    (trail.tables_valid run.tables_valid).statics.contains_iff field
  refine ⟨contains, ?_, ?_, fun hook id asked passes => valid.contains_same asked passes, ?_,
    static, ?_⟩
  · simp only [← contains]
    exact (size_eq_ncard tables.heap.objects).2
  · intro kept
    simp only [tables, valid.tables_eq]
    exact event.before.tables.size_le_apply event.stores kept
  · intro field
    simp only [tables, trail.tables_eq, Tables.static_apply, created]
    simp [stored]
  · simp only [← static]
    exact (size_eq_ncard tables.statics.fields).2

/-- Object 7 gets a field that refers to object 9, by a write that takes its flag to 9; object 5
gets a concrete field only, and object 3 a symbolic flag before the heap is cleared. -/
def Step.storing : List Step :=
  [.table (.setFlag 3 .symbolic), .table .clear, .hook .enter, .hook (.markSymbolic (.localVar 0)),
    .hook (.read ⟨1, 0, .int 0, none⟩ (.localVar 0)),
    .hook (.write 1 (.object 7 (.field 0)) (.reference (some 9))),
    .table (.put 5 (.field 0) .concrete), .hook (.assign (.static 4) (.reference 5))].map
    (⟨"main", "main", ·⟩)

theorem Run.entries_iff_stored_skipping :
    ∃ (run : Run) (past : List Event) (event : Event),
      run.settings.heap.skipConcrete = true ∧ run.steps = Step.storing ∧
      run.events = past ++ [event] ∧
      let stored := (past ++ [event]).flatMap (·.stores)
      (∀ id, TableCall.Filled true stored id ↔ id = 7 ∨ id = 9) ∧
        {id | TableCall.Filled true stored id}.ncard = 2 ∧
        stored.foldl (TableCall.assigned 4) .concrete = .reference 5 ∧
          event.after.tables.statics.size = 1 := by
  let view (collector : Collector) :=
    (collector.tables.heap.objects.keys, collector.tables.statics.size,
      collector.tables.statics.get 4)
  obtain ⟨run, past, event, settings, steps, parts, -, last⟩ :=
    Run.exists_watched_last view {} {} Step.storing
      [(.table .done, [3], 0, .concrete), (.table .done, [], 0, .concrete),
        (.hook .done, [], 0, .concrete), (.hook .done, [], 0, .concrete),
        (.hook (.flag .symbolic), [], 0, .concrete), (.hook .done, [7, 9], 0, .concrete),
        (.table .done, [7, 9], 0, .concrete)]
      (.hook .done, [7, 9], 1, .reference 5) (by decide +kernel)
  simp only [Prod.mk.injEq, view] at last
  obtain ⟨-, objects, statics, field⟩ := last
  have skip : run.settings.heap.skipConcrete = true := by rw [settings]
  obtain ⟨contains, size, -, -, static, -, -⟩ := run.entries_iff_stored past [] event parts
  rw [skip] at contains size
  refine ⟨run, past, event, skip, steps, parts, ?_, ?_, ?_, statics⟩
  · intro id
    rw [← contains, Heap.contains, ← Std.TreeMap.contains_keys, objects]
    simp
  · rw [← size, Heap.size, ← Std.TreeMap.length_keys, objects]
    rfl
  · rw [← static, field]

end ShadowTrace
