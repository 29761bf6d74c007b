import ShadowTrace.Proofs.Entries

/-! # Reserved bits decide nothing

Only the lowest bit of a flag says anything; the others can get in by setting the flag of an object
directly. Stripping them there changes nothing else: it commutes with every step, in that the
stripped step leads from the stripped state to the stripped state, with the same errors, descriptors
and records. And hooks never store such bits, so that where an object has one, the last to set its
flag was a direct call. -/

namespace ShadowTrace

/-! ## Stripping -/

namespace Flag

@[simp] theorem stored_stored (flag : Flag) : flag.stored.stored = flag.stored := by
  rw [stored_eq, isSymbolic_stored, ← stored_eq]

@[simp] theorem isConcrete_stored (flag : Flag) : flag.stored.isConcrete = flag.isConcrete := by
  rw [isConcrete, isSymbolic_stored, isConcrete]

theorem stored_merge (left right : Flag) :
    left.stored.merge right.stored = (left.merge right).stored := by
  rw [stored_eq left, stored_eq right, stored_eq (left.merge right), isSymbolic_merge]
  cases left.isSymbolic <;> cases right.isSymbolic <;> rfl

end Flag

theorem Shadow.ofFlag_stored (flag : Flag) : ofFlag flag.stored = ofFlag flag := by
  rw [ofFlag, Flag.isSymbolic_stored, ofFlag]

def Window.stripped : Window → Window
  | pending accumulator record => pending accumulator.stored record
  | fresh => fresh
  | finalized id => finalized id

def Engine.stripped (engine : Engine) : Engine := { engine with window := engine.window.stripped }

def Thread.stripped (thread : Thread) : Thread := { thread with engine := thread.engine.stripped }

def Object.stripped (object : Object) : Object := { object with flag := object.flag.stored }

def Reply.stripped : Reply → Reply
  | flag given => flag given.stored
  | done => done

def TableReply.stripped : TableReply → TableReply
  | flag given => flag given.stored
  | done => done
  | shadow given => shadow given
  | truth holds => truth holds

def Answer.stripped : Answer → Answer
  | hook reply => hook reply.stripped
  | table reply => table reply.stripped
  | failed desync => failed desync
  | done => done
  | records given => records given
  | ids given => ids given
  | texts given => texts given

/-- The call with a flag that has no reserved bits, if it sets one. -/
def TableCall.stripped : TableCall → TableCall
  | setFlag id bits => setFlag id bits.stored
  | shadow id key => shadow id key
  | get id key => get id key
  | put id key content => put id key content
  | flag id => flag id
  | resolve content => resolve content
  | contains id => contains id
  | isEmpty => isEmpty
  | clear => clear
  | static field => static field
  | putStatic field content => putStatic field content
  | staticsEmpty => staticsEmpty
  | clearStatics => clearStatics

def Action.stripped : Action → Action
  | table call => table call.stripped
  | hook asked => hook asked
  | resetShared => resetShared
  | records => records
  | instructionIds => instructionIds
  | texts => texts
  | drain => drain
  | clearTrace => clearTrace

def Step.stripped (step : Step) : Step := { step with action := step.action.stripped }

/-! ## Tables -/

/-- The same entries, with flags that have no reserved bits. -/
structure Heap.StripsTo (heap other : Heap) : Prop where
  skipConcrete : other.skipConcrete = heap.skipConcrete
  denseLimit : other.denseLimit = heap.denseLimit
  object? : ∀ id, other.object? id = (heap.object? id).map Object.stripped

structure Tables.StripsTo (tables other : Tables) : Prop where
  heap : tables.heap.StripsTo other.heap
  statics : other.statics = tables.statics

namespace Heap.StripsTo

variable {heap other : Heap}

theorem shadow (strips : heap.StripsTo other) (id : ObjectId) (key : Key) :
    other.shadow id key = heap.shadow id key := by
  simp only [Heap.shadow, strips.object?]
  cases heap.object? id with
  | none => rfl
  | some object => cases key <;> rfl

theorem flag (strips : heap.StripsTo other) (id : ObjectId) :
    other.flag id = (heap.flag id).stored := by
  simp only [Heap.flag, strips.object?]
  cases heap.object? id <;> rfl

theorem resolve (strips : heap.StripsTo other) (shadow : Shadow) :
    other.resolve shadow = (heap.resolve shadow).stored := by
  cases shadow with
  | concrete | symbolic => simp [Heap.resolve, Flag.stored_eq]
  | reference id => exact strips.flag id

theorem contains (strips : heap.StripsTo other) (id : ObjectId) :
    other.contains id = heap.contains id := by
  simp [Heap.contains_eq, strips.object?]

theorem size (strips : heap.StripsTo other) : other.size = heap.size := by
  have keys : {id | other.objects.contains id = true} = {id | heap.objects.contains id = true} := by
    ext id
    exact Bool.eq_iff_iff.mp (strips.contains id)
  rw [Heap.size, Heap.size, (size_eq_ncard other.objects).2, (size_eq_ncard heap.objects).2, keys]

theorem isEmpty (strips : heap.StripsTo other) : other.isEmpty = heap.isEmpty := by
  have size := strips.size
  simp only [Heap.size] at size
  simp [Heap.isEmpty, Std.TreeMap.isEmpty_eq_size_eq_zero, size]

/-- Changes that agree on stripped objects make the same entries. -/
theorem update (strips : heap.StripsTo other) (id : ObjectId) (needed : Bool)
    {change change' : Object → Object}
    (commutes : ∀ object : Object, change' object.stripped = (change object).stripped) :
    (heap.update id needed change).StripsTo (other.update id needed change') where
  skipConcrete := by rw [Heap.skipConcrete_update, Heap.skipConcrete_update, strips.skipConcrete]
  denseLimit := by rw [Heap.denseLimit_update, Heap.denseLimit_update, strips.denseLimit]
  object? := by
    intro found
    have fresh : change' {} = (change {}).stripped := commutes {}
    rw [Heap.object?_update, Heap.object?_update, strips.object?, strips.object?]
    by_cases same : found = id
    · cases heap.object? id <;> cases needed <;> simp [same, commutes, fresh]
    · simp [same]

theorem put (strips : heap.StripsTo other) (id : ObjectId) (key : Key) (shadow : Shadow) :
    (heap.put id key shadow).StripsTo (other.put id key shadow) := by
  rw [Heap.put, Heap.put, strips.skipConcrete, strips.denseLimit]
  apply strips.update
  intro object
  cases key with
  | field field =>
    simp only [Object.set, Object.stripped]
    split <;> rfl
  | element index => rfl

theorem setFlag (strips : heap.StripsTo other) (id : ObjectId) (flag : Flag) :
    (heap.setFlag id flag).StripsTo (other.setFlag id flag.stored) := by
  rw [Heap.setFlag, Heap.setFlag, strips.skipConcrete, Flag.isConcrete_stored]
  exact strips.update id _ fun object => rfl

theorem clear (strips : heap.StripsTo other) : heap.clear.StripsTo other.clear where
  skipConcrete := strips.skipConcrete
  denseLimit := strips.denseLimit
  object? := by simp [Heap.clear, Heap.object?]

end Heap.StripsTo

namespace Tables.StripsTo

variable {tables other : Tables}

theorem call (strips : tables.StripsTo other) (call : TableCall) :
    (other.call call.stripped).1 = (tables.call call).1.stripped ∧
      (tables.call call).2.StripsTo (other.call call.stripped).2 := by
  cases call with
  | shadow id key =>
    exact ⟨by simp [Tables.call, TableCall.stripped, TableReply.stripped, strips.heap.shadow],
      strips⟩
  | get id key =>
    refine ⟨?_, strips⟩
    simp [Tables.call, TableCall.stripped, TableReply.stripped, Heap.get, strips.heap.shadow,
      strips.heap.resolve]
  | put id key shadow => exact ⟨rfl, strips.heap.put id key shadow, strips.statics⟩
  | flag id =>
    exact ⟨by simp [Tables.call, TableCall.stripped, TableReply.stripped, strips.heap.flag], strips⟩
  | setFlag id flag => exact ⟨rfl, strips.heap.setFlag id flag, strips.statics⟩
  | resolve shadow =>
    exact ⟨by simp [Tables.call, TableCall.stripped, TableReply.stripped, strips.heap.resolve],
      strips⟩
  | contains id =>
    exact ⟨by simp [Tables.call, TableCall.stripped, TableReply.stripped, strips.heap.contains],
      strips⟩
  | isEmpty =>
    exact ⟨by simp [Tables.call, TableCall.stripped, TableReply.stripped, strips.heap.isEmpty],
      strips⟩
  | clear => exact ⟨rfl, strips.heap.clear, strips.statics⟩
  | static field =>
    exact ⟨by simp [Tables.call, TableCall.stripped, TableReply.stripped, strips.statics], strips⟩
  | putStatic field shadow =>
    exact ⟨rfl, strips.heap, by simp only [Tables.call, TableCall.stripped, strips.statics]⟩
  | staticsEmpty =>
    exact ⟨by simp [Tables.call, TableCall.stripped, TableReply.stripped, strips.statics], strips⟩
  | clearStatics => exact ⟨rfl, strips.heap, rfl⟩

theorem apply (strips : tables.StripsTo other) (calls : List TableCall) :
    (tables.apply calls).StripsTo (other.apply (calls.map .stripped)) := by
  induction calls generalizing tables other with
  | nil => exact strips
  | cons call calls ih => exact ih (strips.call call).2

end Tables.StripsTo

/-! ## Hooks -/

namespace Window

variable (window : Window)

@[simp] theorem pending?_stripped : window.stripped.pending? = window.pending? := by
  cases window <;> rfl

theorem accumulator_stripped : window.stripped.accumulator = window.accumulator.stored := by
  cases window with
  | pending => rfl
  | fresh | finalized => exact (Flag.stored_eq .concrete).symm

theorem finalize_stripped :
    window.stripped.finalize = (window.finalize.1.stripped, window.finalize.2) := by
  cases window with
  | pending accumulator record => simp [stripped, finalize, Flag.isSymbolic_stored]
  | fresh | finalized => rfl

theorem close_stripped (id : InstructionId) :
    window.stripped.close id = (window.close id).map fun (after, recorded) =>
      (after.stripped, recorded) := by
  cases window with
  | fresh => rfl
  | finalized last =>
    simp only [stripped, close]
    split <;> rfl
  | pending accumulator record =>
    have ended := (pending accumulator record).finalize_stripped
    simp only [stripped, close] at ended ⊢
    split
    · rw [ended]
      rfl
    · rfl

theorem add_stripped (position : UInt32) (flag : Flag) (value : Value) :
    window.stripped.add position flag.stored value = (window.add position flag value).stripped := by
  cases window with
  | pending accumulator record => simp [stripped, add, Flag.stored_merge]
  | fresh | finalized => rfl

end Window

namespace Engine

variable (engine : Engine) {tables other : Tables}

theorem look_stripped (strips : tables.StripsTo other) :
    engine.stripped.look other = engine.look tables := by
  funext location
  cases location with
  | static field => simp only [look, strips.statics]
  | object id key => exact strips.heap.shadow id key
  | this | argument | localVar | returned => rfl

theorem observe_stripped (id : InstructionId) (location : Location) :
    engine.stripped.observe id location = ((engine.observe id location).1.stripped,
      (engine.observe id location).2) := by
  have pending : engine.stripped.window.pending? = engine.window.pending? :=
    engine.window.pending?_stripped
  unfold observe
  rw [pending]
  split
  · rfl
  · simp only [Engine.finalize, stripped, Window.finalize_stripped]
    rfl

theorem place_stripped (location : Location) (shadow : Shadow) :
    engine.stripped.place location shadow = (engine.place location shadow).stripped := by
  cases location <;> rfl

theorem mark_stripped (location : Location) (shadow : Shadow) :
    engine.stripped.mark location shadow = (engine.mark location shadow).stripped := by
  cases shadow with
  | reference => rfl
  | concrete | symbolic => exact engine.place_stripped location .symbolic

theorem forward_stripped (shadow : Shadow) (position : Option Position) :
    engine.stripped.forward shadow position = (engine.forward shadow position).stripped := by
  rcases position with _ | (_ | _ | _) <;> rfl

end Engine

theorem Written.shadow_stored (flag : Flag) (value : Written) :
    value.shadow flag.stored = value.shadow flag := by
  rcases value with _ | _ | id
  · exact Shadow.ofFlag_stored flag
  · exact Shadow.ofFlag_stored flag
  · rfl

/-- What hooks store has no reserved bits, whatever is in the accumulator. -/
theorem Hook.stores_stripped (hook : Hook) (holds : Location → Shadow) (accumulator : Flag) :
    (hook.stores holds accumulator).map .stripped = hook.stores holds accumulator ∧
      hook.stores holds accumulator.stored = hook.stores holds accumulator := by
  have location (location : Location) (shadow : Shadow) :
      (location.stores shadow).map .stripped = location.stores shadow := by
    cases location <;> rfl
  cases hook with
  | write id target value =>
    rcases value with _ | _ | object
    · simp only [stores, location, Shadow.ofFlag_stored, and_self]
    · simp only [stores, location, Shadow.ofFlag_stored, and_self]
    · simp only [stores, List.map_cons, location, TableCall.stripped, Flag.stored_stored, and_self]
  | assign target shadow => exact ⟨location target shadow, rfl⟩
  | markSymbolic target =>
    refine ⟨?_, rfl⟩
    simp only [stores]
    cases holds target with
    | reference id => simp [TableCall.stripped, Flag.stored_eq]
    | concrete | symbolic => exact location target .symbolic
  | enter | enterWith | exit | read | resolve | close | reset => exact ⟨rfl, rfl⟩

namespace Engine

variable (engine : Engine) {tables other : Tables}

/-- One hook on the stripped engine: the same errors and records, and the stripped reply
and engine. -/
theorem step_stripped (strips : tables.StripsTo other) (hook : Hook) :
    (engine.stripped.step other hook).result = (engine.step tables hook).result.map Reply.stripped ∧
      (engine.stripped.step other hook).engine = (engine.step tables hook).engine.stripped ∧
      (engine.stripped.step other hook).recorded = (engine.step tables hook).recorded := by
  by_cases failed : Needs hook ∧ engine.depth = 0
  · rw [step_idle _ _ failed.1 failed.2, step_idle engine.stripped _ failed.1 failed.2]
    exact ⟨rfl, rfl, rfl⟩
  · have active (needs : Needs hook) : engine.depth ≠ 0 := fun idle => failed ⟨needs, idle⟩
    have active' (needs : Needs hook) : engine.stripped.depth ≠ 0 := active needs
    cases hook with
    | enter | enterWith | reset => exact ⟨rfl, rfl, rfl⟩
    | exit =>
      rcases frames : engine.stack.frames with _ | ⟨frame, _ | ⟨caller, rest⟩⟩
      · have idle : engine.depth = 0 := by simp [depth, CallStack.depth, frames]
        rw [exit_idle _ _ idle, exit_idle engine.stripped _ idle]
        exact ⟨rfl, rfl, rfl⟩
      · rw [exit_last _ _ frames, exit_last engine.stripped _ frames]
        simp only [stripped, Window.finalize_stripped]
        exact ⟨rfl, trivial, trivial⟩
      · rw [exit_inner _ _ frames, exit_inner engine.stripped _ frames]
        exact ⟨rfl, rfl, rfl⟩
    | read operand location =>
      rw [read_active _ _ _ _ (active trivial), read_active _ _ _ _ (active' trivial)]
      simp only [look_stripped _ strips, observe_stripped, strips.heap.resolve]
      refine ⟨rfl, ?_, trivial⟩
      rw [← forward_stripped]
      congr 1
      simp only [stripped, Window.add_stripped]
    | write id location value =>
      rw [write_active _ _ _ _ _ (active trivial), write_active _ _ _ _ _ (active' trivial)]
      simp only [observe_stripped]
      refine ⟨rfl, ?_, trivial⟩
      have accumulator : (engine.observe id location).1.stripped.accumulator =
          (engine.observe id location).1.accumulator.stored := Window.accumulator_stripped _
      rw [accumulator, Written.shadow_stored, place_stripped]
    | assign location shadow =>
      rw [assign_active _ _ _ _ (active trivial), assign_active _ _ _ _ (active' trivial)]
      exact ⟨rfl, engine.place_stripped location shadow, rfl⟩
    | markSymbolic location =>
      rw [markSymbolic_active _ _ _ (active trivial), markSymbolic_active _ _ _ (active' trivial)]
      simp only [look_stripped _ strips]
      exact ⟨rfl, engine.mark_stripped location _, trivial⟩
    | resolve location =>
      rw [resolve_active _ _ _ (active trivial), resolve_active _ _ _ (active' trivial)]
      simp only [look_stripped _ strips, strips.heap.resolve]
      exact ⟨rfl, trivial, trivial⟩
    | close id =>
      simp only [step, close, stripped, Window.close_stripped]
      cases engine.window.close id <;> exact ⟨rfl, rfl, rfl⟩

/-- What the hook stores is the same, so the tables stay stripped. -/
theorem tables_stripped (strips : tables.StripsTo other) (hook : Hook) :
    (engine.step tables hook).tables.StripsTo (engine.stripped.step other hook).tables := by
  obtain ⟨result, after, -⟩ := engine.step_stripped strips hook
  cases reply : (engine.step tables hook).result with
  | error desync =>
    rw [reply] at result
    rw [engine.step_failed _ reply, engine.stripped.step_failed _ result]
    exact strips
  | ok given =>
    rw [reply] at result
    obtain ⟨same, fixed⟩ :=
      hook.stores_stripped (engine.look tables) (engine.step tables hook).engine.accumulator
    have accumulator : (engine.stripped.step other hook).engine.accumulator =
        (engine.step tables hook).engine.accumulator.stored := by
      rw [after]
      exact Window.accumulator_stripped _
    rw [engine.tables_step _ reply, engine.stripped.tables_step _ result, accumulator,
      engine.look_stripped strips, fixed]
    have applied :=
      strips.apply (hook.stores (engine.look tables) (engine.step tables hook).engine.accumulator)
    rwa [same] at applied

end Engine

/-! ## Whole runs -/

theorem Answer.ofResult_stripped (result : Except Desync Reply) :
    (ofResult result).stripped = ofResult (result.map Reply.stripped) := by
  cases result <;> rfl

theorem Thread.step_stripped (thread : Thread) {tables other : Tables}
    (strips : tables.StripsTo other) (files : Files) (hook : Hook) :
    (thread.stripped.step other files hook).1 =
      (thread.step tables files hook).1.map Reply.stripped ∧
      (thread.stripped.step other files hook).2.1 = (thread.step tables files hook).2.1.stripped ∧
      (thread.step tables files hook).2.2.1.StripsTo (thread.stripped.step other files hook).2.2.1 ∧
      (thread.stripped.step other files hook).2.2.2 = (thread.step tables files hook).2.2.2 := by
  obtain ⟨result, engine, recorded⟩ := thread.engine.step_stripped strips hook
  refine ⟨result, ?_, thread.engine.tables_stripped strips hook, ?_⟩
  · simp only [Thread.step, Thread.stripped, engine, recorded]
  · simp only [Thread.step, Thread.stripped, recorded]

/-- The same threads with the same traces and files, and everything without reserved bits. -/
structure Collector.StripsTo (collector other : Collector) : Prop where
  settings : other.settings = collector.settings
  files : other.files = collector.files
  folder : other.folder = collector.folder
  started : ∀ name, other.threads.contains name = collector.threads.contains name
  tables : collector.tables.StripsTo other.tables
  thread : ∀ name, other.thread name = (collector.thread name).stripped

namespace Collector.StripsTo

variable {collector other : Collector}

theorem thread_set (strips : collector.StripsTo other) (name : String) (thread : Thread)
    (name' : String) :
    (other.setThread name thread.stripped).thread name' =
      ((collector.setThread name thread).thread name').stripped := by
  rw [thread_setThread, thread_setThread, strips.thread]
  split <;> rfl

theorem start (strips : collector.StripsTo other) {name label : String} {started : Collector}
    (start : collector.start name label = .ok started) :
    ∃ started', other.start name label = .ok started' ∧ started.StripsTo started' := by
  rcases start_eq_ok_iff.mp start with ⟨present, rfl⟩
    | ⟨absent, stack, trace, files, stacked, traced, rfl⟩
  · exact ⟨other, start_eq_ok_iff.mpr (.inl ⟨(strips.started name).trans present, rfl⟩), strips⟩
  · rw [← strips.settings] at stacked traced
    rw [← strips.files, ← strips.folder] at traced
    have absent' := (strips.started name).trans absent
    refine ⟨_, start_eq_ok_iff.mpr (.inr ⟨absent', stack, trace, files, stacked, traced, rfl⟩),
      strips.settings, rfl, strips.folder, ?_, strips.tables, ?_⟩
    · intro name'
      simp only [Std.TreeMap.contains_insert, strips.started]
    · -- A thread that is set up has no window yet, so there is nothing to strip from it.
      exact strips.thread_set name { engine := { stack }, trace }

theorem act (strips : collector.StripsTo other) {name : String}
    (present : collector.threads.contains name = true) (action : Action) :
    (other.act name action.stripped).1 = (collector.act name action).1.stripped ∧
      (collector.act name action).2.StripsTo (other.act name action.stripped).2 := by
  have present' : other.threads.contains name = true := (strips.started name).trans present
  have started (name' : String) : (other.act name action.stripped).2.threads.contains name' =
      (collector.act name action).2.threads.contains name' := by
    rw [contains_act _ _ present, contains_act _ _ present', strips.started]
  have own : (other.thread name).trace = (collector.thread name).trace := by
    rw [strips.thread]
    rfl
  cases action with
  | hook hook =>
    obtain ⟨result, thread, tables, files⟩ :=
      (collector.thread name).step_stripped strips.tables collector.files hook
    rw [← strips.thread] at result thread tables files
    constructor
    · rw [Action.stripped, answer_act, answer_act, Answer.ofResult_stripped]
      exact congrArg Answer.ofResult result
    · simp only [Action.stripped, act_hook] at started ⊢
      refine ⟨strips.settings, ?_, strips.folder, started, ?_, ?_⟩
      · simp only [Collector.hook, strips.files, files]
      · simp only [Collector.hook, strips.files]
        exact tables
      · intro name'
        have set :=
          strips.thread_set name
            ((collector.thread name).step collector.tables collector.files hook).2.1 name'
        rw [← thread] at set
        simp only [Collector.hook, strips.files]
        exact set
  | table call =>
    obtain ⟨reply, tables⟩ := strips.tables.call call
    exact ⟨congrArg Answer.table reply, strips.settings, strips.files, strips.folder,
      strips.started, tables, strips.thread⟩
  | resetShared =>
    exact ⟨rfl, strips.settings, strips.files, strips.folder, strips.started,
      ⟨strips.tables.heap.clear, rfl⟩, strips.thread⟩
  | records | instructionIds | texts =>
    refine ⟨?_, strips⟩
    simp only [Collector.act, Action.stripped, own, Answer.stripped]
  | drain | clearTrace =>
    have cleared := strips.thread_set name
      { engine := (collector.thread name).engine, trace := (collector.thread name).trace.clear }
    simp only [Collector.act, Action.stripped, strips.thread] at started ⊢
    exact ⟨rfl, strips.settings, strips.files, strips.folder, started, strips.tables, cleared⟩

end Collector.StripsTo

structure Event.StripsTo (event other : Event) : Prop where
  step : other.step = event.step.stripped
  answer : other.answer = event.answer.stripped
  after : event.after.StripsTo other.after

/-- Stripped steps can be taken wherever the steps can, and lead to what is stripped. -/
theorem Trail.exists_stripped {before final : Collector} {events : List Event}
    (trail : Trail before events final) {start : Collector} (strips : before.StripsTo start) :
    ∃ others last, Trail start others last ∧ List.Forall₂ Event.StripsTo events others ∧
      final.StripsTo last := by
  induction trail generalizing start with
  | done => exact ⟨[], start, .done start, .nil, strips⟩
  | @step event events final valid rest ih =>
    obtain ⟨started, begun, acted⟩ := valid
    obtain ⟨started', begun', ready⟩ := strips.start begun
    obtain ⟨answer, after⟩ := ready.act (Collector.contains_start begun) event.step.action
    simp only [acted] at answer after
    let other : Event :=
      ⟨event.step.stripped, start, (started'.act event.step.thread event.step.action.stripped).1,
        (started'.act event.step.thread event.step.action.stripped).2⟩
    have valid' : other.Valid := ⟨started', begun', rfl⟩
    obtain ⟨others, last, onward, same, final⟩ := ih after
    exact ⟨other :: others, last, .step valid' onward, .cons ⟨rfl, answer, after⟩ same, final⟩

theorem Event.steps_stripped {events others : List Event}
    (same : List.Forall₂ Event.StripsTo events others) :
    others.map (·.step) = (events.map (·.step)).map .stripped := by
  induction same with
  | nil => rfl
  | cons strips _ ih => simp only [List.map_cons, strips.step, ih]

/-- A new collector has nothing to strip. -/
theorem Collector.stripsTo_create {settings : Settings} {files : Files} {folder : List String}
    {collector : Collector} (created : Collector.create settings files folder = .ok collector) :
    collector.StripsTo collector where
  settings := rfl
  files := rfl
  folder := rfl
  started := fun _ => rfl
  tables := by
    rw [(create_eq created).1]
    exact ⟨⟨rfl, rfl, by simp [Heap.object?]⟩, rfl⟩
  thread := by
    intro name
    have fresh : collector.thread name = {} :=
      Std.TreeMap.getD_eq_fallback_of_contains_eq_false (contains_create created name)
    rw [fresh]
    rfl

/-- The events agree on everything but reserved bits: on the answer, and afterwards on all that can
be seen of any thread and of the tables. -/
structure Event.SameButReserved (event other : Event) : Prop where
  answer : other.answer = event.answer.stripped
  depth : ∀ name, (other.after.status name).depth = (event.after.status name).depth
  accumulator : ∀ name,
    (other.after.status name).accumulator = (event.after.status name).accumulator.stored
  records : ∀ name, other.after.records name = event.after.records name
  load : ∀ name location, (other.after.engine name).load other.after.tables location =
    (event.after.engine name).load event.after.tables location
  objects : other.after.tables.heap.size = event.after.tables.heap.size
  statics : other.after.tables.statics.size = event.after.tables.statics.size
  contains : ∀ id, other.after.tables.heap.contains id = event.after.tables.heap.contains id
  flag : ∀ id, other.after.tables.heap.flag id = (event.after.tables.heap.flag id).stored

theorem Event.StripsTo.same {event other : Event} (strips : event.StripsTo other) :
    event.SameButReserved other := by
  have tables := strips.after.tables
  have engine (name : String) : other.after.engine name = (event.after.engine name).stripped :=
    congrArg Thread.engine (strips.after.thread name)
  have depth (name : String) :
      (other.after.engine name).depth = (event.after.engine name).depth := by
    rw [engine]
    rfl
  refine ⟨strips.answer, ?_, ?_, ?_, ?_, tables.heap.size, ?_, tables.heap.contains,
    tables.heap.flag⟩
  · intro name
    rw [Collector.status_eq, Collector.status_eq]
    exact depth name
  · intro name
    rw [Collector.status_eq, Collector.status_eq, engine]
    exact Window.accumulator_stripped _
  · intro name
    rw [Collector.records, strips.after.thread]
    rfl
  · intro name location
    by_cases idle : (event.after.engine name).depth = 0
    · rw [Engine.load_idle _ _ _ idle, Engine.load_idle _ _ _ ((depth name).trans idle)]
    · rw [Engine.load_active _ _ _ idle,
        Engine.load_active _ _ _ (fun none => idle ((depth name).symm.trans none)), engine,
        Engine.look_stripped _ tables]
  · rw [tables.statics]

/-! ## Where reserved bits come from -/

/-- Whether the call sets the flag of the object, or removes all flags. -/
def TableCall.setsFlag (id : ObjectId) : TableCall → Bool
  | setFlag other _ => other = id
  | clear => true
  | shadow .. | get .. | put .. | flag _ | resolve _ | contains _ | isEmpty | static _
    | putStatic .. | staticsEmpty
  | clearStatics => false

/-- A flag is found again, unless it makes no entry. -/
theorem Heap.flag_setFlag_self (heap : Heap) (id : ObjectId) (flag : Flag) :
    (heap.setFlag id flag).flag id = flag ∨ (heap.setFlag id flag).flag id = .concrete := by
  rw [flag_eq, setFlag, object_update, if_pos rfl]
  split
  · exact .inr rfl
  · exact .inl rfl

namespace Tables

variable (tables : Tables) {id : ObjectId}

theorem flag_call_kept {call : TableCall} (other : call.setsFlag id = false) :
    (tables.call call).2.heap.flag id = tables.heap.flag id := by
  cases call with
  | put object key shadow => exact Heap.flag_put _ _ _ _ _
  | setFlag object flag =>
    have apart : ¬ id = object := by simpa [TableCall.setsFlag, eq_comm] using other
    simp only [call, Heap.flag_eq, Heap.setFlag, Heap.object_update, apart, if_false]
  | clear => cases other
  | shadow | get | flag | resolve | contains | isEmpty | static | putStatic | staticsEmpty
    | clearStatics => rfl

/-- A flag without reserved bits leaves the object without them. -/
theorem flag_call_stored {call : TableCall} (clean : call.stripped = call)
    (sets : call.setsFlag id = true) :
    ((tables.call call).2.heap.flag id).stored = (tables.call call).2.heap.flag id := by
  cases call with
  | setFlag object flag =>
    obtain rfl : object = id := by simpa [TableCall.setsFlag] using sets
    have stored : flag.stored = flag := by simpa [TableCall.stripped] using clean
    simp only [call, Heap.flag_setFlag _ _ stored, if_true, stored]
  | clear => simp [call, Heap.clear, Heap.flag, Heap.object?, Flag.stored_eq]
  | shadow | get | put | flag | resolve | contains | isEmpty | static | putStatic | staticsEmpty
    | clearStatics => cases sets

theorem flag_apply_kept {calls : List TableCall}
    (others : ∀ call ∈ calls, call.setsFlag id = false) :
    (tables.apply calls).heap.flag id = tables.heap.flag id := by
  induction calls generalizing tables with
  | nil => rfl
  | cons call calls ih =>
    rw [apply_cons, ih _ fun other member => others other (by simp [member])]
    exact tables.flag_call_kept (others call (by simp))

theorem flag_apply_stored {calls : List TableCall} (clean : ∀ call ∈ calls, call.stripped = call)
    (sets : ∃ call ∈ calls, call.setsFlag id = true) :
    ((tables.apply calls).heap.flag id).stored = (tables.apply calls).heap.flag id := by
  induction calls generalizing tables with
  | nil => simp at sets
  | cons call calls ih =>
    rw [apply_cons]
    by_cases later : ∃ call ∈ calls, call.setsFlag id = true
    · exact ih _ (fun other member => clean other (by simp [member])) later
    · -- The first call is the last to set it.
      have others : ∀ call ∈ calls, call.setsFlag id = false := by
        intro other member
        by_contra set
        exact later ⟨other, member, by simpa using set⟩
      have first : call.setsFlag id = true := by
        obtain ⟨other, member, set⟩ := sets
        rcases List.mem_cons.mp member with rfl | member
        · exact set
        · exact absurd ⟨other, member, set⟩ later
      rw [flag_apply_kept _ others]
      exact tables.flag_call_stored (clean call (by simp)) first

end Tables

namespace Event.Valid

variable {event : Event} {id : ObjectId}

theorem flag_kept (valid : event.Valid)
    (others : ¬ ∃ call ∈ event.stores, call.setsFlag id = true) :
    event.after.tables.heap.flag id = event.before.tables.heap.flag id := by
  rw [valid.tables_eq]
  apply Tables.flag_apply_kept
  intro call member
  by_contra sets
  exact others ⟨call, member, by simpa using sets⟩

/-- An event that leaves an object with reserved bits sets its flag directly. -/
theorem setFlag_of_reserved (valid : event.Valid)
    (sets : ∃ call ∈ event.stores, call.setsFlag id = true)
    (reserved : (event.after.tables.heap.flag id).stored ≠ event.after.tables.heap.flag id) :
    event.step.action = .table (.setFlag id (event.after.tables.heap.flag id)) := by
  have unclean : ¬ ∀ call ∈ event.stores, call.stripped = call := by
    intro clean
    apply reserved
    rw [valid.tables_eq]
    exact Tables.flag_apply_stored _ clean sets
  have tables := valid.tables_eq
  unfold Event.stores at unclean sets tables
  cases action : event.step.action with
  | hook hook =>
    -- Hooks store nothing that could be stripped.
    exfalso
    apply unclean
    rw [action]
    cases event.hook? with
    | none => simp
    | some hook =>
      obtain ⟨same, -⟩ :=
        hook.stores_stripped event.holds (event.after.status event.step.thread).accumulator
      exact List.map_inj_left.mp (same.trans (List.map_id _).symm)
  | table call =>
    simp only [action, List.mem_singleton, exists_eq_left] at sets tables
    cases call with
    | setFlag object flag =>
      obtain rfl : object = id := by simpa [TableCall.setsFlag] using sets
      simp only [tables, Tables.apply_cons, Tables.apply_nil, Tables.call] at reserved ⊢
      rcases event.before.tables.heap.flag_setFlag_self object flag with same | concrete
      · rw [same]
      · -- If no entry was made for the flag, there are no reserved bits.
        rw [concrete, Flag.stored_eq] at reserved
        exact absurd rfl reserved
    | clear => simp [action, TableCall.stripped] at unclean
    | shadow | get | put | flag | resolve | contains | isEmpty | static | putStatic | staticsEmpty
      | clearStatics =>
      cases sets
  | resetShared => simp [action, TableCall.stripped] at unclean
  | records | instructionIds | texts | drain | clearTrace => simp [action] at unclean

end Event.Valid

/-- Reserved bits decide nothing. For every run there is the one in which each flag that is set
directly is set without its reserved bits; the two agree on all answers and on everything that can
be seen of threads and tables, apart from reserved bits, and they write the same files. And wherever
an object has a flag with reserved bits, this very flag was set directly, and since then the heap
was not cleared nor the object's flag set in any other way. -/
theorem Run.reserved_bits_inert (run : Run) :
    (∃ stripped : Run, stripped.settings = run.settings ∧ stripped.files = run.files ∧
      stripped.folder = run.folder ∧ stripped.steps = run.steps.map .stripped) ∧
    (∀ stripped : Run, stripped.settings = run.settings → stripped.files = run.files →
      stripped.folder = run.folder → stripped.steps = run.steps.map .stripped →
      List.Forall₂ Event.SameButReserved run.events stripped.events ∧
        stripped.final.files = run.final.files) ∧
    ∀ past event future, run.events = past ++ event :: future → ∀ id,
      (event.after.tables.heap.flag id).stored ≠ event.after.tables.heap.flag id →
      ∃ earlier source later, past ++ [event] = earlier ++ source :: later ∧
        source.step.action = .table (.setFlag id (event.after.tables.heap.flag id)) ∧
        ∀ other ∈ later, .clear ∉ other.stores ∧ ∀ flag, .setFlag id flag ∉ other.stores := by
  obtain ⟨others, last, trail, same, final⟩ :=
    run.trail.exists_stripped (Collector.stripsTo_create run.created)
  let found : Run := 
    ⟨run.settings, run.files, run.folder, run.collector, run.created, others, last, trail⟩
  have steps : found.steps = run.steps.map .stripped := Event.steps_stripped same
  refine ⟨⟨found, rfl, rfl, rfl, steps⟩, ?_, ?_⟩
  · intro stripped settings files folder asked
    obtain ⟨events, ended⟩ := stripped.unique found settings files folder (asked.trans steps.symm)
    rw [events, ended]
    exact ⟨same.imp fun _ _ strips => strips.same, final.files⟩
  · intro past event future parts id reserved
    have trail := run.trail_upto parts
    rcases trail.latest (fun collector => collector.tables.heap.flag id)
        (fun event => ∃ call ∈ event.stores, call.setsFlag id = true)
        (fun event member untouched => (trail.valid event member).flag_kept untouched) with
      ⟨-, same⟩ | ⟨earlier, source, later, cut, sets, untouched, same⟩
    · rw [same, (Collector.create_eq run.created).1, Flag.stored_eq] at reserved
      simp [Heap.flag, Heap.object?] at reserved
    · have valid := trail.valid source (by simp [cut])
      simp only [same] at reserved ⊢
      refine ⟨earlier, source, later, cut, valid.setFlag_of_reserved sets reserved, ?_⟩
      intro other member
      constructor
      · intro cleared
        exact untouched other member ⟨_, cleared, rfl⟩
      · intro flag set
        exact untouched other member ⟨_, set, by simp [TableCall.setsFlag]⟩

/-- The flag of object 7 is set with two reserved bits. It is read through a reference, and the
accumulator goes to object 9. -/
def Step.reserving : List Step :=
  [.table (.setFlag 7 ⟨7⟩), .hook .enter, .hook (.assign (.localVar 0) (.reference 7)),
    .hook (.read ⟨1, 0, .int 0, none⟩ (.localVar 0)),
    .hook (.write 1 (.localVar 1) (.reference (some 9))),
    .table (.flag 9)].map (⟨"main", "main", ·⟩)

theorem Run.reserved_bits_inert_reference :
    ∃ (run stripped : Run) (past : List Event) (event source : Event), run.steps = Step.reserving ∧
      stripped.steps = Step.reserving.map .stripped ∧
      run.events.map (·.answer) =
        [.table .done, .hook .done, .hook .done, .hook (.flag ⟨7⟩), .hook .done,
          .table (.flag .symbolic)] ∧
      List.Forall₂ Event.SameButReserved run.events stripped.events ∧ run.events = past ++ [event] ∧
      event.after.tables.heap.flag 7 = ⟨7⟩ ∧ source ∈ run.events ∧
      source.step.action = .table (.setFlag 7 ⟨7⟩) := by
  obtain ⟨run, past, event, -, steps, parts, seen, last⟩ :=
    Run.exists_watched_last (fun collector => collector.tables.heap.flag 7) {} {} Step.reserving
      [(.table .done, ⟨7⟩), (.hook .done, ⟨7⟩), (.hook .done, ⟨7⟩), (.hook (.flag ⟨7⟩), ⟨7⟩),
        (.hook .done, ⟨7⟩)]
      (.table (.flag .symbolic), ⟨7⟩) (by decide +kernel)
  obtain ⟨answer, flag⟩ := Prod.mk.inj last
  have answers := congrArg (List.map Prod.fst) seen
  rw [List.map_map] at answers
  obtain ⟨⟨stripped, settings, files, folder, asked⟩, agree, reserved⟩ := run.reserved_bits_inert
  obtain ⟨earlier, source, later, cut, direct, -⟩ :=
    reserved past event [] parts 7 (by rw [flag]; decide)
  refine ⟨run, stripped, past, event, source, steps, by rw [asked, steps], ?_,
    (agree stripped settings files folder asked).1, parts, flag, ?_, by rw [direct, flag]⟩
  · rw [parts, List.map_append, List.map_singleton, answer]
    exact congrArg (· ++ _) answers
  · rw [parts, cut]
    simp

end ShadowTrace
