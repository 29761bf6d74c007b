import Mathlib.Data.List.Forall2
import ShadowTrace.Proofs.Plain
import ShadowTrace.Proofs.Storage

/-! # The engine refines the plain machine

Forgetting how slots and tables are kept turns every state into one of the plain machine, and every
step into the same step there. So whatever the settings are, the answers are those of the plain
machine; only the number of objects that have an entry depends on them. -/

namespace ShadowTrace

def Frame.plain (frame : Frame) : Plain.Frame Shadow :=
  ⟨frame.receiver, frame.argument, frame.localVar⟩

def Tables.plain (tables : Tables) : Plain.Tables :=
  ⟨⟨tables.heap.shadow, tables.statics.get⟩, tables.heap.flag⟩

def Engine.cells (engine : Engine) : Plain.Cells Shadow where
  frames := engine.stack.frames.map (·.plain)
  callee := .ofSeed engine.seed
  returned := engine.returned.getD default

def Engine.plain (engine : Engine) : Plain.Engine := ⟨engine.cells, engine.window⟩

def Outcome.plain (outcome : Outcome) : Plain.Outcome :=
  ⟨outcome.result, outcome.engine.plain, outcome.tables.plain, outcome.recorded⟩

def Collector.plain (collector : Collector) : Plain.State where
  tables := collector.tables.plain
  engine := fun name => (collector.engine name).plain
  records := collector.records

/-! ## Tables -/

namespace Tables

variable {tables : Tables}

theorem plain_resolve (tables : Tables) (shadow : Shadow) :
    tables.plain.resolve shadow = tables.heap.resolve shadow := by
  cases shadow <;> rfl

theorem Valid.plain_put (valid : tables.Valid) (id : ObjectId) (key : Key) (shadow : Shadow) :
    Tables.plain { tables with heap := tables.heap.put id key shadow } =
      { tables.plain with shared := tables.plain.shared.put id key shadow } := by
  simp only [plain, Plain.Shared.put, Plain.Tables.mk.injEq, Plain.Shared.mk.injEq, and_true]
  refine ⟨?_, funext fun other => by simp⟩
  funext other place
  rw [valid.heap.shadow_put, Function.update_apply]
  by_cases same : other = id
  · subst same
    simp [Function.update_apply]
  · simp [same]

theorem plain_setFlag (tables : Tables) (id : ObjectId) {flag : Flag}
    (stored : flag.stored = flag) :
    Tables.plain { tables with heap := tables.heap.setFlag id flag } =
      tables.plain.setFlag id flag := by
  simp only [plain, Plain.Tables.setFlag, Plain.Tables.mk.injEq, Plain.Shared.mk.injEq, and_true]
  refine ⟨funext fun other => funext fun key => by simp, ?_⟩
  funext other
  rw [tables.heap.flag_setFlag id stored, Function.update_apply]

theorem plain_putStatic (tables : Tables) (field : FieldId) (shadow : Shadow) :
    Tables.plain { tables with statics := tables.statics.put field shadow } =
      { tables.plain with shared := tables.plain.shared.putStatic field shadow } := by
  simp only [plain, Plain.Shared.putStatic, Plain.Tables.mk.injEq, Plain.Shared.mk.injEq, true_and,
    and_true]
  funext other
  rw [tables.statics.get_put, Function.update_apply]

theorem Valid.plain_place (valid : tables.Valid) (location : Location) (shadow : Shadow) :
    (tables.place location shadow).plain = tables.plain.place location shadow := by
  cases location with
  | static field => exact tables.plain_putStatic field shadow
  | object id key => exact valid.plain_put id key shadow
  | _ => rfl

theorem plain_empty (skip : Bool) (limit : UInt32) :
    Tables.plain { heap := { skipConcrete := skip, denseLimit := limit } } = {} := by
  simp only [plain, Plain.Tables.mk.injEq, Plain.Shared.mk.injEq]
  refine ⟨⟨funext fun id => funext fun key => ?_, funext fun field => Statics.get_empty field⟩,
    funext fun id => ?_⟩
  · simp only [Heap.shadow, Heap.object?, Std.TreeMap.getElem?_emptyc]
    rfl
  · simp [Heap.flag, Heap.object?]

theorem plain_clear (tables : Tables) : tables.clear.plain = {} :=
  plain_empty tables.heap.skipConcrete tables.heap.denseLimit

end Tables

/-! ## Frames -/

@[simp] theorem Plain.Frame.ofSeed_empty : Plain.Frame.ofSeed {} = {} := by
  simp only [ofSeed, Option.getD_none, mk.injEq, and_true]
  exact ⟨rfl, funext fun index => Slots.get_empty index⟩

theorem Plain.Frame.ofSeed_setArgument (seed : Seed) (index : UInt32) (shadow : Shadow) :
    ofSeed (seed.setArgument index shadow) =
      { ofSeed seed with argument := Function.update (ofSeed seed).argument index shadow } := by
  simp only [ofSeed, Seed.setArgument, mk.injEq, true_and, and_true]
  funext other
  rw [Slots.get_set, Function.update_apply]

namespace Frame

@[simp] theorem plain_frame (seed : Seed) : seed.frame.plain = .ofSeed seed := by
  simp only [Frame.plain, Seed.frame, Frame.receiver, Plain.Frame.ofSeed, Plain.Frame.mk.injEq,
    true_and]
  exact ⟨rfl, funext fun index => Slots.get_empty index⟩

@[simp] theorem plain_empty : Frame.plain {} = {} := (plain_frame {}).trans Plain.Frame.ofSeed_empty

theorem plain_setArgument (frame : Frame) (index : UInt32) (shadow : Shadow) :
    (frame.setArgument index shadow).plain =
      { frame.plain with argument := Function.update frame.plain.argument index shadow } := by
  simp only [plain, Plain.Frame.mk.injEq]
  refine ⟨rfl, ?_, rfl⟩
  funext other
  rw [argument, setArgument, Slots.get_set, Function.update_apply]
  rfl

theorem plain_setLocal (frame : Frame) (index : UInt32) (shadow : Shadow) :
    (frame.setLocal index shadow).plain =
      { frame.plain with localVar := Function.update frame.plain.localVar index shadow } := by
  simp only [plain, Plain.Frame.mk.injEq]
  refine ⟨rfl, rfl, ?_⟩
  funext other
  rw [localVar, setLocal, Slots.get_set, Function.update_apply]
  rfl

end Frame

/-! ## Engines -/

namespace Engine

variable (engine : Engine) (tables : Tables)

theorem top_cells : engine.cells.top = engine.top.plain := by
  rcases frames : engine.stack.frames with _ | ⟨frame, rest⟩
  · simp [cells, Plain.Cells.top, top, frames]
  · simp [cells, Plain.Cells.top, top, frames]

theorem plain_look (location : Location) :
    engine.plain.cells.look tables.plain.shared location = engine.look tables location := by
  cases location <;> simp only [plain, Plain.Cells.look, look, top_cells] <;> rfl

theorem cells_mapTop (active : engine.depth ≠ 0) (change : Frame → Frame) :
    cells { engine with stack := engine.stack.mapTop change } =
      engine.cells.setTop (change engine.top).plain := by
  rcases frames : engine.stack.frames with _ | ⟨frame, rest⟩
  · simp [depth, CallStack.depth, frames] at active
  · simp [cells, CallStack.mapTop, Plain.Cells.setTop, top, frames]

theorem cells_place (active : engine.depth ≠ 0) (location : Location) (shadow : Shadow) :
    (engine.place location shadow).cells = engine.cells.place location shadow := by
  cases location with
  | this => exact (engine.cells_mapTop active _).trans (by rw [Plain.Cells.place, top_cells]; rfl)
  | argument index =>
    rw [place, cells_mapTop _ active, Frame.plain_setArgument, Plain.Cells.place, top_cells]
  | localVar index =>
    rw [place, cells_mapTop _ active, Frame.plain_setLocal, Plain.Cells.place, top_cells]
  | _ => rfl

theorem plain_place (active : engine.depth ≠ 0) (location : Location) (shadow : Shadow) :
    (engine.place location shadow).plain =
      { engine.plain with cells := engine.cells.place location shadow } := by
  rw [plain, cells_place _ active, window_place, plain]

theorem plain_observe (id : InstructionId) (location : Location) :
    engine.plain.observe id location = ((engine.observe id location).1.plain,
      (engine.observe id location).2) := by
  unfold Plain.Engine.observe observe
  have same : engine.plain.window.pending? = engine.window.pending? := rfl
  rw [same]
  split
  · rfl
  · by_cases back : location = .returned <;> simp [plain, cells, Plain.Cells.turn, back, finalize]

theorem cells_forward (shadow : Shadow) (position : Option Position) :
    (engine.forward shadow position).cells = engine.cells.forward shadow position := by
  rcases position with _ | (_ | index | _)
  · rfl
  · rfl
  · simp only [forward, cells, Plain.Cells.forward, Plain.Frame.ofSeed_setArgument]
  · rfl

theorem access_idle (idle : engine.depth = 0) (tables : Plain.Tables) (outcome : Plain.Outcome) :
    engine.plain.access tables outcome =
      { result := .error .noActiveFrame, engine := engine.plain, tables } := by
  have empty : engine.stack.frames = [] := List.length_eq_zero_iff.mp idle
  simp [Plain.Engine.access, plain, cells, empty]

theorem access_active (active : engine.depth ≠ 0) (tables : Plain.Tables)
    (outcome : Plain.Outcome) :
    engine.plain.access tables outcome = outcome := by
  rcases frames : engine.stack.frames with _ | ⟨frame, rest⟩
  · simp [depth, CallStack.depth, frames] at active
  · simp [Plain.Engine.access, plain, cells, frames]

private theorem plain_exit :
    (engine.step tables .exit).plain = engine.plain.step tables.plain .exit := by
  rcases frames : engine.stack.frames with _ | ⟨frame, _ | ⟨caller, rest⟩⟩
  · rw [exit_idle _ _ (by simp [depth, CallStack.depth, frames])]
    simp [Outcome.plain, plain, cells, Plain.Engine.step, Plain.Engine.exit, frames]
  · rw [exit_last _ _ frames]
    simp [Outcome.plain, plain, cells, Plain.Engine.step, Plain.Engine.exit,
      Plain.Cells.exit, frames]
  · rw [exit_inner _ _ frames]
    simp [Outcome.plain, plain, cells, Plain.Engine.step, Plain.Engine.exit,
      Plain.Cells.exit, frames]

variable {tables}

private theorem plain_write (valid : tables.Valid) (active : engine.depth ≠ 0) (id : InstructionId)
    (location : Location) (value : Written) :
    (engine.step tables (.write id location value)).plain =
      engine.plain.step tables.plain (.write id location value) := by
  have still : (engine.observe id location).1.depth ≠ 0 := by rwa [depth_observe]
  rw [write_active _ _ _ _ _ active]
  simp only [Plain.Engine.step, access_active _ active, Plain.Engine.write, plain_observe,
    Outcome.plain, plain_place _ still, (valid.written _ value).plain_place]
  rcases value with _ | _ | object
  · rfl
  · rfl
  · -- The flag that is passed on to the object has lost its reserved bits.
    have bits : (engine.observe id location).1.accumulator.stored.stored =
        (engine.observe id location).1.accumulator.stored := by
      rw [Flag.stored_eq, Flag.isSymbolic_stored, ← Flag.stored_eq]
    simp only [Written.shadow, Written.mark, tables.plain_setFlag object bits]
    rfl

private theorem plain_markSymbolic (valid : tables.Valid) (active : engine.depth ≠ 0)
    (location : Location) :
    (engine.step tables (.markSymbolic location)).plain =
      engine.plain.step tables.plain (.markSymbolic location) := by
  rw [markSymbolic_active _ _ _ active]
  simp only [Plain.Engine.step, access_active _ active, Plain.Engine.markSymbolic, Outcome.plain,
    plain_look]
  cases engine.look tables location with
  | reference id =>
    have symbolic : Flag.symbolic.stored = .symbolic := rfl
    simp only [mark, Tables.mark, tables.plain_setFlag id symbolic]
  | _ =>
    simp only [mark, Tables.mark, plain_place _ active, valid.plain_place, Plain.Engine.assign]
    rfl

/-- One hook of the engine is the same hook of the plain machine. -/
theorem plain_step (valid : tables.Valid) (hook : Hook) :
    (engine.step tables hook).plain = engine.plain.step tables.plain hook := by
  by_cases failed : Needs hook ∧ engine.depth = 0
  · -- Both machines refuse the access.
    rw [engine.step_idle tables failed.1 failed.2]
    cases hook <;> simp_all [Needs, Plain.Engine.step, access_idle, Outcome.plain]
  · have active (needs : Needs hook) : engine.depth ≠ 0 := fun idle => failed ⟨needs, idle⟩
    cases hook with
    | enter =>
      simp [step, enter, Outcome.plain, plain, cells, CallStack.push, Plain.Engine.step,
        Plain.Engine.enter, Plain.Cells.enter]
    | enterWith seed =>
      simp [step, enterWith, Outcome.plain, plain, cells, CallStack.push, Plain.Engine.step,
        Plain.Engine.enter, Plain.Cells.enter]
    | exit => exact engine.plain_exit tables
    | read operand location =>
      rw [read_active _ _ _ _ (active trivial)]
      simp only [Plain.Engine.step, access_active _ (active trivial), Plain.Engine.read,
        plain_observe, plain_look, Tables.plain_resolve, Outcome.plain]
      rw [plain, cells_forward, window_forward]
      -- Reading what was returned takes it away, on both sides.
      by_cases back : location = .returned <;> simp [plain, cells, Plain.Cells.take, back]
    | write id location value => exact engine.plain_write valid (active trivial) id location value
    | assign location shadow =>
      rw [assign_active _ _ _ _ (active trivial)]
      simp only [Plain.Engine.step, access_active _ (active trivial), Outcome.plain,
        Plain.Engine.assign, plain_place _ (active trivial), valid.plain_place]
      rfl
    | markSymbolic location => exact engine.plain_markSymbolic valid (active trivial) location
    | resolve location =>
      rw [resolve_active _ _ _ (active trivial)]
      simp only [Plain.Engine.step, access_active _ (active trivial), Plain.Engine.resolve,
        Outcome.plain, plain_look, Tables.plain_resolve]
    | close id =>
      simp only [step, close, Plain.Engine.step, Plain.Engine.close]
      have same : engine.plain.window = engine.window := rfl
      rw [same]
      cases engine.window.close id <;> rfl
    | reset => simp [step, Outcome.plain, plain, cells, Plain.Engine.step]

end Engine

/-! ## Direct accesses -/

/-- A flag that is set directly has no reserved bits. -/
def TableCall.Stored : TableCall → Prop
  | setFlag _ bits => bits.stored = bits
  | _ => True

def Action.Stored : Action → Prop
  | table asked => asked.Stored
  | _ => True

namespace Tables

variable {tables : Tables}

theorem Valid.call (valid : tables.Valid) (call : TableCall) : (tables.call call).2.Valid := by
  cases call with
  | put id key shadow => exact ⟨valid.heap.put id key shadow, valid.statics⟩
  | setFlag id flag => exact valid.setFlag id flag
  | clear => exact ⟨Heap.valid_empty _ _, valid.statics⟩
  | putStatic field shadow => exact ⟨valid.heap, valid.statics.put field shadow⟩
  | clearStatics => exact ⟨valid.heap, Statics.canonical_empty⟩
  | _ => exact valid

theorem Valid.plain_call (valid : tables.Valid) (call : TableCall) (stored : call.Stored) :
    (tables.call call).2.plain = (tables.plain.call call).2 ∧
      ∀ reply ∈ (tables.plain.call call).1, (tables.call call).1 = reply := by
  cases call with
  | put id key shadow =>
    exact ⟨valid.plain_put id key shadow, by simp [Tables.call, Plain.Tables.call]⟩
  | setFlag id flag =>
    exact ⟨tables.plain_setFlag id stored, by simp [Tables.call, Plain.Tables.call]⟩
  | putStatic field shadow =>
    exact ⟨tables.plain_putStatic field shadow, by simp [Tables.call, Plain.Tables.call]⟩
  | clear =>
    have cleared := tables.plain_clear
    simp only [plain, Tables.clear, Plain.Tables.mk.injEq, Plain.Shared.mk.injEq] at cleared
    refine ⟨?_, by simp [Tables.call, Plain.Tables.call]⟩
    simp only [Tables.call, Plain.Tables.call, plain, cleared.1.1, cleared.2]
  | clearStatics =>
    refine ⟨?_, by simp [Tables.call, Plain.Tables.call]⟩
    simp only [Tables.call, Plain.Tables.call, plain, Plain.Tables.mk.injEq, Plain.Shared.mk.injEq,
      true_and, and_true]
    funext field
    exact Statics.get_empty field
  | get id key =>
    refine ⟨rfl, ?_⟩
    simp only [Tables.call, Plain.Tables.call, plain_resolve, Option.mem_def, Option.some.injEq]
    exact fun reply replied => replied
  | resolve shadow =>
    refine ⟨rfl, ?_⟩
    simp only [Tables.call, Plain.Tables.call, plain_resolve, Option.mem_def, Option.some.injEq]
    exact fun reply replied => replied
  | _ => exact ⟨rfl, by simp [Tables.call, Plain.Tables.call, plain]⟩

end Tables

/-! ## Whole runs -/

/-- One event is the same step of the plain machine, with the answer that machine gives, if it
gives one. -/
theorem Event.Valid.plain {event : Event} (valid : event.Valid) (tables : event.before.tables.Valid)
    (stored : event.step.action.Stored) :
    event.after.tables.Valid ∧
      event.after.plain = (event.before.plain.act event.step.thread event.step.action).2 ∧
      ∀ answer ∈ (event.before.plain.act event.step.thread event.step.action).1,
        event.answer = answer := by
  have tablesAfter := valid.tables
  have engineAfter := funext valid.engine
  have recordsAfter := funext valid.records
  have answer := valid.answer
  cases action : event.step.action with
  | hook hook =>
    simp only [action] at tablesAfter engineAfter recordsAfter answer
    have step := (event.before.engine event.step.thread).plain_step tables hook
    simp only [Outcome.plain] at step
    refine ⟨by rw [tablesAfter]; exact Engine.valid_step _ tables hook, ?_, ?_⟩
    · simp only [Collector.plain, Plain.State.act, ← step, Plain.State.mk.injEq, tablesAfter,
        true_and]
      refine ⟨?_, ?_⟩
      · funext name
        rw [engineAfter, Function.update_apply]
        by_cases own : name = event.step.thread <;> simp [own]
      · funext name
        rw [recordsAfter, Function.update_apply]
        -- A reset empties the trace, any other hook adds what it recorded.
        by_cases reset : hook = .reset
        · subst reset
          simp [Action.clears, Collector.recorded, Engine.step]
        · by_cases own : name = event.step.thread <;>
            simp [Action.clears, reset, Collector.recorded, own]
    · simp only [Plain.State.act, Collector.plain, ← step, answer, Option.mem_def,
        Option.some.injEq]
      exact fun given same => same
  | table call =>
    rw [action] at stored
    have called := tables.plain_call call stored
    simp only [action, Action.clears, Collector.recorded]
      at tablesAfter engineAfter recordsAfter answer
    refine ⟨by rw [tablesAfter]; exact tables.call call, ?_, ?_⟩
    · simp [Collector.plain, Plain.State.act, tablesAfter, engineAfter, recordsAfter, called.1]
    · intro given member
      simp only [Plain.State.act, Collector.plain, Option.mem_def, Option.map_eq_some_iff] at member
      obtain ⟨reply, replied, rfl⟩ := member
      rw [answer, called.2 reply replied]
  | resetShared =>
    simp only [action, Action.clears, Collector.recorded]
      at tablesAfter engineAfter recordsAfter answer
    refine ⟨by rw [tablesAfter]; exact Tables.valid_clear _, ?_, by simp [Plain.State.act, answer]⟩
    simp [Collector.plain, Plain.State.act, tablesAfter, engineAfter, recordsAfter,
      Tables.plain_clear]
  | drain | clearTrace =>
    simp only [action, Action.clears, Collector.recorded]
      at tablesAfter engineAfter recordsAfter answer
    refine ⟨by rwa [tablesAfter], ?_, by simp [Plain.State.act, answer, Collector.plain]⟩
    simp only [Collector.plain, Plain.State.act, tablesAfter, engineAfter, recordsAfter,
      Plain.State.mk.injEq, true_and]
    funext name
    simp [Function.update_apply]
  | _ =>
    simp only [action, Action.clears, Collector.recorded]
      at tablesAfter engineAfter recordsAfter answer
    refine ⟨by rwa [tablesAfter], ?_, by simp [Plain.State.act, answer, Collector.plain]⟩
    simp [Collector.plain, Plain.State.act, tablesAfter, engineAfter, recordsAfter]

/-- The event shows what the plain machine reports. -/
structure Plain.Report.Matches (report : Plain.Report) (event : Event) : Prop where
  answer : ∀ answer ∈ report.answer, event.answer = answer
  accumulator : (event.after.status event.step.thread).accumulator = report.accumulator
  depth : (event.after.status event.step.thread).depth = report.depth
  records : event.after.records event.step.thread = report.records

theorem Trail.matches_plain {before final : Collector} {events : List Event}
    (trail : Trail before events final) (tables : before.tables.Valid)
    (stored : ∀ event ∈ events, event.step.action.Stored) :
    List.Forall₂ Plain.Report.Matches (before.plain.run (events.map (·.step))) events := by
  -- The tables stay valid along the run, which each step of the plain machine needs.
  induction trail with
  | done => exact .nil
  | @step event events final valid rest ih =>
    obtain ⟨tablesAfter, plain, answer⟩ := valid.plain tables (stored event (by simp))
    simp only [List.map_cons, Plain.State.run, ← plain]
    constructor
    · refine ⟨answer, ?_, ?_, rfl⟩
      · rw [Collector.status_eq]
        rfl
      · rw [Collector.status_eq]
        simp [Plain.State.report, Collector.plain, Engine.plain, Engine.cells, Engine.depth,
          CallStack.depth]
    · exact ih tablesAfter fun other member => stored other (by simp [member])

/-! ## Two settings -/

/-- Whether an action asks which objects have an entry. -/
def Action.asksEntries : Action → Bool
  | table (.contains _) | table .isEmpty => true
  | _ => false

def Event.status (event : Event) : Status := event.after.status event.step.thread

/-- Two events show the same, but for the number of objects that have an entry. -/
structure Event.Agrees (event other : Event) : Prop where
  answer : event.step.action.asksEntries = false → event.answer = other.answer
  status : { event.status with objects := 0 } = { other.status with objects := 0 }
  records : event.after.records event.step.thread = other.after.records other.step.thread

/-- What the plain machine leaves unanswered: which objects have an entry, and whether a static
field has one. -/
theorem Plain.State.act_eq_none {state : Plain.State} {name : String} {action : Action}
    (unanswered : (state.act name action).1 = none) (decided : action.asksEntries = false) :
    action = .table .staticsEmpty := by
  cases action with
  | table call =>
    cases call with
    | contains | isEmpty => cases decided
    | staticsEmpty => rfl
    | _ => cases unanswered
  | _ => cases unanswered

theorem Event.Valid.agrees {event other : Event} (valid : event.Valid) (otherValid : other.Valid)
    (step : event.step = other.step) (tables : event.before.tables.Valid)
    (otherTables : other.before.tables.Valid) (stored : event.step.action.Stored)
    (same : event.before.plain = other.before.plain) : event.Agrees other := by
  obtain ⟨tablesAfter, plain, answer⟩ := valid.plain tables stored
  obtain ⟨otherAfter, otherPlain, otherAnswer⟩ := otherValid.plain otherTables (step ▸ stored)
  rw [← step, ← same] at otherPlain otherAnswer
  have after : event.after.plain = other.after.plain := plain.trans otherPlain.symm
  refine ⟨?_, ?_, ?_⟩
  · intro decided
    cases given : (event.before.plain.act event.step.thread event.step.action).1 with
    | some reply => rw [answer reply given, otherAnswer reply given]
    | none =>
      -- The two tables of static fields hold the same fields, so they are empty together.
      have statics :=
        tables.statics.equiv otherTables.statics (congrArg (·.tables.shared.static) same)
      have asked := Plain.State.act_eq_none given decided
      rw [valid.answer, otherValid.answer, ← step, asked]
      simp only [Tables.call, Statics.isEmpty, statics.isEmpty_eq]
  · have statics :=
      tablesAfter.statics.equiv otherAfter.statics (congrArg (·.tables.shared.static) after)
    have engine := congrFun (congrArg (·.engine) after) event.step.thread
    have records := congrFun (congrArg (·.records) after) event.step.thread
    simp only [Collector.plain, Engine.plain, Plain.Engine.mk.injEq] at engine records
    have depth := congrArg (·.frames.length) engine.1
    simp only [Engine.cells, List.length_map] at depth
    simp only [Event.status, Collector.status_eq, ← step, Engine.accumulator, Engine.depth,
      CallStack.depth, depth, engine.2, records, Statics.size, statics.size_eq]
  · rw [← step]
    exact congrFun (congrArg (·.records) after) event.step.thread

theorem Trail.agrees {before final : Collector} {events : List Event}
    (trail : Trail before events final) {otherBefore otherFinal : Collector} {others : List Event}
    (otherTrail : Trail otherBefore others otherFinal)
    (steps : others.map (·.step) = events.map (·.step)) (tables : before.tables.Valid)
    (otherTables : otherBefore.tables.Valid) (stored : ∀ event ∈ events, event.step.action.Stored)
    (same : before.plain = otherBefore.plain) : List.Forall₂ Event.Agrees events others := by
  -- Both runs go on from the same plain state, however different their tables are.
  induction trail generalizing otherBefore others with
  | done =>
    obtain rfl := List.map_eq_nil_iff.mp steps
    exact .nil
  | @step event events final valid rest ih =>
    cases otherTrail with
    | done => cases steps
    | @step other others _ otherValid otherRest =>
      simp only [List.map_cons, List.cons.injEq] at steps
      have own := stored event (by simp)
      obtain ⟨tablesAfter, plain, -⟩ := valid.plain tables own
      obtain ⟨otherAfter, otherPlain, -⟩ := otherValid.plain otherTables (steps.1 ▸ own)
      refine .cons (valid.agrees otherValid steps.1.symm tables otherTables own same) ?_
      apply ih otherRest steps.2 tablesAfter otherAfter fun event member =>
        stored event (by simp [member])
      rw [plain, otherPlain, steps.1, same]

theorem Run.tables_valid (run : Run) : run.collector.tables.Valid := by
  rw [(Collector.create_eq run.created).1]
  exact ⟨Heap.valid_empty _ _, Statics.canonical_empty⟩

theorem Run.plain_collector (run : Run) : run.collector.plain = {} := by
  obtain ⟨tables, engine, records⟩ := Collector.create_eq run.created
  simp [Collector.plain, tables, engine, records, Tables.plain_empty, Engine.plain, Engine.cells]

/-- Whatever the settings, a run shows what the plain machine reports for its steps; so two runs of
the same steps under different settings show the same, but for the objects that have an entry. -/
theorem Run.refines_plain (run other : Run) (steps : other.steps = run.steps)
    (stored : ∀ step ∈ run.steps, step.action.Stored) :
    List.Forall₂ Plain.Report.Matches (Plain.State.run {} run.steps) run.events ∧
      List.Forall₂ Event.Agrees run.events other.events := by
  have own : ∀ event ∈ run.events, event.step.action.Stored :=
    fun event member => stored event.step (List.mem_map_of_mem member)
  constructor
  · rw [← run.plain_collector]
    exact run.trail.matches_plain run.tables_valid own
  · apply run.trail.agrees other.trail steps run.tables_valid other.tables_valid own
    rw [run.plain_collector, other.plain_collector]

/-- Stores that the settings decide how to keep, between direct accesses and hooks of two threads.
The second thread writes what is symbolic by then, the first one reads that back, and both have
records made. -/
def Step.sample : List Step :=
  [⟨"main", "main", .hook .enter⟩,
    ⟨"main", "main", .hook (.write 1 (.object 9 (.field 0)) .primitive)⟩,
    ⟨"main", "main", .table (.contains 9)⟩,
    ⟨"main", "main", .table (.put 9 (.element 3) .symbolic)⟩,
    ⟨"main", "main", .table (.setFlag 9 .symbolic)⟩,
    ⟨"other", "other", .hook .enter⟩,
    ⟨"other", "other", .hook (.assign (.argument 1) (.reference 9))⟩,
    ⟨"other", "other", .hook (.read ⟨2, 0, .int 5, none⟩ (.argument 1))⟩,
    ⟨"other", "other", .hook (.read ⟨2, 1, .int 6, none⟩ (.argument 0))⟩,
    ⟨"other", "other", .hook (.write 2 (.object 9 (.element 70000)) .primitive)⟩,
    ⟨"other", "other", .hook (.close 3)⟩,
    ⟨"other", "other", .hook (.close 2)⟩,
    ⟨"main", "main", .hook (.read ⟨4, 0, .int 7, none⟩ (.object 9 (.element 70000)))⟩,
    ⟨"main", "main", .hook (.write 4 (.localVar 2) .primitive)⟩,
    ⟨"main", "main", .hook (.read ⟨5, 0, .int 7, none⟩ (.localVar 2))⟩,
    ⟨"main", "main", .drain⟩,
    ⟨"other", "other", .records⟩]

/-- The answers to these steps. Only whether the object has an entry after the first store depends
on the settings. -/
def Step.sampleAnswers (contained : Bool) : List Answer :=
  [.hook .done, .hook .done, .table (.truth contained), .table .done, .table .done, .hook .done,
    .hook .done, .hook (.flag .symbolic), .hook (.flag .concrete), .hook .done,
    .failed (.mismatch (some 2) 3), .hook .done, .hook (.flag .symbolic), .hook .done,
    .hook (.flag .symbolic), .records [⟨4, []⟩], .records [⟨2, [⟨1, .int 6⟩]⟩]]

theorem Run.refines_plain_skipping :
    ∃ run other : Run, run.steps = Step.sample ∧ other.steps = run.steps ∧
      (∀ step ∈ run.steps, step.action.Stored) ∧
      run.events.map (·.answer) = Step.sampleAnswers false ∧
      other.events.map (·.answer) = Step.sampleAnswers true ∧
      List.Forall₂ Plain.Report.Matches (Plain.State.run {} run.steps) run.events ∧
      List.Forall₂ Event.Agrees run.events other.events := by
  obtain ⟨run, -, steps, answers⟩ :=
    Run.exists_of_answers {} {} Step.sample (Step.sampleAnswers false) (by decide +kernel)
  obtain ⟨other, -, steps', answers'⟩ :=
    Run.exists_of_answers { heap := { skipConcrete := false, denseLimit := 0 } } {} Step.sample
      (Step.sampleAnswers true) (by decide +kernel)
  have same : other.steps = run.steps := steps'.trans steps.symm
  have stored : ∀ step ∈ run.steps, step.action.Stored := by
    have symbolic : Flag.symbolic.stored = .symbolic := rfl
    rw [steps]
    simp [Step.sample, Action.Stored, TableCall.Stored, symbolic]
  obtain ⟨plain, agrees⟩ := Run.refines_plain run other same stored
  exact ⟨run, other, steps, same, stored, answers, answers', plain, agrees⟩

end ShadowTrace
