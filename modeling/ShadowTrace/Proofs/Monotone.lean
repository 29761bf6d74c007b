import ShadowTrace.Proofs.Refinement
import ShadowTrace.Proofs.Related

/-! # More marks never hide taint

Take a run and the same run with marks added to it anywhere. At every point the second state is the
first one with some concrete cells and flags raised to symbolic: a step keeps that so, since no hook
ever turns a symbolic operand into a concrete result, and an added mark only raises. So the original
steps have the same outcomes, and nothing symbolic is lost in what they give. The windows are a
matter of what the calls give, so they are the same windows, and each record of the second run has
at most the concrete operands it had. -/

namespace ShadowTrace

def Flag.Raised (flag other : Flag) : Prop := flag.isSymbolic = true → other.isSymbolic = true

/-- The same shadow, or a concrete one that has become symbolic. A reference stays what it is. -/
inductive Shadow.Raised : Shadow → Shadow → Prop
  | same (shadow : Shadow) : Raised shadow shadow
  | marked : Raised concrete symbolic

inductive Window.Raised : Window → Window → Prop
  | fresh : Raised fresh fresh
  | pending {flag flag' : Flag} {record record' : Record} (accumulator : flag.Raised flag')
      (instruction : record.instruction = record'.instruction) : Raised (pending flag record)
      (pending flag' record')
  | finalized (id : InstructionId) : Raised (finalized id) (finalized id)

/-- The same outcome, with a flag that stays symbolic if it was. -/
inductive Answer.Raised : Answer → Answer → Prop
  | failed (desync : Desync) : Raised (failed desync) (failed desync)
  | done : Raised (hook .done) (hook .done)
  | flag {given given' : Flag} (raised : given.Raised given') : Raised (hook (.flag given))
      (hook (.flag given'))

theorem Shadow.raised_ofFlag {flag other : Flag} (raised : flag.Raised other) :
    (ofFlag flag).Raised (ofFlag other) := by
  cases symbolic : flag.isSymbolic with
  | true =>
    rw [ofFlag, ofFlag, symbolic, raised symbolic]
    exact .same _
  | false =>
    -- Concrete before: whatever the flag is now, it has only been raised.
    cases marked : other.isSymbolic with
    | true => simpa [ofFlag, symbolic, marked] using Raised.marked
    | false => simpa [ofFlag, symbolic, marked] using Raised.same concrete

/-- What is not a reference can be raised to symbolic. -/
theorem Shadow.Raised.to_symbolic {shadow other : Shadow} (raised : shadow.Raised other)
    (value : ∀ id, other ≠ reference id) : shadow.Raised symbolic := by
  cases raised with
  | marked => exact .marked
  | same =>
    cases shadow with
    | concrete => exact .marked
    | symbolic => exact .same _
    | reference id => exact absurd rfl (value id)

namespace Window.Raised

variable {window other : Window}

theorem pending? (raised : window.Raised other) : window.pending? = other.pending? := by
  cases raised with
  | pending _ instruction => exact congrArg some instruction
  | _ => rfl

theorem accumulator (raised : window.Raised other) :
    window.accumulator.Raised other.accumulator := by
  cases raised with
  | pending accumulator => exact accumulator
  | _ => exact id

theorem start (id : InstructionId) : (Window.start id).Raised (Window.start id) :=
  .pending (fun same => same) rfl

theorem finalize (raised : window.Raised other) : window.finalize.1.Raised other.finalize.1 := by
  cases raised with
  | fresh => exact .fresh
  | pending _ instruction =>
    simp only [Window.finalize, instruction]
    exact .finalized _
  | finalized id => exact .finalized id

theorem add (raised : window.Raised other) (position : UInt32) {flag flag' : Flag}
    (read : flag.Raised flag') (value : Value) :
    (window.add position flag value).Raised (other.add position flag' value) := by
  cases raised with
  | fresh => exact .fresh
  | finalized id => exact .finalized id
  | @pending before before' record record' accumulator instruction =>
    refine .pending ?_ ?_
    · simp only [Flag.Raised, Flag.isSymbolic_merge, Bool.or_eq_true]
      exact Or.imp accumulator read
    · -- The operand may be in one record only, but the instruction is that of both.
      split <;> split <;> simpa [Record.add] using instruction

/-- Closing either fails on both sides with the same error or succeeds on both. -/
inductive Closed : Except Desync (Window × Option Record) →
    Except Desync (Window × Option Record) → Prop
  | error (desync : Desync) : Closed (.error desync) (.error desync)
  | ok {window other : Window} {recorded recorded' : Option Record} (after : window.Raised other) :
      Closed (.ok (window, recorded)) (.ok (other, recorded'))

theorem close (raised : window.Raised other) (id : InstructionId) :
    Closed (window.close id) (other.close id) := by
  have after := raised.finalize
  cases raised with
  | fresh => exact .error _
  | finalized last =>
    simp only [Window.close]
    split <;> exact .error _
  | pending _ instruction =>
    simp only [Window.close, instruction]
    split
    · exact .ok after
    · exact .error _

end Window.Raised

/-! ## One step -/

namespace Plain

structure Tables.Raised (tables other : Tables) : Prop where
  shared : tables.shared.Related Shadow.Raised other.shared
  flag : ∀ id, (tables.flag id).Raised (other.flag id)

structure Engine.Raised (engine other : Engine) : Prop where
  cells : engine.cells.Related Shadow.Raised other.cells
  window : engine.window.Raised other.window

structure Outcome.Raised (outcome other : Outcome) : Prop where
  result : (Answer.ofResult outcome.result).Raised (.ofResult other.result)
  engine : outcome.engine.Raised other.engine
  tables : outcome.tables.Raised other.tables

theorem raised_default : Shadow.Raised default default := .same _

namespace Tables.Raised

variable {tables other : Tables}

theorem resolve (raised : tables.Raised other) {shadow shadow' : Shadow}
    (cell : shadow.Raised shadow') :
    (tables.resolve shadow).Raised (other.resolve shadow') := by
  cases cell with
  | marked => exact fun _ => Flag.isSymbolic_symbolic
  | same =>
    cases shadow with
    | reference id => exact raised.flag id
    | _ => exact id

theorem place (raised : tables.Raised other) (location : Location) {shadow shadow' : Shadow}
    (stored : shadow.Raised shadow') :
    (tables.place location shadow).Raised (other.place location shadow') :=
  ⟨raised.shared.place location stored, raised.flag⟩

theorem setFlag (raised : tables.Raised other) (id : ObjectId) {flag flag' : Flag}
    (stored : flag.Raised flag') :
    (tables.setFlag id flag).Raised (other.setFlag id flag') :=
  ⟨raised.shared, related_update raised.flag id stored⟩

theorem call (raised : tables.Raised other) (call : TableCall) :
    (tables.call call).2.Raised (other.call call).2 := by
  cases call with
  | put id key shadow => exact raised.place (.object id key) (.same shadow)
  | setFlag id flag => exact raised.setFlag id fun symbolic => symbolic
  | clear => exact ⟨⟨fun _ _ => raised_default, raised.shared.static⟩, fun _ => id⟩
  | putStatic field shadow => exact raised.place (.static field) (.same shadow)
  | clearStatics => exact ⟨⟨raised.shared.object, fun _ => raised_default⟩, raised.flag⟩
  | _ => exact raised

end Tables.Raised

namespace Engine.Raised

variable {engine other : Engine} {tables tables' : Tables}

theorem observe (raised : engine.Raised other) (id : InstructionId) (location : Location) :
    (engine.observe id location).1.Raised (other.observe id location).1 := by
  unfold Engine.observe
  rw [raised.window.pending?]
  split
  · exact raised
  · exact ⟨raised.cells.turn raised_default location, .start id⟩

theorem enter (raised : engine.Raised other) (shared : tables.Raised tables')
    {frame frame' : Frame Shadow} (entered : frame.Related Shadow.Raised frame') :
    (engine.enter tables frame).Raised (other.enter tables' frame') :=
  ⟨.done, ⟨raised.cells.enter raised_default entered, raised.window⟩, shared⟩

theorem exit (raised : engine.Raised other) (shared : tables.Raised tables') :
    (engine.exit tables).Raised (other.exit tables') := by
  -- The stacks are equally deep, so the exit fails, ends the outermost call or returns to a caller
  -- on both sides.
  have popped := raised.cells.exit raised_default
  have frames := raised.cells.frames
  unfold Engine.exit
  generalize engine.cells.frames = here, other.cells.frames = there at frames
  match here, there, frames with
  | [], [], .nil => exact ⟨.failed _, raised, shared⟩
  | [_], [_], .cons _ .nil => exact ⟨.done, ⟨popped, raised.window.finalize⟩, shared⟩
  | _ :: _ :: _, _ :: _ :: _, .cons _ (.cons _ _) => exact ⟨.done, ⟨popped, raised.window⟩, shared⟩

theorem look (raised : engine.Raised other) (shared : tables.Raised tables') (location : Location) :
    (engine.cells.look tables.shared location).Raised (other.cells.look tables'.shared location) :=
  raised.cells.look raised_default shared.shared location

theorem read (raised : engine.Raised other) (shared : tables.Raised tables') (operand : Operand)
    (location : Location) :
    (engine.read tables operand location).Raised (other.read tables' operand location) := by
  have shadow := raised.look shared location
  have flag := shared.resolve shadow
  have observed := raised.observe operand.instruction location
  refine ⟨.flag flag, ⟨?_, ?_⟩, shared⟩
  · exact (observed.cells.take raised_default location).forward shadow operand.forward
  · exact observed.window.add operand.position flag operand.value

theorem assign (raised : engine.Raised other) (shared : tables.Raised tables') (location : Location)
    {shadow shadow' : Shadow} (stored : shadow.Raised shadow') :
    (engine.assign tables location shadow).Raised (other.assign tables' location shadow') :=
  ⟨.done, ⟨raised.cells.place raised_default location stored, raised.window⟩,
    shared.place location stored⟩

theorem write (raised : engine.Raised other) (shared : tables.Raised tables') (id : InstructionId)
    (location : Location) (value : Written) :
    (engine.write tables id location value).Raised (other.write tables' id location value) := by
  have observed := raised.observe id location
  have flag := observed.window.accumulator
  have value_stored := observed.assign shared location (Shadow.raised_ofFlag flag)
  rcases value with _ | _ | object
  · exact ⟨.done, value_stored.engine, value_stored.tables⟩
  · exact ⟨.done, value_stored.engine, value_stored.tables⟩
  · have stored : (engine.observe id location).1.window.accumulator.stored.Raised
        (other.observe id location).1.window.accumulator.stored := by
      simpa [Flag.Raised, Flag.isSymbolic_stored] using flag
    have reference :=
      observed.assign (shared.setFlag object stored) location (.same (.reference object))
    exact ⟨.done, reference.engine, reference.tables⟩

theorem markSymbolic (raised : engine.Raised other) (shared : tables.Raised tables')
    (location : Location) :
    (engine.markSymbolic tables location).Raised (other.markSymbolic tables' location) := by
  have shadow := raised.look shared location
  have symbolic := raised.assign shared location (.same .symbolic)
  unfold Engine.markSymbolic
  generalize engine.cells.look tables.shared location = here,
    other.cells.look tables'.shared location = there at shadow
  -- Raising never makes or breaks a reference, so both sides take the same branch.
  cases shadow with
  | marked => exact symbolic
  | same =>
    cases here with
    | reference id => exact ⟨.done, raised, shared.setFlag id fun same => same⟩
    | _ => exact symbolic

theorem close (raised : engine.Raised other) (shared : tables.Raised tables') (id : InstructionId) :
    (engine.close tables id).Raised (other.close tables' id) := by
  have closed := raised.window.close id
  unfold Engine.close
  generalize engine.window.close id = here, other.window.close id = there at closed
  cases closed with
  | error desync => exact ⟨.failed desync, raised, shared⟩
  | ok after => exact ⟨.done, ⟨raised.cells, after⟩, shared⟩

theorem access (raised : engine.Raised other) (shared : tables.Raised tables')
    {outcome outcome' : Outcome} (accessed : outcome.Raised outcome') :
    (engine.access tables outcome).Raised (other.access tables' outcome') := by
  have frames := raised.cells.frames
  unfold Engine.access
  generalize engine.cells.frames = here, other.cells.frames = there at frames
  match here, there, frames with
  | [], [], .nil => exact ⟨.failed _, raised, shared⟩
  | _ :: _, _ :: _, .cons _ _ => exact accessed

/-- The same hook on both sides. -/
theorem step (raised : engine.Raised other) (shared : tables.Raised tables') (hook : Hook) :
    (engine.step tables hook).Raised (other.step tables' hook) := by
  cases hook with
  | enter => exact raised.enter shared raised.cells.callee
  | enterWith seed => exact raised.enter shared ⟨.same _, fun _ => .same _, fun _ => .same _⟩
  | exit => exact raised.exit shared
  | read operand location => exact raised.access shared (raised.read shared operand location)
  | write id location value => exact raised.access shared (raised.write shared id location value)
  | assign location shadow =>
    exact raised.access shared (raised.assign shared location (.same shadow))
  | markSymbolic location => exact raised.access shared (raised.markSymbolic shared location)
  | resolve location =>
    exact raised.access shared ⟨.flag (shared.resolve (raised.look shared location)),
      raised, shared⟩
  | close id => exact raised.close shared id
  | reset => exact ⟨.done, ⟨Cells.related_empty raised_default, .fresh⟩, shared⟩

/-- A mark on the other side alone. It puts a symbolic value where there is one on this side that is
no reference, or sets the flag of an object. -/
theorem added_mark (raised : engine.Raised other) (shared : tables.Raised tables')
    (location : Location) :
    engine.Raised (other.step tables' (.markSymbolic location)).engine ∧
      tables.Raised (other.step tables' (.markSymbolic location)).tables := by
  have depth := raised.cells.depth
  have shadow := raised.look shared location
  simp only [Engine.step, Engine.access]
  split
  · exact ⟨raised, shared⟩
  next active =>
    unfold Engine.markSymbolic
    split
    next id _ =>
      have marked : (tables.flag id).Raised .symbolic := fun _ => Flag.isSymbolic_symbolic
      have flag := related_update shared.flag id marked
      simp only [Function.update_eq_self] at flag
      exact ⟨raised, shared.shared, flag⟩
    next value =>
      -- To mark one side is to store on both, what is there already on this side.
      have active : engine.cells.frames ≠ [] := by
        intro empty
        exact active (List.length_eq_zero_iff.mp (by rw [← depth, empty]; rfl))
      have symbolic := shadow.to_symbolic value
      have cells := raised.cells.place raised_default location symbolic
      have everywhere := shared.shared.place location symbolic
      rw [engine.cells.place_look tables.shared location active] at cells
      rw [engine.cells.shared_place_look tables.shared location] at everywhere
      exact ⟨⟨cells, raised.window⟩, everywhere, shared.flag⟩

end Engine.Raised

/-! ## Whole runs -/

structure State.Raised (state other : State) : Prop where
  tables : state.tables.Raised other.tables
  engine : ∀ name, (state.engine name).Raised (other.engine name)

theorem State.raised_empty : State.Raised {} {} :=
  ⟨⟨Shared.related_empty raised_default, fun _ => id⟩,
    fun _ => ⟨Cells.related_empty raised_default, .fresh⟩⟩

namespace State.Raised

variable {state other : State}

theorem act (raised : state.Raised other) (thread : String) (action : Action) :
    (state.act thread action).2.Raised (other.act thread action).2 := by
  cases action with
  | hook hook =>
    have outcome := (raised.engine thread).step raised.tables hook
    exact ⟨outcome.tables, related_update raised.engine thread outcome.engine⟩
  | table call => exact ⟨raised.tables.call call, raised.engine⟩
  | resetShared => exact ⟨⟨Shared.related_empty raised_default, fun _ => id⟩, raised.engine⟩
  | _ => exact ⟨raised.tables, raised.engine⟩

theorem added_mark (raised : state.Raised other) (thread : String) (location : Location) :
    state.Raised (other.act thread (.hook (.markSymbolic location))).2 := by
  obtain ⟨own, tables⟩ := (raised.engine thread).added_mark raised.tables location
  have engine := related_update raised.engine thread own
  simp only [Function.update_eq_self] at engine
  exact ⟨tables, engine⟩

end State.Raised

end Plain

/-- What is seen of the second event is raised from what is seen of the first. -/
structure Event.Raised (event other : Event) : Prop where
  step : event.step = other.step
  answer : ∀ hook, event.step.action = .hook hook → event.answer.Raised other.answer
  accumulator : ∀ name,
    (event.after.status name).accumulator.Raised (other.after.status name).accumulator
  depth : ∀ name, (event.after.status name).depth = (other.after.status name).depth

theorem Event.Valid.raised {event other : Event} (valid : event.Valid) (valid' : other.Valid)
    (step : event.step = other.step) (tables : event.before.tables.Valid)
    (tables' : other.before.tables.Valid) (stored : event.step.action.Stored)
    (before : event.before.plain.Raised other.before.plain) :
    event.Raised other ∧ event.after.plain.Raised other.after.plain := by
  obtain ⟨-, plain, answer⟩ := valid.plain tables stored
  obtain ⟨-, plain', answer'⟩ := valid'.plain tables' (step ▸ stored)
  have after : event.after.plain.Raised other.after.plain := by
    rw [plain, plain', ← step]
    exact before.act event.step.thread event.step.action
  refine ⟨⟨step, ?_, ?_, ?_⟩, after⟩
  · intro hook action
    -- The plain machine leaves no hook unanswered.
    have outcome := (before.engine event.step.thread).step before.tables hook
    rw [answer _ (by rw [action]; rfl), answer' _ (by rw [← step, action]; rfl)]
    exact outcome.result
  · intro name
    rw [Collector.status_eq, Collector.status_eq]
    exact (after.engine name).window.accumulator
  · intro name
    have depth := (after.engine name).cells.depth
    rw [Collector.status_eq, Collector.status_eq]
    simpa [Collector.plain, Engine.plain, Engine.cells, Engine.depth, CallStack.depth] using depth

/-- A step of a run, or a mark that is added to it. -/
inductive Planned where
  | original (step : Step)
  | mark (thread label : String) (location : Location)

namespace Planned

def step : Planned → Step
  | original step => step
  | mark thread label location => ⟨thread, label, .hook (.markSymbolic location)⟩

def original? : Planned → Option Step
  | original step => some step
  | mark .. => none

/-- The events of the original steps among those of the whole plan. -/
def kept : List Planned → List Event → List Event
  | original _ :: plan, event :: events => event :: kept plan events
  | mark .. :: plan, _ :: events => kept plan events
  | _, _ => []

end Planned

theorem Trail.raised (plan : List Planned) {before final : Collector} {events : List Event}
    (trail : Trail before events final) {before' final' : Collector} {events' : List Event}
    (trail' : Trail before' events' final')
    (original : events.map (·.step) = plan.filterMap (·.original?))
    (inserted : events'.map (·.step) = plan.map (·.step)) (tables : before.tables.Valid)
    (tables' : before'.tables.Valid) (stored : ∀ event ∈ events, event.step.action.Stored)
    (raised : before.plain.Raised before'.plain) :
    List.Forall₂ Event.Raised events (Planned.kept plan events') := by
  -- Along the plan: an original step is taken on both sides, an added mark on one.
  induction plan generalizing before events before' events' with
  | nil =>
    obtain rfl := List.map_eq_nil_iff.mp original
    exact .nil
  | cons planned plan ih =>
    cases trail' with
    | done => cases inserted
    | @step other others _ valid' rest' =>
      simp only [List.map_cons, List.cons.injEq] at inserted
      cases planned with
      | original step =>
        cases trail with
        | done => cases original
        | @step event events _ valid rest =>
          simp only [List.map_cons, List.filterMap_cons, Planned.original?, List.cons.injEq]
            at original
          have own := stored event (by simp)
          -- The next original step is the next event on both sides.
          have same : event.step = other.step := original.1.trans inserted.1.symm
          obtain ⟨seen, after⟩ := valid.raised valid' same tables tables' own raised
          refine .cons seen (ih rest rest' original.2 inserted.2 ?_ ?_ ?_ after)
          · exact (valid.plain tables own).1
          · exact (valid'.plain tables' (same ▸ own)).1
          · exact fun event member => stored event (by simp [member])
      | mark thread label location =>
        have marked : other.step = ⟨thread, label, .hook (.markSymbolic location)⟩ := inserted.1
        obtain ⟨tablesAfter, plain, -⟩ := valid'.plain tables' (by rw [marked]; trivial)
        refine ih trail rest' original inserted.2 tables tablesAfter stored ?_
        rw [plain, marked]
        exact raised.added_mark thread location

/-! ## Windows and records -/

/-- The same read, with a flag that stays symbolic if it was. -/
structure Reading.Raised (reading other : Reading) : Prop where
  position : reading.position = other.position
  value : reading.value = other.value
  flag : reading.flag.Raised other.flag

structure Call.Raised (call other : Call) : Prop where
  alike : call.Alike other
  readings : List.Forall₂ Reading.Raised call.readings other.readings

theorem Call.raised_refl (call : Call) : call.Raised call :=
  ⟨.refl call, List.forall₂_same.mpr fun _ _ => ⟨rfl, rfl, id⟩⟩

theorem Call.raised_flag (hook : Hook) {flag flag' : Flag} (raised : flag.Raised flag')
    (depth : Nat) :
    Call.Raised ⟨hook, .ok (.flag flag), depth⟩ ⟨hook, .ok (.flag flag'), depth⟩ := by
  refine ⟨⟨?_, .rfl, ?_⟩, ?_⟩
  · cases hook <;> rfl
  · cases hook <;> rfl
  · cases hook with
    | read operand location => exact .cons ⟨rfl, rfl, raised⟩ .nil
    | _ => exact .nil

/-- The call of an event is made of what is seen of it. -/
theorem Event.Raised.call? {event other : Event} (raised : event.Raised other) (name : String) :
    Option.Rel Call.Raised (event.call? name) (other.call? name) := by
  unfold Event.call?
  rw [← raised.step, ← raised.depth name]
  split
  · cases action : event.step.action with
    | hook hook =>
      have answer := raised.answer hook action
      generalize event.answer = here, other.answer = there at answer
      cases answer with
      | failed desync => exact .some (Call.raised_refl _)
      | done => exact .some (Call.raised_refl _)
      | flag given => exact .some (Call.raised_flag hook given _)
    | _ => exact .none
  · exact .none

namespace Span

/-- The window that is open after the calls. -/
def opened (current : Option (Span Reading)) : List Call → Option (Span Reading)
  | [] => current
  | call :: calls => opened (next current call call.readings).1 calls

/-- A mark belongs to no window and ends none. -/
theorem next_mark (current : Option (Span Reading)) {call : Call} {location : Location}
    (mark : call.hook = .markSymbolic location) :
    next current call call.readings = (current, none) := by
  obtain ⟨hook, result, depth⟩ := call
  obtain rfl : hook = .markSymbolic location := mark
  simp [next, Call.instruction?, Call.ends]

end Span

theorem Event.call?_mark {event : Event} {thread label : String} {location : Location}
    (marked : event.step = ⟨thread, label, .hook (.markSymbolic location)⟩) (name : String) :
    ∀ call ∈ event.call? name, call.hook = .markSymbolic location := by
  intro call member
  simp only [Event.call?, marked] at member
  by_cases own : thread = name
  · cases answer : event.answer with
    | failed desync =>
      obtain rfl : _ = call := by simpa [own, answer] using member
      rfl
    | hook reply =>
      obtain rfl : _ = call := by simpa [own, answer] using member
      rfl
    | _ => simp [own, answer] at member
  · simp [own] at member

/-- What is seen of the original steps decides the windows: added marks leave all of them
as they are. -/
theorem Planned.related_windows (plan : List Planned) {events others : List Event}
    (inserted : others.map (·.step) = plan.map (·.step))
    (raised : List.Forall₂ Event.Raised events (kept plan others)) (name : String)
    {current current' : Option (Span Reading)}
    (related : Option.Rel (Span.Related Reading.Raised) current current') :
    List.Forall₂ (Span.Related Reading.Raised)
      (Span.ended current (events.filterMap (·.call? name)))
        (Span.ended current' (others.filterMap (·.call? name))) ∧
      Option.Rel (Span.Related Reading.Raised)
        (Span.opened current (events.filterMap (·.call? name)))
        (Span.opened current' (others.filterMap (·.call? name))) := by
  -- Along the plan again, now with the windows that are open on both sides.
  induction plan generalizing events others current current' with
  | nil =>
    obtain rfl := List.map_eq_nil_iff.mp inserted
    cases raised
    exact ⟨.nil, related⟩
  | cons planned plan ih =>
    cases others with
    | nil => cases inserted
    | cons other others =>
      simp only [List.map_cons, List.cons.injEq] at inserted
      cases planned with
      | original step =>
        cases raised with
        | @cons event _ events _ first rest =>
          have call := first.call? name
          simp only [List.filterMap_cons]
          generalize event.call? name = here, other.call? name = there at call
          cases call with
          | none => exact ih inserted.2 rest related
          | some call =>
            obtain ⟨still, finished⟩ := Span.related_next related call.alike call.readings
            obtain ⟨ended, opened⟩ := ih inserted.2 rest still
            exact ⟨List.rel_append (Span.related_toList finished) ended, opened⟩
      | mark thread label location =>
        have rest := ih inserted.2 raised related
        have hook := Event.call?_mark inserted.1 name
        simp only [List.filterMap_cons]
        cases call : other.call? name with
        | none => exact rest
        | some call' =>
          -- The mark is a call of this thread, but belongs to none of its windows.
          have next := Span.next_mark current' (hook call' call)
          simp only [Span.ended, Span.opened, next]
          exact rest

namespace Span.Related

variable {span other : Span Reading}

theorem isSymbolic (related : span.Related Reading.Raised other)
    (symbolic : span.isSymbolic = true) :
    other.isSymbolic = true := by
  have reads := related.reads
  unfold Span.isSymbolic at symbolic ⊢
  generalize span.reads = here, other.reads = there at reads symbolic
  induction reads with
  | nil => exact symbolic
  | cons first _ ih =>
    simp only [List.any_cons, Bool.or_eq_true] at symbolic ⊢
    exact symbolic.imp first.flag ih

/-- A concrete operand of the raised window was one before. -/
theorem operands_sublist (related : span.Related Reading.Raised other) :
    other.record.operands.Sublist span.record.operands := by
  have reads := related.reads
  unfold Span.record
  generalize span.reads = here, other.reads = there at reads
  induction reads with
  | nil => exact .slnil
  | @cons reading raised _ _ first _ ih =>
    cases after : raised.flag.isSymbolic with
    | true =>
      -- Symbolic now: the operand is gone, if it was there.
      cases before : reading.flag.isSymbolic with
      | true => simpa [List.filter_cons, Flag.isConcrete, before, after] using ih
      | false => simpa [List.filter_cons, Flag.isConcrete, before, after] using ih.cons _
    | false =>
      -- Still concrete, so it was concrete before.
      have before : reading.flag.isSymbolic = false := by
        cases symbolic : reading.flag.isSymbolic with
        | true => exact absurd (first.flag symbolic) (by simp [after])
        | false => rfl
      simpa [List.filter_cons, Flag.isConcrete, before, after, first.position, first.value] using ih

end Span.Related

theorem Span.instructions_sublist {spans others : List (Span Reading)}
    (related : List.Forall₂ (Span.Related Reading.Raised) spans others) :
    ((Span.records spans).map (·.instruction)).Sublist
      ((Span.records others).map (·.instruction)) := by
  induction related with
  | nil => exact .slnil
  | @cons span other spans others first rest ih =>
    simp only [Span.records] at ih ⊢
    cases before : span.isSymbolic with
    | true =>
      have after := first.isSymbolic before
      simpa [List.filter_cons, before, after, Span.record, first.instruction] using ih
    | false =>
      cases after : other.isSymbolic with
      | true => simpa [List.filter_cons, before, after] using ih.cons _
      | false => simpa [List.filter_cons, before, after] using ih

/-- Taint is monotone in the marks. Take a run and one of the same steps with any marks added. Every
original step has the same outcome and loses nothing symbolic, in its answer or in an accumulator.
The windows of each thread are the same and raised; those that were recorded still are, and of a
window recorded in both runs the operands can only get fewer. -/
theorem Run.marks_raise (plan : List Planned) (run marked : Run)
    (original : run.steps = plan.filterMap (·.original?))
    (inserted : marked.steps = plan.map (·.step))
    (stored : ∀ step ∈ run.steps, step.action.Stored) :
    List.Forall₂ Event.Raised run.events (Planned.kept plan marked.events) ∧
      ∀ name,
        let windows := Span.ended none (run.calls name)
        let windows' := Span.ended none (marked.calls name)
        List.Forall₂ (fun window raised =>
            window.Related Reading.Raised raised ∧
              raised.record.operands.Sublist window.record.operands)
          windows windows' ∧
        Option.Rel (Span.Related Reading.Raised) (Span.opened none (run.calls name))
          (Span.opened none (marked.calls name)) ∧
        run.appended name = Span.records windows ∧ marked.appended name = Span.records windows' ∧
        ((run.appended name).map (·.instruction)).Sublist
          ((marked.appended name).map (·.instruction)) := by
  have raised : List.Forall₂ Event.Raised run.events (Planned.kept plan marked.events) := by
    refine run.trail.raised plan marked.trail original inserted run.tables_valid
      marked.tables_valid ?_ ?_
    · exact fun event member => stored event.step (List.mem_map_of_mem member)
    · rw [run.plain_collector, marked.plain_collector]
      exact Plain.State.raised_empty
  refine ⟨raised, fun name => ?_⟩
  obtain ⟨ended, opened⟩ := Planned.related_windows plan inserted raised name .none
  refine ⟨ended.imp fun _ _ related => ⟨related, related.operands_sublist⟩, opened,
    run.appended_eq name, marked.appended_eq name, ?_⟩
  rw [run.appended_eq, marked.appended_eq]
  exact Span.instructions_sublist ended

/-- Two operands of one instruction are read, of which one is symbolic; the other, a reference, has
its object marked in between. -/
def Planned.sample : List Planned :=
  [.original ⟨"main", "main", .hook .enter⟩,
    .original ⟨"main", "main", .hook (.markSymbolic (.localVar 0))⟩,
    .original ⟨"main", "main", .hook (.assign (.argument 0) (.reference 9))⟩,
    .original ⟨"main", "main", .hook (.read ⟨7, 0, .int 5, none⟩ (.localVar 0))⟩,
    .original ⟨"other", "other", .hook .enter⟩,
    .original ⟨"other", "other", .hook (.assign .this (.reference 9))⟩,
    .mark "other" "other" .this,
    .original ⟨"main", "main", .hook (.read ⟨7, 1, .int 6, none⟩ (.argument 0))⟩,
    .original ⟨"main", "main", .hook (.close 7)⟩]

/-- The added mark reaches the second operand through the alias, and every hook still succeeds. -/
theorem Run.marks_raise_alias :
    ∃ run marked : Run, run.steps = Planned.sample.filterMap (·.original?) ∧
      marked.steps = Planned.sample.map (·.step) ∧ (∀ step ∈ run.steps, step.action.Stored) ∧
      (run.events.map (·.answer))[6]? = some (.hook (.flag .concrete)) ∧
      (marked.events.map (·.answer))[7]? = some (.hook (.flag .symbolic)) ∧
      List.Forall₂ Event.Raised run.events (Planned.kept Planned.sample marked.events) ∧
      ((run.appended "main").map (·.instruction)).Sublist
        ((marked.appended "main").map (·.instruction)) := by
  obtain ⟨run, -, original, answers⟩ :=
    Run.exists_of_answers {} {} (Planned.sample.filterMap (·.original?))
      [.hook .done, .hook .done, .hook .done, .hook (.flag .symbolic), .hook .done, .hook .done,
        .hook (.flag .concrete), .hook .done] (by decide +kernel)
  obtain ⟨marked, -, inserted, answers'⟩ :=
    Run.exists_of_answers {} {} (Planned.sample.map (·.step))
      [.hook .done, .hook .done, .hook .done, .hook (.flag .symbolic), .hook .done, .hook .done,
        .hook .done, .hook (.flag .symbolic), .hook .done] (by decide +kernel)
  have stored : ∀ step ∈ run.steps, step.action.Stored := by
    rw [original]
    simp [Planned.sample, Planned.original?, Action.Stored]
  obtain ⟨raised, windows⟩ := Run.marks_raise Planned.sample run marked original inserted stored
  exact ⟨run, marked, original, inserted, stored, by rw [answers]; rfl,
    by rw [answers']; rfl, raised, (windows "main").2.2.2.2⟩

end ShadowTrace
