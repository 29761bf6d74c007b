import ShadowTrace.Proofs.Hooks
import ShadowTrace.Proofs.Run

/-! # The trace is the list of symbolic windows

The calls of a thread and their results already say how its reads and writes fall into windows, one
for each execution of an instruction: no accumulator and no pending record is needed for that. The
records a thread makes are then exactly those of the windows that have ended and in which some read
was symbolic. -/

namespace ShadowTrace

/-- A hook as its thread sees it: the result, and how deep the stack is afterwards. -/
structure Call where
  hook : Hook
  result : Except Desync Reply
  depth : Nat

/-- What a read has seen. -/
structure Reading where
  position : UInt32
  value : Value
  flag : Flag
deriving DecidableEq

/-- A window as the calls of the thread show it, with something known of each of its reads. -/
structure Span (α : Type) where
  instruction : InstructionId
  reads : List α := []
deriving DecidableEq

namespace Call

/-- The instruction that a successful read or write belongs to. -/
def instruction? : Call → Option InstructionId
  | ⟨.read operand _, .ok _, _⟩ => some operand.instruction
  | ⟨.write instruction _ _, .ok _, _⟩ => some instruction
  | _ => none

/-- Whether the call ends the window of the instruction, other than by opening the next one. -/
def ends (call : Call) (id : InstructionId) : Bool :=
  match call with
  | ⟨.close closed, .ok _, _⟩ => closed = id
  | ⟨.exit, .ok _, depth⟩ => depth = 0
  | _ => false

def readings : Call → List Reading
  | ⟨.read operand _, .ok (.flag flag), _⟩ => [⟨operand.position, operand.value, flag⟩]
  | _ => []

end Call

namespace Span

variable {α : Type}

def add (span : Span α) (reads : List α) : Span α := { span with reads := span.reads ++ reads }

/-- The window of the instruction, which is the open one or a new one, and the window that
this ends. -/
def touch (current : Option (Span α)) (id : InstructionId) : Span α × Option (Span α) :=
  match current with
  | none => ({ instruction := id }, none)
  | some span => if span.instruction = id then (span, none) else ({ instruction := id }, some span)

/-- The open window after a call, and the window that the call ended. A reset throws the open
window away. -/
def next (current : Option (Span α)) (call : Call) (reads : List α) :
    Option (Span α) × Option (Span α) :=
  match call.instruction? with
  | some id => (some ((touch current id).1.add reads), (touch current id).2)
  | none =>
    if call.hook = .reset then (none, none)
    else if current.any fun span => call.ends span.instruction then (none, current)
    else (current, none)

/-- The windows that end during the calls, in the order they do. -/
def ended (current : Option (Span Reading)) : List Call → List (Span Reading)
  | [] => []
  | call :: calls =>
    (next current call call.readings).2.toList ++ ended (next current call call.readings).1 calls

def isSymbolic (span : Span Reading) : Bool := span.reads.any (·.flag.isSymbolic)

/-- The instruction with the operands that were concrete. -/
def record (span : Span Reading) : Record where
  instruction := span.instruction
  operands := (span.reads.filter (·.flag.isConcrete)).map fun read => ⟨read.position, read.value⟩

/-- The records of those windows in which some read was symbolic. -/
def records (spans : List (Span Reading)) : List Record :=
  (spans.filter (·.isSymbolic)).map (·.record)

end Span

/-- The call of the thread that the event is, if it is one. -/
def Event.call? (event : Event) (name : String) : Option Call :=
  if event.step.thread = name then
    match event.step.action, event.answer with
    | .hook hook, .failed desync => some ⟨hook, .error desync, (event.after.status name).depth⟩
    | .hook hook, .hook reply => some ⟨hook, .ok reply, (event.after.status name).depth⟩
    | _, _ => none
  else none

/-- The records that the event adds at the end of the thread's trace. -/
def Event.appended (event : Event) (name : String) : List Record :=
  (event.after.records name).drop (event.before.records name).length

def Run.calls (run : Run) (name : String) : List Call := run.events.filterMap (·.call? name)

/-- The records that the thread ever adds to its trace. -/
def Run.appended (run : Run) (name : String) : List Record := run.events.flatMap (·.appended name)

/-! ## The pending window -/

namespace Window

/-- The window shows the given reads: its record is theirs and its accumulator is symbolic if one
of them was. -/
def Shows (window : Window) : Option (Span Reading) → Prop
  | none => window.pending? = none
  | some span =>
    ∃ accumulator,
      window = pending accumulator span.record ∧ accumulator.isSymbolic = span.isSymbolic

theorem Shows.pending? {window : Window} {current : Option (Span Reading)}
    (shows : window.Shows current) :
    window.pending? = current.map (·.instruction) := by
  cases current with
  | none => exact shows
  | some span =>
    obtain ⟨accumulator, rfl, -⟩ := shows
    rfl

theorem Shows.finalize {window : Window} {current : Option (Span Reading)}
    (shows : window.Shows current) :
    window.finalize.1.Shows none ∧ window.finalize.2.toList = Span.records current.toList := by
  refine ⟨window.pending?_finalize, ?_⟩
  cases current with
  | none => cases window <;> simp_all [Shows, Window.finalize, Window.pending?, Span.records]
  | some span =>
    obtain ⟨accumulator, rfl, symbolic⟩ := shows
    cases some : span.isSymbolic <;> simp [Window.finalize, Span.records, symbolic, some]

theorem shows_start (id : InstructionId) : (start id).Shows (some { instruction := id }) :=
  ⟨.concrete, rfl, rfl⟩

/-- A read that is added to the window is shown by it. -/
theorem Shows.add {window : Window} {span : Span Reading} (shows : window.Shows (some span))
    (position : UInt32) (flag : Flag) (value : Value) :
    (window.add position flag value).Shows (some (span.add [⟨position, value, flag⟩])) := by
  obtain ⟨accumulator, rfl, symbolic⟩ := shows
  refine ⟨accumulator.merge flag, ?_, ?_⟩
  · cases concrete : flag.isConcrete <;>
      simp [Window.add, concrete, Span.add, Span.record, Record.add]
  · simp [Flag.isSymbolic_merge, symbolic, Span.isSymbolic, Span.add]

end Window

/-! ## One step -/

namespace Engine

/-- Moving to an instruction goes on with its window, or ends the window of another and opens
a new one. -/
theorem shows_observe (engine : Engine) (id : InstructionId) (location : Location)
    {current : Option (Span Reading)} (shows : engine.window.Shows current) :
    (engine.observe id location).1.window.Shows (some (Span.touch current id).1) ∧
      (engine.observe id location).2.toList = Span.records (Span.touch current id).2.toList := by
  have pending := shows.pending?
  unfold observe
  cases current with
  | none =>
    simp only [Option.map_none] at pending
    simp only [pending, reduceCtorEq, if_false]
    exact ⟨Window.shows_start id, shows.finalize.2⟩
  | some span =>
    simp only [Option.map_some] at pending
    -- Either the window goes on, or it ends here because another instruction has come.
    by_cases same : span.instruction = id
    · simp only [pending, same, if_true, Span.touch]
      exact ⟨shows, rfl⟩
    · simp only [pending, Option.some.injEq, same, if_false, Span.touch]
      exact ⟨Window.shows_start id, shows.finalize.2⟩

/-- The call that a hook of the engine is. -/
def call (engine : Engine) (tables : Tables) (hook : Hook) : Call where
  hook := hook
  result := (engine.step tables hook).result
  depth := (engine.step tables hook).engine.depth

/-- The engine keeps up with the windows that its calls show, and records one when it ends. -/
def KeepsUp (engine : Engine) (tables : Tables) (hook : Hook) (current : Option (Span Reading)) :
    Prop :=
  let call := engine.call tables hook
  (engine.step tables hook).engine.window.Shows (Span.next current call call.readings).1 ∧
    (engine.step tables hook).recorded.toList =
      Span.records (Span.next current call call.readings).2.toList

variable {engine : Engine} {tables : Tables} {current : Option (Span Reading)}

/-- A hook that leaves the window alone, and whose call says so. -/
private theorem keepsUp_idle {hook : Hook} (shows : engine.window.Shows current)
    (window : (engine.step tables hook).engine.window = engine.window)
    (recorded : (engine.step tables hook).recorded = none)
    (untouched : (engine.call tables hook).instruction? = none) (kept : hook ≠ .reset)
    (unended : ∀ id, (engine.call tables hook).ends id = false) :
    engine.KeepsUp tables hook current := by
  have next (reads : List Reading) :
      Span.next current (engine.call tables hook) reads = (current, none) := by
    have hook : (engine.call tables hook).hook ≠ .reset := kept
    simp [Span.next, untouched, hook, unended]
  simp only [KeepsUp, next, window, recorded]
  exact ⟨shows, rfl⟩

/-- A hook that ends the window, and whose call says so. -/
private theorem keepsUp_end {hook : Hook} (shows : engine.window.Shows current)
    (window : (engine.step tables hook).engine.window = engine.window.finalize.1)
    (recorded : (engine.step tables hook).recorded = engine.window.finalize.2)
    (untouched : (engine.call tables hook).instruction? = none) (kept : hook ≠ .reset)
    (ended : ∀ span ∈ current, (engine.call tables hook).ends span.instruction = true) :
    engine.KeepsUp tables hook current := by
  have next (reads : List Reading) :
      Span.next current (engine.call tables hook) reads = (none, current) := by
    have hook : (engine.call tables hook).hook ≠ .reset := kept
    cases current with
    | none => simp [Span.next, untouched, hook]
    | some span => simp [Span.next, untouched, hook, ended span rfl]
  simp only [KeepsUp, next, window, recorded]
  exact shows.finalize

private theorem keepsUp_exit (shows : engine.window.Shows current) :
    engine.KeepsUp tables .exit current := by
  rcases frames : engine.stack.frames with _ | ⟨frame, _ | ⟨caller, rest⟩⟩
  · have idle : engine.depth = 0 := by simp [depth, CallStack.depth, frames]
    apply keepsUp_idle shows <;> simp [call, exit_idle, idle, Call.instruction?, Call.ends]
  · -- The stack is empty afterwards, which the depth shows.
    apply keepsUp_end shows <;>
      simp [call, exit_last _ _ frames, Call.instruction?, Call.ends, depth, CallStack.depth]
  · apply keepsUp_idle shows <;>
      simp [call, exit_inner _ _ frames, Call.instruction?, Call.ends, depth, CallStack.depth]

private theorem keepsUp_close (id : InstructionId) (shows : engine.window.Shows current) :
    engine.KeepsUp tables (.close id) current := by
  by_cases pending : engine.window.pending? = some id
  · apply keepsUp_end shows <;>
      simp only [call, close_pending _ _ pending, Call.instruction?, Call.ends, ne_eq, reduceCtorEq,
        not_false_eq_true]
    -- The window that the calls show is the pending one, so it has the id that is closed.
    intro span member
    have instruction : some id = some span.instruction := by
      rw [← pending, shows.pending?, Option.mem_def.mp member]
      rfl
    simpa using instruction
  · obtain ⟨desync, failed⟩ := engine.close_other tables pending
    apply keepsUp_idle shows <;> simp [call, failed, Call.instruction?, Call.ends]

private theorem keepsUp_read (operand : Operand) (location : Location) (active : engine.depth ≠ 0)
    (shows : engine.window.Shows current) :
    engine.KeepsUp tables (.read operand location) current := by
  obtain ⟨observed, recorded⟩ := engine.shows_observe operand.instruction location shows
  simp only [KeepsUp, call, read_active _ _ _ _ active, Span.next, Call.instruction?, Call.readings,
    window_forward]
  exact ⟨observed.add operand.position _ operand.value, recorded⟩

private theorem keepsUp_write (id : InstructionId) (location : Location) (value : Written)
    (active : engine.depth ≠ 0) (shows : engine.window.Shows current) :
    engine.KeepsUp tables (.write id location value) current := by
  obtain ⟨observed, recorded⟩ := engine.shows_observe id location shows
  simp only [KeepsUp, call, write_active _ _ _ _ _ active, Span.next, Call.instruction?,
    Call.readings, window_place, Span.add, List.append_nil]
  exact ⟨observed, recorded⟩

/-- One hook: the window the engine holds after it is the one its calls show, and what it records is
what they show to have ended. -/
theorem keepsUp (hook : Hook) (shows : engine.window.Shows current) :
    engine.KeepsUp tables hook current := by
  by_cases failed : Needs hook ∧ engine.depth = 0
  · -- The access fails, and its call shows that.
    have result := engine.step_idle tables failed.1 failed.2
    apply keepsUp_idle shows <;> cases hook <;> simp_all [Needs, call, Call.instruction?, Call.ends]
  · have active (needs : Needs hook) : engine.depth ≠ 0 := fun idle => failed ⟨needs, idle⟩
    cases hook with
    | enter | enterWith =>
      apply keepsUp_idle shows <;> simp [step, enter, enterWith, call, Call.instruction?, Call.ends]
    | exit => exact keepsUp_exit shows
    | read operand location => exact keepsUp_read operand location (active trivial) shows
    | write id location value => exact keepsUp_write id location value (active trivial) shows
    | assign location shadow =>
      apply keepsUp_idle shows <;>
        simp [call, assign_active, active trivial, Call.instruction?, Call.ends]
    | markSymbolic location =>
      apply keepsUp_idle shows <;>
        simp [call, markSymbolic_active, active trivial, Call.instruction?, Call.ends]
    | resolve location =>
      apply keepsUp_idle shows <;>
        simp [call, resolve_active, active trivial, Call.instruction?, Call.ends]
    | close id => exact keepsUp_close id shows
    | reset => exact ⟨rfl, rfl⟩

end Engine

/-! ## Whole runs -/

/-- What clears the trace records nothing. -/
theorem Collector.recorded_of_clears (collector : Collector) (name : String) {action : Action}
    (clears : action.clears = true) : collector.recorded name action = none := by
  cases action with
  | hook hook =>
    obtain rfl : hook = .reset := by simpa [Action.clears] using clears
    rfl
  | _ => rfl

namespace Event.Valid

variable {event : Event}

theorem call?_eq (valid : event.Valid) (name : String) :
    event.call? name =
      match event.step.action with
      | .hook hook =>
        if event.step.thread = name then
          some ((event.before.engine name).call event.before.tables hook) else none
      | _ => none := by
  unfold Event.call?
  by_cases own : event.step.thread = name
  · subst own
    cases action : event.step.action with
    | hook hook =>
      have depth := congrArg Engine.depth (valid.engine event.step.thread)
      have answer := valid.answer
      simp only [action, if_true] at depth answer
      simp only [answer, if_true, Collector.status_eq, depth, Engine.call]
      cases ((event.before.engine event.step.thread).step event.before.tables hook).result <;> rfl
    | _ => simp
  · cases event.step.action <;> simp [own]

theorem appended_eq (valid : event.Valid) (name : String) :
    event.appended name =
      if name = event.step.thread then (event.before.recorded name event.step.action).toList
        else [] := by
  unfold Event.appended
  rw [valid.records]
  split
  next own =>
    subst own
    cases clears : event.step.action.clears with
    | false => simp
    | true => simp [event.before.recorded_of_clears event.step.thread clears]
  next => simp

/-- The trace after the event is the one before it, or an empty one, with the appended records. -/
theorem records_eq (valid : event.Valid) (name : String) :
    event.after.records name =
      (if event.step.thread = name ∧ event.step.action.clears = true then []
        else event.before.records name) ++
        event.appended name := by
  rw [valid.records, valid.appended_eq]
  by_cases own : name = event.step.thread
  · subst own
    simp
  · simp [own, Ne.symm own]

end Event.Valid

/-- From any point of a run on: given the window that is open there, the calls that follow show
which records are made. -/
theorem Trail.appended_eq {before final : Collector} {events : List Event}
    (trail : Trail before events final) (name : String) {current : Option (Span Reading)}
    (shows : (before.engine name).window.Shows current) :
    events.flatMap (·.appended name) =
      Span.records (Span.ended current (events.filterMap (·.call? name))) := by
  -- Along the run; the window that is open changes with every call of the thread.
  induction trail generalizing current with
  | done => rfl
  | @step event events final valid rest ih =>
    have call := valid.call?_eq name
    have engine := valid.engine name
    have appended := valid.appended_eq name
    cases action : event.step.action with
    | hook hook =>
      simp only [action] at call engine appended
      by_cases own : event.step.thread = name
      · subst own
        simp only [if_true, Collector.recorded] at call engine appended
        have kept :
            (event.before.engine event.step.thread).KeepsUp event.before.tables hook current :=
          Engine.keepsUp hook shows
        obtain ⟨still, recorded⟩ := kept
        rw [← engine] at still
        simp only [List.flatMap_cons, appended, recorded, List.filterMap_cons, call, ih still,
          Span.ended, Span.records, List.filter_append, List.map_append]
      · -- Another thread's hook is no call of this thread, and leaves its engine alone.
        simp only [own, if_false, Ne.symm own] at call engine appended
        rw [← engine] at shows
        simp [call, appended, ih shows]
    | _ =>
      simp only [action, Collector.recorded, Option.toList_none, ite_self] at call engine appended
      rw [← engine] at shows
      simp [call, appended, ih shows]

theorem Run.appended_eq (run : Run) (name : String) :
    run.appended name = Span.records (Span.ended none (run.calls name)) := by
  obtain ⟨-, engine, -⟩ := Collector.create_eq run.created
  have shows : (run.collector.engine name).window.Shows none := by rw [engine]; rfl
  exact run.trail.appended_eq name shows

/-- Over every run, the records that a thread adds to its trace are those of the windows its calls
show to have ended with a symbolic read among them, one for each, in the order they ended; and
nothing else ever changes the trace but emptying it. -/
theorem Run.appended_eq_symbolic_windows (run : Run) (name : String) :
    run.appended name = ((Span.ended none (run.calls name)).filter (·.isSymbolic)).map (·.record) ∧
      ∀ event ∈ run.events,
        event.after.records name =
          (if event.step.thread = name ∧ event.step.action.clears = true then []
            else event.before.records name) ++
            event.appended name :=
  ⟨run.appended_eq name, fun event member => (run.trail.valid event member).records_eq name⟩

end ShadowTrace
