import ShadowTrace.Collector

/-! # Runs

A run of a collector, event by event. What an event does to the tables, to the engine of each thread
and to its records is said once here; everything about runs is derived from that, and files and
dumps never enter. -/

namespace ShadowTrace

/-- One step of a run: what was asked and answered, and the collector before and after. -/
structure Event where
  step : Step
  before : Collector
  answer : Answer
  after : Collector

/-- What the run gives for the event. -/
def Event.report (event : Event) : Answer × Status :=
  (event.answer, event.after.status event.step.thread)

/-- The event is what the collector does: it sets the thread up if that is new, and then acts. -/
def Event.Valid (event : Event) : Prop :=
  ∃ started, event.before.start event.step.thread event.step.label = .ok started ∧
    started.act event.step.thread event.step.action = (event.answer, event.after)

/-- The events lead from one collector to another. -/
inductive Trail : Collector → List Event → Collector → Prop
  | done (collector : Collector) : Trail collector [] collector
  | step {event : Event} {events : List Event} {final : Collector} (valid : event.Valid)
      (rest : Trail event.after events final) : Trail event.before (event :: events) final

namespace Trail

variable {before final : Collector} {events : List Event}

theorem valid (trail : Trail before events final) : ∀ event ∈ events, event.Valid := by
  induction trail with
  | done => simp
  | step valid rest ih => simpa using ⟨valid, ih⟩

theorem first_before (trail : Trail before events final) {event : Event}
    (first : events[0]? = some event) :
    event.before = before := by
  cases trail with
  | done => simp at first
  | step => simp_all

theorem next_before (trail : Trail before events final) {number : Nat} {event next : Event}
    (here : events[number]? = some event) (there : events[number + 1]? = some next) :
    next.before = event.after := by
  induction trail generalizing number with
  | done => simp at here
  | step valid rest ih =>
    cases number with
    | zero =>
      simp only [List.getElem?_cons_zero, Option.some.injEq, List.getElem?_cons_succ] at here there
      rw [rest.first_before there, here]
    | succ number =>
      simp only [List.getElem?_cons_succ] at here there
      exact ih here there

/-- A trail can be cut anywhere. -/
theorem append_iff {first rest : List Event} :
    Trail before (first ++ rest) final ↔
      ∃ middle, Trail before first middle ∧ Trail middle rest final := by
  induction first generalizing before with
  | nil =>
    constructor
    · intro trail
      exact ⟨before, .done before, trail⟩
    · rintro ⟨middle, start, trail⟩
      cases start
      exact trail
  | cons event first ih =>
    constructor
    · intro trail
      cases trail with
      | step valid onward =>
        obtain ⟨middle, start, trail⟩ := ih.mp onward
        exact ⟨middle, .step valid start, trail⟩
    · rintro ⟨middle, start, trail⟩
      cases start with
      | step valid onward => exact .step valid (ih.mpr ⟨middle, onward, trail⟩)

theorem uncons {event : Event} (trail : Trail before (event :: events) final) :
    event.before = before ∧ event.Valid ∧ Trail event.after events final := by
  cases trail with
  | step valid rest => exact ⟨rfl, valid, rest⟩

/-- The last event of a run, and the run before it. -/
theorem unsnoc {event : Event} (trail : Trail before (events ++ [event]) final) :
    Trail before events event.before ∧ event.Valid ∧ final = event.after := by
  obtain ⟨middle, first, last⟩ := append_iff.mp trail
  obtain ⟨rfl, valid, rest⟩ := last.uncons
  have ended {start stop : Collector} (trail : Trail start [] stop) : stop = start := by
    cases trail
    rfl
  exact ⟨first, valid, ended rest⟩

/-- Something that every event keeps unless it touches it is in the end what the latest event made
it that does; if there is none, it is what it was at the start. -/
theorem latest {α : Type} (trail : Trail before events final) (view : Collector → α)
    (Touches : Event → Prop)
    (kept : ∀ event ∈ events, ¬ Touches event → view event.after = view event.before) :
    ((∀ event ∈ events, ¬ Touches event) ∧ view final = view before) ∨
      ∃ earlier event later,
        events = earlier ++ event :: later ∧ Touches event ∧ (∀ other ∈ later, ¬ Touches other) ∧
        view final = view event.after := by
  induction trail with
  | done => exact .inl ⟨by simp, rfl⟩
  | @step event events final valid rest ih =>
    rcases ih fun other member => kept other (by simp [member]) with ⟨untouched, same⟩
      | ⟨earlier, last, later, rfl, touched⟩
    · -- Nothing later touches it, so this event is the latest, if it does.
      by_cases touches : Touches event
      · exact .inr ⟨[], event, events, rfl, touches, untouched, same⟩
      · refine .inl ⟨?_, same.trans (kept event (by simp) touches)⟩
        intro other member
        rcases List.mem_cons.mp member with rfl | member
        · exact touches
        · exact untouched other member
    · exact .inr ⟨event :: earlier, last, later, rfl, touched⟩

theorem unchanged {α : Type} (trail : Trail before events final) (view : Collector → α)
    (kept : ∀ event ∈ events, view event.after = view event.before) : view final = view before := by
  rcases trail.latest view (fun _ => False) (fun event member _ => kept event member) with
    ⟨-, same⟩ | ⟨_, _, _, _, touched, _⟩
  · exact same
  · exact touched.elim

/-- The steps determine the events. -/
theorem unique {events' : List Event} {final' : Collector} (trail : Trail before events final)
    (other : Trail before events' final') (steps : events.map (·.step) = events'.map (·.step)) :
    events = events' ∧ final = final' := by
  induction trail generalizing events' with
  | done =>
    obtain rfl := List.map_eq_nil_iff.mp steps.symm
    cases other
    exact ⟨rfl, rfl⟩
  | @step event events final valid rest ih =>
    obtain ⟨event', later, rfl, step, others⟩ := List.map_eq_cons_iff.mp steps.symm
    obtain ⟨before, valid', onward⟩ := other.uncons
    obtain ⟨started, begun, acted⟩ := valid
    obtain ⟨started', begun', acted'⟩ := valid'
    -- From the same collector the same step has one outcome only.
    rw [before, step, begun, Except.ok.injEq] at begun'
    rw [step, ← begun', acted, Prod.mk.injEq] at acted'
    obtain ⟨answer, after⟩ := acted'
    rw [← after] at onward
    obtain ⟨rfl, rfl⟩ := ih onward others.symm
    refine ⟨?_, rfl⟩
    obtain ⟨_, _, _, _⟩ := event
    obtain ⟨_, _, _, _⟩ := event'
    simp_all

end Trail

/-- A run from a new collector, in any folder of any tree of files. The settings are such that the
collector and all its threads can be set up. -/
structure Run where
  settings : Settings
  files : Files
  folder : List String
  collector : Collector
  created : Collector.create settings files folder = .ok collector
  events : List Event
  final : Collector
  trail : Trail collector events final

def Run.steps (run : Run) : List Step := run.events.map (·.step)

/-- The actions after which the trace of the thread starts anew. -/
def Action.clears : Action → Bool
  | .hook asked => asked = .reset
  | .drain | .clearTrace => true
  | _ => false

/-- The answer to a hook. -/
def Answer.ofResult : Except Desync Reply → Answer
  | .error desync => .failed desync
  | .ok reply => .hook reply

namespace Collector

def engine (collector : Collector) (name : String) : Engine := (collector.thread name).engine

def records (collector : Collector) (name : String) : List Record :=
  (collector.thread name).trace.records.toList

private theorem runAfter_eq_ok_iff (collector : Collector) (answers : List (Answer × Status))
    (steps : List Step) (reports : List (Answer × Status)) (final : Collector) :
    collector.runAfter answers steps = .ok (reports, final) ↔
      ∃ events, Trail collector events final ∧ events.map (·.step) = steps ∧
        reports = answers.reverse ++ events.map (·.report) := by
  -- The answers given so far are carried along, so they are general in the induction.
  induction steps generalizing collector answers with
  | nil =>
    simp only [runAfter, Except.ok.injEq, Prod.mk.injEq]
    constructor
    · rintro ⟨rfl, rfl⟩
      exact ⟨[], .done collector, rfl, by simp⟩
    · rintro ⟨events, trail, asked, rfl⟩
      obtain rfl := List.map_eq_nil_iff.mp asked
      cases trail
      simp
  | cons step steps ih =>
    rw [runAfter]
    cases start : collector.start step.thread step.label with
    | error error =>
      -- No trail begins with a thread that cannot be set up.
      simp only [reduceCtorEq, false_iff]
      rintro ⟨events, trail, asked, -⟩
      cases trail with
      | done => cases asked
      | step valid =>
        obtain ⟨started, begun, -⟩ := valid
        simp only [List.map_cons, List.cons.injEq] at asked
        obtain ⟨rfl, -⟩ := asked
        cases start.symm.trans begun
    | ok started =>
      simp only [ih]
      constructor
      · rintro ⟨events, trail, rfl, rfl⟩
        let event : Event :=
          ⟨step, collector, (started.act step.thread step.action).1,
            (started.act step.thread step.action).2⟩
        have valid : event.Valid := ⟨started, start, rfl⟩
        exact ⟨event :: events, .step valid trail, rfl, by simp [event, Event.report]⟩
      · rintro ⟨events, trail, asked, rfl⟩
        cases trail with
        | done => cases asked
        | @step event events _ valid rest =>
          obtain ⟨other, begun, acted⟩ := valid
          simp only [List.map_cons, List.cons.injEq] at asked
          obtain ⟨rfl, rfl⟩ := asked
          -- A step has one outcome only, so the first event of the trail is the one made here.
          obtain rfl : started = other := Except.ok.inj (start.symm.trans begun)
          rw [acted]
          exact ⟨events, rest, rfl, by simp [Event.report]⟩

/-- Running the steps succeeds exactly if there is a trail of events for them. -/
theorem run_eq_ok_iff (collector : Collector) (steps : List Step) (reports : List (Answer × Status))
    (final : Collector) :
    collector.run steps = .ok (reports, final) ↔
      ∃ events, Trail collector events final ∧ events.map (·.step) = steps ∧
        reports = events.map (·.report) := by
  simpa [run] using collector.runAfter_eq_ok_iff [] steps reports final

/-- The answers that a new collector in the root gives to the steps, if it and its threads can
be set up. -/
def answers? (settings : Settings) (files : Files) (steps : List Step) : Option (List Answer) := do
  let collector ← (create settings files []).toOption
  let (reports, _) ← (collector.run steps).toOption
  return reports.map (·.1)

/-- The answers to the steps, each with a view of the collector afterwards. -/
def watchFrom {α : Type} (view : Collector → α) (collector : Collector) :
    List Step → Option (List (Answer × α))
  | [] => some []
  | step :: steps => do
    let started ← (collector.start step.thread step.label).toOption
    let (answer, after) := started.act step.thread step.action
    let seen ← after.watchFrom view steps
    return (answer, view after) :: seen

/-- The same from a new collector. -/
def watch? {α : Type} (view : Collector → α) (settings : Settings) (files : Files)
    (steps : List Step) :
    Option (List (Answer × α)) := do
  let collector ← (create settings files []).toOption
  collector.watchFrom view steps

theorem exists_of_watchFrom {α : Type} (view : Collector → α) (collector : Collector)
    (steps : List Step) (seen : List (Answer × α))
    (watched : collector.watchFrom view steps = some seen) :
    ∃ events final, Trail collector events final ∧ events.map (·.step) = steps ∧
      events.map (fun event => (event.answer, view event.after)) = seen := by
  -- Every step that is watched is an event, and the rest is watched from where it leads.
  induction steps generalizing collector seen with
  | nil =>
    obtain rfl := Option.some.inj watched
    exact ⟨[], collector, .done collector, rfl, rfl⟩
  | cons step steps ih =>
    rw [watchFrom] at watched
    cases start : collector.start step.thread step.label with
    | error error => simp [start, Except.toOption] at watched
    | ok started =>
      simp only [start, Except.toOption, Option.bind_eq_bind, Option.bind_some,
        Option.bind_eq_some_iff] at watched
      obtain ⟨rest, later, here⟩ := watched
      obtain rfl := Option.some.inj here
      obtain ⟨events, final, trail, rfl, rfl⟩ := ih _ rest later
      let event : Event :=
        ⟨step, collector, (started.act step.thread step.action).1,
          (started.act step.thread step.action).2⟩
      have valid : event.Valid := ⟨started, start, rfl⟩
      exact ⟨event :: events, final, .step valid trail, rfl, rfl⟩

/-! ## What a step does -/

private theorem stack_create (settings : StackSettings) {stack : CallStack}
    (created : CallStack.create settings = .ok stack) : stack = {} := by
  unfold CallStack.create reserve at created
  split at created
  · cases created; rfl
  · cases created

private theorem records_create (settings : TraceSettings) (files : Files) (here : List String)
    (thread : String) {trace : Trace} {after : Files}
    (created : Trace.create settings files here thread = .ok (trace, after)) :
    trace.records = #[] := by
  unfold Trace.create reserve at created
  split at created
  · cases dump : settings.dump with
    | none =>
      rw [dump] at created
      cases created
      rfl
    | some dumpSettings =>
      simp only [dump, bind, Except.bind] at created
      cases opened : Dump.create dumpSettings files here thread with
      | error error => simp [opened] at created
      | ok made =>
        simp only [opened, pure, Except.pure, Except.ok.injEq, Prod.mk.injEq] at created
        rw [← created.1]
  · cases created

/-- A new collector has empty tables, and threads that have done nothing. -/
theorem create_eq {settings : Settings} {files : Files} {folder : List String}
    {collector : Collector} (created : Collector.create settings files folder = .ok collector) :
    collector.tables =
        { heap :=
            { skipConcrete := settings.heap.skipConcrete
              denseLimit := settings.heap.denseLimit } } ∧
      collector.engine = (fun _ => {}) ∧ collector.records = (fun _ => []) := by
  unfold Collector.create Tables.create at created
  cases checked : checkShards settings.heap.shards with
  | error error => simp [checked, bind, Except.bind] at created
  | ok =>
    simp only [checked, bind, Except.bind, pure, Except.pure, Except.ok.injEq] at created
    subst created
    -- A thread that was never set up reads as one that has done nothing.
    have fresh (name : String) : (({} : Std.TreeMap String Thread).getD name {}) = {} := by simp
    refine ⟨rfl, ?_, ?_⟩ <;> funext name <;> simp [engine, records, thread, fresh]

theorem contains_create {settings : Settings} {files : Files} {folder : List String}
    {collector : Collector} (created : Collector.create settings files folder = .ok collector)
    (name : String) :
    collector.threads.contains name = false := by
  unfold Collector.create at created
  cases tables : Tables.create settings.heap with
  | error error => simp [tables, bind, Except.bind] at created
  | ok made =>
    simp only [tables, bind, Except.bind, pure, Except.pure, Except.ok.injEq] at created
    subst created
    simp

/-- A thread that is there stays as it is; a new one needs a stack and a trace. -/
theorem start_eq_ok_iff {before started : Collector} {name label : String} :
    before.start name label = .ok started ↔
      before.threads.contains name = true ∧ started = before ∨
      before.threads.contains name = false ∧ ∃ stack trace files,
        CallStack.create before.settings.stack = .ok stack ∧
        Trace.create before.settings.trace before.files before.folder label = .ok (trace, files) ∧
        started =
          { before with
            files
            threads := before.threads.insert name { engine := { stack }, trace } } := by
  unfold Collector.start
  cases present : before.threads.contains name with
  | true => simp [pure, Except.pure, eq_comm]
  | false =>
    cases stacked : CallStack.create before.settings.stack with
    | error error => simp [bind, Except.bind]
    | ok stack =>
      cases traced : Trace.create before.settings.trace before.files before.folder label with
      | error error => simp [bind, Except.bind]
      | ok made =>
        obtain ⟨trace, files⟩ := made
        simp [bind, Except.bind, pure, Except.pure, and_assoc, eq_comm]

/-- Setting up a thread changes nothing that a hook depends on. -/
theorem start_eq {before started : Collector} {name label : String}
    (start : before.start name label = .ok started) :
    started.tables = before.tables ∧ started.engine = before.engine ∧
    started.records = before.records := by
  rcases start_eq_ok_iff.mp start with ⟨-, rfl⟩
    | ⟨absent, stack, trace, files, stacked, traced, rfl⟩
  · exact ⟨rfl, rfl, rfl⟩
  · -- The thread is new, so it read as the default one, and that is what is set up.
    have missing : before.thread name = {} := by
      simp only [Collector.thread]
      exact Std.TreeMap.getD_eq_fallback_of_contains_eq_false absent
    have added (other : String) :
        Collector.thread
            { before with
              files
              threads := before.threads.insert name { engine := { stack }, trace } } other =
          if other = name then { engine := { stack }, trace } else before.thread other := by
      by_cases same : other = name
      · simp [thread, same]
      · simp [thread, Std.TreeMap.getD_insert, same, Ne.symm same]
    refine ⟨rfl, ?_, ?_⟩
    · funext other
      simp only [engine, added]
      split
      next same => rw [same, missing, stack_create _ stacked]
      next => rfl
    · funext other
      simp only [records, added]
      split
      next same => rw [same, missing, records_create _ _ _ _ traced]
      next => rfl

theorem contains_start {before started : Collector} {name label : String}
    (start : before.start name label = .ok started) :
    started.threads.contains name := by
  rcases start_eq_ok_iff.mp start with ⟨present, rfl⟩ | ⟨-, stack, trace, files, -, -, rfl⟩
  · exact present
  · simp

theorem thread_setThread (collector : Collector) (name : String) (thread : Thread)
    (other : String) :
    (collector.setThread name thread).thread other = if other = name then thread
      else collector.thread other := by
  by_cases same : other = name
  · simp [Collector.thread, setThread, same]
  · simp [Collector.thread, setThread, Std.TreeMap.getD_insert, same, Ne.symm same]

/-- Putting a thread back as it was changes none. -/
theorem thread_setThread_self (collector : Collector) (name other : String) :
    (collector.setThread name (collector.thread name)).thread other = collector.thread other := by
  rw [thread_setThread]
  split
  next same => rw [same]
  next => rfl

private theorem records_append (trace : Trace) (files : Files) (recorded : Option Record) :
    (trace.append files recorded).1.records.toList = trace.records.toList ++ recorded.toList := by
  cases recorded with
  | none => simp [Trace.append]
  | some record => cases dump : trace.dump <;> simp [Trace.append, Trace.push, dump]

private theorem thread_hook (collector : Collector) (name : String) (hook : Hook) (other : String) :
    (collector.hook name hook).2.thread other =
      if other = name then ((collector.thread name).step collector.tables collector.files hook).2.1
      else collector.thread other :=
  collector.thread_setThread name _ other

theorem act_hook (collector : Collector) (name : String) (hook : Hook) :
    (collector.act name (.hook hook)).2 = (collector.hook name hook).2 := by
  rw [act]
  split <;> simp_all

/-- What a thread is asked to do sets up no other. -/
theorem contains_act {collector : Collector} (name : String) (action : Action)
    (present : collector.threads.contains name) (name' : String) :
    (collector.act name action).2.threads.contains name' = collector.threads.contains name' := by
  -- The thread is there already, so putting it back adds no name.
  have inserted (thread : Thread) :
      (collector.threads.insert name thread).contains name' = collector.threads.contains name' := by
    rw [Std.TreeMap.contains_insert]
    by_cases same : name = name'
    · subst same
      simp [present]
    · simp [same]
  cases action with
  | hook hook =>
    rw [act_hook]
    exact inserted _
  | drain | clearTrace => exact inserted _
  | table | resetShared | records | instructionIds | texts => rfl

theorem tables_act (collector : Collector) (name : String) (action : Action) :
    (collector.act name action).2.tables =
      match action with
      | .hook hook => ((collector.engine name).step collector.tables hook).tables
      | .table call => (collector.tables.call call).2
      | .resetShared => collector.tables.clear
      | _ => collector.tables := by
  cases action with
  | hook hook => rw [act_hook]; rfl
  | _ => rfl

theorem engine_act (collector : Collector) (name : String) (action : Action) (other : String) :
    (collector.act name action).2.engine other =
      match action with
      | .hook hook =>
        if other = name then ((collector.engine name).step collector.tables hook).engine
        else collector.engine other
      | _ => collector.engine other := by
  cases action with
  | hook hook =>
    simp only [act_hook, engine, thread_hook]
    split <;> rfl
  | drain | clearTrace =>
    -- The thread is replaced, by one with the same engine.
    simp only [act, engine, thread_setThread]
    split
    next same => rw [same]
    next => rfl
  | _ => rfl

/-- The record an action makes, if any. -/
def recorded (collector : Collector) (name : String) : Action → Option Record
  | .hook hook => ((collector.engine name).step collector.tables hook).recorded
  | _ => none

theorem records_act (collector : Collector) (name : String) (action : Action) (other : String) :
    (collector.act name action).2.records other =
      if other = name then
        (if action.clears then [] else collector.records other) ++
          (collector.recorded name action).toList
      else collector.records other := by
  cases action with
  | hook hook =>
    simp only [act_hook, records, thread_hook]
    split
    next own =>
      subst own
      by_cases reset : hook = .reset
      · subst reset
        simp [Thread.step, Trace.clear, Action.clears, recorded, Engine.step]
      · simp [Thread.step, reset, Action.clears, recorded, records_append, engine]
    next => rfl
  | drain | clearTrace =>
    simp only [act, records, thread_setThread]
    split <;> simp [Trace.clear, Action.clears, recorded]
  | _ =>
    simp [act, records, resetShared, Action.clears, recorded, thread]

theorem answer_act (collector : Collector) (name : String) (action : Action) :
    (collector.act name action).1 =
      match action with
      | .hook hook => .ofResult ((collector.engine name).step collector.tables hook).result
      | .table call => .table (collector.tables.call call).1
      | .resetShared | .clearTrace => .done
      | .records | .drain => .records (collector.records name)
      | .instructionIds => .ids ((collector.records name).map (·.instruction))
      | .texts => .texts ((collector.records name).map (·.text)) := by
  cases action with
  | hook hook =>
    have result : (collector.hook name hook).1 =
      ((collector.engine name).step collector.tables hook).result := rfl
    simp only [← result, act]
    rcases collector.hook name hook with ⟨_ | _, _⟩ <;> rfl
  | _ => rfl

theorem status_eq (collector : Collector) (name : String) :
    collector.status name =
      ⟨(collector.engine name).accumulator, (collector.engine name).depth,
        (collector.records name).length, collector.tables.heap.size,
        collector.tables.statics.size⟩ := by
  simp [status, engine, records, Trace.size]

end Collector

namespace Event.Valid

variable {event : Event}

theorem tables (valid : event.Valid) :
    event.after.tables =
      match event.step.action with
      | .hook hook => ((event.before.engine event.step.thread).step event.before.tables hook).tables
      | .table call => (event.before.tables.call call).2
      | .resetShared => event.before.tables.clear
      | _ => event.before.tables := by
  obtain ⟨started, start, acted⟩ := valid
  obtain ⟨tables, engine, -⟩ := Collector.start_eq start
  rw [← tables, ← engine, ← Collector.tables_act, acted]

theorem engine (valid : event.Valid) (name : String) :
    event.after.engine name =
      match event.step.action with
      | .hook hook =>
        if name = event.step.thread then
          ((event.before.engine event.step.thread).step event.before.tables hook).engine
        else event.before.engine name
      | _ => event.before.engine name := by
  obtain ⟨started, start, acted⟩ := valid
  obtain ⟨tables, engine, -⟩ := Collector.start_eq start
  rw [← tables, ← engine, ← Collector.engine_act, acted]

theorem records (valid : event.Valid) (name : String) :
    event.after.records name =
      if name = event.step.thread then
        (if event.step.action.clears then [] else event.before.records name) ++
          (event.before.recorded event.step.thread event.step.action).toList
      else event.before.records name := by
  obtain ⟨started, start, acted⟩ := valid
  obtain ⟨tables, engine, records⟩ := Collector.start_eq start
  -- What is recorded depends on the engine and the tables alone, and setting up changes neither.
  have recorded (action : Action) :
      event.before.recorded event.step.thread action =
        started.recorded event.step.thread action := by
    cases action <;> simp [Collector.recorded, tables, engine]
  rw [recorded, ← records, ← Collector.records_act, acted]

theorem answer (valid : event.Valid) :
    event.answer =
      match event.step.action with
      | .hook hook =>
        .ofResult ((event.before.engine event.step.thread).step event.before.tables hook).result
      | .table call => .table (event.before.tables.call call).1
      | .resetShared | .clearTrace => .done
      | .records | .drain => .records (event.before.records event.step.thread)
      | .instructionIds => .ids ((event.before.records event.step.thread).map (·.instruction))
      | .texts => .texts ((event.before.records event.step.thread).map (·.text)) := by
  obtain ⟨started, start, acted⟩ := valid
  obtain ⟨tables, engine, records⟩ := Collector.start_eq start
  rw [← tables, ← engine, ← records, ← Collector.answer_act, acted]

end Event.Valid

namespace Run

/-- A run can be cut at any of its events. -/
theorem cut (run : Run) {past future : List Event} {event : Event}
    (parts : run.events = past ++ event :: future) :
    Trail run.collector past event.before ∧ event.Valid ∧ Trail event.after future run.final := by
  have trail := run.trail
  rw [parts] at trail
  obtain ⟨_, before, from_event⟩ := Trail.append_iff.mp trail
  obtain ⟨rfl, valid, onward⟩ := from_event.uncons
  exact ⟨before, valid, onward⟩

/-- At the start no thread has done anything. -/
theorem idle (run : Run) (name : String) : run.collector.engine name = {} := by
  rw [(Collector.create_eq run.created).2.1]

/-- A run goes from its collector to what there is after any of its events. -/
theorem trail_upto (run : Run) {past future : List Event} {event : Event}
    (parts : run.events = past ++ event :: future) :
    Trail run.collector (past ++ [event]) event.after := by
  obtain ⟨before, valid, -⟩ := run.cut parts
  exact Trail.append_iff.mpr ⟨_, before, .step valid (.done _)⟩

/-- There is one run for given settings, files, folder and steps at most. -/
theorem unique (run other : Run) (settings : run.settings = other.settings)
    (files : run.files = other.files) (folder : run.folder = other.folder)
    (steps : run.steps = other.steps) : run.events = other.events ∧ run.final = other.final := by
  have created := run.created
  rw [settings, files, folder, other.created, Except.ok.injEq] at created
  have trail := other.trail
  rw [created] at trail
  exact run.trail.unique trail steps

/-- There is a run wherever a new collector gives answers. -/
theorem exists_of_answers (settings : Settings) (files : Files) (steps : List Step)
    (answers : List Answer) (given : Collector.answers? settings files steps = some answers) :
    ∃ run : Run,
      run.settings = settings ∧ run.steps = steps ∧ run.events.map (·.answer) = answers := by
  unfold Collector.answers? at given
  cases created : Collector.create settings files [] with
  | error error => simp [created, Except.toOption] at given
  | ok collector =>
    cases result : collector.run steps with
    | error error => simp [created, result, Except.toOption] at given
    | ok reached =>
      obtain ⟨reports, final⟩ := reached
      obtain ⟨events, trail, asked, rfl⟩ := (collector.run_eq_ok_iff steps reports final).mp result
      refine ⟨⟨settings, files, [], collector, created, events, final, trail⟩, rfl, asked, ?_⟩
      simpa [created, result, Except.toOption, Event.report, Function.comp_def] using given

/-- There is a run wherever a new collector can be watched, and it shows what is seen. -/
theorem exists_watched {α : Type} (view : Collector → α) (settings : Settings) (files : Files)
    (steps : List Step) (seen : List (Answer × α))
    (watched : Collector.watch? view settings files steps = some seen) :
    ∃ run : Run, run.settings = settings ∧ run.steps = steps ∧
      run.events.map (fun event => (event.answer, view event.after)) = seen := by
  unfold Collector.watch? at watched
  cases created : Collector.create settings files [] with
  | error error => simp [created, Except.toOption] at watched
  | ok collector =>
    simp only [created, Except.toOption, Option.bind_eq_bind, Option.bind_some] at watched
    obtain ⟨events, final, trail, asked, shown⟩ :=
      collector.exists_of_watchFrom view steps seen watched
    exact ⟨⟨settings, files, [], collector, created, events, final, trail⟩, rfl, asked, shown⟩

theorem exists_of_watch {α : Type} (view : Collector → α) (settings : Settings) (files : Files)
    (steps : List Step) (seen : List (Answer × α))
    (watched : Collector.watch? view settings files steps = some seen) :
    ∃ run : Run,
      run.steps = steps ∧
      run.events.map (fun event => (event.answer, view event.after)) = seen := by
  obtain ⟨run, -, asked, shown⟩ := exists_watched view settings files steps seen watched
  exact ⟨run, asked, shown⟩

/-- The same, with the last event by itself. -/
theorem exists_watched_last {α : Type} (view : Collector → α) (settings : Settings) (files : Files)
    (steps : List Step) (seen : List (Answer × α)) (last : Answer × α)
    (watched : Collector.watch? view settings files steps = some (seen ++ [last])) :
    ∃ (run : Run) (past : List Event) (event : Event), run.settings = settings ∧ run.steps = steps ∧
      run.events = past ++ [event] ∧
      past.map (fun event => (event.answer, view event.after)) = seen ∧
      (event.answer, view event.after) = last := by
  obtain ⟨run, given, asked, shown⟩ := exists_watched view settings files steps _ watched
  obtain ⟨past, rest, parts, before, after⟩ := List.map_eq_append_iff.mp shown
  obtain ⟨event, rfl, here⟩ := List.map_eq_singleton_iff.mp after
  exact ⟨run, past, event, given, asked, parts, before, here⟩

theorem exists_event (run : Run) (number : Nat) {step : Step} {answer : Answer}
    (asked : run.steps[number]? = some step)
    (answered : (run.events.map (·.answer))[number]? = some answer) :
    ∃ event, run.events[number]? = some event ∧ event.step = step ∧ event.answer = answer := by
  simp only [steps, List.getElem?_map, Option.map_eq_some_iff] at asked answered
  obtain ⟨event, there, rfl⟩ := asked
  obtain ⟨same, again, rfl⟩ := answered
  obtain rfl : event = same := Option.some.inj (there.symm.trans again)
  exact ⟨event, there, rfl, rfl⟩

end Run

end ShadowTrace
