import Mathlib.Data.List.Chain
import ShadowTrace.Proofs.Nesting
import ShadowTrace.Proofs.Refinement

/-! # Windows and activations

A window belongs to an instruction, not to the activation that executes it: entering or leaving a
call does not end it. So the accesses of a window are by one activation only as long as none of them
resumes it after a call was entered or left, with the instruction that was pending before. If one
does, as in a recursion that comes back to the same instruction, the flags of both activations meet
in one accumulator. -/

namespace ShadowTrace

/-- A successful read or write as its thread sees it. Activations are numbered as they begin. -/
structure Access where
  activation : Nat
  /-- Whether it goes on with the pending window and is the first access since a call was
  entered or left. -/
  resumed : Bool
  /-- What it has seen, if it is a read. -/
  reading : Option Reading
deriving DecidableEq

/-- The reads of a window. -/
def Span.readings (span : Span Access) : Span Reading where
  instruction := span.instruction
  reads := span.reads.filterMap (·.reading)

/-- What the calls of a thread show of its activations and its windows. -/
structure Activity where
  begun : Nat := 0
  /-- The activations that have not ended, the innermost first. -/
  active : List Nat := []
  /-- Whether a call was entered or left since the latest access. -/
  crossed : Bool := false
  window : Option (Span Access) := none

namespace Activity

def top (activity : Activity) : Nat := activity.active.headD 0

/-- The access that a call is, if it is one. -/
def accesses (activity : Activity) (call : Call) : List Access :=
  match call.instruction? with
  | some id =>
    [{ activation := activity.top
       resumed := activity.crossed && activity.window.any (·.instruction = id)
       reading := call.readings.head? }]
  | none => []

/-- The activations after a call. -/
def nest (activity : Activity) (call : Call) : Activity :=
  match call.hook with
  | .enter | .enterWith _ =>
    { activity with
      begun := activity.begun + 1
      active := activity.begun :: activity.active
      crossed := true }
  | .exit =>
    if call.result.isOk then { activity with active := activity.active.tail, crossed := true }
    else activity
  | .reset => { activity with active := [] }
  | .read .. | .write .. =>
    if call.result.isOk then { activity with crossed := false } else activity
  | .assign .. | .markSymbolic _ | .resolve _ | .close _ => activity

/-- What there is after a call, and the window that the call ended. -/
def next (activity : Activity) (call : Call) : Activity × Option (Span Access) :=
  ({ activity.nest call with
      window := (Span.next activity.window call (activity.accesses call)).1 },
    (Span.next activity.window call (activity.accesses call)).2)

/-- What there is after all the calls, and the windows that they ended. -/
def follow (activity : Activity) : List Call → Activity × List (Span Access)
  | [] => (activity, [])
  | call :: calls =>
    (((activity.next call).1.follow calls).1,
      (activity.next call).2.toList ++ ((activity.next call).1.follow calls).2)

end Activity

/-! ## One activation for a window -/

/-- The later access is by the same activation as the earlier one, unless it resumes the window. -/
def Access.Continues (earlier later : Access) : Prop :=
  later.resumed = false → later.activation = earlier.activation

theorem Access.by_one_of_isChain {accesses : List Access}
    (chain : accesses.IsChain Access.Continues)
    (fresh : ∀ access ∈ accesses, access.resumed = false) :
    ∃ activation, ∀ access ∈ accesses, access.activation = activation := by
  -- From the last access back: each is by the activation of the one that follows it.
  induction accesses with
  | nil => exact ⟨0, by simp⟩
  | cons access accesses ih =>
    refine ⟨access.activation, ?_⟩
    cases accesses with
    | nil => simp
    | cons following rest =>
      obtain ⟨continues, later⟩ := List.isChain_cons_cons.mp chain
      obtain ⟨activation, same⟩ := ih later fun other member => fresh other (by simp [member])
      have step : following.activation = access.activation := continues (fresh following (by simp))
      intro other member
      rcases List.mem_cons.mp member with rfl | member
      · rfl
      · rw [same other member, ← same following (by simp), step]

namespace Activity

/-- Each access of the open window continues the one before. The latest is by the activation on top,
unless a call was entered or left since. -/
def Sound (activity : Activity) : Prop :=
  ∀ span ∈ activity.window, span.reads.IsChain Access.Continues ∧
    (activity.crossed = false → ∀ latest ∈ span.reads.getLast?, latest.activation = activity.top)

variable {activity : Activity}

theorem nest_access {call : Call} {id : InstructionId} (access : call.instruction? = some id) :
    activity.nest call = { activity with crossed := false } := by
  obtain ⟨hook, result, depth⟩ := call
  cases hook <;> cases result <;> simp_all [Call.instruction?, nest, Except.isOk, Except.toBool]

/-- Calls that are no access leave the activation on top alone, or enter or leave one. -/
theorem nest_other {call : Call} (other : call.instruction? = none) (kept : call.hook ≠ .reset)
    (inside : (activity.nest call).crossed = false) :
    (activity.nest call).top = activity.top ∧ activity.crossed = false := by
  obtain ⟨hook, result, depth⟩ := call
  cases hook <;> cases result <;>
    simp_all [Call.instruction?, nest, top, Except.isOk, Except.toBool]

/-- An access goes on with the window or opens one. In the first case it is by the activation of the
latest access, or resumes the window. -/
theorem Sound.touch (sound : activity.Sound) {call : Call} {id : InstructionId}
    (access : call.instruction? = some id) :
    ((Span.touch activity.window id).1.add (activity.accesses call)).reads.IsChain
      Access.Continues := by
  simp only [accesses, access, Span.add]
  cases current : activity.window with
  | none => simp [Span.touch]
  | some span =>
    by_cases same : span.instruction = id
    · obtain ⟨chain, latest⟩ := sound span current
      simp only [Span.touch, same, if_true, Option.any_some, decide_true, Bool.and_true]
      refine chain.append (.singleton _) ?_
      intro earlier last later first
      obtain rfl := Option.some.inj (Option.mem_def.mp first)
      -- If a call was entered or left since, this access resumes the window, and nothing is
      -- claimed of it.
      intro uncrossed
      exact (latest uncrossed earlier last).symm
    · simp [Span.touch, same]

theorem Sound.next (sound : activity.Sound) (call : Call) :
    (activity.next call).1.Sound ∧ ∀ span ∈ (activity.next call).2,
      span.reads.IsChain Access.Continues := by
  have before : ∀ span ∈ activity.window, span.reads.IsChain Access.Continues := fun span member =>
    (sound span member).1
  unfold Activity.next Sound Span.next
  cases access : call.instruction? with
  | some id =>
    simp only [nest_access access, Option.mem_def, Option.some.injEq, forall_eq']
    refine ⟨⟨sound.touch access, ?_⟩, ?_⟩
    · -- The latest access is this one, and it is by the activation on top.
      simp [accesses, access, Span.add, top]
    · intro span ended
      apply before
      revert ended
      cases activity.window with
      | none => simp [Span.touch]
      | some current =>
        by_cases same : current.instruction = id
        · simp [Span.touch, same]
        · simp [Span.touch, same]
  | none =>
    by_cases reset : call.hook = .reset
    · simp [reset]
    · simp only [reset, if_false]
      split
      · exact ⟨by simp, before⟩
      · -- The window goes on; if no call was entered or left, the activation on top is still
        -- the same.
        refine ⟨?_, by simp⟩
        intro span member
        obtain ⟨chain, latest⟩ := sound span member
        refine ⟨chain, ?_⟩
        intro inside last final
        obtain ⟨still, uncrossed⟩ := nest_other access reset inside
        exact (latest uncrossed last final).trans still.symm

theorem Sound.follow (sound : activity.Sound) (calls : List Call) :
    (activity.follow calls).1.Sound ∧
      ∀ span ∈ (activity.follow calls).2, span.reads.IsChain Access.Continues := by
  induction calls generalizing activity with
  | nil => exact ⟨sound, by simp [Activity.follow]⟩
  | cons call calls ih =>
    obtain ⟨after, ended⟩ := sound.next call
    obtain ⟨final, later⟩ := ih after
    refine ⟨final, ?_⟩
    intro span member
    simp only [Activity.follow, List.mem_append, Option.mem_toList] at member
    rcases member with here | there
    · exact ended span here
    · exact later span there

end Activity

/-! ## The windows are those of the engine -/

theorem Span.readings_touch (current : Option (Span Access)) (id : InstructionId) :
    Span.touch (current.map (·.readings)) id =
      ((Span.touch current id).1.readings, (Span.touch current id).2.map (·.readings)) := by
  cases current with
  | none => rfl
  | some span =>
    by_cases same : span.instruction = id
    · simp [Span.touch, Span.readings, same]
    · simp [Span.touch, Span.readings, same]

/-- Whether more than its reads is known of a window does not matter to how it goes on. -/
theorem Span.readings_next (current : Option (Span Access)) (call : Call) {accesses : List Access}
    (reads : accesses.filterMap (·.reading) = call.readings) :
    Span.next (current.map (·.readings)) call call.readings =
      ((Span.next current call accesses).1.map (·.readings),
        (Span.next current call accesses).2.map (·.readings)) := by
  unfold Span.next
  cases call.instruction? with
  | some id =>
    simp only [Span.readings_touch, Option.map_some, Prod.mk.injEq, and_true]
    simp [Span.add, Span.readings, ← reads]
  | none =>
    have ends : (current.map (·.readings)).any (fun span => call.ends span.instruction) =
        current.any (fun span => call.ends span.instruction) := by
      cases current <;> rfl
    simp only [ends]
    split
    · rfl
    · split
      · rfl
      · rfl

namespace Activity

theorem readings_accesses (activity : Activity) (call : Call) :
    (activity.accesses call).filterMap (·.reading) = call.readings := by
  obtain ⟨hook, result, depth⟩ := call
  cases hook with
  | read operand location =>
    rcases result with desync | _ | flag <;> simp [accesses, Call.instruction?, Call.readings]
  | write => cases result <;> simp [accesses, Call.instruction?, Call.readings]
  | enter | enterWith | exit | assign | markSymbolic | resolve | close | reset =>
    cases result <;> simp [accesses, Call.instruction?, Call.readings]

/-- The engine is as deep as there are activations, and its window holds what the accesses
have read. -/
structure Fits (activity : Activity) (engine : Engine) : Prop where
  depth : engine.depth = activity.active.length
  shows : engine.window.Shows (activity.window.map (·.readings))

theorem length_nest {activity : Activity} {engine : Engine} (tables : Tables) (hook : Hook)
    (depth : engine.depth = activity.active.length) :
    (engine.step tables hook).engine.depth =
      (activity.nest (engine.call tables hook)).active.length := by
  have after := engine.depth_step tables hook
  cases hook with
  | enter | enterWith =>
    simp only [nest, Engine.call, after, List.length_cons]
    omega
  | exit =>
    simp only [nest, Engine.call, Engine.exit_isOk, after]
    by_cases idle : engine.depth = 0
    · simp [idle, ← depth]
    · simp only [ne_eq, idle, not_false_eq_true, decide_true, if_true, List.length_tail]
      rw [depth]
  | read | write =>
    simp only [nest, Engine.call, after, depth]
    split
    · rfl
    · rfl
  | assign | markSymbolic | resolve | close => exact after.trans depth
  | reset => rfl

theorem Fits.next {activity : Activity} {engine : Engine} (fits : activity.Fits engine)
    (tables : Tables) (hook : Hook) :
    (activity.next (engine.call tables hook)).1.Fits (engine.step tables hook).engine ∧
      (engine.step tables hook).recorded.toList =
        Span.records ((activity.next (engine.call tables hook)).2.map (·.readings)).toList := by
  have kept : engine.KeepsUp tables hook (activity.window.map (·.readings)) :=
    Engine.keepsUp hook fits.shows
  unfold Engine.KeepsUp at kept
  simp only [Span.readings_next _ _ (activity.readings_accesses (engine.call tables hook))] at kept
  exact ⟨⟨length_nest tables hook fits.depth, kept.1⟩, kept.2⟩

end Activity

/-- Along a run the activity of a thread keeps fitting its engine, and the windows that end are
those that are recorded. -/
theorem Trail.activity_fits {before final : Collector} {events : List Event}
    (trail : Trail before events final) {name : String} {activity : Activity}
    (fits : activity.Fits (before.engine name)) :
    (activity.follow (events.filterMap (·.call? name))).1.Fits (final.engine name) ∧
      events.flatMap (·.appended name) =
        Span.records ((activity.follow (events.filterMap (·.call? name))).2.map (·.readings)) := by
  -- Along the run; the activity moves with the calls of the thread and with nothing else.
  induction trail generalizing activity with
  | done => exact ⟨fits, rfl⟩
  | @step event events final valid rest ih =>
    rcases valid.seen name with ⟨call, engine, appended⟩ | ⟨hook, call, engine, appended⟩
    · simp only [List.filterMap_cons, call, List.flatMap_cons, appended, List.nil_append]
      apply ih
      rwa [engine]
    · obtain ⟨after, recorded⟩ := fits.next event.before.tables hook
      rw [← engine] at after
      obtain ⟨last, later⟩ := ih after
      simp only [List.filterMap_cons, call, Activity.follow]
      refine ⟨last, ?_⟩
      simp only [List.flatMap_cons, appended, recorded, later, Span.records, List.map_append,
        List.filter_append, Option.toList_map]

/-! ## What a write stores -/

theorem Plain.Cells.look_place {α : Type} [Inhabited α] (cells : Plain.Cells α)
    (shared : Plain.Shared α) (location : Location) (content : α) :
    (cells.place location content).look (shared.place location content) location = content := by
  cases location <;>
    simp [Plain.Cells.place, Plain.Cells.look, Plain.Cells.setTop, Plain.Cells.top,
      Plain.Shared.place, Plain.Shared.put, Plain.Shared.putStatic]

/-- What a write leaves at its location resolves to the flag, once this has been passed on. -/
theorem Tables.resolve_shadow (tables : Tables) (flag : Flag) (value : Written) :
    (value.mark tables flag).plain.resolve (value.shadow flag) = flag.stored := by
  have own : tables.plain.resolve (.ofFlag flag) = flag.stored := by
    rw [Flag.stored_eq, Shadow.ofFlag]
    cases flag.isSymbolic with
    | true => rfl
    | false => rfl
  rcases value with _ | _ | id
  · exact own
  · exact own
  · have bits : flag.stored.stored = flag.stored := by
      rw [Flag.stored_eq, Flag.isSymbolic_stored, ← Flag.stored_eq]
    simp only [Written.mark, Written.shadow, tables.plain_setFlag id bits]
    simp [Plain.Tables.resolve, Plain.Tables.setFlag]

namespace Engine

/-- A write leaves the accumulator at its location, less its reserved bits. -/
theorem resolve_written (engine : Engine) {tables : Tables} (valid : tables.Valid)
    (active : engine.depth ≠ 0) (id : InstructionId) (location : Location) (value : Written) :
    let outcome := engine.step tables (.write id location value)
    (outcome.engine.load outcome.tables location).map outcome.tables.heap.resolve =
      .ok outcome.engine.accumulator.stored := by
  intro outcome
  have deep : outcome.engine.depth ≠ 0 := by
    rw [engine.depth_step tables]
    exact active
  have still : (engine.observe id location).1.depth ≠ 0 := by rwa [depth_observe]
  -- On the plain machine what is placed is what is looked up, wherever it is.
  rw [load_active _ _ _ deep, Except.map, ← Tables.plain_resolve, ← plain_look]
  simp only [outcome, write_active _ _ _ _ _ active, plain_place _ still,
    (valid.written _ value).plain_place, accumulator, window_place]
  simp only [Plain.Tables.place, Plain.Cells.look_place]
  exact congrArg Except.ok (tables.resolve_shadow _ value)

end Engine

theorem Event.Valid.tables_valid {event : Event} (valid : event.Valid)
    (tables : event.before.tables.Valid) :
    event.after.tables.Valid := by
  rw [valid.tables]
  cases event.step.action with
  | hook hook => exact Engine.valid_step _ tables hook
  | table call => exact tables.call call
  | resetShared => exact Tables.valid_clear _
  | records | instructionIds | texts | drain | clearTrace => exact tables

theorem Trail.tables_valid {before final : Collector} {events : List Event}
    (trail : Trail before events final) (tables : before.tables.Valid) : final.tables.Valid := by
  induction trail with
  | done => exact tables
  | step valid rest ih => exact ih (valid.tables_valid tables)

theorem Run.written_eq (run : Run) {past future : List Event} {event : Event}
    (parts : run.events = past ++ event :: future) {name : String} (own : event.step.thread = name)
    {id : InstructionId} {location : Location} {value : Written}
    (asked : event.step.action = .hook (.write id location value))
    (done : event.answer = .hook .done) :
    ((event.after.engine name).load event.after.tables location).map
      event.after.tables.heap.resolve =
      .ok (event.after.status name).accumulator.stored := by
  subst own
  have trail := run.trail
  rw [parts] at trail
  obtain ⟨_, earlier, from_here⟩ := Trail.append_iff.mp trail
  obtain ⟨rfl, valid, -⟩ := from_here.uncons
  have tables := valid.tables
  have engine := valid.engine event.step.thread
  have answer := valid.answer
  simp only [asked, if_true] at tables engine answer
  have active : (event.before.engine event.step.thread).depth ≠ 0 := by
    intro idle
    have needs : Engine.Needs (.write id location value) := trivial
    rw [Engine.step_idle _ _ needs idle, done] at answer
    cases answer
  have written :=
    (event.before.engine event.step.thread).resolve_written
      (earlier.tables_valid run.tables_valid) active
    id location value
  rw [Collector.status_eq, tables, engine]
  exact written

/-- The accumulator is symbolic if a read of the window was. -/
theorem Window.Shows.isSymbolic {window : Window} {current : Option (Span Reading)}
    (shows : window.Shows current) :
    window.accumulator.isSymbolic = current.any (·.isSymbolic) := by
  cases current with
  | none => cases window <;> simp_all [Window.Shows, Window.pending?, Window.accumulator]
  | some span =>
    obtain ⟨accumulator, rfl, symbolic⟩ := shows
    exact symbolic

/-- At every point of a run, each read or write of a window is by the same activation as the one
before it in the window, unless it is the first since a call was entered or left and finds the
window still pending. So if no access is of that kind, all are by one activation. The windows are
those that decide: the records are those of the windows that have ended, the accumulator is symbolic
exactly if a read of the open window was, and it is what a write leaves at its location. -/
theorem Run.windows_by_one_activation (run : Run) (name : String) (past future : List Event)
    (event : Event) (parts : run.events = past ++ event :: future) :
    let (now, ended) := Activity.follow {} ((past ++ [event]).filterMap (·.call? name))
    (∀ window ∈ ended ++ now.window.toList,
        window.reads.IsChain (fun earlier later => later.resumed = false →
          later.activation = earlier.activation) ∧
        ((∀ access ∈ window.reads, access.resumed = false) →
          ∃ activation, ∀ access ∈ window.reads, access.activation = activation)) ∧
      (event.after.status name).depth = now.active.length ∧
      (past ++ [event]).flatMap (·.appended name) = Span.records (ended.map (·.readings)) ∧
      (event.after.status name).accumulator.isSymbolic = now.window.any (·.readings.isSymbolic) ∧
      ∀ id location value, event.step.thread = name →
        event.step.action = .hook (.write id location value) →
        event.answer = .hook .done →
        ((event.after.engine name).load event.after.tables location).map
          event.after.tables.heap.resolve =
          .ok (event.after.status name).accumulator.stored := by
  have fits : Activity.Fits {} (run.collector.engine name) := by
    rw [(Collector.create_eq run.created).2.1]
    exact ⟨rfl, rfl⟩
  obtain ⟨fits, appended⟩ := (run.trail_upto parts).activity_fits fits
  have empty : Activity.Sound {} := by simp [Activity.Sound]
  obtain ⟨sound, ended⟩ := empty.follow ((past ++ [event]).filterMap (·.call? name))
  refine ⟨?_, ?_, appended, ?_, ?_⟩
  · intro window member
    have chain : window.reads.IsChain Access.Continues := by
      rcases List.mem_append.mp member with closed | pending
      · exact ended window closed
      · exact (sound window (Option.mem_toList.mp pending)).1
    exact ⟨chain, Access.by_one_of_isChain chain⟩
  · rw [Collector.status_eq]
    exact fits.depth
  · rw [Collector.status_eq]
    have shown := fits.shows.isSymbolic
    rwa [Option.any_map] at shown
  · intro id location value own asked done
    exact run.written_eq parts own asked done

/-! ## A recursion -/

/-- The call that a step is, given its answer and the depth afterwards. -/
def Step.call? (step : Step) (name : String) (answer : Answer) (depth : Nat) : Option Call :=
  if step.thread = name then
    match step.action, answer with
    | .hook hook, .failed desync => some ⟨hook, .error desync, depth⟩
    | .hook hook, .hook reply => some ⟨hook, .ok reply, depth⟩
    | _, _ => none
  else none

theorem Run.calls_eq_of_seen (run : Run) (name : String) {steps : List Step}
    {seen : List (Answer × Nat)} (asked : run.steps = steps)
    (watched : run.events.map (fun event => (event.answer, (event.after.status name).depth)) =
      seen) :
    run.calls name = (steps.zip seen).filterMap fun (step, answer, depth) =>
      step.call? name answer depth := by
  subst asked watched
  rw [Run.steps, List.zip_map', List.filterMap_map]
  rfl

/-- A method calls itself while an instruction of it is pending that has read a symbolic value. In
the call the instruction is executed on concrete values, after a read that names another one or, for
5, the same. -/
def Step.recursion (first : InstructionId) : List Step :=
  [⟨"main", "main", .hook .enter⟩,
    ⟨"main", "main", .hook (.markSymbolic (.localVar 0))⟩,
    ⟨"main", "main", .hook (.read ⟨5, 0, .int 0, none⟩ (.localVar 0))⟩,
    ⟨"main", "main", .hook .enter⟩,
    ⟨"main", "main", .hook (.read ⟨first, 0, .int 7, none⟩ (.localVar 0))⟩,
    ⟨"main", "main", .hook (.read ⟨5, 1, .int 7, none⟩ (.localVar 0))⟩,
    ⟨"main", "main", .hook (.write 5 (.localVar 1) .primitive)⟩,
    ⟨"main", "main", .hook (.resolve (.localVar 1))⟩]

/-- The answers to these steps with the depth after each, given what the write stores. -/
def Step.recursionSeen (stored : Flag) : List (Answer × Nat) :=
  [(.hook .done, 1), (.hook .done, 1), (.hook (.flag .symbolic), 1), (.hook .done, 2),
    (.hook (.flag .concrete), 2), (.hook (.flag .concrete), 2), (.hook .done, 2),
    (.hook (.flag stored), 2)]

/-- If the call comes back to the instruction that is pending in its caller, then reads of both are
in one window. The call has read nothing symbolic, but what it stores is. -/
theorem Run.window_joins_activations :
    ∃ (run : Run) (window : Span Access) (caller callee : Access),
      run.steps = Step.recursion 5 ∧
      (run.events.map (·.answer)).getLast? = some (.hook (.flag .symbolic)) ∧
      (Activity.follow {} (run.calls "main")).1.window = some window ∧
      caller ∈ window.reads ∧ callee ∈ window.reads ∧ caller.reading = some ⟨0, .int 0, .symbolic⟩ ∧
      callee.reading = some ⟨0, .int 7, .concrete⟩ ∧ caller.activation ≠ callee.activation := by
  obtain ⟨run, steps, seen⟩ :=
    Run.exists_of_watch (fun collector => (collector.status "main").depth) {} {} (Step.recursion 5)
      (Step.recursionSeen .symbolic) (by decide +kernel)
  have answers := congrArg (List.map Prod.fst) seen
  rw [List.map_map] at answers
  have window : (Activity.follow {} (run.calls "main")).1.window =
      some ⟨5, [⟨0, false, some ⟨0, .int 0, .symbolic⟩⟩, ⟨1, true, some ⟨0, .int 7, .concrete⟩⟩,
        ⟨1, false, some ⟨1, .int 7, .concrete⟩⟩, ⟨1, false, none⟩]⟩ := by
    rw [run.calls_eq_of_seen "main" steps seen]
    rfl
  exact ⟨run, _, ⟨0, false, some ⟨0, .int 0, .symbolic⟩⟩,
    ⟨1, true, some ⟨0, .int 7, .concrete⟩⟩, steps, congrArg List.getLast? answers, window,
    by simp, by simp, rfl, rfl, by decide⟩

/-- With another instruction in between, the two executions of the same one are in windows of
their own. -/
theorem Run.windows_by_one_activation_recursion :
    ∃ (run : Run) (past : List Event) (event : Event),
      run.steps = Step.recursion 6 ∧ run.events = past ++ [event] ∧
      let (now, ended) := Activity.follow {} ((past ++ [event]).filterMap (·.call? "main"))
      (ended ++ now.window.toList).map (·.instruction) = [5, 6, 5] ∧
        (∀ window ∈ ended ++ now.window.toList, ∃ activation, ∀ access ∈ window.reads,
          access.activation = activation) ∧
        (past ++ [event]).flatMap (·.appended "main") = [{ instruction := 5 }] ∧
        (event.after.status "main").accumulator.isSymbolic = false := by
  obtain ⟨run, steps, seen⟩ :=
    Run.exists_of_watch (fun collector => (collector.status "main").depth) {} {} (Step.recursion 6)
      (Step.recursionSeen .concrete) (by decide +kernel)
  have some_event : run.events ≠ [] := by
    intro none
    rw [none] at seen
    cases seen
  have parts := (List.dropLast_concat_getLast some_event).symm
  have calls := run.calls_eq_of_seen "main" steps seen
  rw [Run.calls, parts] at calls
  obtain ⟨windows, -, records, accumulator, -⟩ := run.windows_by_one_activation "main" _ [] _ parts
  refine ⟨run, _, _, steps, parts, ?_⟩
  rw [calls] at windows records accumulator ⊢
  refine ⟨rfl, ?_, records, accumulator⟩
  intro window member
  apply (windows window member).2
  revert window
  decide

end ShadowTrace
