import ShadowTrace.Proofs.Windows

/-! # Calls are isolated

A hook reaches one frame of its thread at most, the one on top. So as long as a call is active, the
frames below its own are exactly what they were when it was entered, whatever is done in the
meantime and on whichever thread; and when the call returns, its caller finds everything in place.
How deep the stack is follows from the calls alone: each one entered adds a frame and each one left
removes a frame. -/

namespace ShadowTrace

/-! ## One hook -/

namespace Hook

def enters : Hook → Bool
  | enter | enterWith _ => true
  | exit | read .. | write .. | assign .. | markSymbolic _ | resolve _ | close _ | reset => false

/-- Whether the hook changes how many frames there are. -/
def nests : Hook → Bool
  | enter | enterWith _ | exit | reset => true
  | read .. | write .. | assign .. | markSymbolic _ | resolve _ | close _ => false

/-- What a hook can do to the frames of its thread, the innermost first. -/
inductive Moves : Hook → List Frame → List Frame → Prop
  | enter {hook : Hook} (enters : hook.enters = true) (seed : Seed) (frames : List Frame) :
      Moves hook frames (seed.frame :: frames)
  | exit (frames : List Frame) : Moves .exit frames frames.tail
  | reset (frames : List Frame) : Moves .reset frames []
  | stay {hook : Hook} (inside : hook.nests = false) (frames : List Frame) :
    Moves hook frames frames
  | top {hook : Hook} (inside : hook.nests = false) (frame changed : Frame) (below : List Frame) :
      Moves hook (frame :: below) (changed :: below)

/-- The frames below a call that stays active are not reached. -/
theorem Moves.above {hook : Hook} {frames after newer older : List Frame}
    (moves : hook.Moves frames after) (shape : frames = newer ++ older) (active : newer ≠ [])
    (deep : older.length < after.length) :
    ∃ newer', newer' ≠ [] ∧ after = newer' ++ older := by
  obtain ⟨frame, rest, rfl⟩ := List.exists_cons_of_ne_nil active
  cases moves with
  | enter _ seed => exact ⟨seed.frame :: frame :: rest, by simp, by simp [shape]⟩
  | exit =>
    -- The top frame is left; as the depth stays above that of the older frames, it was not the last
    -- newer one.
    refine ⟨rest, ?_, by simp [shape]⟩
    rintro rfl
    simp [shape] at deep
  | reset => simp at deep
  | stay => exact ⟨frame :: rest, active, shape⟩
  | top _ old changed below =>
    simp only [List.cons_append, List.cons.injEq] at shape
    exact ⟨changed :: rest, by simp, by simp [shape.2]⟩

/-- A hook that neither enters nor leaves a call keeps the depth. -/
theorem Moves.length_eq {hook : Hook} {frames after : List Frame} (moves : hook.Moves frames after)
    (inside : hook.nests = false) : after.length = frames.length := by
  cases moves with
  | enter enters => cases hook <;> simp [Hook.enters, Hook.nests] at enters inside
  | exit | reset => cases inside
  | stay => rfl
  | top => rfl

theorem Moves.enter_eq {hook : Hook} {frames after : List Frame} (moves : hook.Moves frames after)
    (enters : hook.enters = true) : ∃ seed : Seed, after = seed.frame :: frames := by
  cases moves with
  | enter _ seed => exact ⟨seed, rfl⟩
  | exit | reset => cases enters
  | stay inside | top inside => cases hook <;> simp [Hook.enters, Hook.nests] at enters inside

theorem Moves.exit_eq {frames after : List Frame} (moves : Moves .exit frames after) :
    after = frames.tail := by
  cases moves with
  | exit => rfl
  | enter enters => cases enters
  | stay inside | top inside => cases inside

end Hook

namespace Engine

variable (engine : Engine) (tables : Tables)

theorem moves_place {hook : Hook} (inside : hook.nests = false) (location : Location)
    (shadow : Shadow) :
    hook.Moves engine.stack.frames (engine.place location shadow).stack.frames := by
  -- Storing in the frame on top changes that frame; storing anywhere else changes none.
  have changed (change : Frame → Frame) :
      hook.Moves engine.stack.frames (engine.stack.mapTop change).frames := by
    rcases frames : engine.stack.frames with _ | ⟨frame, below⟩
    · simp only [CallStack.mapTop, frames]
      exact .stay inside []
    · simp only [CallStack.mapTop, frames]
      exact .top inside frame (change frame) below
  cases location with
  | this => exact changed fun frame => frame.setReceiver shadow
  | argument index => exact changed fun frame => frame.setArgument index shadow
  | localVar index => exact changed fun frame => frame.setLocal index shadow
  | static | object | returned => exact .stay inside _

@[simp] theorem stack_observe (id : InstructionId) (location : Location) :
    (engine.observe id location).1.stack = engine.stack := by
  unfold observe
  split <;> rfl

@[simp] theorem stack_forward (shadow : Shadow) (position : Option Position) :
    (engine.forward shadow position).stack = engine.stack := by
  rcases position with _ | (_ | _ | _) <;> rfl

theorem moves_mark {hook : Hook} (inside : hook.nests = false) (location : Location)
    (shadow : Shadow) :
    hook.Moves engine.stack.frames (engine.mark location shadow).stack.frames := by
  cases shadow with
  | reference => exact .stay inside _
  | concrete | symbolic => exact engine.moves_place inside location .symbolic

/-- Every hook does one of these things to the frames. -/
theorem moves (hook : Hook) :
    hook.Moves engine.stack.frames (engine.step tables hook).engine.stack.frames := by
  by_cases failed : Needs hook ∧ engine.depth = 0
  · rw [engine.step_idle tables failed.1 failed.2]
    cases hook with
    | read | write | assign | markSymbolic | resolve => exact .stay rfl _
    | enter | enterWith | exit | close | reset => exact failed.1.elim
  · have active (needs : Needs hook) : engine.depth ≠ 0 := fun idle => failed ⟨needs, idle⟩
    cases hook with
    | enter => exact .enter rfl engine.seed _
    | enterWith seed => exact .enter rfl seed _
    | exit =>
      rcases frames : engine.stack.frames with _ | ⟨frame, _ | ⟨caller, below⟩⟩
      · rw [exit_idle _ _ (by simp [depth, CallStack.depth, frames]), frames]
        exact .exit []
      · rw [exit_last _ _ frames]
        exact .exit [frame]
      · rw [exit_inner _ _ frames]
        exact .exit (frame :: caller :: below)
    | read operand location =>
      rw [read_active _ _ _ _ (active trivial), stack_forward, stack_observe]
      exact .stay rfl _
    | write id location value =>
      rw [write_active _ _ _ _ _ (active trivial)]
      simpa using (engine.observe id location).1.moves_place rfl location _
    | assign location shadow =>
      rw [assign_active _ _ _ _ (active trivial)]
      exact engine.moves_place rfl location shadow
    | markSymbolic location =>
      rw [markSymbolic_active _ _ _ (active trivial)]
      exact engine.moves_mark rfl location _
    | resolve location =>
      rw [resolve_active _ _ _ (active trivial)]
      exact .stay rfl _
    | close id =>
      by_cases pending : engine.window.pending? = some id
      · rw [close_pending _ _ pending]
        exact .stay rfl _
      · obtain ⟨desync, other⟩ := engine.close_other tables pending
        rw [other]
        exact .stay rfl _
    | reset => exact .reset _

/-- How deep the stack is after a hook. -/
theorem depth_step (hook : Hook) :
    (engine.step tables hook).engine.depth =
      match hook with
      | .enter | .enterWith _ => engine.depth + 1
      | .exit => engine.depth - 1
      | .reset => 0
      | .read .. | .write .. | .assign .. | .markSymbolic _ | .resolve _ | .close _ =>
        engine.depth := by
  have moves := engine.moves tables hook
  cases hook with
  | enter | enterWith => rfl
  | exit =>
    have left := congrArg List.length moves.exit_eq
    rwa [List.length_tail] at left
  | read | write | assign | markSymbolic | resolve | close => exact moves.length_eq rfl
  | reset => rfl

theorem exit_isOk : (engine.step tables .exit).result.isOk = decide (engine.depth ≠ 0) := by
  by_cases idle : engine.depth = 0
  · rw [exit_idle _ _ idle]
    simp [idle, Except.isOk, Except.toBool]
  · rcases engine.refused_or_done tables .exit with ⟨desync, refused, -⟩ | ⟨-, reply, done⟩
    · simp [refusal, idle] at refused
    · simp [done, idle, Except.isOk, Except.toBool]

end Engine

/-! ## Whole runs -/

/-- A thread sees of an event that it is its own hook, or nothing at all. -/
theorem Event.Valid.seen {event : Event} (valid : event.Valid) (name : String) :
    (event.call? name = none ∧ event.after.engine name = event.before.engine name ∧
      event.appended name = []) ∨
      ∃ hook, event.call? name = some ((event.before.engine name).call event.before.tables hook) ∧
        event.after.engine name =
          ((event.before.engine name).step event.before.tables hook).engine ∧
        event.appended name =
          ((event.before.engine name).step event.before.tables hook).recorded.toList := by
  have call := valid.call?_eq name
  have engine := valid.engine name
  have appended := valid.appended_eq name
  cases action : event.step.action with
  | hook hook =>
    simp only [action, Collector.recorded] at call engine appended
    by_cases own : event.step.thread = name
    · subst own
      simp only [if_true] at call engine appended
      exact .inr ⟨hook, call, engine, appended⟩
    · simp only [own, Ne.symm own, if_false] at call engine appended
      exact .inl ⟨call, engine, appended⟩
  | table | resetShared | records | instructionIds | texts | drain | clearTrace =>
    simp only [action, Collector.recorded, Option.toList_none, ite_self] at call engine appended
    exact .inl ⟨call, engine, appended⟩

/-! ### The frames below a call -/

/-- The thread has the given frames at the bottom of its stack, and some above them. -/
def Collector.Above (collector : Collector) (name : String) (older : List Frame) : Prop :=
  ∃ newer, newer ≠ [] ∧ (collector.engine name).stack.frames = newer ++ older

theorem Event.Valid.above {event : Event} (valid : event.Valid) {name : String} {older : List Frame}
    (above : event.before.Above name older)
    (deep : older.length < (event.after.engine name).depth) :
    event.after.Above name older := by
  obtain ⟨newer, active, shape⟩ := above
  rcases valid.seen name with ⟨-, engine, -⟩ | ⟨hook, -, engine, -⟩
  · exact ⟨newer, active, by rw [engine, shape]⟩
  · have moves := (event.before.engine name).moves event.before.tables hook
    rw [← engine] at moves
    exact moves.above shape active deep

theorem Trail.above {before final : Collector} {events : List Event}
    (trail : Trail before events final) {name : String} {older : List Frame}
    (above : before.Above name older)
    (deep : ∀ event ∈ events, older.length < (event.after.engine name).depth) :
    final.Above name older ∧ ∀ event ∈ events, event.after.Above name older := by
  -- Along the run; at each event the depth says that the call is still active.
  induction trail with
  | done => exact ⟨above, by simp⟩
  | @step event events final valid rest ih =>
    have next := valid.above above (deep event (by simp))
    obtain ⟨last, between⟩ := ih next fun other member => deep other (by simp [member])
    refine ⟨last, ?_⟩
    intro other member
    rcases List.mem_cons.mp member with rfl | later
    · exact next
    · exact between other later

/-! ### Depth -/

/-- How many calls a thread has entered and left since it was created or last reset. -/
structure Tally where
  entered : Nat := 0
  exited : Nat := 0

namespace Tally

def next (tally : Tally) (call : Call) : Tally :=
  match call.hook with
  | .enter | .enterWith _ => { tally with entered := tally.entered + 1 }
  | .exit => if call.result.isOk then { tally with exited := tally.exited + 1 } else tally
  | .reset => {}
  | .read .. | .write .. | .assign .. | .markSymbolic _ | .resolve _ | .close _ => tally

def ofCalls (calls : List Call) : Tally := calls.foldl next {}

/-- The depth is the number of calls entered and not left. -/
def Fits (tally : Tally) (engine : Engine) : Prop := engine.depth + tally.exited = tally.entered

theorem Fits.step {tally : Tally} {engine : Engine} (fits : tally.Fits engine) (tables : Tables)
    (hook : Hook) :
    (tally.next (engine.call tables hook)).Fits (engine.step tables hook).engine := by
  have depth := engine.depth_step tables hook
  unfold Fits at fits ⊢
  cases hook with
  | enter | enterWith =>
    simp only [next, Engine.call, depth]
    omega
  | exit =>
    -- Leaving a call takes a frame away, unless there is none; then it fails, and does not count.
    simp only [next, Engine.call, Engine.exit_isOk, depth]
    by_cases idle : engine.depth = 0
    · simpa [idle] using fits
    · simp only [idle, ne_eq, not_false_eq_true, decide_true, if_true]
      omega
  | read | write | assign | markSymbolic | resolve | close =>
    rw [depth]
    exact fits
  | reset => rfl

end Tally

theorem Trail.tally_fits {before final : Collector} {events : List Event}
    (trail : Trail before events final) {name : String} {tally : Tally}
    (fits : tally.Fits (before.engine name)) :
    ((events.filterMap (·.call? name)).foldl Tally.next tally).Fits (final.engine name) := by
  -- Along the run; the tally moves with the calls of the thread and with nothing else.
  induction trail generalizing tally with
  | done => exact fits
  | @step event events final valid rest ih =>
    rcases valid.seen name with ⟨call, engine, -⟩ | ⟨hook, call, engine, -⟩
    · simp only [List.filterMap_cons, call]
      apply ih
      rwa [engine]
    · simp only [List.filterMap_cons, call, List.foldl_cons]
      apply ih
      rw [engine]
      exact fits.step event.before.tables hook

theorem Run.tally_fits (run : Run) (name : String) {past future : List Event} {event : Event}
    (parts : run.events = past ++ event :: future) :
    (Tally.ofCalls ((past ++ [event]).filterMap (·.call? name))).Fits
      (event.after.engine name) := by
  apply (run.trail_upto parts).tally_fits
  rw [(Collector.create_eq run.created).2.1]
  rfl

/-! ### Calls and returns -/

/-- The locations that lie in the frame on top. -/
def Location.inFrame : Location → Bool
  | this | argument _ | localVar _ => true
  | static _ | object .. | returned => false

/-- What is loaded from the frame on top depends on the stack only. -/
theorem Engine.load_inFrame {engine other : Engine} (stack : engine.stack = other.stack)
    (tables tables' : Tables) {location : Location} (inside : location.inFrame = true) :
    engine.load tables location = other.load tables' location := by
  unfold Engine.load
  rw [stack]
  cases location with
  | this | argument | localVar => rfl
  | static | object | returned => cases inside

/-- The frame of a call that has just been entered is made from a seed. -/
theorem Event.Valid.frames_entered {event : Event} (valid : event.Valid) {name : String}
    {hook : Hook} (own : event.step.thread = name) (asked : event.step.action = .hook hook)
    (enters : hook.enters = true) :
    ∃ seed : Seed,
      (event.after.engine name).stack.frames =
        seed.frame :: (event.before.engine name).stack.frames := by
  have engine := valid.engine name
  simp only [asked, own, if_true] at engine
  rw [engine]
  exact ((event.before.engine name).moves event.before.tables hook).enter_eq enters

/-- The call that brings the stack back to its former depth uncovers the frames that were there. -/
theorem Event.Valid.frames_back {event : Event} (valid : event.Valid) {name : String}
    {older : List Frame} (above : event.before.Above name older) (own : event.step.thread = name)
    (asked : event.step.action = .hook .exit)
    (back : (event.after.engine name).depth = older.length) :
    (event.after.engine name).stack.frames = older := by
  obtain ⟨newer, active, shape⟩ := above
  obtain ⟨frame, rest, rfl⟩ := List.exists_cons_of_ne_nil active
  -- The exit takes the newest frame, and by the depth that was the only one above the older ones.
  have frames : (event.after.engine name).stack.frames = rest ++ older := by
    have engine := valid.engine name
    simp only [asked, own, if_true] at engine
    rw [engine, ((event.before.engine name).moves event.before.tables .exit).exit_eq, shape]
    rfl
  have empty : rest = [] := by
    simp only [Engine.depth, CallStack.depth, frames, List.length_append] at back
    exact List.length_eq_zero_iff.mp (by omega)
  rw [frames, empty]
  rfl

/-- A call is isolated from its caller. Take any call that a thread enters in a run, and whatever
follows on any thread while the depth of this one stays above what it was. All the time the older
frames are at the bottom of the stack as they were, so that after the return everything in the
caller's frame loads as it did before the call, and the callee starts without locals. At every point
of the run the depth is the number of calls entered less the number of those left. -/
theorem Run.calls_isolated (run : Run) (name : String) :
    (∀ earlier entry inside later, run.events = earlier ++ entry :: (inside ++ later) →
      entry.step.thread = name →
      ∀ hook, entry.step.action = .hook hook → hook.enters = true →
      (∀ event ∈ inside, (entry.before.status name).depth + 1 ≤ (event.after.status name).depth) →
        (∀ event ∈ entry :: inside, ∃ newer, newer ≠ [] ∧
          (event.after.engine name).stack.frames =
            newer ++ (entry.before.engine name).stack.frames) ∧
        (∀ back rest, later = back :: rest → back.step.thread = name →
          back.step.action = .hook .exit →
          (back.after.status name).depth = (entry.before.status name).depth →
          ∀ location, location.inFrame = true →
            (back.after.engine name).load back.after.tables location =
              (entry.before.engine name).load entry.before.tables location) ∧
        ∃ callee, (entry.after.engine name).stack.top = .ok callee ∧ ∀ index,
        callee.localVar index = .concrete) ∧
    ∀ past event future, run.events = past ++ event :: future →
      let tally := Tally.ofCalls ((past ++ [event]).filterMap (·.call? name))
      (event.after.status name).depth + tally.exited = tally.entered := by
  have depth_eq (collector : Collector) :
      (collector.status name).depth = (collector.engine name).depth := by
    rw [Collector.status_eq]
  simp only [depth_eq]
  constructor
  · intro earlier entry inside later split own hook asked enters deep
    -- The run is cut before the call, right after it, and before its return.
    have trail := run.trail
    rw [split] at trail
    obtain ⟨_, -, from_entry⟩ := Trail.append_iff.mp trail
    obtain ⟨rfl, valid, onward⟩ := from_entry.uncons
    obtain ⟨_, during, afterwards⟩ := Trail.append_iff.mp onward
    obtain ⟨seed, frames⟩ := valid.frames_entered own asked enters
    have entered : entry.after.Above name (entry.before.engine name).stack.frames :=
      ⟨[seed.frame], by simp, by simpa using frames⟩
    obtain ⟨last, between⟩ := during.above entered deep
    refine ⟨?_, ?_, ?_⟩
    · intro event member
      rcases List.mem_cons.mp member with rfl | inside
      · exact entered
      · exact between event inside
    · intro back rest next thread exit returned location inFrame
      subst next
      obtain ⟨rfl, returns, -⟩ := afterwards.uncons
      have uncovered := returns.frames_back last thread exit returned
      exact Engine.load_inFrame (congrArg CallStack.mk uncovered) _ _ inFrame
    · refine ⟨seed.frame, ?_, ?_⟩
      · simp [CallStack.top, frames]
      · intro index
        exact Slots.get_empty index
  · intro past event future parts
    exact run.tally_fits name parts

/-- A call within a call. The outer one overwrites a local of its caller in its own frame, and
another thread is reset in the meantime. -/
def Step.nested : List Step :=
  [⟨"main", "main", .hook .enter⟩,
    ⟨"main", "main", .hook (.assign (.localVar 3) .symbolic)⟩,
    ⟨"other", "other", .hook .enter⟩,
    ⟨"main", "main", .hook .enter⟩,
    ⟨"main", "main", .hook (.assign (.localVar 3) (.reference 9))⟩,
    ⟨"main", "main", .hook (.enterWith { receiver := some .symbolic })⟩,
    ⟨"other", "other", .hook .reset⟩,
    ⟨"main", "main", .hook .exit⟩,
    ⟨"main", "main", .hook .exit⟩]

theorem Run.calls_isolated_nested :
    ∃ (run : Run) (entry overwritten back : Event),
      run.steps = Step.nested ∧ run.events[3]? = some entry ∧
      run.events[4]? = some overwritten ∧ run.events[8]? = some back ∧
      ((overwritten.after.engine "main").load overwritten.after.tables (.localVar 3)).toOption =
        some (.reference 9) ∧
      ((entry.before.engine "main").load entry.before.tables (.localVar 3)).toOption =
        some .symbolic ∧
      (back.after.engine "main").load back.after.tables (.localVar 3) =
        (entry.before.engine "main").load entry.before.tables (.localVar 3) := by
  let view (collector : Collector) :=
    ((collector.status "main").depth,
      ((collector.engine "main").load collector.tables (.localVar 3)).toOption)
  obtain ⟨run, steps, seen⟩ :=
    Run.exists_of_watch view {} {} Step.nested
      [(.hook .done, 1, some .concrete), (.hook .done, 1, some .symbolic),
        (.hook .done, 1, some .symbolic), (.hook .done, 2, some .concrete),
        (.hook .done, 2, some (.reference 9)), (.hook .done, 3, some .concrete),
        (.hook .done, 3, some .concrete), (.hook .done, 2, some (.reference 9)),
        (.hook .done, 1, some .symbolic)]
      (by decide +kernel)
  simp only [List.map_eq_cons_iff, List.map_eq_nil_iff, Prod.mk.injEq, view] at seen
  obtain ⟨first, _, events, -, assigned, _, rfl, -, other, _, rfl, caller, entry, _, rfl, outer,
    overwritten, _, rfl, callee, inner, _, rfl, deepest, reset, _, rfl, apart, left, _, rfl,
    outermost, back, _, rfl, again, rfl⟩ := seen
  have split : run.events =
      [first, assigned, other] ++ entry :: ([overwritten, inner, reset, left] ++ [back]) := events
  have asked := steps
  simp only [Run.steps, split, Step.nested, List.cons_append, List.nil_append, List.map_cons,
    List.map_nil, List.cons.injEq, and_true] at asked
  obtain ⟨-, -, -, enters, -, -, -, -, exits⟩ := asked
  have before : entry.before = other.after :=
    run.trail.next_before (by rw [split]; rfl : run.events[2]? = some other) (by rw [split]; rfl)
  have deep : ∀ event ∈ [overwritten, inner, reset, left],
      (entry.before.status "main").depth + 1 ≤ (event.after.status "main").depth := by
    simp [before, caller, callee, deepest, apart, outermost]
  have isolated :=
    (run.calls_isolated "main").1 _ entry _ _ split (by rw [enters]) .enter (by rw [enters])
      rfl deep
  refine ⟨run, entry, overwritten, back, steps, by rw [split]; rfl, by rw [split]; rfl,
    by rw [split]; rfl, callee.2.2, by rw [before]; exact caller.2.2, ?_⟩
  exact isolated.2.1 back [] rfl (by rw [exits]) (by rw [exits])
    (by rw [again.2.1, before, caller.2.1]) _ rfl

end ShadowTrace
