import ShadowTrace.Proofs.DataFlow
import ShadowTrace.Proofs.Nesting

/-! # Values on their way between calls

Between two frames a value is in the thread's own hands: what has been prepared for the next callee,
and what is returned to the caller. What happens to these values is the same for all positions. A
hook sends a value to a position, or drops what is there, or leaves it alone; so what arrives was
sent by the latest hook that sent something there, with no hook since that drops it. None of them
belongs to an activation: a return drops nothing, unless it leaves no frame. -/

namespace ShadowTrace

/-- What is there once a shadow has been sent to the position. A concrete argument is like one that
was never sent. -/
def Position.carry (shadow : Shadow) : Position → Option Shadow
  | receiver | result => some shadow
  | argument _ => if shadow.isConcrete then none else some shadow

/-- What the frame of a call was given at the position. -/
def Frame.given (frame : Frame) : Position → Option Shadow
  | .receiver => frame.receiver?
  | .argument index => Position.carry (frame.argument index) (.argument index)
  | .result => none

/-- Whether the hook sends a value to the position. -/
def Hook.sends (position : Position) : Hook → Bool
  | .read operand _ => operand.forward = some position
  | .write _ location _ | .assign location _ | .markSymbolic location =>
    location = Location.returned ∧ position = .result
  | .enter | .enterWith _ | .exit | .resolve _ | .close _ | .reset => false

namespace Engine

/-- What is on its way to the position. -/
def carried (engine : Engine) : Position → Option Shadow
  | .receiver => engine.seed.receiver
  | .argument index => Position.carry (engine.seed.arguments.get index) (.argument index)
  | .result => engine.returned

/-- What a hook that sends something sends. -/
def sent (engine : Engine) (tables : Tables) : Hook → Shadow
  | .read _ location => engine.look tables location
  | .write id location value => value.shadow (engine.observe id location).1.accumulator
  | .assign _ shadow => shadow
  | .markSymbolic location =>
    match engine.look tables location with
    | .reference id => .reference id
    | .concrete | .symbolic => .symbolic
  | .enter | .enterWith _ | .exit | .resolve _ | .close _ | .reset => .concrete

/-- Whether the hook drops what is on its way to the position. Reading what was returned takes it
away, and so does every access that opens a window, unless it is to what was returned. -/
def drops (engine : Engine) (position : Position) : Hook → Bool
  | .enter | .enterWith _ | .reset => true
  | .exit => position ≠ .result ∧ engine.depth = 1
  | .read operand location =>
    if location = Location.returned ∧ position = .result then true
    else engine.window.pending? ≠ some operand.instruction
  | .write id location _ =>
    if location = Location.returned ∧ position = .result then false
    else engine.window.pending? ≠ some id
  | .assign .. | .markSymbolic _ | .resolve _ | .close _ => false

/-! ## One hook -/

variable (engine : Engine) (tables : Tables) (position : Position)

theorem carried_empty {engine : Engine} (seed : engine.seed = {})
    (returned : engine.returned = none) :
    engine.carried position = none := by
  cases position <;> simp [carried, seed, returned, Position.carry]

theorem carried_observe (id : InstructionId) (location : Location) :
    (engine.observe id location).1.carried position =
      if engine.window.pending? = some id ∨ location = .returned ∧ position = .result then
        engine.carried position
      else none := by
  unfold observe
  by_cases pending : engine.window.pending? = some id
  · simp [pending]
  · cases position <;> simp [carried, pending, Position.carry]

theorem carried_forward (shadow : Shadow) (forward : Option Position) :
    (engine.forward shadow forward).carried position =
      if forward = some position then position.carry shadow else engine.carried position := by
  rcases forward with _ | target
  · rfl
  · by_cases same : target = position
    · subst same
      cases target <;>
        simp [Engine.forward, carried, Seed.setReceiver, Seed.setArgument, Slots.get_set,
        Position.carry]
    · -- Another position: in the row of arguments, another slot.
      cases target <;> cases position <;>
        simp_all [Engine.forward, carried, Seed.setReceiver, Seed.setArgument, Slots.get_set,
          eq_comm]

theorem carried_place (location : Location) (shadow : Shadow) :
    (engine.place location shadow).carried position =
      if location = .returned ∧ position = .result then some shadow
        else engine.carried position := by
  cases location <;> cases position <;> simp [place, carried]

/-- Reading what was returned takes it away. -/
theorem carried_take (window : Window) (location : Location) :
    carried { engine with window, returned := if location = .returned then none
      else engine.returned } position =
      if location = .returned ∧ position = .result then none else engine.carried position := by
  by_cases returned : location = .returned <;> cases position <;> simp [carried, returned]

/-- What a hook that succeeds makes of what is on its way. -/
theorem carried_step {hook : Hook} {reply : Reply}
    (ok : (engine.step tables hook).result = .ok reply) :
    (engine.step tables hook).engine.carried position =
      if hook.sends position then position.carry (engine.sent tables hook)
      else if engine.drops position hook then none
      else engine.carried position := by
  have active (needs : Needs hook) : engine.depth ≠ 0 := engine.active_of_ok tables needs ok
  cases hook with
  | enter | enterWith | reset =>
    simp only [Hook.sends, drops, Bool.false_eq_true, if_false, if_true]
    exact carried_empty position rfl rfl
  | exit =>
    rcases frames : engine.stack.frames with _ | ⟨frame, _ | ⟨caller, below⟩⟩
    · rw [exit_idle _ _ (by simp [depth, CallStack.depth, frames])] at ok
      cases ok
    · -- The stack empties, and with it the seed.
      rw [exit_last _ _ frames]
      cases position <;>
        simp [Hook.sends, drops, depth, CallStack.depth, frames, carried, Position.carry]
    · rw [exit_inner _ _ frames]
      cases position <;> simp [Hook.sends, drops, depth, CallStack.depth, frames, carried]
  | read operand location =>
    rw [read_active _ _ _ _ (active trivial)]
    simp only [carried_forward, carried_take, carried_observe, Hook.sends, sent, drops,
      decide_eq_true_eq]
    by_cases taken : location = .returned ∧ position = .result
    · simp [taken]
    · simp only [taken, if_false, or_false, ne_eq, decide_not, Bool.not_eq_eq_eq_not, Bool.not_true,
        decide_eq_false_iff_not, ite_not]
  | write id location value =>
    rw [write_active _ _ _ _ _ (active trivial)]
    simp only [carried_place, carried_observe, Hook.sends, sent, drops, decide_eq_true_eq]
    by_cases stored : location = .returned ∧ position = .result
    · simp [stored, Position.carry]
    · simp only [stored, if_false, or_false, ne_eq, decide_not, Bool.not_eq_eq_eq_not,
        Bool.not_true, decide_eq_false_iff_not, ite_not]
  | assign location shadow =>
    rw [assign_active _ _ _ _ (active trivial)]
    simp only [carried_place, Hook.sends, sent, drops, decide_eq_true_eq]
    by_cases stored : location = .returned ∧ position = .result
    · simp [stored, Position.carry]
    · simp [stored]
  | markSymbolic location =>
    rw [markSymbolic_active _ _ _ (active trivial)]
    by_cases stored : location = .returned ∧ position = .result
    · obtain ⟨rfl, rfl⟩ := stored
      -- A reference stays where it is; it is there, as it has been looked up.
      rcases returned : engine.returned with _ | _ | _ | id <;>
        simp [Hook.sends, sent, look, returned, mark, place, carried, Position.carry]
    · cases engine.look tables location <;> simp [Hook.sends, drops, stored, mark, carried_place]
  | resolve location => simp [resolve_active _ _ _ (active trivial), Hook.sends, drops]
  | close id =>
    by_cases pending : engine.window.pending? = some id
    · rw [close_pending _ _ pending]
      cases position <;> simp [Hook.sends, drops, carried]
    · obtain ⟨desync, failed⟩ := engine.close_other tables pending
      rw [failed] at ok
      cases ok

end Engine

/-! ## Whole runs -/

/-- The hook of the thread that the event is, if it is one and succeeds. -/
def Event.done? (event : Event) (name : String) : Option Hook :=
  if event.step.thread = name then event.hook? else none

def Event.Sends (event : Event) (name : String) (position : Position) : Prop :=
  ∃ hook ∈ event.done? name, hook.sends position = true

def Event.Drops (event : Event) (name : String) (position : Position) : Prop :=
  ∃ hook ∈ event.done? name, (event.before.engine name).drops position hook = true

theorem Event.done?_eq_some_iff {event : Event} {name : String} {hook : Hook} :
    event.done? name = some hook ↔
      event.step.thread = name ∧ event.step.action = .hook hook ∧ ∃ reply,
        event.answer = .hook reply := by
  unfold Event.done? Event.hook?
  by_cases own : event.step.thread = name
  · cases event.step.action <;> cases event.answer <;> simp [own]
  · simp [own]

theorem Event.done?_of_call? {event : Event} {name : String} {call : Call} {reply : Reply}
    (called : event.call? name = some call) (ok : call.result = .ok reply) :
    event.done? name = some call.hook := by
  unfold Event.call? at called
  split at called
  next own =>
    split at called
    next => obtain rfl := Option.some.inj called; cases ok
    next hook reply asked answered =>
      obtain rfl := Option.some.inj called
      exact Event.done?_eq_some_iff.mpr ⟨own, asked, reply, answered⟩
    next => cases called
  next => cases called

namespace Event.Valid

variable {event : Event} {name : String}

/-- An event in which a hook of the thread succeeds is a step of its engine. -/
theorem of_done (valid : event.Valid) {hook : Hook} (done : event.done? name = some hook) :
    ∃ reply, event.answer = .hook reply ∧
      ((event.before.engine name).step event.before.tables hook).result = .ok reply ∧
      event.after.engine name =
        ((event.before.engine name).step event.before.tables hook).engine := by
  obtain ⟨rfl, asked, reply, answered⟩ := Event.done?_eq_some_iff.mp done
  have answer := valid.answer
  have engine := valid.engine event.step.thread
  simp only [asked, if_true] at answer engine
  refine ⟨reply, answered, ?_, engine⟩
  cases result : ((event.before.engine event.step.thread).step event.before.tables hook).result with
  | error desync => simp [answered, result, Answer.ofResult] at answer
  | ok other => simpa [answered, result, Answer.ofResult] using answer.symm

theorem tables_of_done (valid : event.Valid) {hook : Hook} (done : event.done? name = some hook) :
    event.after.tables = ((event.before.engine name).step event.before.tables hook).tables := by
  obtain ⟨rfl, asked, -⟩ := Event.done?_eq_some_iff.mp done
  simpa only [asked] using valid.tables

/-- In any other event the thread makes no call, or one that fails, and its engine is left alone. -/
theorem of_undone (valid : event.Valid) (undone : event.done? name = none) :
    event.after.engine name = event.before.engine name ∧
      ∀ call ∈ event.call? name, ∃ hook desync,
        call = (event.before.engine name).call event.before.tables hook ∧
        ((event.before.engine name).step event.before.tables hook).result = .error desync := by
  rcases valid.seen name with ⟨none, engine, -⟩ | ⟨hook, call, engine, -⟩
  · exact ⟨engine, by simp [none]⟩
  · cases result : ((event.before.engine name).step event.before.tables hook).result with
    | error desync =>
      refine ⟨by rw [engine, Engine.step_failed _ _ result], ?_⟩
      intro call' member
      exact ⟨hook, desync, Option.some.inj (member.symm.trans call), result⟩
    | ok reply =>
      -- A call that succeeds would be a hook that is done.
      cases undone.symm.trans (Event.done?_of_call? call result)

theorem call_of_done (valid : event.Valid) {hook : Hook} (done : event.done? name = some hook) :
    event.call? name = some ((event.before.engine name).call event.before.tables hook) := by
  obtain ⟨own, asked, -⟩ := Event.done?_eq_some_iff.mp done
  have call := valid.call?_eq name
  simpa only [asked, own, if_true] using call

theorem carried_eq (valid : event.Valid) (position : Position) {hook : Hook}
    (done : event.done? name = some hook) :
    (event.after.engine name).carried position =
      if hook.sends position then
        position.carry ((event.before.engine name).sent event.before.tables hook)
      else if (event.before.engine name).drops position hook then none
      else (event.before.engine name).carried position := by
  obtain ⟨reply, -, ok, engine⟩ := valid.of_done done
  rw [engine]
  exact Engine.carried_step _ _ position ok

theorem carried_kept (valid : event.Valid) (position : Position)
    (untouched : ¬ (event.Sends name position ∨ event.Drops name position)) :
    (event.after.engine name).carried position = (event.before.engine name).carried position := by
  cases done : event.done? name with
  | none => rw [(valid.of_undone done).1]
  | some hook =>
    simp only [Event.Sends, Event.Drops, done, Option.mem_def, Option.some.injEq,
      exists_eq_left', not_or, Bool.not_eq_true] at untouched
    simp [valid.carried_eq position done, untouched]

theorem active_of_done (valid : event.Valid) {hook : Hook} (done : event.done? name = some hook)
    (needs : Engine.Needs hook) : (event.before.engine name).depth ≠ 0 := by
  obtain ⟨reply, -, ok, -⟩ := valid.of_done done
  exact Engine.active_of_ok _ _ needs ok

theorem depth_of_done (valid : event.Valid) {hook : Hook} (done : event.done? name = some hook)
    (inside : hook.nests = false) :
    (event.after.engine name).depth = (event.before.engine name).depth := by
  obtain ⟨reply, -, -, engine⟩ := valid.of_done done
  rw [engine]
  exact (Engine.moves _ _ hook).length_eq inside

/-- What an event leaves that touches it has been sent by the event. -/
theorem sends_of_carried (valid : event.Valid) {position : Position} {shadow : Shadow}
    (touched : event.Sends name position ∨ event.Drops name position)
    (carried : (event.after.engine name).carried position = some shadow) :
    event.Sends name position := by
  rcases touched with sends | ⟨hook, done, drops⟩
  · exact sends
  · by_contra unsent
    have none : hook.sends position = false := by
      simpa [Event.Sends, Option.mem_def.mp done] using unsent
    simp [valid.carried_eq position done, none, drops] at carried

end Event.Valid

/-- If nothing is on its way at the start, then what is on its way at the end is what the latest
event that sends anything has sent, with nothing dropped since. -/
theorem Trail.carried_latest {before final : Collector} {events : List Event}
    (trail : Trail before events final) {name : String} {position : Position}
    (empty : (before.engine name).carried position = none) (shadow : Shadow) :
    (final.engine name).carried position = some shadow ↔
      ∃ earlier source later, events = earlier ++ source :: later ∧ source.Sends name position ∧
        (∀ event ∈ later, ¬ (event.Sends name position ∨ event.Drops name position)) ∧
        (source.after.engine name).carried position = some shadow := by
  constructor
  · intro carried
    rcases trail.latest (fun collector => (collector.engine name).carried position)
        (fun event => event.Sends name position ∨ event.Drops name position)
        (fun event member => (trail.valid event member).carried_kept position) with
      ⟨-, same⟩ | ⟨earlier, source, later, rfl, touched, untouched, same⟩
    · cases (carried.symm.trans same).trans empty
    · have left := same.symm.trans carried
      have valid := trail.valid source (by simp)
      exact ⟨earlier, source, later, rfl, valid.sends_of_carried touched left, untouched, left⟩
  · rintro ⟨earlier, source, later, rfl, -, untouched, left⟩
    obtain ⟨_, -, from_source⟩ := Trail.append_iff.mp trail
    obtain ⟨-, -, onward⟩ := from_source.uncons
    rw [← left]
    exact onward.unchanged (fun collector => (collector.engine name).carried position)
      fun event member => (onward.valid event member).carried_kept position (untouched event member)

/-! ## Runs of one thread -/

def Step.ofMain (hook : Hook) : Step := ⟨"main", "main", .hook hook⟩

/-- What an event shows of a hook that succeeds: the hook, its reply, the depth and a view of the
collector afterwards. -/
structure Event.Shows {α : Type} (view : Collector → α) (event : Event)
    (shown : Hook × Reply × Nat × α) : Prop where
  step : event.step = .ofMain shown.1
  answer : event.answer = .hook shown.2.1
  done : event.done? "main" = some shown.1
  call : event.call? "main" = some ⟨shown.1, .ok shown.2.1, shown.2.2.1⟩
  depth : (event.after.status "main").depth = shown.2.2.1
  view : view event.after = shown.2.2.2

/-- A run of one thread in which all hooks succeed. -/
theorem Run.exists_of_hooks {α : Type} (view : Collector → α) (hooks : List Hook)
    (seen : List (Reply × Nat × α))
    (watched : Collector.watch? (fun collector => ((collector.status "main").depth, view collector))
      {} {} (hooks.map .ofMain) = some (seen.map fun (reply, rest) => (.hook reply, rest))) :
    ∃ run : Run,
      run.steps = hooks.map .ofMain ∧
      List.Forall₂ (Event.Shows view) run.events (hooks.zip seen) := by
  obtain ⟨run, steps, answers⟩ := Run.exists_of_watch _ {} {} _ _ watched
  refine ⟨run, steps, ?_⟩
  rw [Run.steps] at steps
  clear watched
  generalize run.events = events at steps answers
  induction events generalizing hooks seen with
  | nil =>
    obtain rfl := List.map_eq_nil_iff.mp steps.symm
    exact .nil
  | cons event events ih =>
    obtain ⟨hook, hooks, rfl, asked, rest⟩ := List.map_eq_cons_iff.mp steps.symm
    obtain ⟨⟨reply, depth, viewed⟩, seen, rfl, answered, others⟩ :=
      List.map_eq_cons_iff.mp answers.symm
    simp only [Prod.mk.injEq] at answered
    obtain ⟨answer, after, view⟩ := answered
    refine .cons ⟨asked.symm, answer.symm, ?_, ?_, after.symm,
      view.symm⟩ (ih hooks seen rest.symm others.symm)
    · simp [Event.done?, Event.hook?, ← asked, Step.ofMain, ← answer]
    · simp [Event.call?, ← asked, Step.ofMain, ← answer, after]

end ShadowTrace
