import ShadowTrace.Proofs.History

/-! # What a callee starts with

A caller prepares a call by reading values and forwarding them. What the callee's frame is given at
a position is then what the latest of these reads has loaded, as long as the preparation has not
been started anew: by another instruction, by a call, by the return of the outermost call or by a
reset. A frame that is given a seed of its own has nothing from these reads, and they are lost. -/

namespace ShadowTrace

namespace Event

/-- What the event has loaded for a position of the next callee, if it is a successful read of the
thread that is forwarded there. -/
def forwarded? (event : Event) (name : String) (position : Position) : Option Shadow :=
  (event.done? name).bind fun
    | .read operand location =>
      if operand.forward = some position then
        ((event.before.engine name).load event.before.tables location).toOption
      else none
    | .enter | .enterWith _ | .exit | .write .. | .assign .. | .markSymbolic _ | .resolve _
      | .close _ | .reset => none

/-- Whether the thread starts its preparation of a call anew at the event. -/
def restarts (past : List Event) (name : String) (event : Event) : Bool :=
  (event.done? name).any fun
    | .enter | .enterWith _ | .reset => true
    | .exit => (event.after.status name).depth = 0
    | .read .. | .write .. => event.opens past name
    | .assign .. | .markSymbolic _ | .resolve _ | .close _ => false

end Event

/-- In the events so far, the latest read that the thread has forwarded to the position has loaded
this, and its preparation was not started anew since. -/
def Prepared (past : List Event) (name : String) (position : Position) (shadow : Shadow) : Prop :=
  Latest (·.forwarded? name position) (fun past event => event.restarts past name) past shadow

/-! ## One event -/

namespace Event.Valid

variable {event : Event} {name : String} {position : Position}

/-- What is forwarded to a callee is what is sent there. -/
theorem forwarded?_eq (valid : event.Valid) (callee : position ≠ .result) {hook : Hook}
    (done : event.done? name = some hook) :
    event.forwarded? name position =
      if hook.sends position then some ((event.before.engine name).sent event.before.tables hook)
        else none := by
  cases hook with
  | read operand location =>
    have active := valid.active_of_done done trivial
    simp [Event.forwarded?, done, Engine.load_active _ _ _ active, Hook.sends, Engine.sent,
      Except.toOption]
  | write | assign | markSymbolic => simp [Event.forwarded?, done, Hook.sends, callee]
  | enter | enterWith | exit | resolve | close | reset => simp [Event.forwarded?, done, Hook.sends]

/-- What was prepared for a callee is dropped where the preparation starts anew. -/
theorem drops_eq_restarts (valid : event.Valid) (callee : position ≠ .result) {past : List Event}
    (shows : (event.before.engine name).window.Shows (Event.window past name)) {hook : Hook}
    (done : event.done? name = some hook) :
    (event.before.engine name).drops position hook = event.restarts past name := by
  have opens := valid.opens_eq shows done
  cases hook with
  | enter | enterWith | reset => simp [Event.restarts, done, Engine.drops]
  | exit =>
    obtain ⟨reply, -, ok, engine⟩ := valid.of_done done
    -- There was a frame to leave, so leaving one makes the depth zero only if there was no other.
    have active : (event.before.engine name).depth ≠ 0 := by
      simpa [ok, Except.isOk, Except.toBool]
        using (event.before.engine name).exit_isOk event.before.tables
    have depth : (event.after.engine name).depth = (event.before.engine name).depth - 1 := by
      rw [engine, Engine.depth_step]
    have last : (event.before.engine name).depth = 1 ↔
      (event.after.engine name).depth = 0 := by omega
    simp [Event.restarts, done, Engine.drops, callee, Collector.status_eq, last]
  | read | write => simp [Event.restarts, done, Engine.drops, callee, opens, Engine.opens]
  | assign | markSymbolic | resolve | close => simp [Event.restarts, done, Engine.drops]

/-- What an event makes of what is prepared for a callee. -/
theorem carried_callee (valid : event.Valid) (callee : position ≠ .result) {past : List Event}
    (shows : (event.before.engine name).window.Shows (Event.window past name)) :
    (event.after.engine name).carried position =
      ((event.forwarded? name position).map position.carry).getD
        (if event.restarts past name then none
          else (event.before.engine name).carried position) := by
  cases done : event.done? name with
  | none => simp [Event.forwarded?, Event.restarts, done, (valid.of_undone done).1]
  | some hook =>
    -- What is sent replaces all else, so whether the event also restarts matters only without it.
    rw [valid.carried_eq position done, valid.forwarded?_eq callee done,
      valid.drops_eq_restarts callee shows done]
    cases hook.sends position <;> simp

end Event.Valid

/-! ## Whole runs -/

namespace Position

theorem carry_argument_inj {index : UInt32} {shadow other : Shadow} :
    carry shadow (.argument index) = carry other (.argument index) ↔ shadow = other := by
  cases shadow <;> cases other <;> simp [carry, Shadow.isConcrete]

theorem carry_argument_eq_none_iff {index : UInt32} {shadow : Shadow} :
    carry shadow (.argument index) = none ↔ shadow = .concrete := by
  simp [carry]

end Position

namespace Trail

variable {start final : Collector} {events : List Event} {name : String} {position : Position}

/-- What is on its way to a callee is what the events have prepared. -/
theorem carried_prepared (trail : Trail start events final) (idle : start.engine name = {})
    (callee : position ≠ .result) :
    (∃ shadow,
      Prepared events name position shadow ∧
      (final.engine name).carried position = position.carry shadow) ∨
      (¬ ∃ shadow, Prepared events name position shadow) ∧
      (final.engine name).carried position = none := by
  apply trail.view_latest (fun collector => (collector.engine name).carried position)
    position.carry none
  · rw [idle]
    exact Engine.carried_empty position rfl rfl
  · intro past event before valid
    exact valid.carried_callee callee (before.merges_window idle).shows

theorem receiver_prepared_iff (trail : Trail start events final) (idle : start.engine name = {})
    (shadow : Shadow) :
    (final.engine name).seed.receiver = some shadow ↔ Prepared events name .receiver shadow := by
  have carried : (final.engine name).carried .receiver = (final.engine name).seed.receiver := rfl
  rcases trail.carried_prepared idle (by simp : Position.receiver ≠ .result) with
    ⟨given, prepared, here⟩ | ⟨unprepared, here⟩
  · rw [← carried, here]
    constructor
    · intro same
      obtain rfl : given = shadow := Option.some.inj same
      exact prepared
    · intro again
      rw [again.unique prepared]
      rfl
  · rw [← carried, here]
    simpa using fun prepared => unprepared ⟨shadow, prepared⟩

theorem argument_prepared_iff (trail : Trail start events final) (idle : start.engine name = {})
    (index : UInt32) (shadow : Shadow) :
    (final.engine name).seed.arguments.get index = shadow ↔
      Prepared events name (.argument index) shadow ∨
        shadow = .concrete ∧ ¬ ∃ other, Prepared events name (.argument index) other := by
  have carried : (final.engine name).carried (.argument index) =
      Position.carry ((final.engine name).seed.arguments.get index) (.argument index) := rfl
  have prepared := trail.carried_prepared idle (by simp : Position.argument index ≠ .result)
  simp only [carried, Position.carry_argument_inj, Position.carry_argument_eq_none_iff] at prepared
  exact Latest.held_iff prepared shadow

end Trail

/-- What a callee starts with, at any point of any run. A call that is entered with what was
prepared gets a frame whose receiver and arguments are what the latest reads forwarded to them have
loaded since the preparation was last started anew; it has no receiver, and the argument is
concrete, where there is no such read. A call that is entered with a seed of its own gets exactly
that, and what was prepared is lost. In both cases there are no locals yet and the callers keep
their frames. -/
theorem Run.callee_seeded_by_reads (run : Run) (name : String) (past future : List Event)
    (entry : Event) (parts : run.events = past ++ entry :: future)
    (own : entry.step.thread = name) :
    (entry.step.action = .hook .enter →
      entry.answer = .hook .done ∧
      ∃ callee,
      (entry.after.engine name).stack.frames = callee :: (entry.before.engine name).stack.frames ∧
        (∀ shadow, callee.receiver? = some shadow ↔ Prepared past name .receiver shadow) ∧
        (∀ index shadow, callee.argument index = shadow ↔
          Prepared past name (.argument index) shadow ∨
            shadow = .concrete ∧ ¬ ∃ other, Prepared past name (.argument index) other) ∧
        ∀ index, callee.localVar index = .concrete) ∧
    ∀ seed, entry.step.action = .hook (.enterWith seed) →
      entry.answer = .hook .done ∧
      (entry.after.engine name).stack.frames =
        ⟨seed.receiver, seed.arguments, {}⟩ :: (entry.before.engine name).stack.frames ∧
      (entry.after.engine name).seed = {} := by
  obtain ⟨trail, valid, -⟩ := run.cut parts
  have idle := run.idle name
  have engine := valid.engine name
  have answer := valid.answer
  constructor
  · intro asked
    simp only [asked, own, if_true] at engine answer
    refine ⟨answer, (entry.before.engine name).seed.frame, by rw [engine]; rfl, ?_, ?_, ?_⟩
    · exact trail.receiver_prepared_iff idle
    · exact trail.argument_prepared_iff idle
    · intro index
      exact Slots.get_empty index
  · intro seed asked
    simp only [asked, own, if_true] at engine answer
    exact ⟨answer, by rw [engine]; rfl, by rw [engine]; rfl⟩

/-! ## A run -/

/-- One instruction forwards a symbolic value, and then another one forwards it as well, to
another argument, and a concrete receiver. After the call that this prepares, one is entered with
a seed of its own. -/
def Hook.preparation : List Hook :=
  [.enter, .markSymbolic (.localVar 0), .read ⟨1, 0, .int 0, some (.argument 0)⟩ (.localVar 0),
    .read ⟨2, 0, .int 0, some (.argument 1)⟩ (.localVar 0),
    .read ⟨2, 1, .int 0, some .receiver⟩ (.localVar 1), .enter,
    .enterWith { receiver := some .symbolic }]

/-- The receiver and the first arguments of the innermost frame. -/
def Collector.callee (collector : Collector) : Option Shadow × Shadow × Shadow :=
  let frame := (collector.engine "main").top
  (frame.receiver?, frame.argument 0, frame.argument 1)

/-- The callee gets what the second instruction has forwarded, and nothing of the first. -/
theorem Run.callee_seeded_by_reads_preparation :
    ∃ (run : Run) (past : List Event) (entry given : Event) (callee own : Frame),
      run.steps = Hook.preparation.map .ofMain ∧ run.events = past ++ [entry, given] ∧
      (entry.after.engine "main").stack.frames =
        callee :: (entry.before.engine "main").stack.frames ∧
      callee.receiver? = some .concrete ∧ callee.argument 0 = .concrete ∧
      callee.argument 1 = .symbolic ∧
      Prepared past "main" .receiver .concrete ∧ Prepared past "main" (.argument 1) .symbolic ∧
      (given.after.engine "main").stack.frames = own :: (given.before.engine "main").stack.frames ∧
      own.receiver? = some .symbolic ∧ own.argument 1 = .concrete := by
  obtain ⟨run, steps, shown⟩ :=
    Run.exists_of_hooks Collector.callee Hook.preparation
      [(.done, 1, none, .concrete, .concrete), (.done, 1, none, .concrete, .concrete),
        (.flag .symbolic, 1, none, .concrete, .concrete),
        (.flag .symbolic, 1, none, .concrete, .concrete),
        (.flag .concrete, 1, none, .concrete, .concrete),
        (.done, 2, some .concrete, .concrete, .symbolic),
        (.done, 3, some .symbolic, .concrete, .concrete)]
      (by decide +kernel)
  simp only [Hook.preparation, List.zip_cons_cons, List.zip_nil_left, List.forall₂_cons_right_iff,
    List.forall₂_nil_right_iff] at shown
  obtain ⟨outer, _, -, ⟨mark, _, -, ⟨first, _, -, ⟨second, _, -, ⟨receiver, _, -, ⟨entry, _,
      entryShown, ⟨given, _, givenShown, rfl, rfl⟩, rfl⟩, rfl⟩, rfl⟩, rfl⟩, rfl⟩, events⟩ := shown
  have parts : run.events = [outer, mark, first, second, receiver] ++ [entry, given] := events
  have whole : run.events = [outer, mark, first, second, receiver, entry] ++ [given] := events
  obtain ⟨-, callee, frames, receivers, arguments, -⟩ :=
    (run.callee_seeded_by_reads "main" _ [given] entry parts (by rw [entryShown.step]; rfl)).1
      (by rw [entryShown.step]; rfl)
  obtain ⟨-, ownFrames, -⟩ :=
    (run.callee_seeded_by_reads "main" _ [] given whole (by rw [givenShown.step]; rfl)).2 _
      (by rw [givenShown.step]; rfl)
  have seen : (callee.receiver?, callee.argument 0, callee.argument 1) = (some .concrete, .concrete,
      .symbolic) := by
    simpa [Collector.callee, Engine.top, frames] using entryShown.view
  simp only [Prod.mk.injEq] at seen
  obtain ⟨receiver?, argument0, argument1⟩ := seen
  refine ⟨run, _, entry, given, callee, _, steps, parts, frames, receiver?, argument0, argument1,
    (receivers _).mp receiver?, ?_, ownFrames, rfl, rfl⟩
  -- A symbolic argument cannot be one that was never forwarded.
  exact ((arguments 1 _).mp argument1).resolve_right (by simp)

end ShadowTrace
