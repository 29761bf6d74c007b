import ShadowTrace.Engine

/-! # What the hooks do

Without an active frame every access fails and changes nothing; with one, every access succeeds. So
in the second case a hook is an equation: what is looked up, what is placed and which window is open
afterwards. -/

namespace ShadowTrace

/-- The shadow that a write leaves at its location. -/
def Written.shadow (flag : Flag) : Written → Shadow
  | .reference (some id) => .reference id
  | _ => .ofFlag flag

/-- The tables once a write has passed its flag on to the object it refers to. -/
def Written.mark (tables : Tables) (flag : Flag) : Written → Tables
  | .reference (some id) => { tables with heap := tables.heap.setFlag id flag.stored }
  | _ => tables

def Tables.place (tables : Tables) (location : Location) (shadow : Shadow) : Tables :=
  match location with
  | .static field => { tables with statics := tables.statics.put field shadow }
  | .object id key => { tables with heap := tables.heap.put id key shadow }
  | .this | .argument _ | .localVar _ | .returned => tables

/-- The tables once the value at a location, which has the given shadow, has been marked. -/
def Tables.mark (tables : Tables) (location : Location) : Shadow → Tables
  | .reference id => { tables with heap := tables.heap.setFlag id .symbolic }
  | _ => tables.place location .symbolic

namespace CallStack

/-- The stack with the top frame changed, if there is one. -/
def mapTop (stack : CallStack) (change : Frame → Frame) : CallStack :=
  match stack.frames with
  | [] => stack
  | frame :: rest => ⟨change frame :: rest⟩

theorem modifyTop_eq (stack : CallStack) (change : Frame → Frame) (active : stack.depth ≠ 0) :
    stack.modifyTop change = .ok (stack.mapTop change) := by
  rcases frames : stack.frames with _ | ⟨frame, rest⟩
  · simp [depth, frames] at active
  · simp [modifyTop, mapTop, frames]

end CallStack

namespace Engine

/-- The frame on top of the stack. -/
def top (engine : Engine) : Frame := engine.stack.frames.headD {}

/-- What is at a location, provided that there is an active frame. -/
def look (engine : Engine) (tables : Tables) : Location → Shadow
  | .this => engine.top.receiver
  | .argument index => engine.top.argument index
  | .localVar index => engine.top.localVar index
  | .static field => tables.statics.get field
  | .object id key => tables.heap.shadow id key
  | .returned => engine.returned.getD .concrete

/-- The thread's own part of storing at a location. -/
def place (engine : Engine) (location : Location) (shadow : Shadow) : Engine :=
  match location with
  | .this => { engine with stack := engine.stack.mapTop fun frame => frame.setReceiver shadow }
  | .argument index =>
    { engine with stack := engine.stack.mapTop fun frame => frame.setArgument index shadow }
  | .localVar index =>
    { engine with stack := engine.stack.mapTop fun frame => frame.setLocal index shadow }
  | .returned => { engine with returned := some shadow }
  | .static _ | .object .. => engine

/-- The thread's own part of marking the value at a location, which has the given shadow. -/
def mark (engine : Engine) (location : Location) : Shadow → Engine
  | .reference _ => engine
  | _ => engine.place location .symbolic

variable (engine : Engine) (tables : Tables)

@[simp] theorem window_place (location : Location) (shadow : Shadow) :
    (engine.place location shadow).window = engine.window := by
  cases location <;> rfl

@[simp] theorem window_mark (location : Location) (shadow : Shadow) :
    (engine.mark location shadow).window = engine.window := by
  cases shadow <;> simp [mark]

@[simp] theorem depth_observe (id : InstructionId) (location : Location) :
    (engine.observe id location).1.depth = engine.depth := by
  unfold observe
  split <;> rfl

@[simp] theorem window_forward (shadow : Shadow) (position : Option Position) :
    (engine.forward shadow position).window = engine.window := by
  rcases position with _ | (_ | _ | _) <;> rfl

theorem top_idle (idle : engine.depth = 0) : engine.stack.top = .error .noActiveFrame :=
  (engine.stack.top_eq_error_iff _).mpr ⟨idle, rfl⟩

theorem top_active (active : engine.depth ≠ 0) : engine.stack.top = .ok engine.top := by
  rcases frames : engine.stack.frames with _ | ⟨frame, rest⟩
  · simp [depth, CallStack.depth, frames] at active
  · simp [CallStack.top, top, frames]

theorem load_idle (location : Location) (idle : engine.depth = 0) :
    engine.load tables location = .error .noActiveFrame := by
  simp [load, engine.top_idle idle]

theorem load_active (location : Location) (active : engine.depth ≠ 0) :
    engine.load tables location = .ok (engine.look tables location) := by
  cases location <;> simp [load, engine.top_active active, look]

/-- With an active frame there is no location that cannot be stored to. -/
theorem store_active (location : Location) (shadow : Shadow) (active : engine.depth ≠ 0) :
    engine.store tables location shadow = .ok (engine.place location shadow,
      tables.place location shadow) := by
  cases location <;>
    simp [store, storeInFrame, engine.stack.modifyTop_eq _ active, place, Tables.place]

/-- The hooks that need an active frame. -/
def Needs : Hook → Prop
  | .read .. | .write .. | .assign .. | .markSymbolic .. | .resolve .. => True
  | _ => False

/-- Without an active frame an access fails and nothing changes. -/
theorem step_idle {hook : Hook} (needs : Needs hook) (idle : engine.depth = 0) :
    engine.step tables hook = { result := .error .noActiveFrame, engine, tables } := by
  cases hook <;>
    simp_all [Needs, step, read, write, assign, markSymbolic, resolve, load_idle, top_idle]

theorem read_active (operand : Operand) (location : Location) (active : engine.depth ≠ 0) :
    engine.step tables (.read operand location) =
      let shadow := engine.look tables location
      let observed := (engine.observe operand.instruction location).1
      { result := .ok (.flag (tables.heap.resolve shadow))
        engine := Engine.forward
          { observed with
            window :=
              observed.window.add operand.position (tables.heap.resolve shadow) operand.value
            returned := if location = Location.returned then none else observed.returned }
          shadow operand.forward
        tables
        recorded := (engine.observe operand.instruction location).2 } := by
  simp [step, read, load_active, active]

theorem write_active (id : InstructionId) (location : Location) (value : Written)
    (active : engine.depth ≠ 0) :
    engine.step tables (.write id location value) =
      let observed := (engine.observe id location).1
      let flag := observed.accumulator
      { result := .ok .done
        engine := observed.place location (value.shadow flag)
        tables := (value.mark tables flag).place location (value.shadow flag)
        recorded := (engine.observe id location).2 } := by
  -- The store comes after the window has been opened, which leaves the stack as it is.
  have still : (engine.observe id location).1.depth ≠ 0 := by rwa [depth_observe]
  rcases value with _ | (_ | object) <;>
    simp [step, write, engine.top_active active, store_active _ _ _ _ still, Written.shadow,
      Written.mark]

theorem assign_active (location : Location) (shadow : Shadow) (active : engine.depth ≠ 0) :
    engine.step tables (.assign location shadow) =
      { result := .ok .done, engine := engine.place location shadow,
        tables := tables.place location shadow } := by
  simp [step, assign, top_active, store_active, active]

/-- Marking leaves a reference where it is and marks the object. -/
theorem markSymbolic_active (location : Location) (active : engine.depth ≠ 0) :
    engine.step tables (.markSymbolic location) =
      { result := .ok .done
        engine := engine.mark location (engine.look tables location)
        tables := tables.mark location (engine.look tables location) } := by
  cases looked : engine.look tables location <;>
    simp [step, markSymbolic, load_active, store_active, active, looked, mark, Tables.mark]

theorem resolve_active (location : Location) (active : engine.depth ≠ 0) :
    engine.step tables (.resolve location) =
      { result := .ok (.flag (tables.heap.resolve (engine.look tables location)))
        engine
        tables } := by
  simp [step, resolve, load_active, active]

theorem exit_idle (idle : engine.depth = 0) :
    engine.step tables .exit = { result := .error .stackUnderflow, engine, tables } := by
  have popped : engine.stack.pop = .error .stackUnderflow :=
    (engine.stack.pop_eq_error_iff _).mpr ⟨idle, rfl⟩
  simp [step, exit, popped]

/-- The outermost call returns. -/
theorem exit_last {frame : Frame} (last : engine.stack.frames = [frame]) :
    engine.step tables .exit =
      { result := .ok .done
        engine := { engine with stack := {}, window := engine.window.finalize.1, seed := {} }
        tables
        recorded := engine.window.finalize.2 } := by
  simp [step, exit, CallStack.pop, CallStack.isEmpty, last]

/-- A call returns to its caller. -/
theorem exit_inner {frame caller : Frame} {rest : List Frame}
    (inner : engine.stack.frames = frame :: caller :: rest) :
    engine.step tables .exit =
      { result := .ok .done, engine := { engine with stack := ⟨caller :: rest⟩ }, tables } := by
  simp [step, exit, CallStack.pop, CallStack.isEmpty, inner]

theorem close_pending {id : InstructionId} (pending : engine.window.pending? = some id) :
    engine.step tables (.close id) =
      { result := .ok .done
        engine := { engine with window := engine.window.finalize.1 }
        tables
        recorded := engine.window.finalize.2 } := by
  cases window : engine.window with
  | pending accumulator record =>
    have same : record.instruction = id := by simpa [window, Window.pending?] using pending
    simp [step, close, Window.close, window, same]
  | fresh | finalized => simp [window, Window.pending?] at pending

/-- What is wrong with a hook at this point, if anything. -/
def refusal (engine : Engine) : Hook → Option Desync
  | .enter | .enterWith _ | .reset => none
  | .exit => if engine.depth = 0 then some .stackUnderflow else none
  | .read .. | .write .. | .assign .. | .markSymbolic _ | .resolve _ =>
    if engine.depth = 0 then some .noActiveFrame else none
  | .close id =>
    if engine.window.pending? = some id then none
    else if engine.window = .finalized id then some (.finalizedTwice id)
    else some (.mismatch engine.window.pending? id)

theorem refusal_idle {hook : Hook} (needs : Needs hook) (idle : engine.depth = 0) :
    engine.refusal hook = some .noActiveFrame := by
  cases hook with
  | read | write | assign | markSymbolic | resolve => simp [refusal, idle]
  | enter | enterWith | exit | close | reset => exact needs.elim

theorem close_refused {id : InstructionId} (other : engine.window.pending? ≠ some id) :
    ∃ desync, engine.refusal (.close id) = some desync ∧
      engine.step tables (.close id) = { result := .error desync, engine, tables } := by
  cases window : engine.window with
  | fresh =>
    exact ⟨.mismatch none id, by simp [refusal, window, Window.pending?],
      by simp [step, close, window, Window.close]⟩
  | pending accumulator record =>
    have differs : record.instruction ≠ id := by simpa [window, Window.pending?] using other
    exact ⟨.mismatch (some record.instruction) id,
      by simp [refusal, window, Window.pending?, differs],
      by simp [step, close, window, Window.close, differs]⟩
  | finalized last =>
    by_cases again : last = id
    · exact ⟨.finalizedTwice id, by simp [refusal, window, Window.pending?, again],
        by simp [step, close, window, Window.close, again]⟩
    · exact ⟨.mismatch none id, by simp [refusal, window, Window.pending?, again],
        by simp [step, close, window, Window.close, again]⟩

theorem close_other {id : InstructionId} (other : engine.window.pending? ≠ some id) :
    ∃ desync, engine.step tables (.close id) = { result := .error desync, engine, tables } := by
  obtain ⟨desync, -, failed⟩ := engine.close_refused tables other
  exact ⟨desync, failed⟩

/-- A hook is refused, fails with what is wrong with it and changes nothing; or it succeeds. -/
theorem refused_or_done (hook : Hook) :
    (∃ desync, engine.refusal hook = some desync ∧
        engine.step tables hook = { result := .error desync, engine, tables }) ∨
      engine.refusal hook = none ∧ ∃ reply, (engine.step tables hook).result = .ok reply := by
  by_cases missing : Needs hook ∧ engine.depth = 0
  · exact .inl ⟨.noActiveFrame, engine.refusal_idle missing.1 missing.2,
      engine.step_idle tables missing.1 missing.2⟩
  · have active (needs : Needs hook) : engine.depth ≠ 0 := fun idle => missing ⟨needs, idle⟩
    -- With a frame wherever one is needed, only an exit and a close can fail.
    cases hook with
    | enter | enterWith | reset => exact .inr ⟨rfl, .done, rfl⟩
    | exit =>
      rcases frames : engine.stack.frames with _ | ⟨frame, _ | ⟨caller, rest⟩⟩
      · have idle : engine.depth = 0 := by simp [depth, CallStack.depth, frames]
        exact .inl ⟨.stackUnderflow, by simp [refusal, idle], engine.exit_idle tables idle⟩
      · have inside : engine.depth ≠ 0 := by simp [depth, CallStack.depth, frames]
        exact .inr ⟨by simp [refusal, inside], .done, by rw [engine.exit_last tables frames]⟩
      · have inside : engine.depth ≠ 0 := by simp [depth, CallStack.depth, frames]
        exact .inr ⟨by simp [refusal, inside], .done, by rw [engine.exit_inner tables frames]⟩
    | read =>
      exact .inr ⟨by simp [refusal, active trivial], _,
        by rw [read_active _ _ _ _ (active trivial)]⟩
    | write =>
      exact .inr ⟨by simp [refusal, active trivial], _,
        by rw [write_active _ _ _ _ _ (active trivial)]⟩
    | assign =>
      exact .inr ⟨by simp [refusal, active trivial], _,
        by rw [assign_active _ _ _ _ (active trivial)]⟩
    | markSymbolic =>
      exact .inr ⟨by simp [refusal, active trivial], _,
        by rw [markSymbolic_active _ _ _ (active trivial)]⟩
    | resolve =>
      exact .inr ⟨by simp [refusal, active trivial], _,
        by rw [resolve_active _ _ _ (active trivial)]⟩
    | close id =>
      by_cases pending : engine.window.pending? = some id
      · exact .inr ⟨by simp [refusal, pending], .done, by rw [engine.close_pending tables pending]⟩
      · exact .inl (engine.close_refused tables pending)

/-- A hook that fails changes nothing. -/
theorem step_failed {hook : Hook} {desync : Desync}
    (failed : (engine.step tables hook).result = .error desync) :
    engine.step tables hook = { result := .error desync, engine, tables } := by
  rcases engine.refused_or_done tables hook with ⟨wrong, -, refused⟩ | ⟨-, reply, done⟩
  · rw [refused] at failed ⊢
    rw [← failed]
  · cases done.symm.trans failed

/-- A hook that needs a frame and succeeds has one. -/
theorem active_of_ok {hook : Hook} {reply : Reply} (needs : Needs hook)
    (ok : (engine.step tables hook).result = .ok reply) : engine.depth ≠ 0 := by
  intro idle
  rw [engine.step_idle tables needs idle] at ok
  cases ok

end Engine

end ShadowTrace
