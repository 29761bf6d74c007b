import ShadowTrace.Proofs.History

/-! # How a close is answered

A close is answered by the history of its thread alone. It succeeds for the window that was opened
last if that is still open; for this window it fails in one way if it has been finalized, and for
any other instruction it fails in another. The history is kept in two ids, that of the pending
instruction and that of the last one finalized; one of them is set at most, and outside of all calls
no instruction is pending. -/

namespace ShadowTrace

/-! ## Windows in a history -/

namespace Span

theorem follow_concat (current : Option (Span Reading)) (calls : List Call) (call : Call) :
    follow current (calls ++ [call]) = (next (follow current calls) call call.readings).1 := by
  simp [follow]

theorem instruction_touch {α : Type} (current : Option (Span α)) (id : InstructionId) :
    (touch current id).1.instruction = id := by
  cases current with
  | none => rfl
  | some span => by_cases same : span.instruction = id <;> simp [touch, same]

end Span

namespace Call

theorem instruction?_of_reset {call : Call} (reset : call.hook = .reset) :
    call.instruction? = none := by
  obtain ⟨hook, result, depth⟩ := call
  cases reset
  rfl

/-- The window of the instruction is the last that the calls have opened, and there was no reset
after it. The calls since then are in the second list. -/
def LastOpened (calls : List Call) (id : InstructionId) (later : List Call) : Prop :=
  ∃ earlier source, calls = earlier ++ source :: later ∧ source.instruction? = some id ∧
    source.opens (Span.follow none earlier) = true ∧
    ∀ others call rest, later = others ++ call :: rest →
      call.hook ≠ .reset ∧ call.opens (Span.follow none (earlier ++ source :: others)) = false

/-- The window opened last is that of the instruction, and nothing has finalized it. -/
def StillOpen (calls : List Call) (id : InstructionId) : Prop :=
  ∃ later, LastOpened calls id later ∧ ∀ call ∈ later, call.ends id = false

/-- The window opened last is that of the instruction, and it has been finalized by a close or at
the end of the outermost call. -/
def Finalized (calls : List Call) (id : InstructionId) : Prop :=
  ∃ later, LastOpened calls id later ∧ ∃ call ∈ later, call.ends id = true

variable {calls : List Call} {call : Call} {id : InstructionId} {later : List Call}

theorem not_lastOpened_nil : ¬ LastOpened [] id later := by
  rintro ⟨earlier, source, cut, -⟩
  simp at cut

/-- One more call opens a window itself, or is one of those since the last window was opened. -/
theorem lastOpened_concat_iff :
    LastOpened (calls ++ [call]) id later ↔
      (later = [] ∧ call.instruction? = some id ∧ call.opens (Span.follow none calls) = true) ∨
        ∃ between, later = between ++ [call] ∧ LastOpened calls id between ∧ call.hook ≠ .reset ∧
          call.opens (Span.follow none calls) = false := by
  constructor
  · rintro ⟨earlier, source, cut, instruction, opened, lasts⟩
    rcases concat_eq_cut_iff.mp cut with ⟨rfl, rfl, rfl⟩ | ⟨between, rfl, rfl⟩
    · exact .inl ⟨rfl, instruction, opened⟩
    · refine .inr ⟨between, rfl, ⟨earlier, source, rfl, instruction, opened, ?_⟩,
        lasts between call [] rfl⟩
      intro others other rest parts
      exact lasts others other (rest ++ [call]) (by simp [parts])
  · rintro (⟨rfl, instruction, opened⟩
      | ⟨between, rfl, ⟨earlier, source, rfl, instruction, opened, lasts⟩, here⟩)
    · exact ⟨calls, call, rfl, instruction, opened, by simp⟩
    · refine ⟨earlier, source, by simp, instruction, opened, ?_⟩
      intro others other rest parts
      rcases concat_eq_cut_iff.mp parts with ⟨rfl, rfl, -⟩ | ⟨rest, -, parts⟩
      · exact here
      · exact lasts others other rest parts

theorem stillOpen_concat_iff :
    StillOpen (calls ++ [call]) id ↔
      (call.instruction? = some id ∧ call.opens (Span.follow none calls) = true) ∨
        StillOpen calls id ∧ call.hook ≠ .reset ∧ call.opens (Span.follow none calls) = false ∧
        call.ends id = false := by
  constructor
  · rintro ⟨later, last, unended⟩
    rcases lastOpened_concat_iff.mp last with ⟨-, here⟩ | ⟨between, rfl, opened, kept, unopened⟩
    · exact .inl here
    · refine .inr ⟨⟨between, opened, ?_⟩, kept, unopened, unended call (by simp)⟩
      intro other member
      exact unended other (by simp [member])
  · rintro (here | ⟨⟨between, opened, unended⟩, kept, unopened, here⟩)
    · exact ⟨[], lastOpened_concat_iff.mpr (.inl ⟨rfl, here⟩), by simp⟩
    · refine ⟨between ++ [call],
        lastOpened_concat_iff.mpr (.inr ⟨between, rfl, opened, kept, unopened⟩), ?_⟩
      intro other member
      rcases List.mem_append.mp member with earlier | last
      · exact unended other earlier
      · obtain rfl := List.mem_singleton.mp last
        exact here

theorem finalized_concat_iff :
    Finalized (calls ++ [call]) id ↔
      call.hook ≠ .reset ∧ call.opens (Span.follow none calls) = false ∧
        (Finalized calls id ∨ StillOpen calls id ∧ call.ends id = true) := by
  constructor
  · rintro ⟨later, last, other, member, ended⟩
    rcases lastOpened_concat_iff.mp last with ⟨rfl, -⟩ | ⟨between, rfl, opened, kept, unopened⟩
    · cases member
    · refine ⟨kept, unopened, ?_⟩
      -- The first call to end the window is the new one, or one before it.
      by_cases before : ∃ earlier ∈ between, earlier.ends id = true
      · exact .inl ⟨between, opened, before⟩
      · rcases List.mem_append.mp member with earlier | new
        · exact absurd ⟨other, earlier, ended⟩ before
        · obtain rfl := List.mem_singleton.mp new
          exact .inr ⟨⟨between, opened, by simpa using before⟩, ended⟩
  · rintro ⟨kept, unopened, ⟨between, opened, other, member, ended⟩ | ⟨⟨between, opened, -⟩, ended⟩⟩
    · exact ⟨between ++ [call],
        lastOpened_concat_iff.mpr (.inr ⟨between, rfl, opened, kept, unopened⟩), other,
        by simp [member], ended⟩
    · exact ⟨between ++ [call],
        lastOpened_concat_iff.mpr (.inr ⟨between, rfl, opened, kept, unopened⟩), call,
        by simp, ended⟩

end Call

/-! ## Two ids -/

/-- The instruction that is pending, and the last one finalized as long as no other has
been opened. -/
structure Boundary where
  pending : Option InstructionId := none
  finalized : Option InstructionId := none

namespace Boundary

/-- Opens a window; the last one finalized is forgotten. -/
def start (boundary : Boundary) (id : InstructionId) : Boundary :=
  { boundary with pending := some id, finalized := none }

def finalize (boundary : Boundary) : Boundary :=
  match boundary.pending with
  | some id => { pending := none, finalized := some id }
  | none => boundary

def observe (boundary : Boundary) (id : InstructionId) : Boundary :=
  if boundary.pending = some id then boundary else boundary.finalize.start id

def close (boundary : Boundary) (id : InstructionId) : Except Desync Boundary :=
  if boundary.pending = some id then .ok boundary.finalize
  else if boundary.pending = none ∧ boundary.finalized = some id then .error (.finalizedTwice id)
  else .error (.mismatch boundary.pending id)

/-- What a call does to the ids. -/
def next (boundary : Boundary) (call : Call) : Boundary :=
  match call.hook with
  | .read operand _ => if call.result.isOk then boundary.observe operand.instruction else boundary
  | .write id _ _ => if call.result.isOk then boundary.observe id else boundary
  -- An exit finalizes only if it leaves the outermost call.
  | .exit => if call.result.isOk ∧ call.depth = 0 then boundary.finalize else boundary
  | .close id => (boundary.close id).toOption.getD boundary
  | .reset => {}
  | .enter | .enterWith _ | .assign .. | .markSymbolic _ | .resolve _ => boundary

def ofCalls (calls : List Call) : Boundary := calls.foldl next {}

theorem ofCalls_concat (calls : List Call) (call : Call) :
    ofCalls (calls ++ [call]) = (ofCalls calls).next call := by
  simp [ofCalls]

theorem finalize_of_pending {boundary : Boundary} {id : InstructionId}
    (pending : boundary.pending = some id) :
    boundary.finalize = { finalized := some id } := by
  simp [finalize, pending]

theorem finalize_of_none {boundary : Boundary} (none : boundary.pending = none) :
    boundary.finalize = boundary := by
  simp [finalize, none]

theorem observe_of_pending {boundary : Boundary} {id : InstructionId}
    (pending : boundary.pending = some id) :
    boundary.observe id = boundary :=
  if_pos pending

theorem observe_of_other {boundary : Boundary} {id : InstructionId}
    (other : boundary.pending ≠ some id) :
    boundary.observe id = { pending := some id } :=
  if_neg other

/-- Whether a close succeeds is as the ids say. -/
def Answers (boundary : Boundary) (call : Call) : Prop :=
  ∀ id, call.hook = .close id → call.result.isOk = (boundary.close id).isOk

theorem Answers.isOk_iff {boundary : Boundary} {call : Call} (answers : boundary.Answers call)
    {id : InstructionId} (asked : call.hook = .close id) :
    call.result.isOk = true ↔ boundary.pending = some id := by
  rw [answers id asked, close]
  split
  next pending => simp [pending, Except.isOk, Except.toBool]
  next other => split <;> simp [other, Except.isOk, Except.toBool]

theorem toOption_close_of_pending {boundary : Boundary} {id : InstructionId}
    (pending : boundary.pending = some id) :
    (boundary.close id).toOption = some { finalized := some id } := by
  rw [close, if_pos pending, finalize_of_pending pending]
  rfl

theorem toOption_close_of_other {boundary : Boundary} {id : InstructionId}
    (other : boundary.pending ≠ some id) :
    (boundary.close id).toOption = none := by
  rw [close, if_neg other]
  split <;> rfl

/-- A call that fails leaves the ids alone. -/
theorem next_of_error {boundary : Boundary} {call : Call} (answers : boundary.Answers call)
    (kept : call.hook ≠ .reset) {desync : Desync} (failed : call.result = .error desync) :
    boundary.next call = boundary := by
  obtain ⟨hook, result, depth⟩ := call
  subst failed
  cases hook with
  | reset => exact absurd rfl kept
  | close id =>
    have other : boundary.pending ≠ some id := by
      intro pending
      cases (answers.isOk_iff rfl).mpr pending
    simp only [next, toOption_close_of_other other, Option.getD_none]
  | read | write | exit | enter | enterWith | assign | markSymbolic | resolve => rfl

/-- What a call can do to the ids: open a window, reset them, finalize the pending window,
or nothing. -/
inductive Moves (boundary : Boundary) (call : Call) : Boundary → Prop
  | opens {id : InstructionId} (access : call.instruction? = some id)
      (other : boundary.pending ≠ some id) :
      Moves boundary call { pending := some id }
  | resets (reset : call.hook = .reset) : Moves boundary call {}
  | ends {id : InstructionId} (access : call.instruction? = none) (kept : call.hook ≠ .reset)
      (pending : boundary.pending = some id) (ended : call.ends id = true) : Moves boundary call
      { finalized := some id }
  | stays (access : ∀ id, call.instruction? = some id → boundary.pending = some id)
      (kept : call.hook ≠ .reset)
      (unended : ∀ id, boundary.pending = some id → call.ends id = false) :
    Moves boundary call boundary

theorem moves_observe {boundary : Boundary} {call : Call} {id : InstructionId}
    (access : call.instruction? = some id) (kept : call.hook ≠ .reset)
    (unended : ∀ id, call.ends id = false) : boundary.Moves call (boundary.observe id) := by
  by_cases pending : boundary.pending = some id
  · rw [observe_of_pending pending]
    refine .stays ?_ kept fun id _ => unended id
    intro other same
    rw [pending, ← access, same]
  · rw [observe_of_other pending]
    exact .opens access pending

theorem moves_idle {boundary : Boundary} {call : Call} (access : call.instruction? = none)
    (kept : call.hook ≠ .reset) (unended : ∀ id, call.ends id = false) :
    boundary.Moves call boundary :=
  .stays (by simp [access]) kept fun id _ => unended id

theorem moves {boundary : Boundary} {call : Call} (answers : boundary.Answers call) :
    boundary.Moves call (boundary.next call) := by
  by_cases reset : call.hook = .reset
  · have next : boundary.next call = {} := by simp only [next, reset]
    rw [next]
    exact .resets reset
  · cases result : call.result with
    | error desync =>
      rw [next_of_error answers reset result]
      obtain ⟨hook, _, depth⟩ := call
      subst result
      -- A call that fails is no access and ends nothing.
      cases hook <;> exact moves_idle rfl reset fun _ => rfl
    | ok reply =>
      obtain ⟨hook, _, depth⟩ := call
      subst result
      cases hook with
      | read | write => exact moves_observe rfl reset fun _ => rfl
      | exit =>
        -- Only the exit that empties the stack ends a window, if there is one.
        by_cases last : depth = 0
        · simp only [next, Except.isOk, Except.toBool, last, and_self, if_true]
          cases pending : boundary.pending with
          | none =>
            rw [finalize_of_none pending]
            exact .stays (by simp [Call.instruction?]) (by simp) (by simp [pending])
          | some id =>
            rw [finalize_of_pending pending]
            exact .ends rfl (by simp) pending (by simp [Call.ends])
        · simp only [next, last, and_false, if_false]
          exact moves_idle rfl reset fun _ => by simp [Call.ends, last]
      | close id =>
        -- The close has succeeded, so the instruction is the pending one.
        have pending := (answers.isOk_iff rfl).mp rfl
        simp only [next, toOption_close_of_pending pending, Option.getD_some]
        exact .ends rfl reset pending (by simp [Call.ends])
      | reset => exact absurd rfl reset
      | enter | enterWith | assign | markSymbolic | resolve =>
        exact moves_idle rfl reset fun _ => rfl

/-- The pending instruction is that of the window which the calls show. -/
theorem Moves.pending_eq {boundary after : Boundary} {call : Call}
    (moves : boundary.Moves call after) {current : Option (Span Reading)}
    (same : current.map (·.instruction) = boundary.pending) (reads : List Reading) :
    (Span.next current call reads).1.map (·.instruction) = after.pending := by
  cases moves with
  | opens access other => simp [Span.next, access, Span.add, Span.instruction_touch]
  | resets reset => simp [Span.next, Call.instruction?_of_reset reset, reset]
  | @ends id access kept pending ended =>
    rw [pending] at same
    obtain ⟨span, rfl, rfl⟩ := Option.map_eq_some_iff.mp same
    simp [Span.next, access, kept, ended]
  | stays access kept unended =>
    cases instruction : call.instruction? with
    | some id =>
      simp [Span.next, instruction, Span.add, Span.instruction_touch, access id instruction]
    | none =>
      cases current with
      | none => simpa [Span.next, instruction, kept] using same
      | some span =>
        have unended := unended span.instruction same.symm
        simpa [Span.next, instruction, kept, unended] using same

/-- The ids are what the calls so far say. -/
structure Recalls (boundary : Boundary) (calls : List Call) : Prop where
  current : (Span.follow none calls).map (·.instruction) = boundary.pending
  pending : ∀ id, boundary.pending = some id ↔ Call.StillOpen calls id
  finalized : ∀ id, boundary.finalized = some id ↔ Call.Finalized calls id
  single : boundary.pending = none ∨ boundary.finalized = none

theorem recalls_nil : Recalls {} [] where
  current := rfl
  pending id := by simp [Call.StillOpen, Call.not_lastOpened_nil]
  finalized id := by simp [Call.Finalized, Call.not_lastOpened_nil]
  single := .inl rfl

/-- One call: the ids go on as the calls say. -/
theorem Recalls.moves {boundary after : Boundary} {calls : List Call} {call : Call}
    (recalls : boundary.Recalls calls) (moves : boundary.Moves call after) :
    after.Recalls (calls ++ [call]) := by
  have current := moves.pending_eq recalls.current call.readings
  rw [← Span.follow_concat] at current
  have opens : call.opens (Span.follow none calls) = call.instruction?.any fun id =>
      boundary.pending ≠ some id := by
    rw [Call.opens, recalls.current]
  cases moves with
  | @opens id access other =>
    -- From here on the new window is the last, whatever came before.
    have opened : call.opens (Span.follow none calls) = true := by simp [opens, access, other]
    exact ⟨current, by simp [Call.stillOpen_concat_iff, access, opened],
      by simp [Call.finalized_concat_iff, opened], .inr rfl⟩
  | resets reset =>
    have unopened : call.opens (Span.follow none calls) = false := by
      simp [opens, Call.instruction?_of_reset reset]
    exact ⟨current, by simp [Call.stillOpen_concat_iff, reset, unopened],
      by simp [Call.finalized_concat_iff, reset], .inl rfl⟩
  | @ends id access kept pending ended =>
    have unopened : call.opens (Span.follow none calls) = false := by simp [opens, access]
    -- While an instruction is pending none is finalized.
    have none : boundary.finalized = none := recalls.single.resolve_left (by simp [pending])
    refine ⟨current, ?_, ?_, .inl rfl⟩
    · intro other
      simp only [Call.stillOpen_concat_iff, ← recalls.pending, pending, access, unopened]
      grind
    · intro other
      simp only [Call.finalized_concat_iff, ← recalls.pending, ← recalls.finalized, pending, none,
        unopened]
      grind
  | stays access kept unended =>
    -- The call is an access in the open window, or none at all.
    have unopened : call.opens (Span.follow none calls) = false := by
      rw [opens]
      cases instruction : call.instruction? with
      | none => rfl
      | some id => simp [access id instruction]
    refine ⟨current, ?_, ?_, recalls.single⟩
    · intro id
      simp only [Call.stillOpen_concat_iff, ← recalls.pending, unopened]
      grind
    · intro id
      simp only [Call.finalized_concat_iff, ← recalls.pending, ← recalls.finalized, unopened]
      grind

/-- How a close is answered by what the ids recall. -/
theorem Recalls.close_eq {boundary : Boundary} {calls : List Call}
    (recalls : boundary.Recalls calls) (id : InstructionId) :
    (Call.StillOpen calls id ∧ ¬ Call.Finalized calls id ∧
      boundary.close id = .ok boundary.finalize) ∨
      (¬ Call.StillOpen calls id ∧ Call.Finalized calls id ∧
        boundary.close id = .error (.finalizedTwice id)) ∨
      (¬ Call.StillOpen calls id ∧ ¬ Call.Finalized calls id ∧
        boundary.close id = .error (.mismatch boundary.pending id)) := by
  simp only [← recalls.pending, ← recalls.finalized]
  by_cases pending : boundary.pending = some id
  · have none : boundary.finalized = none := recalls.single.resolve_left (by simp [pending])
    exact .inl ⟨pending, by simp [none], if_pos pending⟩
  · by_cases again : boundary.finalized = some id
    · have none : boundary.pending = none := recalls.single.resolve_right (by simp [again])
      exact .inr (.inl ⟨pending, again, by rw [close, if_neg pending, if_pos ⟨none, again⟩]⟩)
    · exact .inr (.inr ⟨pending, again, by rw [close, if_neg pending, if_neg (by simp [again])]⟩)

end Boundary

/-! ## The engine and the ids -/

namespace Window

/-- The ids that the window shows. -/
def boundary : Window → Boundary
  | fresh => {}
  | pending _ record => { pending := some record.instruction }
  | finalized id => { finalized := some id }

@[simp] theorem pending_boundary (window : Window) : window.boundary.pending = window.pending? := by
  cases window <;> rfl

@[simp] theorem boundary_finalize (window : Window) :
    window.finalize.1.boundary = window.boundary.finalize := by
  cases window <;> rfl

@[simp] theorem boundary_add (window : Window) (position : UInt32) (flag : Flag) (value : Value) :
    (window.add position flag value).boundary = window.boundary := by
  cases window with
  | pending accumulator record =>
    cases concrete : flag.isConcrete <;> simp [add, boundary, concrete, Record.add]
  | fresh | finalized => rfl

end Window

namespace Engine

variable (engine : Engine) (tables : Tables)

@[simp] theorem boundary_observe (id : InstructionId) (location : Location) :
    (engine.observe id location).1.window.boundary = engine.window.boundary.observe id := by
  by_cases pending : engine.window.pending? = some id
  · rw [Boundary.observe_of_pending (by simpa using pending), observe, if_pos pending]
  · rw [Boundary.observe_of_other (by simpa using pending), observe, if_neg pending]
    rfl

/-- A close is answered as the ids say. -/
theorem result_close (id : InstructionId) :
    (engine.step tables (.close id)).result =
      (engine.window.boundary.close id).map fun _ => .done := by
  cases window : engine.window with
  | fresh => simp [step, close, window, Window.close, Window.boundary, Boundary.close, Except.map]
  | pending accumulator record =>
    by_cases same : record.instruction = id <;>
      simp [step, close, window, Window.close, Window.boundary, Boundary.close, Except.map, same]
  | finalized last =>
    by_cases same : last = id <;>
      simp [step, close, window, Window.close, Window.boundary, Boundary.close, Except.map, same]

theorem boundary_answers (hook : Hook) :
    engine.window.boundary.Answers (engine.call tables hook) := by
  intro id asked
  obtain rfl : hook = .close id := asked
  rw [call, result_close]
  cases engine.window.boundary.close id <;> rfl

/-- One hook: the window it leaves shows the ids that its call leads to. -/
theorem boundary_step (hook : Hook) :
    (engine.step tables hook).engine.window.boundary =
      engine.window.boundary.next (engine.call tables hook) := by
  rcases engine.refused_or_done tables hook with ⟨desync, -, failed⟩ | ⟨-, reply, done⟩
  · have kept : hook ≠ .reset := by
      rintro rfl
      cases congrArg Outcome.result failed
    rw [failed,
      Boundary.next_of_error (engine.boundary_answers tables hook) kept (by rw [call, failed])]
  · have active (needs : Needs hook) : engine.depth ≠ 0 := engine.active_of_ok tables needs done
    cases hook with
    | enter | enterWith | reset => rfl
    | exit =>
      rcases frames : engine.stack.frames with _ | ⟨frame, _ | ⟨caller, rest⟩⟩
      · rw [exit_idle _ _ (by simp [depth, CallStack.depth, frames])] at done
        cases done
      · simp [exit_last _ _ frames, Boundary.next, call, Except.isOk, Except.toBool, depth,
          CallStack.depth]
      · simp [exit_inner _ _ frames, Boundary.next, call, depth, CallStack.depth]
    | read operand location =>
      simp [read_active _ _ _ _ (active trivial), Boundary.next, call, Except.isOk, Except.toBool]
    | write id location value =>
      simp [write_active _ _ _ _ _ (active trivial), Boundary.next, call, Except.isOk,
        Except.toBool]
    | assign =>
      rw [assign_active _ _ _ _ (active trivial), window_place]
      rfl
    | markSymbolic =>
      rw [markSymbolic_active _ _ _ (active trivial), window_mark]
      rfl
    | resolve =>
      rw [resolve_active _ _ _ (active trivial)]
      rfl
    | close id =>
      by_cases pending : engine.window.pending? = some id
      · have shown : engine.window.boundary.pending = some id := by simpa using pending
        simp [close_pending _ _ pending, Boundary.next, call,
          Boundary.toOption_close_of_pending shown, Boundary.finalize_of_pending shown]
      · obtain ⟨desync, failed⟩ := engine.close_other tables pending
        rw [failed] at done
        cases done

/-! ## Outside of all calls -/

/-- Outside of all calls no instruction is pending, and nothing is prepared for a call. -/
def Settled (engine : Engine) : Prop :=
  engine.depth = 0 → engine.window.pending? = none ∧ engine.seed = {}

theorem Settled.step {engine : Engine} (settled : engine.Settled) (tables : Tables) (hook : Hook) :
    (engine.step tables hook).engine.Settled := by
  intro outside
  rw [depth_step] at outside
  cases hook with
  | enter | enterWith => cases outside
  | reset => exact ⟨rfl, rfl⟩
  | exit =>
    rcases frames : engine.stack.frames with _ | ⟨frame, _ | ⟨caller, rest⟩⟩
    · have idle : engine.depth = 0 := by simp [depth, CallStack.depth, frames]
      rw [exit_idle _ _ idle]
      exact settled idle
    · rw [exit_last _ _ frames]
      exact ⟨engine.window.pending?_finalize, rfl⟩
    · simp [depth, CallStack.depth, frames] at outside
  | read | write | assign | markSymbolic | resolve =>
    -- The hook has failed for want of a frame.
    rw [step_idle _ _ (by trivial) outside]
    exact settled outside
  | close id =>
    obtain ⟨none, seed⟩ := settled outside
    obtain ⟨desync, failed⟩ := engine.close_other tables (by simp [none])
    rw [failed]
    exact ⟨none, seed⟩

end Engine

/-! ## Whole runs -/

namespace Trail

variable {before final : Collector} {events : List Event} {name : String}

/-- The window of the engine shows the ids that the calls of the thread lead to, and these are what
the calls say. -/
theorem recalls (trail : Trail before events final) (idle : before.engine name = {}) :
    (final.engine name).window.boundary = Boundary.ofCalls (events.filterMap (·.call? name)) ∧
      (Boundary.ofCalls (events.filterMap (·.call? name))).Recalls
        (events.filterMap (·.call? name)) := by
  -- The last call decides, given what the calls before it say.
  induction events using List.reverseRecOn generalizing final with
  | nil =>
    cases trail
    rw [idle]
    exact ⟨rfl, Boundary.recalls_nil⟩
  | append_singleton events event ih =>
    obtain ⟨first, valid, rfl⟩ := trail.unsnoc
    obtain ⟨shown, recalls⟩ := ih first
    rcases valid.seen name with ⟨call, engine, -⟩ | ⟨hook, call, engine, -⟩
    · simp only [List.filterMap_append, List.filterMap_cons, call, List.filterMap_nil,
        List.append_nil, engine]
      exact ⟨shown, recalls⟩
    · simp only [List.filterMap_append, List.filterMap_cons, call, List.filterMap_nil,
        Boundary.ofCalls_concat, engine]
      rw [← shown] at recalls ⊢
      exact ⟨Engine.boundary_step _ _ hook,
        recalls.moves (Boundary.moves (Engine.boundary_answers _ _ hook))⟩

theorem settled (trail : Trail before events final) (settled : (before.engine name).Settled) :
    (final.engine name).Settled := by
  induction trail with
  | done => exact settled
  | @step event events final valid rest ih =>
    apply ih
    rcases valid.seen name with ⟨-, engine, -⟩ | ⟨hook, -, engine, -⟩
    · rwa [engine]
    · rw [engine]
      exact settled.step event.before.tables hook

end Trail

/-- The answer to a close, given what the ids recall. -/
theorem Event.Valid.answer_close {event : Event} (valid : event.Valid) {name : String}
    (own : event.step.thread = name) {id : InstructionId}
    (asked : event.step.action = .hook (.close id)) :
    event.answer =
      .ofResult (((event.before.engine name).window.boundary.close id).map fun _ => .done) := by
  have answer := valid.answer
  simp only [asked, own] at answer
  rw [answer, Engine.result_close]

/-- Closing an instruction is answered by the history of the thread. Over every run, a close
succeeds exactly if the window that was opened last, since the start or the last reset, is that of
the instruction and still open. It fails as finalized twice exactly if that window has been
finalized since, by a close or by the end of the outermost call. In all other cases it is a mismatch
with the instruction whose window is open, or with none. One of the two ids that the history is kept
in is set at most, and outside of all calls no instruction is pending, the accumulator is concrete
and nothing is prepared for a call. -/
theorem Run.close_answered_by_history (run : Run) (name : String) :
    (∀ past event future, run.events = past ++ event :: future → event.step.thread = name →
      ∀ id, event.step.action = .hook (.close id) →
        let calls := past.filterMap (·.call? name)
        (event.answer = .hook .done ↔ Call.StillOpen calls id) ∧
          (event.answer = .failed (.finalizedTwice id) ↔ Call.Finalized calls id) ∧
          (¬ Call.StillOpen calls id → ¬ Call.Finalized calls id →
            ∃ pending, event.answer = .failed (.mismatch pending id) ∧
              ∀ other, pending = some other ↔ Call.StillOpen calls other)) ∧
    (let boundary := Boundary.ofCalls (run.calls name);
      (run.final.engine name).window.boundary = boundary ∧
        (boundary.pending = none ∨ boundary.finalized = none) ∧
        ∀ id, (boundary.pending = some id ↔ Call.StillOpen (run.calls name) id) ∧
          (boundary.finalized = some id ↔ Call.Finalized (run.calls name) id)) ∧
    ((run.final.status name).depth = 0 →
      (run.final.engine name).window.boundary.pending = none ∧
        (run.final.status name).accumulator = .concrete ∧
        (run.final.engine name).seed = {}) := by
  refine ⟨?_, ?_, ?_⟩
  · intro past event future parts own id asked calls
    obtain ⟨before, valid, -⟩ := run.cut parts
    obtain ⟨shown, recalls⟩ := before.recalls (run.idle name)
    have answer := valid.answer_close own asked
    rw [shown] at answer
    rcases recalls.close_eq id with ⟨still, unended, closed⟩ | ⟨ended, again, closed⟩
      | ⟨other, never, closed⟩
    · simp [answer, closed, Except.map, Answer.ofResult, calls, still, unended]
    · simp [answer, closed, Except.map, Answer.ofResult, calls, again, ended]
    · simp [answer, closed, Except.map, Answer.ofResult, calls, other, never, recalls.pending]
  · intro boundary
    obtain ⟨shown, recalls⟩ := run.trail.recalls (run.idle name)
    exact ⟨shown, recalls.single, fun id => ⟨recalls.pending id, recalls.finalized id⟩⟩
  · rw [Collector.status_eq]
    intro outside
    have settled : (run.final.engine name).Settled := by
      apply run.trail.settled
      rw [run.idle name]
      exact fun _ => ⟨rfl, rfl⟩
    obtain ⟨none, seed⟩ := settled outside
    exact ⟨by simpa using none, (Window.merges_none none).accumulator, seed⟩

/-- Instruction 5 is closed twice, 6 is opened and 5 closed again; then the outermost call ends, and
7 and 6 are closed. -/
def Hook.closings : List Hook :=
  [.enter, .read ⟨5, 0, .int 1, none⟩ (.localVar 0), .close 5, .close 5,
    .read ⟨6, 0, .int 2, none⟩ (.localVar 0), .close 5, .exit, .close 7, .close 6]

/-- The last of these closes finds its window finalized by the exit. -/
theorem Run.close_answered_after_exit :
    ∃ (run : Run) (past : List Event) (event : Event),
      run.steps = Hook.closings.map .ofMain ∧ run.events = past ++ [event] ∧
      past.map (·.answer) =
        [.hook .done, .hook (.flag .concrete), .hook .done, .failed (.finalizedTwice 5),
          .hook (.flag .concrete), .failed (.mismatch (some 6) 5), .hook .done,
          .failed (.mismatch none 7)] ∧
      event.answer = .failed (.finalizedTwice 6) ∧
      Call.Finalized (past.filterMap (·.call? "main")) 6 ∧
      (run.final.status "main").depth = 0 ∧
      (run.final.engine "main").window.boundary.pending = none := by
  obtain ⟨run, past, event, -, steps, parts, before, last⟩ :=
    Run.exists_watched_last (fun collector => (collector.status "main").depth) {} {}
      (Hook.closings.map .ofMain)
      [(.hook .done, 1), (.hook (.flag .concrete), 1), (.hook .done, 1),
        (.failed (.finalizedTwice 5), 1), (.hook (.flag .concrete), 1),
        (.failed (.mismatch (some 6) 5), 1), (.hook .done, 0), (.failed (.mismatch none 7), 0)]
      (.failed (.finalizedTwice 6), 0) (by decide +kernel)
  obtain ⟨answer, depth⟩ := Prod.mk.inj last
  have asked : event.step = .ofMain (.close 6) := by
    have steps := congrArg List.getLast? steps
    rw [Run.steps, parts] at steps
    simpa [Hook.closings] using steps
  have final : run.final = event.after := by
    have trail := run.trail
    rw [parts] at trail
    exact trail.unsnoc.2.2
  obtain ⟨closes, -, outside⟩ := run.close_answered_by_history "main"
  have finalized :=
    (closes past event [] parts (by rw [asked]; rfl) 6 (by rw [asked]; rfl)).2.1.mp answer
  rw [← final] at depth
  refine ⟨run, past, event, steps, parts, ?_, answer, finalized, depth, (outside depth).1⟩
  simpa [Function.comp_def] using congrArg (List.map Prod.fst) before

end ShadowTrace
