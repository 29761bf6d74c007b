import ShadowTrace.Proofs.Activations
import ShadowTrace.Proofs.Transit

/-! # Who prepared a call

What a thread has read and forwarded goes into the frame of whatever call it enters next. That is
the callee it was read for if it is entered from the activation that has read it. But what was
read for a call that is never entered, as into code that is not instrumented, outlives the
activation that has read it, unless this was the only one: it is then found in the next call that
its caller enters. -/

namespace ShadowTrace

/-! ## Activations -/

namespace Activity

/-- What the events show of the activations of a thread. -/
def after (events : List Event) (name : String) : Activity :=
  (follow {} (events.filterMap (·.call? name))).1

theorem follow_append (activity : Activity) (calls later : List Call) :
    (activity.follow (calls ++ later)).1 = ((activity.follow calls).1.follow later).1 := by
  induction calls generalizing activity with
  | nil => rfl
  | cons call calls ih => exact ih (activity.next call).1

/-- Of the activations that have not ended, an inner one is newer. -/
def Ordered (activity : Activity) : Prop := (activity.begun :: activity.active).Pairwise (· > ·)

theorem Ordered.next {activity : Activity} (ordered : activity.Ordered) (call : Call) :
    (activity.next call).1.Ordered := by
  obtain ⟨hook, result, depth⟩ := call
  cases hook with
  | enter | enterWith =>
    -- The new activation has the number that was the next one.
    refine List.pairwise_cons.mpr ⟨?_, ordered⟩
    intro older member
    rcases List.mem_cons.mp member with rfl | member
    · exact Nat.lt_succ_self _
    · exact Nat.lt_succ_of_lt (List.rel_of_pairwise_cons ordered member)
  | exit =>
    cases result with
    | ok => exact ordered.sublist ((List.tail_sublist _).cons_cons _)
    | error => exact ordered
  | reset => exact List.pairwise_singleton _ _
  | read | write => cases result <;> exact ordered
  | assign | markSymbolic | resolve | close => exact ordered

theorem Ordered.follow {activity : Activity} (ordered : activity.Ordered) (calls : List Call) :
    (activity.follow calls).1.Ordered := by
  induction calls generalizing activity with
  | nil => exact ordered
  | cons call calls ih => exact ih (ordered.next call)

theorem ordered_after (events : List Event) (name : String) : (after events name).Ordered := by
  have start : Ordered {} := List.pairwise_singleton _ _
  exact start.follow _

/-- An activation that has ended is not found again beneath. -/
theorem Ordered.head?_ne {activity : Activity} (ordered : activity.Ordered) {innermost : Nat}
    (here : activity.active.head? = some innermost) {later : List Nat}
    (fewer : later <:+ activity.active.tail) :
    later.head? ≠ some innermost := by
  intro again
  rcases shape : activity.active with _ | ⟨newest, rest⟩
  · simp [shape] at here
  · simp only [shape, List.head?_cons, Option.some.injEq, List.tail_cons] at here fewer
    subst here
    have older : newest ∈ rest := fewer.subset (List.mem_of_head? again)
    have pairs : (newest :: rest).Pairwise (· > ·) := shape ▸ ordered.of_cons
    exact absurd (List.rel_of_pairwise_cons pairs older) (Nat.lt_irrefl newest)

theorem Fits.head? {activity : Activity} {engine : Engine} (fits : activity.Fits engine)
    (active : engine.depth ≠ 0) :
    ∃ innermost, activity.active.head? = some innermost := by
  have depth := fits.depth
  rcases shape : activity.active with _ | ⟨newest, rest⟩
  · simp [shape] at depth
    exact absurd depth active
  · exact ⟨newest, rfl⟩

/-- The activations after an event. -/
def see (activity : Activity) (event : Event) (name : String) : Activity :=
  ((event.call? name).map fun call => (activity.next call).1).getD activity

theorem follow_see (activity : Activity) (event : Event) (events : List Event) (name : String) :
    (activity.follow ((event :: events).filterMap (·.call? name))).1 =
      ((activity.see event name).follow (events.filterMap (·.call? name))).1 := by
  cases call : event.call? name with
  | none => simp [see, call]
  | some => simp [see, call, Activity.follow]

end Activity

/-- As long as the thread enters no call and is not reset, the innermost activation can only end. -/
theorem Event.Valid.active_see {event : Event} (valid : event.Valid) {name : String}
    (inside : ∀ hook ∈ event.done? name, hook.enters = false ∧ hook ≠ .reset)
    (activity : Activity) :
    (activity.see event name).active =
      if event.done? name = some .exit then activity.active.tail else activity.active := by
  cases done : event.done? name with
  | none =>
    obtain ⟨-, failed⟩ := valid.of_undone done
    simp only [reduceCtorEq, if_false]
    cases called : event.call? name with
    | none => simp [Activity.see, called]
    | some call =>
      obtain ⟨hook, desync, rfl, result⟩ := failed call called
      simp only [Activity.see, called, Option.map_some, Option.getD_some, Activity.next]
      -- What changes the number of frames without fail cannot have failed.
      cases hook with
      | enter | enterWith | reset => cases result
      | exit | read | write | assign | markSymbolic | resolve | close =>
        simp [Activity.nest, Engine.call, result, Except.isOk, Except.toBool]
  | some hook =>
    obtain ⟨enters, kept⟩ := inside hook done
    obtain ⟨reply, -, ok, -⟩ := valid.of_done done
    simp only [Activity.see, valid.call_of_done done, Option.map_some, Option.getD_some,
      Option.some.injEq, Activity.next]
    cases hook with
    | enter | enterWith => cases enters
    | reset => exact absurd rfl kept
    | exit | read | write => simp [Activity.nest, Engine.call, ok, Except.isOk, Except.toBool]
    | assign | markSymbolic | resolve | close => rfl

namespace Trail

variable {before final : Collector} {events : List Event} {name : String}

theorem active_follow (trail : Trail before events final)
    (inside : ∀ event ∈ events, ∀ hook ∈ event.done? name, hook.enters = false ∧ hook ≠ .reset)
    (activity : Activity) :
    let later := (activity.follow (events.filterMap (·.call? name))).1.active
    (∀ event ∈ events, event.done? name ≠ some .exit) ∧ later = activity.active ∨
      (∃ event ∈ events, event.done? name = some .exit) ∧ later <:+ activity.active.tail := by
  -- Along the run; once an activation has ended, only those beneath it are left.
  induction trail generalizing activity with
  | done => exact .inl ⟨by simp, rfl⟩
  | @step event events final valid rest ih =>
    have here := valid.active_see (inside event (by simp)) activity
    have later := ih (fun other member => inside other (by simp [member])) (activity.see event name)
    rw [activity.follow_see]
    by_cases exits : event.done? name = some .exit
    · rw [if_pos exits] at here
      refine .inr ⟨⟨event, by simp, exits⟩, ?_⟩
      rw [here] at later
      rcases later with ⟨-, same⟩ | ⟨-, fewer⟩
      · exact ⟨[], same⟩
      · exact fewer.trans (List.tail_suffix _)
    · rw [if_neg exits] at here
      rw [here] at later
      rcases later with ⟨none, same⟩ | ⟨⟨other, member, exited⟩, fewer⟩
      · refine .inl ⟨?_, same⟩
        intro other member
        rcases List.mem_cons.mp member with rfl | member
        · exact exits
        · exact none other member
      · exact .inr ⟨⟨other, by simp [member], exited⟩, fewer⟩

/-- After events in which the thread enters no call and is not reset, its innermost activation is
still the same exactly if none of them has ended one. -/
theorem innermost_eq_iff (trail : Trail before events final)
    (inside : ∀ event ∈ events, ∀ hook ∈ event.done? name, hook.enters = false ∧ hook ≠ .reset)
    {past : List Event} {innermost : Nat}
    (here : (Activity.after past name).active.head? = some innermost) :
    (Activity.after (past ++ events) name).active.head? = some innermost ↔
      ∀ event ∈ events, event.done? name ≠ some .exit := by
  have follow := trail.active_follow inside (Activity.after past name)
  rw [Activity.after, ← Activity.follow_append, ← List.filterMap_append] at follow
  rcases follow with ⟨none, same⟩ | ⟨⟨event, member, exited⟩, fewer⟩
  · constructor
    · intro _
      exact none
    · intro _
      exact (congrArg List.head? same).trans here
  · -- Whatever is innermost now was beneath, so it has another number.
    constructor
    · intro again
      exact absurd again ((Activity.ordered_after past name).head?_ne here fewer)
    · intro none
      exact absurd exited (none event member)

end Trail

/-! ## What a frame is given -/

theorem Event.inside_of_undropped {event : Event} {name : String} {position : Position}
    (undropped : ¬ event.Drops name position) :
    ∀ hook ∈ event.done? name, hook.enters = false ∧ hook ≠ .reset := by
  intro hook done
  simp only [Event.Drops, Option.mem_def.mp done, Option.mem_def, Option.some.injEq,
    exists_eq_left'] at undropped
  cases hook with
  | enter | enterWith | reset => exact absurd rfl undropped
  | exit | read | write | assign | markSymbolic | resolve | close => exact ⟨rfl, by simp⟩

/-- While something stays on its way to a callee, there is a frame to call from. -/
theorem Trail.depth_pos {before final : Collector} {events : List Event}
    (trail : Trail before events final) {name : String} {position : Position}
    (callee : position ≠ .result) (kept : ∀ event ∈ events, ¬ event.Drops name position)
    (active : (before.engine name).depth ≠ 0) :
    (final.engine name).depth ≠ 0 := by
  induction trail with
  | done => exact active
  | @step event events final valid rest ih =>
    apply ih fun other member => kept other (by simp [member])
    have undropped := kept event (by simp)
    cases done : event.done? name with
    | none => rwa [(valid.of_undone done).1]
    | some hook =>
      obtain ⟨reply, -, -, engine⟩ := valid.of_done done
      simp only [Event.Drops, done, Option.mem_def, Option.some.injEq, exists_eq_left',
        Bool.not_eq_true] at undropped
      rw [engine, Engine.depth_step]
      cases hook with
      | enter | enterWith | reset => cases undropped
      | exit =>
        -- The return that leaves no frame would have dropped it.
        simp only [Engine.drops, ne_eq, callee, not_false_eq_true, true_and,
          decide_eq_false_iff_not] at undropped
        simp only [ne_eq]
        omega
      | read | write | assign | markSymbolic | resolve | close => exact active

theorem Position.eq_of_carry {position : Position} {shadow other : Shadow}
    (same : position.carry shadow = some other) :
    shadow = other := by
  cases position with
  | receiver | result => exact Option.some.inj same
  | argument =>
    simp only [carry] at same
    split at same
    · cases same
    · exact Option.some.inj same

/-- A value is sent to a callee by reading it. -/
theorem Event.Valid.read_of_sends {event : Event} (valid : event.Valid) {name : String}
    {position : Position} {shadow : Shadow} (callee : position ≠ .result)
    (sends : event.Sends name position)
    (carried : (event.after.engine name).carried position = some shadow) :
    ∃ operand location,
      event.done? name = some (.read operand location) ∧ operand.forward = some position ∧
      event.holds location = shadow := by
  obtain ⟨hook, done, sent⟩ := sends
  rw [valid.carried_eq position done, if_pos sent] at carried
  obtain ⟨own, -⟩ := Event.done?_eq_some_iff.mp done
  cases hook with
  | read operand location =>
    refine ⟨operand, location, done, by simpa [Hook.sends] using sent, ?_⟩
    rw [Event.holds, own]
    exact Position.eq_of_carry carried
  | write | assign | markSymbolic => simp [Hook.sends, callee] at sent
  | enter | enterWith | exit | resolve | close | reset => cases sent

namespace Trail

variable {start final : Collector} {events : List Event} {name : String} {position : Position}

/-- What is on its way to a callee has been read, and was neither replaced nor dropped since. -/
theorem read_of_carried (trail : Trail start events final) (callee : position ≠ .result)
    (idle : start.engine name = {}) {shadow : Shadow}
    (carried : (final.engine name).carried position = some shadow) :
    ∃ earlier read between operand location,
      events = earlier ++ read :: between ∧ read.done? name = some (.read operand location) ∧
      operand.forward = some position ∧ read.holds location = shadow ∧
      ∀ event ∈ between, ¬ (event.Sends name position ∨ event.Drops name position) := by
  have empty : (start.engine name).carried position = none := by
    rw [idle]
    exact Engine.carried_empty position rfl rfl
  obtain ⟨earlier, read, between, rfl, sends, untouched, left⟩ :=
    (trail.carried_latest empty shadow).mp carried
  obtain ⟨operand, location, done, forward, holds⟩ :=
    (trail.valid read (by simp)).read_of_sends callee sends left
  exact ⟨earlier, read, between, operand, location, rfl, done, forward, holds, untouched⟩

/-- As long as what was read is not dropped, there are an activation that has read it and one to
call from, and they are the same exactly if the thread has left no call since. -/
theorem reader_of_read {earlier between : List Event} {read : Event} {operand : Operand}
    {location : Location} (trail : Trail start (earlier ++ read :: between) final)
    (callee : position ≠ .result) (idle : start.engine name = {})
    (done : read.done? name = some (.read operand location))
    (kept : ∀ event ∈ between, ¬ event.Drops name position) :
    ∃ caller reader,
      (Activity.after (earlier ++ read :: between) name).active.head? = some caller ∧
      (Activity.after earlier name).active.head? = some reader ∧
      (caller = reader ↔ ∀ event ∈ between, event.done? name ≠ some .exit) := by
  obtain ⟨_, before_read, from_read⟩ := Trail.append_iff.mp trail
  obtain ⟨rfl, reads, onward⟩ := from_read.uncons
  have unused : Activity.Fits {} (start.engine name) := by
    rw [idle]
    exact ⟨rfl, rfl⟩
  -- There is a frame at the read, and there is one as long as what was read stays on its way.
  have active := reads.active_of_done done trivial
  have still : (final.engine name).depth ≠ 0 := by
    refine onward.depth_pos callee kept ?_
    rwa [reads.depth_of_done done rfl]
  have fits : (Activity.after earlier name).Fits (read.before.engine name) :=
    (before_read.activity_fits unused).1
  have fits_final : (Activity.after (earlier ++ read :: between) name).Fits (final.engine name) :=
    (trail.activity_fits unused).1
  obtain ⟨reader, atRead⟩ := fits.head? active
  obtain ⟨caller, atCall⟩ := fits_final.head? still
  refine ⟨caller, reader, atCall, atRead, ?_⟩
  -- Since the read no call was entered, so the caller is the reader or lies beneath it.
  have inside : ∀ event ∈ read :: between, ∀ hook ∈ event.done? name,
      hook.enters = false ∧ hook ≠ .reset := by
    simpa [done, Hook.enters]
      using fun event member => Event.inside_of_undropped (kept event member)
  have innermost := from_read.innermost_eq_iff inside atRead
  rw [atCall, Option.some.injEq] at innermost
  simpa [done] using innermost

end Trail

/-- What the frame of a call is given was prepared by reads of the thread. Take any call that a
thread enters with what was prepared, and any position at which its frame is given something. Then
some activation is the caller, and what is given was read and forwarded to this position by the
activation that was innermost at the time, after which no other read was forwarded there. The two
are the same activation exactly if the thread has left no call since. -/
theorem Run.prepared_by_caller_iff (run : Run) (name : String) (past future : List Event)
    (entry : Event) (parts : run.events = past ++ entry :: future) (own : entry.step.thread = name)
    (asked : entry.step.action = .hook .enter) :
    ∃ callee,
      (entry.after.engine name).stack.frames = callee :: (entry.before.engine name).stack.frames ∧
      ∀ position shadow, callee.given position = some shadow →
        ∃ earlier read between operand location caller reader,
          past = earlier ++ read :: between ∧ read.done? name = some (.read operand location) ∧
          operand.forward = some position ∧ read.holds location = shadow ∧
          (∀ event ∈ between, ¬ event.Sends name position) ∧
          (Activity.after past name).active.head? = some caller ∧
          (Activity.after earlier name).active.head? = some reader ∧
          (caller = reader ↔ ∀ event ∈ between, event.done? name ≠ some .exit) := by
  have trail := run.trail
  rw [parts] at trail
  obtain ⟨_, trail, from_entry⟩ := Trail.append_iff.mp trail
  obtain ⟨rfl, valid, -⟩ := from_entry.uncons
  have engine := valid.engine name
  simp only [asked, own, if_true] at engine
  refine ⟨(entry.before.engine name).seed.frame, by rw [engine]; rfl, ?_⟩
  intro position shadow given
  have callee : position ≠ .result := by
    rintro rfl
    cases given
  have carried : (entry.before.engine name).carried position = some shadow := by
    cases position with
    | receiver | argument => exact given
    | result => exact absurd rfl callee
  have idle : run.collector.engine name = {} := by rw [(Collector.create_eq run.created).2.1]
  obtain ⟨earlier, read, between, operand, location, rfl, done, forward, holds, untouched⟩ :=
    trail.read_of_carried callee idle carried
  obtain ⟨caller, reader, atCall, atRead, same⟩ :=
    trail.reader_of_read callee idle done fun event member drops =>
      untouched event member (.inr drops)
  exact ⟨earlier, read, between, operand, location, caller, reader, rfl, done, forward, holds,
    fun event member sends => untouched event member (.inl sends), atCall, atRead, same⟩

/-! ## Two runs -/

/-- One call is made and left before another is entered. A symbolic value is read and forwarded as
an argument, in the caller after the first call has been left or, if `late`, in that call itself
just before it is left. -/
def Hook.handover (late : Bool) : List Hook :=
  let mark : Hook := .markSymbolic (.localVar 0)
  let read : Hook := .read ⟨1, 0, .int 0, some (.argument 0)⟩ (.localVar 0)
  if late then [.enter, .enter, mark, read, .exit, .enter]
  else [.enter, .enter, .exit, mark, read, .enter]

/-- The first argument that the innermost frame was given. -/
def Collector.firstArgument (collector : Collector) : Option Shadow :=
  (collector.engine "main").stack.frames.head?.bind (·.given (.argument 0))

/-- If the value was forwarded in a call that has been left since, then the next callee is given an
argument that its caller has not read: the only read that was ever forwarded to it is by another
activation. -/
theorem Run.prepared_by_ended_activation :
    ∃ (run : Run) (earlier between : List Event) (read entry : Event) (callee : Frame)
      (caller reader : Nat),
      run.steps = (Hook.handover true).map .ofMain ∧
      run.events = (earlier ++ read :: between) ++ [entry] ∧
      entry.step = .ofMain .enter ∧
      (entry.after.engine "main").stack.frames =
        callee :: (entry.before.engine "main").stack.frames ∧
      callee.given (.argument 0) = some .symbolic ∧
      (∀ event ∈ earlier ++ between, ¬ event.Sends "main" (.argument 0)) ∧
      (Activity.after (earlier ++ read :: between) "main").active.head? = some caller ∧
      (Activity.after earlier "main").active.head? = some reader ∧ caller ≠ reader := by
  obtain ⟨run, steps, shown⟩ :=
    Run.exists_of_hooks Collector.firstArgument (Hook.handover true)
      [(.done, 1, none), (.done, 2, none), (.done, 2, none), (.flag .symbolic, 2, none),
        (.done, 1, none), (.done, 2, some .symbolic)]
      (by decide +kernel)
  simp only [Hook.handover, if_true, List.zip_cons_cons, List.zip_nil_left,
    List.forall₂_cons_right_iff, List.forall₂_nil_right_iff] at shown
  obtain ⟨outer, _, outerShown, ⟨inner, _, innerShown, ⟨mark, _, markShown, ⟨read, _, readShown,
      ⟨exit, _, exitShown, ⟨entry, _, entryShown, rfl, rfl⟩, rfl⟩, rfl⟩, rfl⟩, rfl⟩, events⟩ :=
      shown
  have split : run.events = ([outer, inner, mark] ++ read :: [exit]) ++ [entry] := events
  have own : entry.step.thread = "main" := by rw [entryShown.step]; rfl
  have valid : entry.Valid := run.trail.valid entry (by simp [split])
  obtain ⟨seed, frames⟩ :=
    valid.frames_entered own (by rw [entryShown.step]; rfl) (rfl : Hook.enter.enters = true)
  have given : seed.frame.given (.argument 0) = some .symbolic := by
    simpa [Collector.firstArgument, frames] using entryShown.view
  refine ⟨run, [outer, inner, mark], [exit], read, entry, seed.frame, 0, 1, steps, split,
    entryShown.step, frames, given, ?_, ?_, ?_, by decide⟩
  · simp [Event.Sends, outerShown.done, innerShown.done, markShown.done, exitShown.done, Hook.sends]
  · simp [Activity.after, outerShown.call, innerShown.call, markShown.call, readShown.call,
      exitShown.call]
    rfl
  · simp [Activity.after, outerShown.call, innerShown.call, markShown.call]
    rfl

/-- If it was forwarded in the caller itself, the call that was left before does no harm. -/
theorem Run.prepared_by_caller_iff_handover :
    ∃ (run : Run) (past : List Event) (entry : Event) (callee : Frame),
      run.steps = (Hook.handover false).map .ofMain ∧ run.events = past ++ [entry] ∧
      (entry.after.engine "main").stack.frames =
        callee :: (entry.before.engine "main").stack.frames ∧
      callee.given (.argument 0) = some .symbolic ∧
      ∃ earlier read between caller,
        past = earlier ++ read :: between ∧ read.Sends "main" (.argument 0) ∧
        (Activity.after past "main").active.head? = some caller ∧
        (Activity.after earlier "main").active.head? = some caller := by
  obtain ⟨run, steps, shown⟩ :=
    Run.exists_of_hooks Collector.firstArgument (Hook.handover false)
      [(.done, 1, none), (.done, 2, none), (.done, 1, none), (.done, 1, none),
        (.flag .symbolic, 1, none), (.done, 2, some .symbolic)]
      (by decide +kernel)
  simp only [Hook.handover, Bool.false_eq_true, if_false, List.zip_cons_cons, List.zip_nil_left,
    List.forall₂_cons_right_iff, List.forall₂_nil_right_iff] at shown
  obtain ⟨outer, _, outerShown, ⟨inner, _, innerShown, ⟨exit, _, exitShown, ⟨mark, _, markShown,
      ⟨read, _, readShown, ⟨entry, _, entryShown, rfl, rfl⟩, rfl⟩, rfl⟩, rfl⟩, rfl⟩, events⟩ :=
      shown
  have split : run.events = [outer, inner, exit, mark, read] ++ [entry] := events
  obtain ⟨callee, frames, prepared⟩ :=
    run.prepared_by_caller_iff "main" _ [] entry split (by rw [entryShown.step]; rfl)
      (by rw [entryShown.step]; rfl)
  have given : callee.given (.argument 0) = some .symbolic := by
    simpa [Collector.firstArgument, frames] using entryShown.view
  obtain ⟨earlier, source, between, operand, location, caller, reader, cut, done, forward, -, -,
    atCall, atRead, same⟩ :=
    prepared _ _ given
  -- The source is a read, so the exit is not among what follows it.
  have unexited : ∀ event ∈ between, event.done? "main" ≠ some .exit := by
    rcases earlier with _ | ⟨_, _ | ⟨_, _ | ⟨_, _ | ⟨_, later⟩⟩⟩⟩ <;>
      simp only [List.nil_append, List.cons_append, List.cons.injEq] at cut
    · simp [← cut.1, outerShown.done] at done
    · simp [← cut.2.1, innerShown.done] at done
    · simp [← cut.2.2.1, exitShown.done] at done
    · simp [← cut.2.2.2.1, markShown.done] at done
    · intro event member
      have only : event ∈ [read] := by
        rw [cut.2.2.2.2]
        simp [member]
      rw [List.mem_singleton.mp only, readShown.done]
      simp
  obtain rfl := same.mpr unexited
  exact ⟨run, _, entry, callee, steps, split, frames, given, earlier, source, between, caller, cut,
    ⟨_, done, by simp [Hook.sends, forward]⟩, atCall, atRead⟩

end ShadowTrace
