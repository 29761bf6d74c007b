import ShadowTrace.Proofs.Transit

/-! # What a caller reads back

A thread has one place for what a call returns, and returning does not touch it. So if a callee
returns nothing itself, what its caller finds there is what the latest deeper call has left, as long
as the callee has done nothing that drops it: entered another call, opened a window, or read it. -/

namespace ShadowTrace

/-- Whether the hook is none that an instruction or a call is made of, and stores nothing for
the caller. -/
def Hook.passes : Hook → Bool
  | .assign location _ | .markSymbolic location => location ≠ Location.returned
  | .resolve _ | .close _ => true
  | .enter | .enterWith _ | .exit | .read .. | .write .. | .reset => false

theorem Hook.nests_of_passes {hook : Hook} (passes : hook.passes = true) : hook.nests = false := by
  cases hook with
  | assign | markSymbolic | resolve | close => rfl
  | enter | enterWith | exit | read | write | reset => cases passes

theorem Event.Valid.result_kept {event : Event} (valid : event.Valid) {name : String}
    (passes : ∀ hook ∈ event.done? name, hook.passes = true ∨ hook = .exit) :
    (event.after.engine name).returned = (event.before.engine name).returned := by
  refine valid.carried_kept .result ?_
  rintro (⟨hook, done, touches⟩ | ⟨hook, done, touches⟩)
  all_goals
    have quiet := passes hook done
    cases hook <;> simp_all [Hook.passes, Hook.sends, Engine.drops]

/-- A thread that makes no access and no call stays at its depth. -/
theorem Trail.depth_kept {before final : Collector} {events : List Event}
    (trail : Trail before events final) {name : String}
    (passes : ∀ event ∈ events, ∀ hook ∈ event.done? name, hook.passes = true) :
    (final.engine name).depth = (before.engine name).depth := by
  refine trail.unchanged (fun collector => (collector.engine name).depth) ?_
  intro event member
  have valid := trail.valid event member
  cases done : event.done? name with
  | none => rw [(valid.of_undone done).1]
  | some hook =>
    exact valid.depth_of_done done (Hook.nests_of_passes (passes event member hook done))

/-- A call starts with nothing on its way. -/
theorem Event.Valid.carried_of_enters {event : Event} (valid : event.Valid) {name : String}
    (position : Position) {hook : Hook} (entered : event.done? name = some hook)
    (enters : hook.enters = true) :
    (event.after.engine name).carried position = none := by
  rw [valid.carried_eq position entered]
  cases hook with
  | enter | enterWith => rfl
  | exit | read | write | assign | markSymbolic | resolve | close | reset => cases enters

/-- A read gives the flag of what is at its location. -/
theorem Event.Valid.flag_of_read {event : Event} (valid : event.Valid) {name : String}
    {operand : Operand} {location : Location} {flag : Flag}
    (read : event.done? name = some (.read operand location))
    (answered : event.answer = .hook (.flag flag)) :
    flag =
      event.before.tables.heap.resolve
      ((event.before.engine name).look event.before.tables location) := by
  obtain ⟨reply, answer, ok, -⟩ := valid.of_done read
  obtain rfl := Answer.hook.inj (answer.symm.trans answered)
  rw [Engine.read_active _ _ _ _ (valid.active_of_done read trivial)] at ok
  exact (Reply.flag.inj (Except.ok.inj ok)).symm

/-- A hook that sends something leaves the frames alone. -/
theorem Hook.nests_of_sends {hook : Hook} {position : Position}
    (sends : hook.sends position = true) :
    hook.nests = false := by
  cases hook with
  | read | write | assign | markSymbolic | resolve | close => rfl
  | enter | enterWith | exit | reset => cases sends

/-- A call that stashes nothing itself. A thread enters a call, comes back from it, and then reads
what was returned, with no other access and no other call in between; and the callee has sent
nothing there while its own frame was the innermost. Then what the caller reads is symbolic exactly
if a deeper call has sent something there that was neither replaced nor dropped before the return,
and that is symbolic now. -/
theorem Run.unsent_result_isSymbolic_iff (run : Run) (name : String)
    (earlier inside gap later : List Event) (entry back reading : Event)
    (parts : run.events = earlier ++ entry :: (inside ++ back :: (gap ++ reading :: later)))
    (entering : Hook) (enters : entering.enters = true) (entered : entry.done? name = some entering)
    (deep : ∀ event ∈ inside,
      (entry.before.status name).depth + 1 ≤ (event.after.status name).depth)
    (left : back.done? name = some .exit)
    (returned : (back.after.status name).depth = (entry.before.status name).depth)
    (direct : ∀ event ∈ gap, ∀ hook ∈ event.done? name, hook.passes = true) (operand : Operand)
    (flag : Flag) (read : reading.done? name = some (.read operand .returned))
    (answered : reading.answer = .hook (.flag flag))
    (unsent : ∀ event ∈ inside, event.Sends name .result →
      (event.before.status name).depth ≠ (entry.before.status name).depth + 1) :
    (reading.before.status name).depth = (entry.before.status name).depth ∧
      (flag.isSymbolic = true ↔
        ∃ before source after shadow,
        inside = before ++ source :: after ∧ source.Sends name .result ∧
          (entry.before.status name).depth + 1 < (source.before.status name).depth ∧
          (∀ event ∈ after, ¬ (event.Sends name .result ∨ event.Drops name .result)) ∧
          (source.after.engine name).returned = some shadow ∧
          (reading.before.tables.heap.resolve shadow).isSymbolic = true) := by
  have depth_eq (collector : Collector) :
    (collector.status name).depth = (collector.engine name).depth := by
    rw [Collector.status_eq]
  simp only [depth_eq] at deep returned unsent ⊢
  have trail := run.trail
  rw [parts] at trail
  obtain ⟨_, -, from_entry⟩ := Trail.append_iff.mp trail
  obtain ⟨rfl, enter, onward⟩ := from_entry.uncons
  obtain ⟨_, during, from_back⟩ := Trail.append_iff.mp onward
  obtain ⟨rfl, exit, onward⟩ := from_back.uncons
  obtain ⟨_, waiting, from_reading⟩ := Trail.append_iff.mp onward
  obtain ⟨rfl, reads, -⟩ := from_reading.uncons
  constructor
  · rw [← returned]
    exact waiting.depth_kept direct
  -- What is read is what was on its way when the call returned.
  have kept : (reading.before.engine name).returned = (back.before.engine name).returned := by
    have gap :=
      waiting.unchanged (fun collector => (collector.engine name).returned) fun event member =>
      (waiting.valid event member).result_kept fun hook done => .inl (direct event member hook done)
    rw [gap]
    exact exit.result_kept fun hook done => .inr (Option.some.inj (left.symm.trans done)).symm
  have flag_eq : flag =
      reading.before.tables.heap.resolve ((back.before.engine name).returned.getD .concrete) := by
    rw [← kept]
    exact reads.flag_of_read read answered
  have latest := during.carried_latest (enter.carried_of_enters .result entered enters)
  constructor
  · intro symbolic
    rcases stash : (back.before.engine name).returned with _ | shadow
    · simp [flag_eq, stash, Heap.resolve] at symbolic
    · obtain ⟨before, source, after, rfl, sends, untouched, sent⟩ := (latest shadow).mp stash
      refine ⟨before, source, after, shadow, rfl, sends, ?_, untouched, sent, ?_⟩
      · -- The source is inside the call, but not by the callee itself.
        obtain ⟨hook, done, sending⟩ := id sends
        have inner := deep source (by simp)
        rw [(during.valid source (by simp)).depth_of_done done (Hook.nests_of_sends sending)]
          at inner
        have other := unsent source (by simp) sends
        omega
      · simpa [flag_eq, stash] using symbolic
  · rintro ⟨before, source, after, shadow, cut, sends, -, untouched, sent, symbolic⟩
    have stash := (latest shadow).mpr ⟨before, source, after, cut, sends, untouched, sent⟩
    rw [Engine.carried] at stash
    rw [flag_eq, stash]
    exact symbolic

/-- A call makes a call of its own, in which a symbolic value is read and forwarded to be returned.
The outer one returns nothing itself; it goes on with a hook of its own, and then its caller reads
what was returned. -/
def Hook.discarded (own : Hook) : List Hook :=
  [.enter, .enter, .enter, .markSymbolic (.localVar 0),
    .read ⟨10, 0, .int 0, some .result⟩ (.localVar 0), .exit, own, .exit,
    .read ⟨3, 0, .int 7, none⟩ .returned]

theorem Run.exists_discarded (own : Hook) (reply : Reply) (flag : Flag)
    (aside : own.sends .result = false)
    (watched : Collector.watch? (fun collector => ((collector.status "main").depth, ())) {} {}
      ((Hook.discarded own).map .ofMain) = some
    ([(.done, 1, ()), (.done, 2, ()), (.done, 3, ()), (.done, 3, ()), (.flag .symbolic, 3, ()),
      (.done, 2, ()), (reply, 2, ()), (.done, 1, ()), (.flag flag, 1, ())].map fun (reply,
    rest) => (.hook reply, rest))) :
    ∃ (run : Run) (outer entry back reading : Event) (inside : List Event),
      run.steps = (Hook.discarded own).map .ofMain ∧
      run.events = [outer] ++ entry :: (inside ++ back :: ([] ++ [reading])) ∧
      entry.done? "main" = some .enter ∧ back.done? "main" = some .exit ∧
      reading.done? "main" = some (.read ⟨3, 0, .int 7, none⟩ .returned) ∧
      reading.answer = .hook (.flag flag) ∧
      (∀ event ∈ inside,
        (entry.before.status "main").depth + 1 ≤ (event.after.status "main").depth) ∧
      (back.after.status "main").depth = (entry.before.status "main").depth ∧
      ∀ event ∈ inside, event.Sends "main" .result →
        (event.before.status "main").depth ≠ (entry.before.status "main").depth + 1 := by
  obtain ⟨run, steps, shown⟩ := Run.exists_of_hooks (fun _ => ()) (Hook.discarded own) _ watched
  simp only [Hook.discarded, List.zip_cons_cons, List.zip_nil_left, List.forall₂_cons_right_iff,
    List.forall₂_nil_right_iff] at shown
  obtain ⟨outer, _, outerShown, ⟨entry, _, entryShown, ⟨inner, _, innerShown, ⟨mark, _, markShown,
      ⟨sending, _, sendShown, ⟨exit, _, exitShown, ⟨next, _, nextShown, ⟨back, _, backShown,
      ⟨reading, _, readShown, rfl, rfl⟩, rfl⟩, rfl⟩, rfl⟩, rfl⟩, rfl⟩, rfl⟩, rfl⟩, events⟩ := shown
  have first : run.events[0]? = some outer := by rw [events]; rfl
  have fourth : run.events[3]? = some mark := by rw [events]; rfl
  have caller : entry.before = outer.after := run.trail.next_before first (by rw [events]; rfl)
  have callee : sending.before = mark.after := run.trail.next_before fourth (by rw [events]; rfl)
  refine ⟨run, outer, entry, back, reading, [inner, mark, sending, exit, next], steps, events,
    entryShown.done, backShown.done, readShown.done, readShown.answer, ?_, ?_, ?_⟩
  · simp [caller, outerShown.depth, innerShown.depth, markShown.depth, sendShown.depth,
      exitShown.depth, nextShown.depth]
  · rw [caller, backShown.depth, outerShown.depth]
  · -- Only one event sends anything, and that is in the innermost call.
    have unsent {event : Event} {hook : Hook} (done : event.done? "main" = some hook)
        (unsent : hook.sends .result = false) : ¬ event.Sends "main" .result := by
      simp [Event.Sends, done, unsent]
    simp [unsent innerShown.done rfl, unsent markShown.done rfl, unsent exitShown.done rfl,
      unsent nextShown.done aside, caller, callee, outerShown.depth, markShown.depth]

/-- If the callee makes no access of its own after the deeper call, its caller reads what that call
has returned. -/
theorem Run.result_of_deeper_call :
    ∃ (run : Run) (outer entry back reading : Event) (inside : List Event),
      run.steps = (Hook.discarded (.resolve (.localVar 1))).map .ofMain ∧
      run.events = [outer] ++ entry :: (inside ++ back :: ([] ++ [reading])) ∧
      entry.done? "main" = some .enter ∧ back.done? "main" = some .exit ∧
      reading.done? "main" = some (.read ⟨3, 0, .int 7, none⟩ .returned) ∧
      reading.answer = .hook (.flag .symbolic) ∧
      (∀ event ∈ inside,
        (entry.before.status "main").depth + 1 ≤ (event.after.status "main").depth) ∧
      (back.after.status "main").depth = (entry.before.status "main").depth ∧
      ∀ event ∈ inside, event.Sends "main" .result →
        (event.before.status "main").depth ≠ (entry.before.status "main").depth + 1 :=
  Run.exists_discarded _ (.flag .concrete) .symbolic rfl (by decide +kernel)

/-- If it does, then this drops what was returned, and the caller reads a concrete value. -/
theorem Run.unsent_result_isSymbolic_iff_busy :
    ∃ (run : Run) (outer entry back reading : Event) (inside : List Event),
      run.steps = (Hook.discarded (.read ⟨11, 0, .int 7, none⟩ (.localVar 1))).map .ofMain ∧
      run.events = [outer] ++ entry :: (inside ++ back :: ([] ++ [reading])) ∧
      reading.done? "main" = some (.read ⟨3, 0, .int 7, none⟩ .returned) ∧
      reading.answer = .hook (.flag .concrete) ∧
      (reading.before.status "main").depth = (entry.before.status "main").depth ∧
      ¬ ∃ before source after shadow,
        inside = before ++ source :: after ∧ source.Sends "main" .result ∧
        (entry.before.status "main").depth + 1 < (source.before.status "main").depth ∧
        (∀ event ∈ after, ¬ (event.Sends "main" .result ∨ event.Drops "main" .result)) ∧
        (source.after.engine "main").returned = some shadow ∧
        (reading.before.tables.heap.resolve shadow).isSymbolic = true := by
  obtain ⟨run, outer, entry, back, reading, inside, steps, parts, entered, left, read, answered,
    deep, returned, unsent⟩ :=
    Run.exists_discarded (.read ⟨11, 0, .int 7, none⟩ (.localVar 1)) (.flag .concrete) .concrete
      rfl (by decide +kernel)
  obtain ⟨depth, symbolic⟩ :=
    run.unsent_result_isSymbolic_iff "main" [outer] inside [] [] entry back reading parts .enter
      rfl entered deep left
      returned (by simp) _ .concrete read answered unsent
  refine ⟨run, outer, entry, back, reading, inside, steps, parts, read, answered, depth, ?_⟩
  rw [← symbolic]
  decide

end ShadowTrace
