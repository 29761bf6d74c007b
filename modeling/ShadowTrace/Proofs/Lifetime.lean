import ShadowTrace.Proofs.History

/-! # How long a returned value is kept

A thread keeps one value on its way back from a call. It is what the latest hook has stashed there:
a read that is forwarded to the caller, or a hook that stores at the place of what was returned. It
is discarded by the next call that is entered, by a reset, by being read, and by any other access
with which another instruction starts. So a stashed value is read once at most; asking for its flag,
and whatever fails, does not take it away. -/

namespace ShadowTrace

namespace Event

/-- What a hook of the thread that succeeds leaves at the place of what was returned, if it puts
anything there. Marking a reference leaves it where it is. -/
def stashed? (event : Event) (name : String) : Option Shadow :=
  let found := (event.before.engine name).load event.before.tables
  (event.done? name).bind fun
    | .read operand location =>
      if operand.forward = some .result then (found location).toOption else none
    | .write _ location value =>
      if location = Location.returned then some (value.shadow (event.after.status name).accumulator)
      else none
    | .assign location shadow => if location = Location.returned then some shadow else none
    | .markSymbolic location =>
      if location = Location.returned ∧ (found location).toOption.bind Shadow.reference? = none then
        some .symbolic
      else none
    | .enter | .enterWith _ | .exit | .resolve _ | .close _ | .reset => none

/-- Whether the event discards what was returned to the thread. -/
def discards (past : List Event) (name : String) (event : Event) : Bool :=
  (event.done? name).any fun
    | .enter | .enterWith _ | .reset => true
    | .read _ location => location = .returned || event.opens past name
    | .write _ location _ => location ≠ .returned && event.opens past name
    | .exit | .assign .. | .markSymbolic _ | .resolve _ | .close _ => false

end Event

/-- In the events so far, the thread's latest stash is this, and it was not discarded since. -/
def Stashed (past : List Event) (name : String) (shadow : Shadow) : Prop :=
  Latest (·.stashed? name) (fun past event => event.discards past name) past shadow

/-- The reading is a successful read of what was returned, and the source has stashed what it finds:
in between nothing else was stashed and nothing discarded. -/
structure Delivers (name : String) (earlier : List Event) (source : Event) (between : List Event)
    (reading : Event) :
    Prop where
  stashed : (source.stashed? name).isSome
  lasts : Lasts (·.stashed? name) (fun past event => event.discards past name)
    (earlier ++ [source]) between
  reads : ∃ operand, reading.done? name = some (.read operand .returned)

/-! ## One event -/

namespace Event.Valid

variable {event : Event} {name : String} {past : List Event}

theorem drops_eq_discards (valid : event.Valid)
    (shows : (event.before.engine name).window.Shows (Event.window past name)) {hook : Hook}
    (done : event.done? name = some hook) :
    (event.before.engine name).drops .result hook = event.discards past name := by
  have opens := valid.opens_eq shows done
  cases hook with
  | read operand location | write id location value =>
    by_cases returned : location = .returned <;>
      simp [Event.discards, done, Engine.drops, opens, Engine.opens, returned]
  | enter | enterWith | reset | exit | assign | markSymbolic | resolve | close =>
    simp [Event.discards, done, Engine.drops]

/-- What is sent to the caller is stashed, unless it is a reference that was there already. -/
theorem stashed?_eq (valid : event.Valid) {hook : Hook} (done : event.done? name = some hook)
    (fresh : hook = .markSymbolic .returned →
      ∀ id, (event.before.engine name).returned ≠ some (.reference id)) :
    event.stashed? name =
      if hook.sends .result then some ((event.before.engine name).sent event.before.tables hook)
        else none := by
  have active (needs : Engine.Needs hook) : (event.before.engine name).depth ≠ 0 :=
    valid.active_of_done done needs
  cases hook with
  | read operand location =>
    simp [Event.stashed?, done, Engine.load_active _ _ _ (active trivial), Hook.sends, Engine.sent,
      Except.toOption]
  | write id location value =>
    simp [Event.stashed?, done, valid.accumulator_write done, Hook.sends, Engine.sent]
  | assign location shadow => simp [Event.stashed?, done, Hook.sends, Engine.sent]
  | markSymbolic location =>
    by_cases returned : location = .returned
    · subst returned
      cases found : (event.before.engine name).look event.before.tables .returned with
      | concrete | symbolic =>
        simp [Event.stashed?, done, Engine.load_active _ _ _ (active trivial), found, Hook.sends,
          Engine.sent, Except.toOption, Shadow.reference?]
      | reference id =>
        simp only [Engine.look, Option.getD_eq_iff, reduceCtorEq, and_false, or_false] at found
        exact absurd found (fresh rfl id)
    · simp [Event.stashed?, done, Hook.sends, returned]
  | enter | enterWith | exit | resolve | close | reset => simp [Event.stashed?, done, Hook.sends]

/-- What an event makes of what was returned. -/
theorem returned_eq (valid : event.Valid)
    (shows : (event.before.engine name).window.Shows (Event.window past name)) :
    (event.after.engine name).returned =
      ((event.stashed? name).map some).getD
        (if event.discards past name then none else (event.before.engine name).returned) := by
  cases done : event.done? name with
  | none => simp [Event.stashed?, Event.discards, done, (valid.of_undone done).1]
  | some hook =>
    have carried : (event.after.engine name).returned = _ := valid.carried_eq .result done
    by_cases fresh : hook = .markSymbolic .returned →
      ∀ id, (event.before.engine name).returned ≠ some (.reference id)
    · rw [carried, valid.stashed?_eq done fresh, valid.drops_eq_discards shows done]
      cases hook.sends .result <;> simp [Position.carry, Engine.carried]
    · -- Marking finds a reference and leaves it, so what is sent is what was there.
      simp only [ne_eq, Classical.not_imp, not_forall, not_not] at fresh
      obtain ⟨rfl, id, found⟩ := fresh
      have active := valid.active_of_done done trivial
      simp [carried, Event.stashed?, Event.discards, done, Engine.load_active _ _ _ active,
        Engine.look, found, Hook.sends, Engine.sent, Except.toOption, Shadow.reference?,
        Position.carry]

/-- A hook that fails and a hook that only asks for a flag leave every engine alone. -/
theorem engine_kept (valid : event.Valid)
    (idle : (∃ location, event.step.action = .hook (.resolve location)) ∨ ∃ desync,
      event.answer = .failed desync) :
    event.after.engine name = event.before.engine name := by
  cases done : event.done? name with
  | none => exact (valid.of_undone done).1
  | some hook =>
    obtain ⟨-, asked, reply, answered⟩ := Event.done?_eq_some_iff.mp done
    rcases idle with ⟨location, resolves⟩ | ⟨desync, failed⟩
    · obtain rfl := Action.hook.inj (asked.symm.trans resolves)
      obtain ⟨-, -, -, engine⟩ := valid.of_done done
      rw [engine, Engine.resolve_active _ _ _ (valid.active_of_done done trivial)]
    · cases failed.symm.trans answered

end Event.Valid

/-! ## Whole runs -/

namespace Trail

variable {start final : Collector} {events : List Event} {name : String}

/-- The engine keeps what the events have stashed. -/
theorem returned_stashed (trail : Trail start events final) (idle : start.engine name = {}) :
    (∃ shadow, Stashed events name shadow ∧ (final.engine name).returned = some shadow) ∨
      (¬ ∃ shadow, Stashed events name shadow) ∧ (final.engine name).returned = none := by
  apply trail.view_latest (fun collector => (collector.engine name).returned) some none
  · rw [idle]
  · intro past event before valid
    exact valid.returned_eq (before.merges_window idle).shows

theorem load_returned_iff (trail : Trail start events final) (idle : start.engine name = {})
    (active : (final.engine name).depth ≠ 0) (shadow : Shadow) :
    (final.engine name).load final.tables .returned = .ok shadow ↔
      Stashed events name shadow ∨ shadow = .concrete ∧ ¬ ∃ other, Stashed events name other := by
  rw [Engine.load_active _ _ _ active, Except.ok.injEq]
  apply Latest.held_iff
  -- Where nothing is kept, what was returned reads as concrete.
  rcases trail.returned_stashed idle with ⟨given, stashed, returned⟩ | ⟨none, returned⟩
  · exact .inl ⟨given, stashed, by simp [Engine.look, returned]⟩
  · exact .inr ⟨none, by simp [Engine.look, returned]⟩

end Trail

/-- Reading what was returned discards it. -/
theorem Delivers.discards {name : String} {earlier between : List Event} {source reading : Event}
    (delivers : Delivers name earlier source between reading) (past : List Event) :
    reading.discards past name = true := by
  obtain ⟨operand, done⟩ := delivers.reads
  simp [Event.discards, done]

/-- The life of a returned value, over every run. With a frame to look from, what was returned is
the thread's latest stash if that was not discarded since, and concrete otherwise. A stashed value
is what the next read of it finds, and there is no other read that finds it. Asking for its flag
does not take it away, and neither does anything that fails. -/
theorem Run.returned_lifetime (run : Run) (name : String) :
    ((run.final.engine name).depth ≠ 0 → ∀ shadow,
      (run.final.engine name).load run.final.tables .returned = .ok shadow ↔
        Stashed run.events name shadow ∨ shadow = .concrete ∧ ¬ ∃ other,
        Stashed run.events name other) ∧
    (∀ earlier source between reading rest,
      run.events = earlier ++ source :: (between ++ reading :: rest) →
      Delivers name earlier source between reading →
        (∃ shadow ∈ source.stashed? name,
          (reading.before.engine name).load reading.before.tables .returned = .ok shadow ∧
          reading.answer = .hook (.flag (reading.before.tables.heap.resolve shadow))) ∧
        ∀ between' reading' rest',
        run.events = earlier ++ source :: (between' ++ reading' :: rest') →
          Delivers name earlier source between' reading' →
            between = between' ∧ reading = reading') ∧
    ∀ event ∈ run.events,
      (∃ location, event.step.action = .hook (.resolve location)) ∨
        (∃ desync, event.answer = .failed desync) →
        (event.after.engine name).load event.after.tables .returned =
          (event.before.engine name).load event.before.tables .returned := by
  have idle := run.idle name
  refine ⟨fun active => run.trail.load_returned_iff idle active, ?_, ?_⟩
  · intro earlier source between reading rest parts delivers
    constructor
    · -- What the source has stashed is the latest stash when it is read.
      obtain ⟨shadow, stashed⟩ := Option.isSome_iff_exists.mp delivers.stashed
      obtain ⟨operand, done⟩ := delivers.reads
      have latest : Stashed (earlier ++ source :: between) name shadow :=
        ⟨earlier, source, between, rfl, stashed, delivers.lasts⟩
      rw [← List.cons_append, ← List.append_assoc] at parts
      obtain ⟨before, valid, -⟩ := run.cut parts
      have active := valid.active_of_done done trivial
      have loaded := (before.load_returned_iff idle active shadow).mpr (.inl latest)
      refine ⟨shadow, stashed, loaded, ?_⟩
      obtain ⟨reply, answered, ok, -⟩ := valid.of_done done
      rw [Engine.load_active _ _ _ active] at loaded
      rw [Engine.read_active _ _ _ _ active] at ok
      rw [answered, ← Except.ok.inj ok, Except.ok.inj loaded]
    · intro between' reading' rest' parts' delivers'
      rw [parts, List.append_cancel_left_eq, List.cons.injEq] at parts'
      exact Lasts.first_end parts'.2 delivers.lasts (delivers.discards _) delivers'.lasts
        (delivers'.discards _)
  · intro event member quiet
    rw [(run.trail.valid event member).engine_kept quiet]
    rfl

/-! ## A run -/

/-- A symbolic value is read and forwarded to be returned, its flag is asked for, and then it is
read by another instruction. -/
def Hook.collection : List Hook :=
  [.enter, .markSymbolic (.localVar 0), .read ⟨1, 0, .int 0, some .result⟩ (.localVar 0),
    .resolve .returned, .read ⟨2, 0, .int 0, none⟩ .returned]

/-- The second instruction finds it, and nothing is left afterwards. -/
theorem Run.returned_lifetime_collection :
    ∃ (run : Run) (earlier : List Event) (source asking reading : Event) (shadow : Shadow),
      run.steps = Hook.collection.map .ofMain ∧
      run.events = earlier ++ source :: ([asking] ++ reading :: []) ∧
      Delivers "main" earlier source [asking] reading ∧ source.stashed? "main" = some shadow ∧
      (reading.before.engine "main").load reading.before.tables .returned = .ok shadow ∧
      reading.before.tables.heap.resolve shadow = .symbolic ∧
      (asking.after.engine "main").load asking.after.tables .returned =
        (asking.before.engine "main").load asking.before.tables .returned ∧
      (run.final.engine "main").load run.final.tables .returned = .ok .concrete ∧
      ¬ ∃ other, Stashed run.events "main" other := by
  obtain ⟨run, steps, shown⟩ :=
    Run.exists_of_hooks (fun _ => ()) Hook.collection
      [(.done, 1, ()), (.done, 1, ()), (.flag .symbolic, 1, ()), (.flag .symbolic, 1, ()),
        (.flag .symbolic, 1, ())]
      (by decide +kernel)
  simp only [Hook.collection, List.zip_cons_cons, List.zip_nil_left, List.forall₂_cons_right_iff,
    List.forall₂_nil_right_iff] at shown
  obtain ⟨outer, _, -, ⟨mark, _, -, ⟨source, _, sourceShown, ⟨asking, _, askingShown, ⟨reading, _,
      readingShown, rfl, rfl⟩, rfl⟩, rfl⟩, rfl⟩, events⟩ := shown
  have parts : run.events = [outer, mark] ++ source :: ([asking] ++ reading :: []) := events
  have whole : run.events = [outer, mark, source, asking] ++ [reading] := events
  have active : (source.before.engine "main").depth ≠ 0 :=
    (run.trail.valid source (by simp [events])).active_of_done sourceShown.done trivial
  have delivers : Delivers "main" [outer, mark] source [asking] reading := by
    refine ⟨?_, ?_, _, readingShown.done⟩
    · simp [Event.stashed?, sourceShown.done, Engine.load_active _ _ _ active, Except.toOption]
    · rw [← List.nil_append [asking], Lasts.concat_iff]
      exact ⟨by simp [Lasts], by simp [Event.stashed?, askingShown.done],
        by simp [Event.discards, askingShown.done]⟩
  obtain ⟨kept, once, quiet⟩ := run.returned_lifetime "main"
  obtain ⟨⟨shadow, stashed, loaded, answer⟩, -⟩ := once _ _ _ _ _ parts delivers
  -- The last read has discarded what it found and has stashed nothing.
  have gone : ¬ ∃ other, Stashed run.events "main" other := by
    rintro ⟨other, stashed⟩
    rw [whole] at stashed
    rcases (Latest.concat_iff _ reading other).mp stashed with here | ⟨-, undiscarded, -⟩
    · simp [Event.stashed?, readingShown.done] at here
    · simp [Event.discards, readingShown.done] at undiscarded
  have trail := run.trail
  rw [whole] at trail
  obtain ⟨-, -, last⟩ := trail.unsnoc
  have still : (run.final.engine "main").depth ≠ 0 := by
    have depth : (run.final.engine "main").depth = 1 := by
      rw [last]
      simpa only [Collector.status_eq] using readingShown.depth
    rw [depth]
    decide
  refine ⟨run, [outer, mark], source, asking, reading, shadow, steps, parts, delivers, stashed,
    loaded, ?_, ?_, (kept still .concrete).mpr (.inr ⟨rfl, gone⟩), gone⟩
  · exact (Reply.flag.inj (Answer.hook.inj (answer.symm.trans readingShown.answer)))
  · exact quiet asking (by simp [events]) (.inl ⟨_, by rw [askingShown.step]; rfl⟩)

end ShadowTrace
