import Mathlib.Data.List.Induction
import ShadowTrace.Proofs.Transit

/-! # What a history tells

Two things can be read off the events of a run without looking into any engine. One is the window of
a thread that is open, and what its reads add up to; the engine holds the same. The other is what
the latest event of some kind has left, unless another has put an end to it since; this is what any
part of a collector holds that events set, clear or leave alone. -/

namespace ShadowTrace

/-! ## The open window -/

namespace Span

/-- The window that is open after the calls, given the one before them. -/
def follow (current : Option (Span Reading)) (calls : List Call) : Option (Span Reading) :=
  calls.foldl (fun current call => (next current call call.readings).1) current

/-- What the flags of the reads add up to. -/
def accumulator (span : Span Reading) : Flag :=
  span.reads.foldl (fun flag read => flag.merge read.flag) .concrete

/-- A call that is no access ends the window or leaves it alone. -/
theorem next_other (current : Option (Span Reading)) {call : Call}
    (other : call.instruction? = none) (reads : List Reading) :
    (next current call reads).1 = none ∨ (next current call reads).1 = current := by
  simp only [next, other]
  split
  · exact .inl rfl
  · split
    · exact .inl rfl
    · exact .inr rfl

end Span

/-- Whether the call is a read or write that opens a window, given the one that is open. -/
def Call.opens (current : Option (Span Reading)) (call : Call) : Bool :=
  call.instruction?.any fun id => current.map (·.instruction) ≠ some id

/-- The window of the thread that is open after the events. -/
def Event.window (events : List Event) (name : String) : Option (Span Reading) :=
  Span.follow none (events.filterMap (·.call? name))

/-- Whether the event opens a window of the thread, given the events before it. -/
def Event.opens (past : List Event) (name : String) (event : Event) : Bool :=
  (event.call? name).any (·.opens (window past name))

namespace Window

/-- The window shows the given reads, and its accumulator is what their flags add up to. -/
structure Merges (window : Window) (current : Option (Span Reading)) : Prop where
  shows : window.Shows current
  accumulator : window.accumulator = (current.map (·.accumulator)).getD .concrete

theorem merges_none {window : Window} (idle : window.pending? = none) : window.Merges none := by
  refine ⟨idle, ?_⟩
  cases window with
  | fresh | finalized => rfl
  | pending => cases idle

theorem Merges.add {window : Window} {span : Span Reading} (merges : window.Merges (some span))
    (position : UInt32) (flag : Flag) (value : Value) :
    (window.add position flag value).Merges (some (span.add [⟨position, value, flag⟩])) := by
  refine ⟨merges.shows.add position flag value, ?_⟩
  have before := merges.accumulator
  obtain ⟨accumulator, rfl, -⟩ := merges.shows
  simp only [Window.accumulator, Option.map_some, Option.getD_some] at before
  simp [Window.add, Window.accumulator, Span.accumulator, Span.add, before]

end Window

namespace Engine

variable {engine : Engine} {tables : Tables} {current : Option (Span Reading)}

/-- Moving to an instruction goes on with what its reads add up to, or starts from nothing. -/
theorem merges_observe (merges : engine.window.Merges current) (id : InstructionId)
    (location : Location) :
    (engine.observe id location).1.window.Merges (some (Span.touch current id).1) := by
  refine ⟨(engine.shows_observe id location merges.shows).1, ?_⟩
  have pending := merges.shows.pending?
  unfold observe
  -- The engine goes by the pending instruction and the calls by the open window; these
  -- are the same.
  cases current with
  | none =>
    simp only [pending, Option.map_none, reduceCtorEq, if_false]
    rfl
  | some span =>
    by_cases same : span.instruction = id
    · simp only [pending, Option.map_some, same, if_true, Span.touch]
      exact merges.accumulator
    · simp only [pending, Option.map_some, Option.some.injEq, same, if_false, Span.touch]
      rfl

/-- A hook that is no access leaves the window alone, or leaves none pending. -/
theorem window_other {hook : Hook} (other : (engine.call tables hook).instruction? = none) :
    (engine.step tables hook).engine.window.pending? = none ∨
      (engine.step tables hook).engine.window = engine.window := by
  rcases engine.refused_or_done tables hook with ⟨desync, -, failed⟩ | ⟨-, reply, done⟩
  · rw [failed]
    exact .inr rfl
  · have active (needs : Needs hook) : engine.depth ≠ 0 := engine.active_of_ok tables needs done
    cases hook with
    | enter | enterWith => exact .inr rfl
    | exit =>
      rcases frames : engine.stack.frames with _ | ⟨frame, _ | ⟨caller, rest⟩⟩
      · rw [exit_idle _ _ (by simp [depth, CallStack.depth, frames])]
        exact .inr rfl
      · rw [exit_last _ _ frames]
        exact .inl engine.window.pending?_finalize
      · rw [exit_inner _ _ frames]
        exact .inr rfl
    | read | write => simp [call, Call.instruction?, done] at other
    | assign => exact .inr (by rw [assign_active _ _ _ _ (active trivial), window_place])
    | markSymbolic => exact .inr (by rw [markSymbolic_active _ _ _ (active trivial), window_mark])
    | resolve => exact .inr (by rw [resolve_active _ _ _ (active trivial)])
    | close id =>
      by_cases pending : engine.window.pending? = some id
      · rw [close_pending _ _ pending]
        exact .inl engine.window.pending?_finalize
      · obtain ⟨desync, failed⟩ := engine.close_other tables pending
        rw [failed] at done
        cases done
    | reset => exact .inl rfl

/-- One hook: the accumulator goes on adding up the reads of the window that the calls show. -/
theorem merges_step (hook : Hook) (merges : engine.window.Merges current) :
    (engine.step tables hook).engine.window.Merges
      (Span.next current (engine.call tables hook) (engine.call tables hook).readings).1 := by
  have shows : (engine.step tables hook).engine.window.Shows
      (Span.next current (engine.call tables hook) (engine.call tables hook).readings).1 :=
    (keepsUp hook merges.shows).1
  cases access : (engine.call tables hook).instruction? with
  | none =>
    rcases Span.next_other current access (engine.call tables hook).readings with ended | kept
    · rw [ended] at shows ⊢
      exact Window.merges_none shows
    · rw [kept] at shows ⊢
      rcases window_other access with idle | same
      · -- The calls show no window that is not pending.
        have pending := shows.pending?
        rw [idle] at pending
        obtain rfl : current = none := Option.map_eq_none_iff.mp pending.symm
        exact Window.merges_none idle
      · rw [same]
        exact merges
  | some id =>
    -- Only a read or a write names an instruction, and only if it succeeds.
    have active (needs : Needs hook) : engine.depth ≠ 0 := by
      intro idle
      cases hook <;> simp_all [call, Call.instruction?, engine.step_idle tables needs idle]
    cases hook with
    | read operand location =>
      have observed := merges_observe merges operand.instruction location
      simp only [call, read_active _ _ _ _ (active trivial), Span.next, Call.instruction?,
        Call.readings, window_forward]
      exact observed.add operand.position _ operand.value
    | write instruction location value =>
      simp only [call, write_active _ _ _ _ _ (active trivial), Span.next, Call.instruction?,
        Call.readings, window_place, Span.add, List.append_nil]
      exact merges_observe merges instruction location
    | enter | enterWith | exit | assign | markSymbolic | resolve | close | reset => cases access

/-- Whether the hook is an access to another instruction than the pending one. -/
def opens (engine : Engine) : Hook → Bool
  | .read operand _ => engine.window.pending? ≠ some operand.instruction
  | .write id _ _ => engine.window.pending? ≠ some id
  | .enter | .enterWith _ | .exit | .assign .. | .markSymbolic _ | .resolve _ | .close _ | .reset =>
    false

/-- Whether an access opens a window can be told from the window that the calls show. -/
theorem opens_call (shows : engine.window.Shows current) {hook : Hook} {reply : Reply}
    (ok : (engine.step tables hook).result = .ok reply) :
    (engine.call tables hook).opens current = engine.opens hook := by
  cases hook with
  | read | write => simp [Call.opens, opens, call, Call.instruction?, ok, shows.pending?]
  | enter | enterWith | exit | assign | markSymbolic | resolve | close | reset => rfl

end Engine

namespace Trail

variable {before final : Collector} {events : List Event} {name : String}

/-- From any point of a run on: given the window that is open there, the engine holds the window
that the calls lead to. -/
theorem merges (trail : Trail before events final) {current : Option (Span Reading)}
    (merges : (before.engine name).window.Merges current) :
    (final.engine name).window.Merges (Span.follow current (events.filterMap (·.call? name))) := by
  -- Along the run; only calls of the thread move its window.
  induction trail generalizing current with
  | done => exact merges
  | @step event events final valid rest ih =>
    rcases valid.seen name with ⟨call, engine, -⟩ | ⟨hook, call, engine, -⟩
    · simp only [List.filterMap_cons, call]
      apply ih
      rwa [engine]
    · simp only [List.filterMap_cons, call]
      apply ih
      rw [engine]
      exact Engine.merges_step hook merges

/-- For a thread that has done nothing before, the engine holds the window that the events show. -/
theorem merges_window (trail : Trail before events final) (idle : before.engine name = {}) :
    (final.engine name).window.Merges (Event.window events name) := by
  apply trail.merges
  rw [idle]
  exact Window.merges_none rfl

end Trail

theorem Event.Valid.opens_eq {event : Event} (valid : event.Valid) {name : String}
    {past : List Event} (shows : (event.before.engine name).window.Shows (Event.window past name))
    {hook : Hook} (done : event.done? name = some hook) :
    event.opens past name = (event.before.engine name).opens hook := by
  obtain ⟨reply, -, ok, -⟩ := valid.of_done done
  rw [Event.opens, valid.call_of_done done, Option.any_some, Engine.opens_call shows ok]

/-- A write leaves the accumulator of the window that it belongs to. -/
theorem Event.Valid.accumulator_write {event : Event} (valid : event.Valid) {name : String}
    {id : InstructionId} {location : Location} {value : Written}
    (done : event.done? name = some (.write id location value)) :
    (event.after.status name).accumulator =
      ((event.before.engine name).observe id location).1.accumulator := by
  obtain ⟨reply, -, -, engine⟩ := valid.of_done done
  rw [Collector.status_eq, engine,
    Engine.write_active _ _ _ _ _ (valid.active_of_done done trivial)]
  simp [Engine.accumulator]

/-! ## The latest event of a kind -/

/-- Of the events that follow, none provides anything new, and none puts an end to what was
provided. What does that may depend on all that happened before. -/
def Lasts {α : Type} (provides : Event → Option α) (ends : List Event → Event → Bool)
    (past later : List Event) : Prop :=
  ∀ others event rest, later = others ++ event :: rest →
    provides event = none ∧ ends (past ++ others) event = false

/-- The latest of the events that provide something has provided this, and it has lasted
until now. -/
def Latest {α : Type} (provides : Event → Option α) (ends : List Event → Event → Bool)
    (events : List Event) (given : α) : Prop :=
  ∃ earlier source later, events = earlier ++ source :: later ∧ provides source = some given ∧
    Lasts provides ends (earlier ++ [source]) later

/-- A list with one more item at its end is cut at this item or before it. -/
theorem concat_eq_cut_iff {α : Type} {items before after : List α} {last item : α} :
    items ++ [last] = before ++ item :: after ↔
      (items = before ∧ last = item ∧ after = []) ∨ ∃ rest,
        after = rest ++ [last] ∧ items = before ++ item :: rest := by
  constructor
  · intro parts
    rcases after.eq_nil_or_concat' with rfl | ⟨rest, final, rfl⟩
    · obtain ⟨rfl, single⟩ := List.append_inj' parts rfl
      exact .inl ⟨rfl, List.singleton_inj.mp single, rfl⟩
    · rw [← List.cons_append, ← List.append_assoc] at parts
      obtain ⟨rfl, single⟩ := List.append_inj' parts rfl
      exact .inr ⟨rest, by rw [single], rfl⟩
  · rintro (⟨rfl, rfl, rfl⟩ | ⟨rest, rfl, rfl⟩)
    · rfl
    · simp

theorem Lasts.concat_iff {α : Type} {provides : Event → Option α} {ends : List Event → Event → Bool}
    (past later : List Event) (event : Event) :
    Lasts provides ends past (later ++ [event]) ↔
      Lasts provides ends past later ∧ provides event = none ∧
      ends (past ++ later) event = false := by
  constructor
  · intro lasts
    refine ⟨?_, lasts later event [] rfl⟩
    intro others other rest parts
    exact lasts others other (rest ++ [event]) (by simp [parts])
  · rintro ⟨lasts, here⟩ others other rest parts
    rcases concat_eq_cut_iff.mp parts with ⟨rfl, rfl, -⟩ | ⟨rest, -, parts⟩
    · exact here
    · exact lasts others other rest parts

/-- Whatever ends what was provided is the first to do so. -/
theorem Lasts.first_end {α : Type} {provides : Event → Option α} {ends : List Event → Event → Bool}
    {past between rest between' rest' : List Event} {event event' : Event}
    (parts : between ++ event :: rest = between' ++ event' :: rest')
    (lasts : Lasts provides ends past between) (ended : ends (past ++ between) event = true)
    (lasts' : Lasts provides ends past between') (ended' : ends (past ++ between') event' = true) :
    between = between' ∧ event = event' := by
  rcases List.append_eq_append_iff.mp parts with ⟨others, rfl, tail⟩ | ⟨others, rfl, tail⟩
  · cases others with
    | nil => simp_all
    | cons first others =>
      -- The first to end it would be among those that do not.
      obtain ⟨rfl, -⟩ := List.cons.inj tail
      cases ended.symm.trans (lasts' between event others rfl).2
  · cases others with
    | nil => simp_all
    | cons first others =>
      obtain ⟨rfl, -⟩ := List.cons.inj tail
      cases ended'.symm.trans (lasts between' event' others rfl).2

namespace Latest

variable {α : Type} {provides : Event → Option α} {ends : List Event → Event → Bool}

theorem not_nil (given : α) : ¬ Latest provides ends [] given := by
  rintro ⟨earlier, source, later, cut, -⟩
  simp at cut

/-- One more event provides something itself, or ends what was provided, or leaves it. -/
theorem concat_iff (events : List Event) (event : Event) (given : α) :
    Latest provides ends (events ++ [event]) given ↔
      provides event = some given ∨
        provides event = none ∧ ends events event = false ∧ Latest provides ends events given := by
  constructor
  · rintro ⟨earlier, source, later, cut, provided, lasts⟩
    -- The source is the new event, or the new event is one of those since then.
    rcases concat_eq_cut_iff.mp cut with ⟨rfl, rfl, rfl⟩ | ⟨later, rfl, rfl⟩
    · exact .inl provided
    · obtain ⟨lasts, none, unended⟩ := (Lasts.concat_iff _ later event).mp lasts
      exact .inr ⟨none, by simpa using unended, earlier, source, later, rfl, provided, lasts⟩
  · rintro (provided | ⟨none, unended, earlier, source, later, rfl, provided, lasts⟩)
    · exact ⟨events, event, [], rfl, provided, by simp [Lasts]⟩
    · refine ⟨earlier, source, later ++ [event], by simp, provided, ?_⟩
      exact (Lasts.concat_iff _ later event).mpr ⟨lasts, none, by simpa using unended⟩

/-- At most one value is the latest. -/
theorem unique {events : List Event} {given other : α} (latest : Latest provides ends events given)
    (again : Latest provides ends events other) : given = other := by
  induction events using List.reverseRecOn with
  | nil => exact absurd latest (not_nil given)
  | append_singleton events event ih =>
    -- Either both come from the last event, or neither does.
    rcases (concat_iff events event given).mp latest with here | ⟨none, -, before⟩
    · rcases (concat_iff events event other).mp again with there | ⟨none, -, -⟩
      · exact Option.some.inj (here.symm.trans there)
      · cases here.symm.trans none
    · rcases (concat_iff events event other).mp again with there | ⟨-, -, before'⟩
      · cases none.symm.trans there
      · exact ih before before'

/-- What is held is the latest value, or the default if there is none. -/
theorem held_iff {events : List Event} {held clear : α}
    (holds : (∃ given, Latest provides ends events given ∧ held = given) ∨
      (¬ ∃ given, Latest provides ends events given) ∧ held = clear) (given : α) :
    held = given ↔
      Latest provides ends events given ∨ given = clear ∧ ¬ ∃ other,
        Latest provides ends events other := by
  rcases holds with ⟨_, latest, rfl⟩ | ⟨none, rfl⟩
  · constructor
    · rintro rfl
      exact .inl latest
    · rintro (again | ⟨-, none⟩)
      · exact latest.unique again
      · exact absurd ⟨held, latest⟩ none
  · constructor
    · rintro rfl
      exact .inr ⟨rfl, none⟩
    · rintro (again | ⟨rfl, -⟩)
      · exact absurd ⟨given, again⟩ none
      · rfl

end Latest

/-- A part of the collector that each event sets to what it provides, or clears, or leaves alone,
holds in the end what the latest event has provided, and is clear if there is none. -/
theorem Trail.view_latest {α β : Type} {provides : Event → Option α}
    {ends : List Event → Event → Bool} {before final : Collector} {events : List Event}
    (trail : Trail before events final) (view : Collector → β) (value : α → β) (clear : β)
    (start : view before = clear)
    (step : ∀ past event, Trail before past event.before → event.Valid →
      view event.after = ((provides event).map value).getD
    (if ends past event then clear else view event.before)) :
    (∃ given, Latest provides ends events given ∧ view final = value given) ∨
      (¬ ∃ given, Latest provides ends events given) ∧ view final = clear := by
  -- From the end of the run backwards, where the latest event is met first.
  induction events using List.reverseRecOn generalizing final with
  | nil =>
    cases trail
    exact .inr ⟨by simp [Latest.not_nil], start⟩
  | append_singleton events event ih =>
    obtain ⟨first, valid, rfl⟩ := trail.unsnoc
    have here := step events event first valid
    have earlier := ih first
    simp only [Latest.concat_iff]
    cases provided : provides event with
    | some given =>
      rw [provided] at here
      exact .inl ⟨given, .inl rfl, here⟩
    | none =>
      rw [provided] at here
      cases ended : ends events event with
      | true =>
        rw [ended] at here
        exact .inr ⟨by simp, here⟩
      | false =>
        rw [ended] at here
        simpa [here] using earlier

end ShadowTrace
