import ShadowTrace.Proofs.Footprint

/-! # Threads with separate footprints

As long as no thread names an object or a static field that another one names, none of them can tell
whether the others are there: each computes what it would compute alone, and how their steps are
interleaved leaves no trace. -/

namespace ShadowTrace

/-! ## Setting up -/

/-- Whether a dump can be created does not depend on the thread it is for. -/
theorem Dump.create_any {settings : DumpSettings} {files : Files} {here : List String}
    {thread : String} {made : Option Dump × Files}
    (created : Dump.create settings files here thread = .ok made) (other : String) :
    ∃ made', Dump.create settings files here other = .ok made' := by
  unfold Dump.create at created ⊢
  generalize files.makeFolders here settings.folder = folders at created ⊢
  obtain ⟨files, _ | _⟩ := folders
  · exact ⟨_, rfl⟩
  · simp only at created ⊢
    split
    next separator =>
      rw [if_pos separator] at created
      cases created
    next =>
      cases files.makeFile here (settings.path other) with
      | none => exact ⟨_, rfl⟩
      | some file => exact ⟨_, rfl⟩

theorem Trace.create_any {settings : TraceSettings} {files : Files} {here : List String}
    {thread : String} {made : Trace × Files}
    (created : Trace.create settings files here thread = .ok made) (other : String) :
    ∃ made', Trace.create settings files here other = .ok made' := by
  unfold Trace.create at created ⊢
  cases reserved : reserve settings.capacity recordBytes with
  | error error => simp [reserved, bind, Except.bind] at created
  | ok =>
    simp only [reserved, bind, Except.bind] at created ⊢
    cases dump : settings.dump with
    | none => exact ⟨_, rfl⟩
    | some dumpSettings =>
      simp only [dump] at created ⊢
      cases opened : Dump.create dumpSettings files here thread with
      | error error => simp [opened] at created
      | ok made =>
        obtain ⟨made', again⟩ := Dump.create_any opened other
        exact ⟨_, by rw [again]; rfl⟩

namespace Collector

/-- The thread can be set up, or has been. -/
def Ready (collector : Collector) (name : String) : Prop :=
  ∀ label, ∃ started, collector.start name label = .ok started

theorem ready_of_contains {collector : Collector} {name : String}
    (present : collector.threads.contains name = true) :
    collector.Ready name := by
  intro label
  exact ⟨collector, start_eq_ok_iff.mpr (.inl ⟨present, rfl⟩)⟩

/-- If one thread can be set up in a collector that has none, then any other can as well. -/
theorem ready_of_start {collector started : Collector} {name label : String}
    (empty : ∀ name, collector.threads.contains name = false)
    (start : collector.start name label = .ok started) (other : String) :
    collector.Ready other := by
  intro otherLabel
  rcases start_eq_ok_iff.mp start with ⟨present, -⟩ | ⟨-, stack, trace, files, stacked, traced, -⟩
  · simp [empty] at present
  · obtain ⟨made, again⟩ := Trace.create_any traced otherLabel
    exact ⟨_, start_eq_ok_iff.mpr (.inr ⟨empty other, stack, made.1, made.2, stacked, again, rfl⟩)⟩

end Collector

/-! ## A thread and the same thread alone -/

/-- The thread of the two events sees the same: the same step with the same answer, and then the
same accumulator, depth and trace. -/
structure Event.SeesSame (event other : Event) : Prop where
  step : event.step = other.step
  answer : event.answer = other.answer
  accumulator : (event.after.status event.step.thread).accumulator =
    (other.after.status event.step.thread).accumulator
  depth : (event.after.status event.step.thread).depth =
    (other.after.status event.step.thread).depth
  records : event.after.records event.step.thread = other.after.records event.step.thread

theorem Action.stored_of_isOwn {action : Action} (own : action.isOwn = true) : action.Stored := by
  cases action with
  | table | resetShared => cases own
  | hook | records | instructionIds | texts | drain | clearTrace => trivial

theorem Plain.State.answer_of_isOwn (state : Plain.State) (name : String) {action : Action}
    (own : action.isOwn = true) : ∃ answer, (state.act name action).1 = some answer := by
  cases action with
  | table | resetShared => cases own
  | hook | records | instructionIds | texts | drain | clearTrace => exact ⟨_, rfl⟩

/-- An event and one of the thread alone, from where the thread is as in the first. -/
theorem Event.Valid.seesSame {event other : Event} (valid : event.Valid) (otherValid : other.Valid)
    (step : event.step = other.step) (tables : event.before.tables.Valid)
    (otherTables : other.before.tables.Valid) {regions : String → List Item}
    (separate : event.before.plain.Separate regions) (keeps : Plain.State.Keeps regions event.step)
    (alone : other.before.plain =
      event.before.plain.only event.step.thread (regions event.step.thread)) :
    event.SeesSame other ∧
      other.after.plain = event.after.plain.only event.step.thread (regions event.step.thread) := by
  have stored := Action.stored_of_isOwn keeps.1
  obtain ⟨-, plain, answer⟩ := valid.plain tables stored
  obtain ⟨-, otherPlain, otherAnswer⟩ := otherValid.plain otherTables (step ▸ stored)
  have same := Plain.State.only_act (separate event.step.thread) keeps.1 keeps.2
  rw [← step, alone, same] at otherPlain otherAnswer
  rw [← plain] at otherPlain
  have engine := congrFun (congrArg (·.engine) otherPlain) event.step.thread
  have records := congrFun (congrArg (·.records) otherPlain) event.step.thread
  simp only [Collector.plain, Plain.State.only, Function.update_self, Engine.plain,
    Plain.Engine.mk.injEq] at engine records
  have depth := congrArg (·.frames.length) engine.1
  simp only [Engine.cells, List.length_map] at depth
  obtain ⟨reply, given⟩ := event.before.plain.answer_of_isOwn event.step.thread keeps.1
  refine ⟨⟨step, ?_, ?_, ?_, ?_⟩, otherPlain⟩
  · rw [answer reply given, otherAnswer reply given]
  · simp only [Collector.status_eq, Engine.accumulator, engine.2]
  · simp only [Collector.status_eq, Engine.depth, CallStack.depth, depth]
  · exact records.symm

/-- What a thread sees in a run, it sees alone. -/
theorem Trail.exists_alone {before final : Collector} {events : List Event}
    (trail : Trail before events final) (tables : before.tables.Valid)
    {regions : String → List Item} (separate : before.plain.Separate regions)
    (apart : Plain.State.Apart regions)
    (keeps : ∀ event ∈ events, Plain.State.Keeps regions event.step) {name : String}
    {start : Collector} (startTables : start.tables.Valid) (ready : start.Ready name)
    (alone : start.plain = before.plain.only name (regions name)) :
    ∃ own last, Trail start own last ∧ own.map (·.step) = Step.ofThread (events.map (·.step)) name ∧
      List.Forall₂ Event.SeesSame (events.filter (·.step.thread = name)) own := by
  -- Along the run; the thread alone moves with the events of the thread, and stays where it is
  -- otherwise.
  induction trail generalizing start with
  | done => exact ⟨[], start, .done start, rfl, .nil⟩
  | @step event events final valid rest ih =>
    have here := keeps event (by simp)
    have later : ∀ event ∈ events, Plain.State.Keeps regions event.step :=
      fun event member => keeps event (by simp [member])
    obtain ⟨tablesAfter, plain, -⟩ := valid.plain tables (Action.stored_of_isOwn here.1)
    have separateAfter : event.after.plain.Separate regions := by
      rw [plain]
      exact separate.act apart here
    by_cases own : event.step.thread = name
    · subst own
      -- The step is taken alone as well, from what has been set up for the thread.
      obtain ⟨started, begun⟩ := ready event.step.label
      let other : Event :=
        ⟨event.step, start, (started.act event.step.thread event.step.action).1,
          (started.act event.step.thread event.step.action).2⟩
      have otherValid : other.Valid := ⟨started, begun, rfl⟩
      obtain ⟨sees, aloneAfter⟩ :=
        valid.seesSame otherValid rfl tables startTables separate here alone
      obtain ⟨otherTables, -, -⟩ := otherValid.plain startTables (Action.stored_of_isOwn here.1)
      have present : other.after.threads.contains event.step.thread = true :=
        (Collector.contains_act _ _ (Collector.contains_start begun) _).trans
          (Collector.contains_start begun)
      obtain ⟨others, last, onward, steps, same⟩ :=
        ih tablesAfter separateAfter later otherTables (Collector.ready_of_contains present)
          aloneAfter
      refine ⟨other :: others, last, .step otherValid onward, ?_, ?_⟩
      · simp [Step.ofThread, other, steps]
      · simpa using List.Forall₂.cons sees same
    · have unseen : start.plain = event.after.plain.only name (regions name) := by
        rw [alone, plain]
        exact (separate.only_act_other apart here (Ne.symm own)).symm
      obtain ⟨others, last, onward, steps, same⟩ :=
        ih tablesAfter separateAfter later startTables ready unseen
      refine ⟨others, last, onward, ?_, ?_⟩
      · simp [Step.ofThread, own, steps]
      · simpa [own] using same

/-- The end of a run is the end of the plain machine's. -/
theorem Trail.plain_final {before final : Collector} {events : List Event}
    (trail : Trail before events final) (tables : before.tables.Valid)
    (stored : ∀ event ∈ events, event.step.action.Stored) :
    final.plain = before.plain.after (events.map (·.step)) := by
  induction trail with
  | done => rfl
  | @step event events final valid rest ih =>
    obtain ⟨tablesAfter, plain, -⟩ := valid.plain tables (stored event (by simp))
    rw [ih tablesAfter fun other member => stored other (by simp [member]), plain]
    rfl

theorem Run.ready (run : Run) (some_event : run.events ≠ []) (name : String) :
    run.collector.Ready name := by
  obtain ⟨first, rest, events⟩ := List.exists_cons_of_ne_nil some_event
  have trail := run.trail
  rw [events] at trail
  obtain ⟨before, ⟨started, begun, -⟩, -⟩ := trail.uncons
  rw [before] at begun
  exact Collector.ready_of_start (Collector.contains_create run.created) begun name

theorem Run.plain_final (run : Run) (own : ∀ step ∈ run.steps, step.action.isOwn = true) :
    run.final.plain = Plain.State.after {} run.steps := by
  rw [← run.plain_collector]
  apply run.trail.plain_final run.tables_valid
  intro event member
  exact Action.stored_of_isOwn (own event.step (List.mem_map_of_mem member))

/-- If no thread names an object or a static field that another one names, then in every
interleaving each thread sees what it sees when it runs alone; and all interleavings leave the same
in every field, every element, every static field and every object's flag. -/
theorem Run.separate_threads (run : Run) (own : ∀ step ∈ run.steps, step.action.isOwn = true)
    (apart : ∀ name other, name ≠ other →
      (Step.footprint run.steps name).Disjoint (Step.footprint run.steps other)) :
    (∀ name, ∃ alone : Run, alone.settings = run.settings ∧ alone.files = run.files ∧
      alone.folder = run.folder ∧ alone.steps = Step.ofThread run.steps name ∧
      List.Forall₂ Event.SeesSame (run.events.filter (·.step.thread = name)) alone.events) ∧
    ∀ other : Run, (∀ name, Step.ofThread other.steps name = Step.ofThread run.steps name) →
      (∀ id key, other.final.tables.heap.shadow id key = run.final.tables.heap.shadow id key) ∧
      (∀ id, other.final.tables.heap.flag id = run.final.tables.heap.flag id) ∧
      ∀ field, other.final.tables.statics.get field = run.final.tables.statics.get field := by
  have keeps : ∀ step ∈ run.steps, Plain.State.Keeps (Step.footprint run.steps) step :=
    fun step member =>
    Step.keeps_footprint member (own step member)
  constructor
  · intro name
    by_cases empty : run.events = []
    · refine ⟨⟨run.settings, run.files, run.folder, run.collector, run.created, [], run.collector,
        .done _⟩, rfl, rfl, rfl, ?_, ?_⟩
      · simp [Run.steps, empty, Step.ofThread]
      · simp [empty]
    · -- Some thread could be set up, so this one can be when it is alone.
      have ready := run.ready empty name
      have separate : run.collector.plain.Separate (Step.footprint run.steps) := by
        rw [run.plain_collector]
        exact Plain.State.separate_empty _
      have alone : run.collector.plain =
          run.collector.plain.only name (Step.footprint run.steps name) := by
        rw [run.plain_collector, Plain.State.only_empty]
      obtain ⟨events, last, trail, steps, same⟩ :=
        run.trail.exists_alone run.tables_valid separate apart
          (fun event member => keeps event.step (List.mem_map_of_mem member)) run.tables_valid
            ready alone
      exact ⟨⟨run.settings, run.files, run.folder, run.collector, run.created, events, last, trail⟩,
        rfl, rfl, rfl, steps, same⟩
  · intro other threads
    have shared : ∀ step ∈ other.steps, step ∈ run.steps := by
      intro step member
      have mine : step ∈ Step.ofThread other.steps step.thread :=
        List.mem_filter.mpr ⟨member, by simp⟩
      rw [threads] at mine
      exact List.mem_of_mem_filter mine
    have agree (item : Item) : other.final.plain.tables.AgreeAt run.final.plain.tables item := by
      rw [run.plain_final own, other.plain_final fun step member => own step (shared step member)]
      exact Plain.State.agreeAt_after apart keeps
        (fun step member => keeps step (shared step member)) threads item
    refine ⟨?_, ?_, ?_⟩
    · intro id key
      exact (agree (.object id)).object id key rfl
    · intro id
      exact (agree (.object id)).flag id rfl
    · intro field
      exact (agree (.static field)).static field rfl

/-- Two threads that each mark, store and read in a place of their own, first by turns and then one
after the other. -/
def Step.turns : List Step :=
  [⟨"main", "main", .hook (.enterWith { receiver := some (.reference 1) })⟩,
    ⟨"other", "other", .hook (.enterWith { receiver := some (.reference 2) })⟩,
    ⟨"main", "main", .hook (.markSymbolic .this)⟩,
    ⟨"other", "other", .hook (.read ⟨4, 0, .int 7, none⟩ .this)⟩,
    ⟨"main", "main", .hook (.read ⟨4, 0, .int 7, none⟩ .this)⟩,
    ⟨"other", "other", .hook (.write 4 (.static 3) .primitive)⟩,
    ⟨"main", "main", .hook (.write 4 (.object 1 (.field 0)) (.reference (some 1)))⟩,
    ⟨"other", "other", .drain⟩,
    ⟨"main", "main", .hook .exit⟩]

theorem Step.footprint_turns (name other : String) (differ : name ≠ other) :
    (Step.footprint Step.turns name).Disjoint (Step.footprint Step.turns other) := by
  -- Each item tells whose it is.
  let owner (item : Item) : String := if item = .object 1 then "main" else "other"
  have named : ∀ step ∈ Step.turns, ∀ item ∈ step.action.items,
    owner item = step.thread := by decide
  have owned (name : String) (item : Item)
      (inside : item ∈ Step.footprint Step.turns name) : owner item = name := by
    obtain ⟨step, mine, occurs⟩ := List.mem_flatMap.mp inside
    obtain ⟨member, thread⟩ := List.mem_filter.mp mine
    rw [named step member item occurs]
    simpa using thread
  intro item here there
  exact differ ((owned name item here).symm.trans (owned other item there))

theorem Run.separate_threads_turns :
    ∃ run other : Run, run.steps = Step.turns ∧
      other.steps = Step.ofThread Step.turns "other" ++ Step.ofThread Step.turns "main" ∧
      (∃ alone : Run, alone.steps = Step.ofThread Step.turns "main" ∧
        List.Forall₂ Event.SeesSame (run.events.filter (·.step.thread = "main")) alone.events) ∧
      ∀ id key, other.final.tables.heap.shadow id key = run.final.tables.heap.shadow id key := by
  obtain ⟨run, -, steps, -⟩ :=
    Run.exists_of_answers {} {} Step.turns
      [.hook .done, .hook .done, .hook .done, .hook (.flag .concrete), .hook (.flag .symbolic),
        .hook .done, .hook .done, .records [], .hook .done] (by decide +kernel)
  obtain ⟨other, -, otherSteps, -⟩ :=
    Run.exists_of_answers {} {}
      (Step.ofThread Step.turns "other" ++ Step.ofThread Step.turns "main")
      [.hook .done, .hook (.flag .concrete), .hook .done, .records [], .hook .done, .hook .done,
        .hook (.flag .symbolic), .hook .done, .hook .done] (by decide +kernel)
  have own : ∀ step ∈ run.steps, step.action.isOwn = true := by
    rw [steps]
    decide
  have threads (name : String) : Step.ofThread other.steps name = Step.ofThread run.steps name := by
    rw [steps, otherSteps]
    by_cases first : "main" = name
    · subst first
      decide
    · by_cases last : "other" = name
      · subst last
        decide
      · simp [Step.ofThread, Step.turns, first, last]
  obtain ⟨alone, finals⟩ := run.separate_threads own (by rw [steps]; exact Step.footprint_turns)
  obtain ⟨solo, -, -, -, soloSteps, same⟩ := alone "main"
  exact ⟨run, other, steps, otherSteps, ⟨solo, by rw [soloSteps, steps], same⟩,
    (finals other threads).1⟩

end ShadowTrace
