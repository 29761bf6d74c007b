import Mathlib.Data.List.DropRight
import ShadowTrace.Proofs.FileTree
import ShadowTrace.Proofs.Lines
import ShadowTrace.Proofs.Windows

/-! # A dump and its trace

The records of a thread go two ways. Those in memory are taken away again, by draining, clearing and
resetting; the lines in the dump stay. What ties the two together is the list of all records ever
appended: the file of the dump is its lines, as long as no other thread opens or writes that file,
and the trace is the part of it since the trace was last emptied. -/

namespace ShadowTrace

/-! ## Appending to a trace -/

namespace Trace

/-- A trace that dumps to the file has written the lines of the records, no object is open, and
nothing else is there. -/
def Dumps (trace : Trace) (files : Files) (file : List String) (format : DumpFormat)
    (records : List Record) : Prop :=
  trace.dump = some ⟨file, format, (Text.utf8 (format.content records)).size, 0⟩ ∧
    files.node? file = some (.file (Text.utf8 (format.content records)))

variable {trace : Trace} {files : Files} {file : List String} {format : DumpFormat}
  {records : List Record}

theorem Dumps.append (dumps : trace.Dumps files file format records) (recorded : Option Record) :
    (trace.append files recorded).1.Dumps (trace.append files recorded).2 file format
      (records ++ recorded.toList) := by
  obtain ⟨dump, node⟩ := dumps
  cases recorded with
  | none => simpa [Trace.append] using ⟨dump, node⟩
  | some record =>
    have longer : Text.utf8 (format.content (records ++ [record])) =
        Text.utf8 (format.content records) ++ Text.utf8 (format.line record) := by
      rw [format.content_append, format.line_eq]
      simp [DumpFormat.content, Text.utf8]
    simp only [Trace.append, Trace.push, dump, Dump.write, Dump.print?_eq, Option.toList_some]
    refine ⟨?_, ?_⟩
    · simp [longer]
    · rw [longer]
      exact Files.node?_write_end node _

/-- What a trace writes goes to its own file. -/
theorem node?_append_of_ne (apart : trace.dump.map (·.file) ≠ some file)
    (recorded : Option Record) :
    (trace.append files recorded).2.node? file = files.node? file := by
  cases recorded with
  | none => rfl
  | some record =>
    cases dump : trace.dump with
    | none => simp [Trace.append, Trace.push, dump]
    | some own =>
      have other : file ≠ own.file := by
        rintro rfl
        simp [dump] at apart
      simp only [Trace.append, Trace.push, dump, Dump.write]
      cases own.print? record with
      | none => rfl
      | some printed => simp [Files.node?_write_of_ne _ other]

theorem file_append (recorded : Option Record) :
    (trace.append files recorded).1.dump.map (·.file) = trace.dump.map (·.file) := by
  cases recorded with
  | none => rfl
  | some record =>
    cases dump : trace.dump with
    | none => simp [Trace.append, Trace.push, dump]
    | some own =>
      simp only [Trace.append, Trace.push, dump, Dump.write]
      cases own.print? record <;> simp

/-- A new trace has no records, and a dump if one is asked for and can be opened. -/
theorem of_create {settings : TraceSettings} {after : Files} {here : List String} {label : String}
    (created : Trace.create settings files here label = .ok (trace, after)) :
    match settings.dump with
    | none => trace = {} ∧ after = files
    | some dumpSettings =>
      ∃ opened, Dump.create dumpSettings files here label = .ok (opened, after) ∧
        trace = { dump := opened } := by
  unfold Trace.create reserve at created
  split at created
  · cases configured : settings.dump with
    | none =>
      rw [configured] at created
      cases created
      exact ⟨rfl, rfl⟩
    | some dumpSettings =>
      simp only [configured, bind, Except.bind] at created
      cases made : Dump.create dumpSettings files here label with
      | error error => simp [made] at created
      | ok result =>
        simp only [made, pure, Except.pure, Except.ok.injEq, Prod.mk.injEq] at created
        obtain ⟨rfl, rfl⟩ := created
        exact ⟨result.1, made, rfl⟩
  · cases created

/-- The dump of a new trace is an empty file. -/
theorem dumps_create {settings : TraceSettings} {dumpSettings : DumpSettings}
    (configured : settings.dump = some dumpSettings) {after : Files} {here : List String}
    {label : String} (created : Trace.create settings files here label = .ok (trace, after))
    (opened : trace.dump.map (·.file) = some file) :
    trace.Dumps after file dumpSettings.format [] := by
  have made := of_create created
  simp only [configured] at made
  obtain ⟨own, made, rfl⟩ := made
  obtain ⟨dump, rfl, rfl⟩ := Option.map_eq_some_iff.mp opened
  obtain ⟨-, fresh, ready, -, emptied⟩ := Dump.create_eq made
  obtain ⟨rfl, before, last, -, -, names⟩ := Files.of_makeFile emptied
  have inner : dump.file ≠ [] := by simp [names]
  refine ⟨?_, ?_⟩
  · rw [fresh]
    simp [DumpFormat.content, Text.utf8]
  · simp [Files.node?_put _ inner, DumpFormat.content, Text.utf8]

/-- Opening a dump leaves the other files alone. -/
theorem node?_create_of_ne {settings : TraceSettings} {after : Files} {here : List String}
    {label : String} (created : Trace.create settings files here label = .ok (trace, after))
    (apart : trace.dump.map (·.file) ≠ some file) {content : ByteArray}
    (there : files.node? file = some (.file content)) :
    after.node? file = some (.file content) := by
  have made := of_create created
  cases configured : settings.dump with
  | none =>
    simp only [configured] at made
    rw [made.2, there]
  | some dumpSettings =>
    simp only [configured] at made
    obtain ⟨opened, made, rfl⟩ := made
    cases opened with
    | none => exact Dump.create_eq made file content there
    | some dump =>
      -- First folders are made, which keeps all files; then one file is emptied, and it is
      -- another one.
      obtain ⟨-, -, ready, kept, emptied⟩ := Dump.create_eq made
      obtain ⟨rfl, before, last, -, -, names⟩ := Files.of_makeFile emptied
      have inner : dump.file ≠ [] := by simp [names]
      have other : file ≠ dump.file := by
        rintro rfl
        simp at apart
      rw [Files.node?_put _ inner, if_neg other]
      exact kept file content there

end Trace

/-! ## One event -/

namespace Collector

/-- The file that the thread dumps to. -/
def dumpFile? (collector : Collector) (name : String) : Option (List String) :=
  (collector.thread name).trace.dump.map (·.file)

/-- The dump of the thread has the lines of the records. -/
def Dumps (collector : Collector) (name : String) (file : List String) (format : DumpFormat)
    (records : List Record) : Prop :=
  (collector.thread name).trace.Dumps collector.files file format records

variable {collector before started : Collector} {name actor label : String} {file : List String}
  {format : DumpFormat}
  {records : List Record}

/-- Only a thread that is set up has a dump. -/
theorem contains_of_dumpFile? (opened : collector.dumpFile? name = some file) :
    collector.threads.contains name = true := by
  cases present : collector.threads.contains name with
  | true => rfl
  | false =>
    simp [dumpFile?, thread, Std.TreeMap.getD_eq_fallback_of_contains_eq_false present] at opened

theorem trace_act (collector : Collector) (actor : String) (action : Action) (name : String) :
    ((collector.act actor action).2.thread name).trace.dump =
        (if name = actor then
          ((collector.thread actor).trace.append collector.files
          (collector.recorded actor action)).1.dump
          else (collector.thread name).trace.dump) ∧
      (collector.act actor action).2.files =
        ((collector.thread actor).trace.append collector.files
          (collector.recorded actor action)).2 ∧
      (collector.act actor action).2.settings = collector.settings := by
  -- Only a hook records anything; the others leave the dump as it is.
  cases action with
  | hook hook =>
    rw [act_hook]
    refine ⟨?_, rfl, rfl⟩
    have thread : (collector.hook actor hook).2.thread name =
        if name = actor then
          ((collector.thread actor).step collector.tables collector.files hook).2.1
        else collector.thread name := collector.thread_setThread actor _ name
    rw [thread]
    split
    · simp only [Thread.step, recorded, engine]
      split <;> rfl
    · rfl
  | drain | clearTrace =>
    refine ⟨?_, rfl, rfl⟩
    simp only [act, thread_setThread]
    split <;> rfl
  | table | resetShared | records | instructionIds | texts =>
    refine ⟨?_, rfl, rfl⟩
    split
    next same => rw [same]; rfl
    next => rfl

theorem dumpFile?_act (collector : Collector) (actor : String) (action : Action) (name : String) :
    (collector.act actor action).2.dumpFile? name = collector.dumpFile? name := by
  obtain ⟨dump, -, -⟩ := collector.trace_act actor action name
  simp only [dumpFile?, dump]
  split
  next same => rw [same, Trace.file_append]
  next => rfl

theorem Dumps.act (dumps : collector.Dumps name file format records) (actor : String)
    (apart : actor ≠ name → collector.dumpFile? actor ≠ some file) (action : Action) :
    (collector.act actor action).2.Dumps name file format
      (records ++ if actor = name then (collector.recorded actor action).toList else []) := by
  obtain ⟨dump, files, -⟩ := collector.trace_act actor action name
  by_cases own : actor = name
  · subst own
    have appended := Trace.Dumps.append dumps (collector.recorded actor action)
    simp only [if_true] at dump ⊢
    exact ⟨dump.trans appended.1, files ▸ appended.2⟩
  · simp only [own, Ne.symm own, if_false, List.append_nil] at dump ⊢
    refine ⟨dump.trans dumps.1, ?_⟩
    rw [files, Trace.node?_append_of_ne (apart own)]
    exact dumps.2

/-- Setting up a thread makes the dump of that thread only. -/
theorem of_start (start : before.start actor label = .ok started) :
    started.settings = before.settings ∧
      (started = before ∨
        before.threads.contains actor = false ∧
          Trace.create before.settings.trace before.files before.folder label =
            .ok ((started.thread actor).trace, started.files) ∧
          ∀ name ≠ actor, started.thread name = before.thread name) := by
  rcases start_eq_ok_iff.mp start with ⟨-, rfl⟩ | ⟨absent, stack, trace, files, -, traced, rfl⟩
  · exact ⟨rfl, .inl rfl⟩
  · have thread (name : String) :
        Collector.thread
            { before with
              files
              threads := before.threads.insert actor { engine := { stack }, trace } } name =
          if name = actor then { engine := { stack }, trace } else before.thread name :=
      before.thread_setThread actor _ name
    refine ⟨rfl, .inr ⟨absent, ?_, ?_⟩⟩
    · rw [thread, if_pos rfl]
      exact traced
    · intro name other
      rw [thread, if_neg other]

theorem dumpFile?_start (start : before.start actor label = .ok started)
    (present : before.threads.contains name = true) :
    started.dumpFile? name = before.dumpFile? name := by
  obtain ⟨-, rfl | ⟨absent, -, others⟩⟩ := of_start start
  · rfl
  · have other : name ≠ actor := by
      rintro rfl
      simp [present] at absent
    rw [dumpFile?, dumpFile?, others name other]

theorem Dumps.start (dumps : before.Dumps name file format records)
    (start : before.start actor label = .ok started) (present : before.threads.contains name = true)
    (apart : actor ≠ name → started.dumpFile? actor ≠ some file) :
    started.Dumps name file format records := by
  obtain ⟨-, rfl | ⟨absent, created, others⟩⟩ := of_start start
  · exact dumps
  · have other : name ≠ actor := by
      rintro rfl
      simp [present] at absent
    refine ⟨?_, Trace.node?_create_of_ne created (apart (Ne.symm other)) dumps.2⟩
    rw [others name other]
    exact dumps.1

theorem dumps_start (start : before.start name label = .ok started)
    (absent : before.threads.contains name = false) {settings : DumpSettings}
    (configured : before.settings.trace.dump = some settings)
    (opened : started.dumpFile? name = some file) : started.Dumps name file settings.format [] := by
  obtain ⟨-, rfl | ⟨-, created, -⟩⟩ := of_start start
  · simp [contains_start start] at absent
  · exact Trace.dumps_create configured created opened

/-- What an action records does not depend on setting up its thread. -/
theorem recorded_start (start : before.start actor label = .ok started) (name : String)
    (action : Action) :
    started.recorded name action = before.recorded name action := by
  obtain ⟨tables, engine, -⟩ := start_eq start
  cases action <;> simp [recorded, tables, engine]

/-- The dump of the thread keeps up with the records it appends, from when the thread is set up. -/
def Follows (collector : Collector) (name : String) (file : List String) (format : DumpFormat)
    (records : List Record) : Prop :=
  if collector.threads.contains name then collector.Dumps name file format records else records = []

end Collector

namespace Event.Valid

variable {event : Event} {name : String} {file : List String}

theorem settings (valid : event.Valid) : event.after.settings = event.before.settings := by
  obtain ⟨started, start, acted⟩ := valid
  have same := (started.trace_act event.step.thread event.step.action event.step.thread).2.2
  rw [acted] at same
  rw [same, (Collector.of_start start).1]

theorem contains_iff (valid : event.Valid) (name : String) :
    event.after.threads.contains name = true ↔
      event.before.threads.contains name = true ∨ name = event.step.thread := by
  obtain ⟨started, start, acted⟩ := valid
  have same :=
    Collector.contains_act event.step.thread event.step.action (Collector.contains_start start) name
  rw [acted] at same
  rw [same]
  rcases Collector.start_eq_ok_iff.mp start with ⟨present, rfl⟩
    | ⟨-, stack, trace, files, -, -, rfl⟩
  · constructor
    · exact .inl
    · rintro (there | rfl)
      · exact there
      · exact present
  · simp only [Std.TreeMap.contains_insert, Bool.or_eq_true, beq_iff_eq,
      Std.LawfulEqCmp.compare_eq_iff_eq]
    exact or_comm.trans (or_congr_right eq_comm)

theorem dumpFile?_eq (valid : event.Valid) (present : event.before.threads.contains name = true) :
    event.after.dumpFile? name = event.before.dumpFile? name := by
  obtain ⟨started, start, acted⟩ := valid
  have same := started.dumpFile?_act event.step.thread event.step.action name
  rw [acted] at same
  rw [same, Collector.dumpFile?_start start present]

/-- One event: the dump keeps up with what the thread appends, if no other thread has the file. -/
theorem follows (valid : event.Valid) {settings : DumpSettings} {records : List Record}
    (configured : event.before.settings.trace.dump = some settings)
    (follows : event.before.Follows name file settings.format records)
    (opened : event.after.threads.contains name = true → event.after.dumpFile? name = some file)
    (apart : ∀ other ≠ name, event.after.dumpFile? other ≠ some file) :
    event.after.Follows name file settings.format (records ++ event.appended name) := by
  rw [valid.appended_eq]
  have contains := valid.contains_iff name
  obtain ⟨started, start, acted⟩ := valid
  have same (other : String) : event.after.dumpFile? other = started.dumpFile? other := by
    have file := started.dumpFile?_act event.step.thread event.step.action other
    rwa [acted] at file
  -- Once the thread is set up and its dump has the records so far, the action adds the line of what
  -- it records.
  have acts {sofar : List Record} (dumps : started.Dumps name file settings.format sofar) :
      event.after.Dumps name file settings.format
        (sofar ++ if name = event.step.thread then
          (event.before.recorded name event.step.action).toList else []) := by
    have written :=
      dumps.act event.step.thread (fun other => same event.step.thread ▸ apart _ other)
        event.step.action
    rw [acted, Collector.recorded_start start] at written
    by_cases own : name = event.step.thread
    · subst own
      simpa using written
    · simpa [own, Ne.symm own] using written
  unfold Collector.Follows at follows ⊢
  cases present : event.before.threads.contains name with
  | true =>
    simp only [present, if_true] at follows
    rw [if_pos (contains.mpr (.inl present))]
    exact acts (follows.start start present fun other => same event.step.thread ▸ apart _ other)
  | false =>
    simp only [present, Bool.false_eq_true, if_false] at follows
    subst follows
    by_cases own : name = event.step.thread
    · -- The thread is set up by this event.
      have there := contains.mpr (.inr own)
      rw [if_pos there]
      refine acts (Collector.dumps_start (own ▸ start) present configured ?_)
      rw [← same]
      exact opened there
    · rw [if_neg (by simp [contains, present, own]), if_neg own]
      rfl

end Event.Valid

/-- Whether the event empties the trace of the thread. -/
def Event.empties (event : Event) (name : String) : Bool :=
  event.step.thread = name && event.step.action.clears

theorem Event.Valid.appended_of_empties {event : Event} (valid : event.Valid) {name : String}
    (empties : event.empties name = true) : event.appended name = [] := by
  have clears : event.step.action.clears = true := by simp_all [Event.empties]
  rw [valid.appended_eq, event.before.recorded_of_clears name clears]
  simp

/-- The records that a step with this answer hands out and takes away from the thread. -/
def Step.drained (step : Step) (answer : Answer) (name : String) : List Record :=
  if step.thread = name then
    match step.action, answer with
    | .drain, .records records => records
    | _, _ => []
  else []

def Event.drained (event : Event) (name : String) : List Record :=
  event.step.drained event.answer name

/-! ## Whole runs -/

namespace Trail

variable {before final : Collector} {events : List Event} {name : String} {file : List String}

theorem contains (trail : Trail before events final)
    (present : before.threads.contains name = true) :
    final.threads.contains name = true := by
  induction trail with
  | done => exact present
  | step valid rest ih => exact ih ((valid.contains_iff name).mpr (.inl present))

/-- A thread keeps its file. -/
theorem dumpFile?_eq (trail : Trail before events final)
    (present : before.threads.contains name = true) :
    final.dumpFile? name = before.dumpFile? name := by
  induction trail with
  | done => rfl
  | step valid rest ih =>
    rw [ih ((valid.contains_iff name).mpr (.inl present)), valid.dumpFile?_eq present]

theorem dumpFile?_ne (trail : Trail before events final)
    (apart : final.dumpFile? name ≠ some file) :
    before.dumpFile? name ≠ some file := by
  intro opened
  rw [trail.dumpFile?_eq (Collector.contains_of_dumpFile? opened)] at apart
  exact apart opened

theorem follows (trail : Trail before events final) {settings : DumpSettings}
    {records : List Record} (configured : before.settings.trace.dump = some settings)
    (follows : before.Follows name file settings.format records)
    (opened : final.threads.contains name = true → final.dumpFile? name = some file)
    (apart : ∀ other ≠ name, final.dumpFile? other ≠ some file) :
    final.Follows name file settings.format (records ++ events.flatMap (·.appended name)) := by
  -- Along the run; a file that no other thread has in the end was nobody else's before.
  induction trail generalizing records with
  | done => simpa using follows
  | @step event events final valid rest ih =>
    have after := valid.follows configured follows
      (fun present => (rest.dumpFile?_eq present).symm.trans (opened (rest.contains present)))
      (fun other distinct => rest.dumpFile?_ne (apart other distinct))
    have onward := ih (valid.settings ▸ configured) after opened apart
    simpa [List.append_assoc] using onward

/-- The trace is what was appended since it was last emptied. -/
theorem records_eq (trail : Trail before events final) (name : String) :
    final.records name =
      (if events.all (!·.empties name) then before.records name else []) ++
        (events.rtakeWhile (!·.empties name)).flatMap (·.appended name) := by
  -- From the end of the run backwards, where the last emptying is met first.
  induction events using List.reverseRecOn generalizing final with
  | nil =>
    cases trail
    simp
  | append_singleton events event ih =>
    obtain ⟨first, valid, rfl⟩ := trail.unsnoc
    rw [valid.records_eq]
    cases emptied : event.empties name with
    | true =>
      have clears : event.step.thread = name ∧ event.step.action.clears = true := by
        simpa [Event.empties] using emptied
      have nothing := valid.appended_of_empties emptied
      rw [List.rtakeWhile_concat_neg _ _ _ (by simp [emptied])]
      simp [clears, nothing, emptied]
    | false =>
      have keeps : ¬ (event.step.thread = name ∧ event.step.action.clears = true) := by
        simpa [Event.empties] using emptied
      rw [List.rtakeWhile_concat_pos _ _ _ (by simp [emptied])]
      simp [keeps, ih first, emptied]

/-- If the trace is only ever emptied by draining it, what was drained and what is left is all that
was appended. -/
theorem drained_append (trail : Trail before events final) {name : String}
    (gentle : ∀ event ∈ events, event.empties name = true → event.step.action = .drain) :
    events.flatMap (·.drained name) ++ final.records name =
      before.records name ++ events.flatMap (·.appended name) := by
  induction events using List.reverseRecOn generalizing final with
  | nil =>
    cases trail
    simp
  | append_singleton events event ih =>
    obtain ⟨first, valid, rfl⟩ := trail.unsnoc
    -- Draining moves what was in the trace to what was drained; any other event adds to the
    -- trace only.
    have so_far := ih first fun event member => gentle event (by simp [member])
    simp only [List.flatMap_append, List.flatMap_singleton, List.append_assoc]
    cases emptied : event.empties name with
    | true =>
      have drains := gentle event (by simp) emptied
      have own : event.step.thread = name := by simp_all [Event.empties]
      have handed : event.drained name = event.before.records name := by
        have answer := valid.answer
        simp only [drains] at answer
        simp [Event.drained, Step.drained, own, drains, answer]
      rw [handed, valid.records_eq, if_pos (by simpa [Event.empties] using emptied),
        valid.appended_of_empties emptied]
      simpa using so_far
    | false =>
      have handed : event.drained name = [] := by
        unfold Event.drained Step.drained
        split
        next own =>
          cases action : event.step.action with
          | drain => simp [Event.empties, own, action, Action.clears] at emptied
          | _ => rfl
        · rfl
      rw [handed, valid.records_eq, if_neg (by simpa [Event.empties] using emptied),
        List.nil_append, ← List.append_assoc, so_far, List.append_assoc]

end Trail

theorem Collector.settings_create {settings : Settings} {files : Files} {folder : List String}
    {collector : Collector} (created : Collector.create settings files folder = .ok collector) :
    collector.settings = settings := by
  unfold Collector.create at created
  cases tables : Tables.create settings.heap with
  | error error => simp [tables, bind, Except.bind] at created
  | ok made =>
    simp only [tables, bind, Except.bind, pure, Except.pure, Except.ok.injEq] at created
    rw [← created]

/-- Nothing is lost and nothing is there twice. If a thread has a dump that no other thread writes
to, then after every step its file holds one line for each record the thread has appended so far, in
order; its trace holds those it has appended since the trace was last drained, cleared or reset; and
if it was only ever drained, what was drained and what is left is all of them. -/
theorem Run.dump_and_trace_complete (run : Run) (name : String) {settings : DumpSettings}
    {file : List String} (configured : run.settings.trace.dump = some settings)
    (opened : run.final.dumpFile? name = some file)
    (alone : ∀ other ≠ name, run.final.dumpFile? other ≠ some file) {past future : List Event}
    {event : Event} (parts : run.events = past ++ event :: future)
    (present : event.after.threads.contains name = true) :
    event.after.files.node? file = some (.file
        (Text.utf8 (settings.format.content ((past ++ [event]).flatMap (·.appended name))))) ∧
      event.after.records name =
        ((past ++ [event]).rtakeWhile (!·.empties name)).flatMap (·.appended name) ∧
      ((∀ earlier ∈ past ++ [event], earlier.empties name = true → earlier.step.action = .drain) →
        (past ++ [event]).flatMap (·.drained name) ++ event.after.records name =
          (past ++ [event]).flatMap (·.appended name)) := by
  have trail := run.trail_upto parts
  have onward : Trail event.after future run.final := by
    have all := run.trail
    rw [parts] at all
    obtain ⟨_, -, rest⟩ := Trail.append_iff.mp all
    exact rest.uncons.2.2
  obtain ⟨-, -, records⟩ := Collector.create_eq run.created
  have none_yet : run.collector.records name = [] := by rw [records]
  have settled : run.collector.settings.trace.dump = some settings := by
    rw [Collector.settings_create run.created, configured]
  refine ⟨?_, ?_, fun gentle => ?_⟩
  · have start : run.collector.Follows name file settings.format [] := by
      simp [Collector.Follows, Collector.contains_create run.created]
    have follows :=
      trail.follows settled start (fun _ => (onward.dumpFile?_eq present).symm.trans opened)
      (fun other distinct => onward.dumpFile?_ne (alone other distinct))
    rw [Collector.Follows, if_pos present] at follows
    exact follows.2
  · rw [trail.records_eq, none_yet]
    simp
  · rw [trail.drained_append gentle, none_yet, List.nil_append]

/-- The threads that have a dump, and the files. -/
def Collector.dumpFiles (collector : Collector) : List (String × List String) :=
  collector.threads.keys.filterMap fun name => (collector.dumpFile? name).map (name, ·)

theorem Collector.mem_dumpFiles {collector : Collector} {name : String} {file : List String} :
    (name, file) ∈ collector.dumpFiles ↔ collector.dumpFile? name = some file := by
  simp only [dumpFiles, List.mem_filterMap, Option.map_eq_some_iff, Prod.mk.injEq]
  constructor
  · rintro ⟨_, -, _, opened, rfl, rfl⟩
    exact opened
  · intro opened
    have key := Std.TreeMap.contains_iff_mem.mp (contains_of_dumpFile? opened)
    exact ⟨name, Std.TreeMap.mem_keys.mpr key, file, opened, rfl, rfl⟩

/-- What events hand out shows in their steps and answers. -/
theorem Event.drained_zip (events : List Event) (name : String) :
    events.flatMap (·.drained name) =
      ((events.map (·.step)).zip (events.map (·.answer))).flatMap fun (step, answer) =>
        step.drained answer name := by
  rw [List.zip_map', List.flatMap_map]
  rfl

/-- Two threads make records, and the trace of the first is drained between its two. -/
def Step.dumping : List Step :=
  [⟨"main", "main", .hook .enter⟩, ⟨"main", "main", .hook (.markSymbolic (.localVar 0))⟩,
    ⟨"main", "main", .hook (.read ⟨1, 0, .int 7, none⟩ (.localVar 0))⟩,
    ⟨"main", "main", .hook (.read ⟨1, 1, .char 10, none⟩ (.localVar 1))⟩,
    ⟨"main", "main", .hook (.close 1)⟩, ⟨"side", "side", .hook .enter⟩,
    ⟨"side", "side", .hook (.markSymbolic (.localVar 0))⟩,
    ⟨"side", "side", .hook (.read ⟨5, 0, .int 0, none⟩ (.localVar 0))⟩,
    ⟨"side", "side", .hook (.close 5)⟩, ⟨"main", "main", .drain⟩,
    ⟨"main", "main", .hook (.read ⟨2, 0, .bool true, none⟩ (.localVar 0))⟩,
    ⟨"main", "main", .hook (.close 2)⟩]

theorem Run.dump_and_trace_complete_drained :
    ∃ (run : Run) (past : List Event) (event : Event),
      run.settings.trace.dump = some { directory := some "/srv/../out", format := .text } ∧
      run.steps = Step.dumping ∧
      run.events = past ++ [event] ∧
      run.final.dumpFile? "main" = some ["out", "sym_trace_main.txt"] ∧
      run.final.dumpFile? "side" = some ["out", "sym_trace_side.txt"] ∧
      event.after.records "main" = [⟨2, []⟩] ∧
      event.after.files.node? ["out", "sym_trace_main.txt"] =
        some (.file (Text.utf8 (DumpFormat.text.content [⟨1, [⟨1, .char 10⟩]⟩, ⟨2, []⟩]))) := by
  let both := [("main", ["out", "sym_trace_main.txt"]), ("side", ["out", "sym_trace_side.txt"])]
  let view (collector : Collector) :=
    (decide (collector.dumpFiles = both), collector.records "main")
  let first : Record := ⟨1, [⟨1, .char 10⟩]⟩
  obtain ⟨run, past, event, settings, steps, parts, seen, last⟩ :=
    Run.exists_watched_last view
      { trace := { dump := some { directory := some "/srv/../out", format := .text } } } {}
      Step.dumping
      [(.hook .done, false, []), (.hook .done, false, []), (.hook (.flag .symbolic), false, []),
        (.hook (.flag .concrete), false, []), (.hook .done, false, [first]),
        (.hook .done, true, [first]), (.hook .done, true, [first]),
        (.hook (.flag .symbolic), true, [first]), (.hook .done, true, [first]),
        (.records [first], true, []), (.hook (.flag .symbolic), true, [])]
      (.hook .done, true, [⟨2, []⟩]) (by decide +kernel)
  simp only [Prod.mk.injEq, decide_eq_true_eq, view] at last
  obtain ⟨answer, files, records⟩ := last
  have ended : run.final = event.after := (parts ▸ run.trail).unsnoc.2.2
  have opened : run.final.dumpFile? "main" = some ["out", "sym_trace_main.txt"] := by
    rw [ended, ← Collector.mem_dumpFiles, files]
    exact .head _
  have beside : run.final.dumpFile? "side" = some ["out", "sym_trace_side.txt"] := by
    rw [ended, ← Collector.mem_dumpFiles, files]
    exact .tail _ (.head _)
  have alone (other : String) (distinct : other ≠ "main") :
      run.final.dumpFile? other ≠ some ["out", "sym_trace_main.txt"] := by
    rw [ended, ne_eq, ← Collector.mem_dumpFiles, files]
    simp [both, distinct]
  have gentle (earlier : Event) (member : earlier ∈ past ++ [event])
      (empties : earlier.empties "main" = true) :
      earlier.step.action = .drain := by
    have step : earlier.step ∈ Step.dumping := by
      rw [← steps, Run.steps, parts]
      exact List.mem_map_of_mem member
    have all : ∀ step ∈ Step.dumping, step.action.clears = true → step.action = .drain := by decide
    exact all _ step (by simp_all [Event.empties])
  have drained : (past ++ [event]).flatMap (·.drained "main") = [first] := by
    have answers := congrArg (List.map Prod.fst) seen
    simp only [List.map_map, Function.comp_def] at answers
    rw [Event.drained_zip, ← parts, ← Run.steps, steps, parts, List.map_append, answers,
      List.map_singleton, answer]
    rfl
  obtain ⟨written, -, all⟩ :=
    run.dump_and_trace_complete "main" (by rw [settings]) opened alone parts
    (ended ▸ Collector.contains_of_dumpFile? opened)
  have appended := all gentle
  rw [drained, records] at appended
  refine ⟨run, past, event, by rw [settings], steps, parts, opened, beside, records, ?_⟩
  rw [written, ← appended]
  rfl

end ShadowTrace
