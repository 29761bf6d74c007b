import ShadowTrace.Probe
import ShadowTrace.Proofs.Dumps
import ShadowTrace.Proofs.Folders
import ShadowTrace.Proofs.Hooks

/-! # Setting up threads

Whether a thread can be set up is the same for all threads, and nothing that threads do changes it:
the files they make and write stand in nobody's way. So it does not show which threads have been set
up: a collector answers the same whether a thread is set up now or at its first call. -/

namespace ShadowTrace

/-! ## What stands in the way -/

/-- Why a dump cannot be created, if it cannot. -/
def Dump.fault? (settings : DumpSettings) (files : Files) (here : List String) :
    Option SetupError :=
  if (files.makeFolders here settings.folder).2 &&
      settings.extensionOrDefault.toList.contains '/' then
    some (.separatorInExtension settings.extensionOrDefault)
  else none

theorem Dump.create_cases (settings : DumpSettings) (files : Files) (here : List String)
    (thread : String) :
    (∃ error, fault? settings files here = some error ∧
        create settings files here thread = .error error) ∨
      fault? settings files here = none ∧ ∃ opened after,
        create settings files here thread = .ok (opened, after) ∧
        fault? settings after here = none := by
  have again := files.makeFolders_again here settings.folder
  unfold create fault?
  generalize files.makeFolders here settings.folder = folders at again ⊢
  obtain ⟨made, _ | _⟩ := folders
  · exact .inr ⟨rfl, none, made, rfl, by simp [again]⟩
  · cases separator : settings.extensionOrDefault.toList.contains '/' with
    | true => exact .inl ⟨_, rfl, rfl⟩
    | false =>
      refine .inr ⟨rfl, ?_⟩
      simp only [Bool.and_false, Bool.false_eq_true, if_false, and_true]
      cases made.makeFile here (settings.path thread) with
      | none => exact ⟨_, _, rfl⟩
      | some file => exact ⟨_, _, rfl⟩

/-- Why a trace cannot be created, if it cannot. -/
def Trace.fault? (settings : TraceSettings) (files : Files) (here : List String) :
    Option SetupError :=
  match reserve settings.capacity recordBytes with
  | .error error => some error
  | .ok _ => settings.dump.bind fun dump => Dump.fault? dump files here

theorem Trace.create_cases (settings : TraceSettings) (files : Files) (here : List String)
    (thread : String) :
    (∃ error, fault? settings files here = some error ∧
        create settings files here thread = .error error) ∨
      fault? settings files here = none ∧ ∃ trace after,
        create settings files here thread = .ok (trace, after) ∧
        fault? settings after here = none := by
  unfold create fault?
  cases reserve settings.capacity recordBytes with
  | error error => exact .inl ⟨error, rfl, rfl⟩
  | ok =>
    cases settings.dump with
    | none => exact .inr ⟨rfl, _, _, rfl, rfl⟩
    | some dump =>
      simp only [bind, Except.bind, Option.bind_some]
      rcases Dump.create_cases dump files here thread with
        ⟨error, fault, failed⟩ | ⟨fine, opened, after, created, still⟩
      · exact .inl ⟨error, fault, by rw [failed]⟩
      · exact .inr ⟨fine, { dump := opened }, after, by rw [created]; rfl, still⟩

namespace Collector

variable {collector other started : Collector} {name label : String}

/-- Why no new thread can be set up, if none can. -/
def fault? (collector : Collector) : Option SetupError :=
  match CallStack.create collector.settings.stack with
  | .error error => some error
  | .ok _ => Trace.fault? collector.settings.trace collector.files collector.folder

theorem start_cases (collector : Collector) (name label : String) :
    (collector.threads.contains name = false ∧ ∃ error, collector.fault? = some error ∧
        collector.start name label = .error error) ∨
      (collector.threads.contains name = false → collector.fault? = none) ∧ ∃ started,
        collector.start name label = .ok started ∧ started.settings = collector.settings ∧
        started.folder = collector.folder ∧ started.fault? = collector.fault? ∧
        ∀ other, started.threads.contains other =
          (compare name other == .eq || collector.threads.contains other) := by
  cases present : collector.threads.contains name with
  | true =>
    refine .inr ⟨nofun, collector, start_eq_ok_iff.mpr (.inl ⟨present, rfl⟩), rfl, rfl, rfl, ?_⟩
    intro other
    by_cases same : name = other
    · simp [← same, present]
    · simp [same]
  | false =>
    cases stacked : CallStack.create collector.settings.stack with
    | error error =>
      refine .inl ⟨rfl, error, by simp [fault?, stacked], ?_⟩
      simp [Collector.start, present, stacked, bind, Except.bind]
    | ok stack =>
      rcases Trace.create_cases collector.settings.trace collector.files collector.folder label with
        ⟨error, fault, failed⟩ | ⟨fine, trace, files, created, still⟩
      · refine .inl ⟨rfl, error, by simp [fault?, stacked, fault], ?_⟩
        simp [Collector.start, present, stacked, failed, bind, Except.bind]
      · have begun :=
          start_eq_ok_iff.mpr (.inr ⟨present, stack, trace, files, stacked, created, rfl⟩)
        have fine' : collector.fault? = none := by simp [fault?, stacked, fine]
        refine .inr ⟨fun _ => fine', _, begun, rfl, rfl, ?_, ?_⟩
        · rw [fine']
          simp [fault?, stacked, still]
        · exact fun _ => Std.TreeMap.contains_insert

theorem sameShape_act (collector : Collector) (name : String) (action : Action) :
    (collector.act name action).2.files.SameShape collector.files := by
  obtain ⟨-, files, -⟩ := collector.trace_act name action name
  rw [files]
  cases collector.recorded name action with
  | none => exact fun _ => rfl
  | some record =>
    simp only [Trace.append, Trace.push]
    cases (collector.thread name).trace.dump with
    | none => exact fun _ => rfl
    | some dump =>
      simp only [Dump.write]
      cases dump.print? record with
      | none => exact fun _ => rfl
      | some printed => exact Files.sameShape_write _ _ _ _

theorem settings_act (collector : Collector) (name : String) (action : Action) :
    (collector.act name action).2.settings = collector.settings ∧
      (collector.act name action).2.folder = collector.folder := by
  cases action with
  | hook hook => simp only [act_hook]; exact ⟨rfl, rfl⟩
  | _ => exact ⟨rfl, rfl⟩

theorem fault?_act (collector : Collector) (name : String) (action : Action) :
    (collector.act name action).2.fault? = collector.fault? := by
  obtain ⟨settings, folder⟩ := collector.settings_act name action
  have folders := (collector.sameShape_act name action).makeFolders collector.folder
  simp only [fault?, Trace.fault?, Dump.fault?, settings, folder, folders]

/-! ## Collectors that answer the same -/

/-- The collectors answer the same to whatever is asked of them: their tables are the same, and so
are the engines and the records of all threads. Some threads may have been set up in one only, but
then they can be set up in the other. -/
structure Akin (collector other : Collector) : Prop where
  settings : collector.settings = other.settings
  folder : collector.folder = other.folder
  tables : collector.tables = other.tables
  engine : collector.engine = other.engine
  records : collector.records = other.records
  fault : collector.fault? = other.fault?
  started : ∀ name, collector.threads.contains name = other.threads.contains name ∨
    collector.fault? = none

/-- Setting up a thread shows nowhere. -/
theorem akin_start (start : collector.start name label = .ok started) : collector.Akin started := by
  obtain ⟨tables, engine, records⟩ := start_eq start
  rcases collector.start_cases name label with ⟨-, error, -, failed⟩
    | ⟨fine, again, begun, settings, folder, fault, contains⟩
  · cases start.symm.trans failed
  · cases start.symm.trans begun
    refine ⟨settings.symm, folder.symm, tables.symm, engine.symm, records.symm, fault.symm, ?_⟩
    intro other
    rw [contains]
    by_cases same : name = other
    · subst same
      cases present : collector.threads.contains name with
      | true => simp
      | false => exact .inr (fine present)
    · simp [same]

namespace Akin

theorem start (akin : collector.Akin other) (name label : String) :
    (∃ error, collector.start name label = .error error ∧ other.start name label = .error error) ∨
      ∃ started started', collector.start name label = .ok started ∧
        other.start name label = .ok started' ∧ started.Akin started' := by
  rcases collector.start_cases name label with
      ⟨absent, error, fault, failed⟩ | ⟨fine, started, begun, settings, folder, fault, contains⟩ <;>
    rcases other.start_cases name label with
      ⟨absent', error', fault', failed'⟩
        | ⟨fine', started', begun', settings', folder', fault'', contains'⟩
  · -- The reason is the same for both.
    cases fault.symm.trans (akin.fault.trans fault')
    exact .inl ⟨error, failed, failed'⟩
  · exfalso
    rcases akin.started name with same | fine
    · simp [akin.fault, fine' (same ▸ absent)] at fault
    · simp [fine] at fault
  · exfalso
    rcases akin.started name with same | fine
    · simp [← akin.fault, fine (same ▸ absent')] at fault'
    · simp [← akin.fault, fine] at fault'
  · obtain ⟨tables, engine, records⟩ := start_eq begun
    obtain ⟨tables', engine', records'⟩ := start_eq begun'
    refine .inr ⟨started, started', begun, begun', ?_, ?_, ?_, ?_, ?_, ?_, ?_⟩
    · rw [settings, settings', akin.settings]
    · rw [folder, folder', akin.folder]
    · rw [tables, tables', akin.tables]
    · rw [engine, engine', akin.engine]
    · rw [records, records', akin.records]
    · rw [fault, fault'', akin.fault]
    · intro name'
      rw [contains, contains', fault]
      exact (akin.started name').imp (congrArg _) id

theorem act (akin : collector.Akin other) {name : String}
    (present : collector.threads.contains name = true)
    (present' : other.threads.contains name = true) (action : Action) :
    (collector.act name action).1 = (other.act name action).1 ∧
      (collector.act name action).2.Akin (other.act name action).2 := by
  obtain ⟨settings, folder⟩ := collector.settings_act name action
  obtain ⟨settings', folder'⟩ := other.settings_act name action
  have recorded : collector.recorded name action = other.recorded name action := by
    cases action <;> simp [recorded, akin.engine, akin.tables]
  refine ⟨?_, ?_, ?_, ?_, ?_, ?_, ?_, ?_⟩
  · simp only [answer_act, akin.engine, akin.tables, akin.records]
  · rw [settings, settings', akin.settings]
  · rw [folder, folder', akin.folder]
  · simp only [tables_act, akin.engine, akin.tables]
  · funext name'
    simp only [engine_act, akin.engine, akin.tables]
  · funext name'
    simp only [records_act, recorded, akin.records]
  · rw [fault?_act, fault?_act, akin.fault]
  · intro name'
    rw [contains_act _ _ present, contains_act _ _ present', fault?_act]
    exact akin.started name'

theorem perform (akin : collector.Akin other) {name : String}
    (present : collector.threads.contains name = true)
    (present' : other.threads.contains name = true) (hook : Hook) :
    (collector.perform name hook).1 = (other.perform name hook).1 ∧
      (collector.perform name hook).2.Akin (other.perform name hook).2 := by
  have result : (collector.hook name hook).1 = (other.hook name hook).1 := by
    have own (collector : Collector) : (collector.hook name hook).1 =
        ((collector.engine name).step collector.tables hook).result := rfl
    rw [own, own, akin.engine, akin.tables]
  have after := (akin.act present present' (.hook hook)).2
  rw [act_hook, act_hook] at after
  unfold Collector.perform
  generalize collector.hook name hook = here, other.hook name hook = there at result after ⊢
  obtain ⟨outcome, here⟩ := here
  obtain ⟨outcome', there⟩ := there
  obtain rfl : outcome = outcome' := result
  rcases outcome with _ | _ | _ <;> exact ⟨rfl, after⟩

theorem probe (akin : collector.Akin other) {name : String}
    (present : collector.threads.contains name = true)
    (present' : other.threads.contains name = true) (probe : Probe) :
    (collector.probe name probe).1 = (other.probe name probe).1 ∧
      (collector.probe name probe).2.Akin (other.probe name probe).2 := by
  cases probe with
  | init => exact ⟨rfl, akin⟩
  | enter | exit | read | write | markSymbolic | close => exact akin.perform present present' _
  | take =>
    obtain ⟨answer, after⟩ := akin.act present present' .drain
    refine ⟨?_, after⟩
    have records := congrFun akin.records name
    exact congrArg (fun records => Except.ok (ProbeReply.records records)) records
  | reset =>
    obtain ⟨reply, after⟩ := akin.perform present present' .reset
    exact ⟨reply, after.settings, after.folder, congrArg Tables.clear after.tables, after.engine,
      after.records, after.fault, after.started⟩

end Akin

end Collector

end ShadowTrace
