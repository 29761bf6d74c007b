import ShadowTrace.Proofs.Setup

/-! # Refused hooks

A hook is refused if the thread is not where the hook says it is: there is no call to access or to
leave, or the instruction to close is not the pending one. The refusal is the first thing a hook
finds out, before it opens a window or marks an object, so a refused hook leaves no trace of itself:
neither in the collector nor in anything asked of it later. The same goes for the calls of a
program, which may have made the collector and set up the thread before they are refused. -/

namespace ShadowTrace

theorem Engine.result_eq_error_iff (engine : Engine) (tables : Tables) (hook : Hook)
    (desync : Desync) :
    (engine.step tables hook).result = .error desync ↔ engine.refusal hook = some desync := by
  rcases engine.refused_or_done tables hook with ⟨wrong, refused, failed⟩ | ⟨fine, reply, done⟩
  · rw [refused, failed]
    simp
  · rw [fine, done]
    simp

/-! ## Collectors that cannot be told apart -/

namespace Collector

/-- The collectors hold the same, in their tables, in their files and on every thread. -/
structure Alike (collector other : Collector) : Prop where
  settings : collector.settings = other.settings
  tables : collector.tables = other.tables
  files : collector.files = other.files
  folder : collector.folder = other.folder
  thread : ∀ name, collector.thread name = other.thread name

/-- The same threads have been set up as well. -/
structure Same (collector other : Collector) : Prop extends collector.Alike other where
  started : ∀ name, collector.threads.contains name = other.threads.contains name

variable {collector other : Collector}

theorem Alike.setThread (alike : collector.Alike other) (name : String) (thread : Thread) :
    (collector.setThread name thread).Alike (other.setThread name thread) where
  settings := alike.settings
  tables := alike.tables
  files := alike.files
  folder := alike.folder
  thread := by
    intro name'
    simp only [thread_setThread, alike.thread]

theorem Alike.hook (alike : collector.Alike other) (name : String) (hook : Hook) :
    (collector.hook name hook).1 = (other.hook name hook).1 ∧
      (collector.hook name hook).2.Alike (other.hook name hook).2 := by
  unfold Collector.hook
  rw [alike.thread, alike.tables, alike.files]
  refine ⟨rfl, alike.settings, rfl, rfl, alike.folder, ?_⟩
  exact (alike.setThread name _).thread

theorem Alike.resetShared (alike : collector.Alike other) :
    collector.resetShared.Alike other.resetShared where
  settings := alike.settings
  tables := congrArg Tables.clear alike.tables
  files := alike.files
  folder := alike.folder
  thread := alike.thread

theorem Alike.act (alike : collector.Alike other) (name : String) (action : Action) :
    (collector.act name action).1 = (other.act name action).1 ∧
      (collector.act name action).2.Alike (other.act name action).2 := by
  cases action with
  | hook hook =>
    obtain ⟨result, after⟩ := alike.hook name hook
    -- The answer is read off the result, and the results are equal.
    simp only [Collector.act]
    generalize collector.hook name hook = here, other.hook name hook = there at result after ⊢
    obtain ⟨outcome, here⟩ := here
    obtain ⟨outcome', there⟩ := there
    obtain rfl : outcome = outcome' := result
    cases outcome <;> exact ⟨rfl, after⟩
  | table call =>
    simp only [Collector.act, alike.tables]
    exact ⟨trivial, alike.settings, rfl, alike.files, alike.folder, alike.thread⟩
  | resetShared => exact ⟨rfl, alike.resetShared⟩
  | records | instructionIds | texts =>
    simp only [Collector.act, alike.thread]
    exact ⟨trivial, alike⟩
  | drain | clearTrace =>
    simp only [Collector.act, alike.thread]
    exact ⟨trivial, alike.setThread name _⟩

theorem Alike.status (alike : collector.Alike other) (name : String) :
    collector.status name = other.status name := by
  simp only [Collector.status, alike.thread, alike.tables]

/-- Setting up a thread goes the same way. -/
theorem Same.start (same : collector.Same other) (name label : String) :
    (∃ error, collector.start name label = .error error ∧ other.start name label = .error error) ∨
      ∃ started started',
        collector.start name label = .ok started ∧ other.start name label = .ok started' ∧
        started.Same started' := by
  unfold Collector.start
  -- Whether the thread is new, and all that it is then made from, is the same for both.
  rw [← same.started, ← same.settings, ← same.files, ← same.folder]
  by_cases present : collector.threads.contains name
  · simp only [present, if_true]
    exact .inr ⟨collector, other, rfl, rfl, same⟩
  · simp only [present, Bool.false_eq_true, if_false]
    cases stacked : CallStack.create collector.settings.stack with
    | error error => exact .inl ⟨error, rfl, rfl⟩
    | ok stack =>
      cases traced : Trace.create collector.settings.trace collector.files collector.folder label
        with
      | error error => exact .inl ⟨error, rfl, rfl⟩
      | ok made =>
        obtain ⟨trace, files⟩ := made
        have added := same.setThread name { engine := { stack }, trace }
        refine .inr ⟨_, _, rfl, rfl, ⟨rfl, same.tables, rfl, rfl, added.thread⟩, ?_⟩
        intro name'
        simp only [Std.TreeMap.contains_insert, same.started]

/-- Whatever is asked of them, the same collectors answer the same, and write the same to
their files. -/
theorem Same.runAfter (same : collector.Same other) (answers : List (Answer × Status))
    (steps : List Step) :
    (collector.runAfter answers steps).map (fun (reports, final) => (reports, final.files)) =
      (other.runAfter answers steps).map (fun (reports, final) => (reports, final.files)) := by
  -- The answers given so far are the same on both sides, and are carried along.
  induction steps generalizing collector other answers with
  | nil => simp [Collector.runAfter, Except.map, same.files]
  | cons step steps ih =>
    simp only [Collector.runAfter]
    rcases same.start step.thread step.label with ⟨error, here, there⟩
      | ⟨started, started', here, there, again⟩
    · rw [here, there]
    · rw [here, there]
      obtain ⟨answer, after⟩ := again.act step.thread step.action
      have next : (started.act step.thread step.action).2.Same
          (started'.act step.thread step.action).2 := by
        refine ⟨after, ?_⟩
        intro name
        rw [contains_act _ _ (contains_start here), contains_act _ _ (contains_start there),
          again.started]
      simp only [answer, next.status]
      exact ih next _

theorem Same.akin (same : collector.Same other) : collector.Akin other where
  settings := same.settings
  folder := same.folder
  tables := same.tables
  engine := funext fun name => congrArg Thread.engine (same.thread name)
  records := funext fun name => congrArg (·.trace.records.toList) (same.thread name)
  fault := by simp only [fault?, same.settings, same.files, same.folder]
  started name := .inl (same.started name)

/-! ## Refused hooks -/

theorem hook_eq_error_iff (collector : Collector) (name : String) (hook : Hook) (desync : Desync) :
    (collector.hook name hook).1 = .error desync ↔
      (collector.engine name).refusal hook = some desync :=
  (collector.engine name).result_eq_error_iff collector.tables hook desync

/-- A hook that fails puts back the thread it was given. -/
theorem hook_refused {name : String} {hook : Hook} {desync : Desync}
    (failed : (collector.hook name hook).1 = .error desync) :
    (collector.hook name hook).2.Alike collector := by
  have step := (collector.engine name).step_failed collector.tables failed
  have kept : (collector.thread name).step collector.tables collector.files hook =
      (.error desync, collector.thread name, collector.tables, collector.files) := by
    -- Only a reset touches the trace without a record, and a reset does not fail.
    have other : hook ≠ .reset := by
      rintro rfl
      cases failed
    simp only [engine] at step
    simp [Thread.step, step, Trace.append, other]
  unfold Collector.hook
  rw [kept]
  exact ⟨rfl, rfl, rfl, rfl, collector.thread_setThread_self name⟩

theorem same_of_refused {name : String} {hook : Hook} {desync : Desync}
    (present : collector.threads.contains name)
    (failed : (collector.hook name hook).1 = .error desync) :
    (collector.hook name hook).2.Same collector := by
  refine ⟨hook_refused failed, ?_⟩
  intro name'
  have acted := contains_act name (.hook hook) present name'
  rwa [act_hook] at acted

end Collector

/-! ## Probes -/

/-- The hook that a probe runs, if any. -/
def Probe.hook? : Probe → Option Hook
  | .enter => some .enter
  | .exit => some .exit
  | .read operand location => some (.read operand location)
  | .write instruction location value => some (.write instruction location value)
  | .markSymbolic location => some (.markSymbolic location)
  | .close instruction => some (.close instruction)
  | .reset => some .reset
  | .init | .take => none

namespace Collector

/-- The replies to the probes of any threads, one after the other. A violation is one of the
replies: the program catches it and goes on. -/
def probes (collector : Collector) : List (String × Probe) → List (Except Violation ProbeReply)
  | [] => []
  | (name, probe) :: later =>
    (collector.probe name probe).1 :: (collector.probe name probe).2.probes later

variable {collector other : Collector}

theorem perform_eq (collector : Collector) (name : String) (hook : Hook) :
    (collector.perform name hook).2 = (collector.hook name hook).2 ∧
      ∀ violation, (collector.perform name hook).1 = .error violation ↔
        (collector.engine name).refusal hook = some violation.desync := by
  have refused := collector.hook_eq_error_iff name hook
  unfold perform
  generalize collector.hook name hook = hooked at refused ⊢
  -- A failure, or one of the two replies; these are no violations.
  obtain ⟨_ | _ | _, after⟩ := hooked
  · refine ⟨rfl, ?_⟩
    intro violation
    obtain ⟨desync⟩ := violation
    simpa using refused desync
  · refine ⟨rfl, ?_⟩
    intro violation
    simpa using refused violation.desync
  · refine ⟨rfl, ?_⟩
    intro violation
    simpa using refused violation.desync

theorem Alike.perform (alike : collector.Alike other) (name : String) (hook : Hook) :
    (collector.perform name hook).1 = (other.perform name hook).1 ∧
      (collector.perform name hook).2.Alike (other.perform name hook).2 := by
  obtain ⟨result, after⟩ := alike.hook name hook
  unfold Collector.perform
  generalize collector.hook name hook = here, other.hook name hook = there at result after ⊢
  obtain ⟨outcome, here⟩ := here
  obtain ⟨outcome', there⟩ := there
  obtain rfl : outcome = outcome' := result
  rcases outcome with _ | _ | _ <;> exact ⟨rfl, after⟩

theorem Alike.probe (alike : collector.Alike other) (name : String) (probe : Probe) :
    (collector.probe name probe).1 = (other.probe name probe).1 ∧
      (collector.probe name probe).2.Alike (other.probe name probe).2 := by
  cases probe with
  | init => exact ⟨rfl, alike⟩
  | enter | exit | read | write | markSymbolic | close => exact alike.perform name _
  | take =>
    simp only [Collector.probe, alike.thread]
    exact ⟨trivial, alike.setThread name _⟩
  | reset =>
    obtain ⟨reply, after⟩ := alike.perform name .reset
    exact ⟨reply, after.resetShared⟩

theorem Alike.probes (alike : collector.Alike other) (later : List (String × Probe)) :
    collector.probes later = other.probes later := by
  induction later generalizing collector other with
  | nil => rfl
  | cons asked later ih =>
    obtain ⟨reply, after⟩ := alike.probe asked.1 asked.2
    simp only [Collector.probes, reply, ih after]

theorem probe_eq_error_iff (collector : Collector) (name : String) (probe : Probe)
    (violation : Violation) :
    (collector.probe name probe).1 = .error violation ↔
      probe.hook?.bind (collector.engine name).refusal = some violation.desync := by
  cases probe with
  | init | take => simp [probe, Probe.hook?]
  | enter | exit | read | write | markSymbolic | close =>
    exact (collector.perform_eq name _).2 violation
  | reset => exact (collector.perform_eq name .reset).2 violation

/-- A probe that is refused has run a hook that is. -/
theorem hook_of_probe_refused {name : String} {probe : Probe} {violation : Violation}
    (failed : (collector.probe name probe).1 = .error violation) :
    ∃ hook desync, (collector.hook name hook).1 = .error desync ∧
      (collector.probe name probe).2 = (collector.hook name hook).2 := by
  have hooked (hook : Hook) (refused : (collector.perform name hook).1 = .error violation) :
      ∃ run desync, (collector.hook name run).1 = .error desync ∧
        (collector.perform name hook).2 = (collector.hook name run).2 := by
    obtain ⟨after, reply⟩ := collector.perform_eq name hook
    have refusal := (reply violation).mp refused
    exact ⟨hook, violation.desync, (collector.hook_eq_error_iff name hook _).mpr refusal, after⟩
  cases probe with
  | init | take => cases failed
  | enter | exit | read | write | markSymbolic | close => exact hooked _ failed
  | reset =>
    -- A reset is never refused.
    have refused := (collector.probe_eq_error_iff name .reset violation).mp failed
    cases refused

end Collector

/-! ## Programs -/

namespace Program

/-- The replies to the probes of any threads, each with the label of its thread, one after the
other. A fault is one of the replies: the program catches it and goes on. -/
def probes (program : Program) : List (String × String × Probe) → List (Except Fault ProbeReply)
  | [] => []
  | (thread, label, probe) :: later =>
    (program.probe thread label probe).1 :: (program.probe thread label probe).2.probes later

theorem collector_holding (program : Program) (collector : Collector) :
    (program.holding collector).collector = .ok collector := rfl

theorem holding_holding (program : Program) (collector other : Collector) :
    (program.holding collector).holding other = program.holding other := rfl

/-- It does not show whether the collector has been made before. -/
theorem probes_holding {program : Program} {collector : Collector}
    (made : program.collector = .ok collector) (later : List (String × String × Probe)) :
    (program.holding collector).probes later = program.probes later := by
  cases later with
  | nil => rfl
  | cons asked later =>
    obtain ⟨thread, label, probe⟩ := asked
    have same : (program.holding collector).probe thread label probe =
        program.probe thread label probe := by
      simp only [Program.probe, collector_holding, holding_holding, made]
    simp only [probes, same]

theorem probe_akin (program : Program) {collector other : Collector} (akin : collector.Akin other)
    (thread label : String) (probe : Probe) :
    ((program.holding collector).probe thread label probe).1 =
        ((program.holding other).probe thread label probe).1 ∧
      ∃ after after', ((program.holding collector).probe thread label probe).2 =
          program.holding after ∧
        ((program.holding other).probe thread label probe).2 = program.holding after' ∧
        after.Akin after' := by
  simp only [Program.probe, collector_holding, holding_holding]
  split
  · exact ⟨rfl, collector, other, rfl, rfl, akin⟩
  · rcases akin.start thread label with
      ⟨error, failed, failed'⟩ | ⟨started, started', begun, begun', again⟩
    · rw [failed, failed']
      exact ⟨rfl, collector, other, rfl, rfl, akin⟩
    · rw [begun, begun']
      obtain ⟨reply, after⟩ := again.probe (Collector.contains_start begun)
        (Collector.contains_start begun') probe
      simp only
      generalize started.probe thread probe = here, started'.probe thread probe = there
        at reply after ⊢
      obtain ⟨outcome, here⟩ := here
      obtain ⟨outcome', there⟩ := there
      obtain rfl : outcome = outcome' := reply
      cases outcome with
      | error violation => exact ⟨rfl, here, there, rfl, rfl, after⟩
      | ok reply => exact ⟨rfl, here, there, rfl, rfl, after⟩

theorem probes_akin (program : Program) {collector other : Collector} (akin : collector.Akin other)
    (later : List (String × String × Probe)) :
    (program.holding collector).probes later = (program.holding other).probes later := by
  induction later generalizing collector other with
  | nil => rfl
  | cons asked later ih =>
    obtain ⟨thread, label, probe⟩ := asked
    obtain ⟨reply, after, after', mine, yours, again⟩ := program.probe_akin akin thread label probe
    simp only [probes, reply, mine, yours, ih again]

/-- The collector of the program with the thread set up. -/
def started (program : Program) (thread label : String) : Except Fault Collector :=
  match program.collector with
  | .error fault => .error fault
  | .ok collector =>
    match collector.start thread label with
    | .error error => .error (.setup error)
    | .ok started => .ok started

variable {program : Program} {thread label : String} {probe : Probe} {violation : Violation}

/-- A violation is found by the thread that makes the call, once it has been set up. -/
theorem probe_eq_violation
    (failed : (program.probe thread label probe).1 = .error (.violation violation)) :
    ∃ collector started after, program.collector = .ok collector ∧
      collector.start thread label = .ok started ∧
      started.probe thread probe = (.error violation, after) ∧
      (program.probe thread label probe).2 = program.holding after := by
  unfold Program.probe at failed ⊢
  cases made : program.collector with
  | error fault =>
    -- What can go wrong before is no violation.
    rw [made] at failed
    cases failed
    unfold Program.collector at made
    split at made
    · cases made
    · split at made
      · cases made
      · split at made <;> cases made
  | ok collector =>
    simp only [made] at failed ⊢
    split at failed
    · cases failed
    next asked =>
      rw [if_neg asked]
      cases begun : collector.start thread label with
      | error error =>
        rw [begun] at failed
        cases failed
      | ok started =>
        simp only [begun] at failed ⊢
        split at failed
        next found after answered =>
          cases failed
          exact ⟨collector, started, after, rfl, begun, answered, rfl⟩
        · cases failed

theorem started_eq_ok_iff {started : Collector} :
    program.started thread label = .ok started ↔
      ∃ collector,
        program.collector = .ok collector ∧ collector.start thread label = .ok started := by
  unfold Program.started
  cases program.collector with
  | error fault => simp
  | ok collector => cases begun : collector.start thread label <;> simp [begun]

theorem probe_eq_violation_iff :
    (program.probe thread label probe).1 = .error (.violation violation) ↔
      ∃ started, program.started thread label = .ok started ∧
        probe.hook?.bind (started.engine thread).refusal = some violation.desync := by
  constructor
  · intro failed
    obtain ⟨collector, started, after, made, begun, answered, -⟩ := probe_eq_violation failed
    refine ⟨started, started_eq_ok_iff.mpr ⟨collector, made, begun⟩, ?_⟩
    rw [← Collector.probe_eq_error_iff, answered]
  · rintro ⟨started, ready, refused⟩
    obtain ⟨collector, made, begun⟩ := started_eq_ok_iff.mp ready
    rw [← Collector.probe_eq_error_iff] at refused
    have asked : probe ≠ .init := by
      rintro rfl
      cases refused
    simp only [Program.probe, made, if_neg asked, begun]
    generalize started.probe thread probe = answered at refused ⊢
    obtain ⟨outcome, after⟩ := answered
    cases refused
    rfl

/-- What a violation leaves behind is the thread that was set up for the call, if it was the first;
and that shows in no later reply. -/
theorem probe_refused
    (failed : (program.probe thread label probe).1 = .error (.violation violation)) :
    ∃ started after, program.started thread label = .ok started ∧
      (program.probe thread label probe).2 = program.holding after ∧ after.Same started ∧
      ∀ later, (program.probe thread label probe).2.probes later = program.probes later := by
  obtain ⟨collector, started, after, made, begun, answered, left⟩ := probe_eq_violation failed
  have same : after.Same started := by
    have refused : (started.probe thread probe).1 = .error violation := by rw [answered]
    obtain ⟨hook, desync, failed, left⟩ := Collector.hook_of_probe_refused refused
    obtain rfl : after = (started.hook thread hook).2 := by rw [← left, answered]
    exact Collector.same_of_refused (Collector.contains_start begun) failed
  refine ⟨started, after, started_eq_ok_iff.mpr ⟨collector, made, begun⟩, left, same,
    fun later => ?_⟩
  calc (program.probe thread label probe).2.probes later
      = (program.holding after).probes later := by rw [left]
    _ = (program.holding started).probes later := program.probes_akin same.akin later
    _ = (program.holding collector).probes later :=
        (program.probes_akin (Collector.akin_start begun) later).symm
    _ = program.probes later := probes_holding made later

end Program

namespace Collector

/-- The hooks that fail are the desynchronised ones, and they change nothing. In any collector a
hook fails exactly if it is refused at this point, with that as the reason. The collector then holds
what it held before, and goes on as if the hook had not been run: it answers and writes the same for
all that is asked of it later. With an active frame a store never fails, even once the window has
moved on and with whatever has been marked by then. For probes it is the same, when the violation is
caught; and in a program, where the call may have made the collector and set up the thread, all that
it leaves behind is that, and every later reply is as if it had not been made. -/
theorem refused_hooks_change_nothing (collector : Collector) (name : String) :
    (∀ hook desync, (collector.hook name hook).1 = .error desync ↔
      (collector.engine name).refusal hook = some desync) ∧
    (∀ hook desync, (collector.hook name hook).1 = .error desync →
      (collector.hook name hook).2.Alike collector ∧
      (collector.threads.contains name → (collector.hook name hook).2.Same collector ∧
        ∀ steps, ((collector.hook name hook).2.run steps).map
            (fun (reports, final) => (reports, final.files)) =
          (collector.run steps).map (fun (reports, final) => (reports, final.files)))) ∧
    ((collector.engine name).depth ≠ 0 → ∀ id location shadow tables,
      (∃ stored, ((collector.engine name).observe id location).1.store tables location shadow =
        .ok stored) ∧
      ∃ stored, (collector.engine name).store tables location shadow = .ok stored) ∧
    (∀ probe violation, (collector.probe name probe).1 = .error violation ↔
      probe.hook?.bind (collector.engine name).refusal = some violation.desync) ∧
    (∀ probe violation, (collector.probe name probe).1 = .error violation →
      (collector.probe name probe).2.Alike collector ∧
        ∀ later, (collector.probe name probe).2.probes later = collector.probes later) ∧
    (∀ (program : Program) label probe violation,
      (program.probe name label probe).1 = .error (.violation violation) ↔
        ∃ started, program.started name label = .ok started ∧
          probe.hook?.bind (started.engine name).refusal = some violation.desync) ∧
    ∀ (program : Program) label probe violation,
      (program.probe name label probe).1 = .error (.violation violation) →
      ∃ started after, program.started name label = .ok started ∧
        (program.probe name label probe).2 = program.holding after ∧ after.Same started ∧
        ∀ later, (program.probe name label probe).2.probes later = program.probes later := by
  refine ⟨collector.hook_eq_error_iff name, ?_, ?_, collector.probe_eq_error_iff name, ?_,
    fun _ _ _ _ => Program.probe_eq_violation_iff, fun _ _ _ _ => Program.probe_refused⟩
  · intro hook desync failed
    refine ⟨hook_refused failed, ?_⟩
    intro present
    have same := same_of_refused present failed
    exact ⟨same, same.runAfter []⟩
  · intro active id location shadow tables
    have still : ((collector.engine name).observe id location).1.depth ≠ 0 := by
      rwa [Engine.depth_observe]
    exact ⟨⟨_, Engine.store_active _ _ _ _ still⟩, _, Engine.store_active _ _ _ _ active⟩
  · intro probe violation failed
    obtain ⟨hook, desync, refused, left⟩ := hook_of_probe_refused failed
    have alike := left ▸ hook_refused refused
    exact ⟨alike, alike.probes⟩

/-- The first call of a program, a write to a field before anything has been entered, is refused. It
makes the collector and sets up the thread, and nothing that is asked later shows it. -/
theorem refused_hooks_change_nothing_first_call :
    ∃ refused, ({} : Program).probe "main" "main"
        (.write 4 (.object 7 (.field 2)) (.reference (some 9))) =
          (.error (.violation ⟨.noActiveFrame⟩), refused) ∧
      refused.collector?.isSome ∧ ∀ later, refused.probes later = ({} : Program).probes later := by
  have ready : ∃ started, ({} : Program).started "main" "main" = .ok started ∧
      (started.engine "main").refusal (.write 4 (.object 7 (.field 2)) (.reference (some 9))) =
        some .noActiveFrame := ⟨_, rfl, rfl⟩
  obtain ⟨started, -⟩ := id ready
  obtain ⟨-, -, -, -, -, fails, unchanged⟩ := refused_hooks_change_nothing started "main"
  have failed := (fails {} "main" (.write 4 (.object 7 (.field 2)) (.reference (some 9)))
    ⟨.noActiveFrame⟩).mpr ready
  obtain ⟨-, -, -, -, -, onward⟩ := unchanged _ _ _ _ failed
  exact ⟨_, Prod.ext failed rfl, rfl, onward⟩

end Collector

end ShadowTrace
