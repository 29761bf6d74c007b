import ShadowTrace.Proofs.History
import ShadowTrace.Proofs.Reserved

/-! # What a store reaches

A write and a mark store at one place. No other place holds anything else afterwards, in this frame
or one beneath it, on this thread or another one. But the flag of a reference is that of the object,
so a store that sets the flag of an object is seen wherever there is a reference to it: there, and
nowhere else, the flag becomes the one that was stored. -/

namespace ShadowTrace

/-- The engine as the call sees it that lies the given number of calls beneath the innermost one. -/
def Engine.beneath (engine : Engine) (level : Nat) : Engine :=
  { engine with stack := ⟨engine.stack.frames.drop level⟩ }

/-- A location as one of the active calls of a thread sees it, counted from the innermost. -/
structure Spot where
  thread : String
  level : Nat
  location : Location

/-- The two are one and the same place. What is in the tables is shared by all, what was returned by
all calls of a thread. -/
def Spot.Same (spot other : Spot) : Prop :=
  spot.location = other.location ∧
    match spot.location with
    | .static _ | .object .. => True
    | .returned => spot.thread = other.thread
    | .this | .argument _ | .localVar _ => spot.thread = other.thread ∧ spot.level = other.level

/-- The object that a write refers to. -/
def Written.object? : Written → Option ObjectId
  | primitive => none
  | reference id => id

namespace Collector

def load (collector : Collector) (spot : Spot) : Except Desync Shadow :=
  ((collector.engine spot.thread).beneath spot.level).load collector.tables spot.location

/-- What asking for the flag gives. -/
def resolved (collector : Collector) (spot : Spot) : Except Desync Reply :=
  (((collector.engine spot.thread).beneath spot.level).step collector.tables
    (.resolve spot.location)).result

/-- The collectors hold the same on every thread and in their files, and whatever is looked up or
counted in their tables is the same. -/
structure Agree (collector other : Collector) : Prop where
  files : collector.files = other.files
  thread : ∀ name, collector.thread name = other.thread name
  status : ∀ name, collector.status name = other.status name
  reply : ∀ call, (collector.tables.call call).1 = (other.tables.call call).1

end Collector

/-- What a store at one place, which sets the flag of an object if one is given, may do to another
place. That holds what it has held, and its flag changes only if it refers to the object; then it is
the flag of the place stored at. -/
structure Event.Spreads (event : Event) (here : Spot) (object? : Option ObjectId) (spot : Spot) :
    Prop where
  kept : event.after.load spot = event.before.load spot
  aliased : ∀ id ∈ object?, event.before.load spot = .ok (.reference id) →
    event.after.resolved spot = event.after.resolved here
  apart : (∀ id ∈ object?, event.before.load spot ≠ .ok (.reference id)) →
    event.after.resolved spot = event.before.resolved spot

/-! ## Loading after a store -/

namespace Engine

variable (engine : Engine) {tables : Tables} {name thread : String} {level : Nat}
  {location other : Location}

theorem result_resolve (tables : Tables) (location : Location) :
    (engine.step tables (.resolve location)).result =
      (engine.load tables location).map fun shadow => .flag (tables.heap.resolve shadow) := by
  simp only [step, resolve]
  cases engine.load tables location <;> rfl

/-- Only the innermost frame is changed. -/
theorem beneath_mapTop (change : Frame → Frame) (deep : level ≠ 0) :
    beneath { engine with stack := engine.stack.mapTop change } level = engine.beneath level := by
  obtain ⟨level, rfl⟩ := Nat.exists_eq_succ_of_ne_zero deep
  rcases frames : engine.stack.frames with _ | ⟨frame, rest⟩ <;>
    simp [beneath, CallStack.mapTop, frames]

/-- What a thread stores by itself it finds at no other place. -/
theorem load_place_other (apart : ¬ Spot.Same ⟨name, 0, location⟩ ⟨name, level, other⟩)
    (shadow : Shadow) :
    ((engine.place location shadow).beneath level).load tables other =
      (engine.beneath level).load tables other := by
  cases location with
  | static | object => rfl
  | returned =>
    cases other with
    | returned => simp [Spot.Same] at apart
    | this | argument | localVar | static | object => rfl
  | this | argument | localVar =>
    -- The store goes to the innermost frame, so it can be missed in two ways: by the frame, or
    -- by the slot.
    by_cases deep : level = 0
    · subst deep
      rcases frames : engine.stack.frames with _ | ⟨frame, rest⟩
      · simp [place, beneath, CallStack.mapTop, load, CallStack.top, frames]
      · cases other <;>
          simp_all [Spot.Same, place, beneath, CallStack.mapTop, load, CallStack.top,
            Frame.receiver, Frame.argument, Frame.localVar, Frame.setReceiver, Frame.setArgument,
            Frame.setLocal, Slots.get_set, eq_comm]
    · rw [place, beneath_mapTop _ _ deep]

/-- What is stored in the tables is found at no other place. -/
theorem load_tables_place (valid : tables.Valid)
    (apart : ¬ Spot.Same ⟨name, 0, location⟩ ⟨thread, level, other⟩) (shadow : Shadow) :
    engine.load (tables.place location shadow) other = engine.load tables other := by
  cases location with
  | this | argument | localVar | returned => rfl
  | static field =>
    cases other with
    | static another =>
      have different : another ≠ field := by simpa [Spot.Same, eq_comm] using apart
      simp [load, Tables.place, Statics.get_put, different]
    | this | argument | localVar | object | returned => rfl
  | object id key =>
    cases other with
    | object another under =>
      -- The same key of another object, or another key.
      have different : ¬ (another = id ∧ under = key) := by
        rintro ⟨rfl, rfl⟩
        simp [Spot.Same] at apart
      simp only [load, Tables.place, valid.heap.shadow_put, different, if_false]
    | this | argument | localVar | static | returned => rfl

/-- Flags are not among what is loaded. -/
theorem load_setFlag (tables : Tables) (id : ObjectId) (flag : Flag) (other : Location) :
    engine.load { tables with heap := tables.heap.setFlag id flag } other =
      engine.load tables other := by
  cases other <;> simp [load]

theorem load_written (tables : Tables) (flag : Flag) (value : Written) (other : Location) :
    engine.load (value.mark tables flag) other = engine.load tables other := by
  rcases value with _ | _ | id
  · rfl
  · rfl
  · exact engine.load_setFlag tables id flag.stored other

/-- Opening a window drops what was returned, and nothing else that can be loaded. -/
theorem load_observe (tables : Tables) (id : InstructionId) (location : Location)
    (kept : other = .returned → engine.window.pending? = some id) :
    ((engine.observe id location).1.beneath level).load tables other =
      (engine.beneath level).load tables other := by
  unfold observe
  split
  · rfl
  next opens =>
    cases other with
    | returned => exact absurd (kept rfl) opens
    | this | argument | localVar | static | object => rfl

theorem look_place (valid : tables.Valid) (active : engine.depth ≠ 0) (location : Location)
    (shadow : Shadow) :
    (engine.place location shadow).look (tables.place location shadow) location = shadow := by
  rw [← plain_look, plain_place _ active, valid.plain_place]
  exact Plain.Cells.look_place _ _ location shadow

end Engine

/-! ## Marking again -/

theorem Flag.stored_symbolic : symbolic.stored = symbolic := rfl

/-- Storing what is there already changes nothing. -/
theorem Slots.set_eq_self {slots : Slots} {index : UInt32} {shadow : Shadow}
    (found : slots.get index = shadow) :
    slots.set index shadow = slots := by
  unfold Slots.set
  split
  next inside =>
    simp only [Slots.get, Array.getD_eq_getD_getElem?] at found
    simp only [Slots.size] at inside
    congr 1
    apply Array.ext_getElem?
    intro other
    rw [Array.getElem?_setIfInBounds]
    split
    next same =>
      subst same
      simp_all
    next => rfl
  next outside =>
    rw [slots.get_of_size_le (by omega)] at found
    subst found
    rfl

namespace Engine

theorem place_eq_self {engine : Engine} {tables : Tables} {location : Location}
    (found : engine.look tables location = .symbolic) (active : engine.depth ≠ 0) :
    engine.place location .symbolic = engine := by
  obtain ⟨⟨frames⟩, window, seed, returned⟩ := engine
  cases frames with
  | nil => exact absurd rfl active
  | cons frame rest =>
    obtain ⟨receiver?, arguments, locals⟩ := frame
    cases location with
    | static | object => rfl
    | this =>
      have there : receiver? = some .symbolic := by
        cases receiver? <;> simp_all [look, top, Frame.receiver]
      simp [place, CallStack.mapTop, Frame.setReceiver, there]
    | argument index =>
      have there : arguments.get index = .symbolic := found
      simp [place, CallStack.mapTop, Frame.setArgument, Slots.set_eq_self there]
    | localVar index =>
      have there : locals.get index = .symbolic := found
      simp [place, CallStack.mapTop, Frame.setLocal, Slots.set_eq_self there]
    | returned =>
      have there : returned = some .symbolic := by
        cases returned <;> simp_all [look]
      simp [place, there]

end Engine

namespace Heap

variable {heap : Heap} {id : ObjectId}

theorem contains_of_shadow {key : Key} (found : heap.shadow id key ≠ .concrete) :
    heap.contains id = true := by
  rw [contains_eq]
  cases entry : heap.object? id with
  | none => simp [shadow, entry] at found
  | some => rfl

theorem contains_of_flag (found : heap.flag id ≠ .concrete) : heap.contains id = true := by
  rw [contains_eq]
  cases entry : heap.object? id with
  | none => simp [flag, entry] at found
  | some => rfl

/-- Changing an entry that is there adds none. -/
theorem contains_update_present (present : heap.contains id = true) (needed : Bool)
    (change : Object → Object) (other : ObjectId) :
    (heap.update id needed change).contains other = heap.contains other := by
  rw [contains_update]
  by_cases same : other = id
  · simp [same, present]
  · simp [same]

end Heap

namespace Tables

variable {tables : Tables}

/-- What is found, and which objects have an entry, determines all that can be asked of
the tables. -/
theorem Valid.reply_eq {other : Tables} (valid : tables.Valid) (valid' : other.Valid)
    (plain : tables.plain = other.plain)
    (contains : ∀ id, tables.heap.contains id = other.heap.contains id) :
    tables.heap.size = other.heap.size ∧ tables.statics.size = other.statics.size ∧
      ∀ call, (tables.call call).1 = (other.call call).1 := by
  have shadow : tables.heap.shadow = other.heap.shadow := congrArg (·.shared.object) plain
  have static : tables.statics.get = other.statics.get := congrArg (·.shared.static) plain
  have flag : tables.heap.flag = other.heap.flag := congrArg (·.flag) plain
  -- The size counts the entries; how they came about does not matter.
  have size : tables.heap.size = other.heap.size := by
    simp only [Heap.contains] at contains
    rw [Heap.size, Heap.size, (size_eq_ncard tables.heap.objects).2,
      (size_eq_ncard other.heap.objects).2]
    simp only [contains]
  have statics := valid.statics.equiv valid'.statics static
  have resolve (content : Shadow) : tables.heap.resolve content = other.heap.resolve content := by
    cases content with
    | concrete | symbolic => rfl
    | reference id => exact congrFun flag id
  refine ⟨size, statics.size_eq, ?_⟩
  intro call
  cases call with
  | shadow | get | flag | resolve | contains | static =>
    simp [Tables.call, Heap.get, shadow, flag, resolve, contains, static]
  | isEmpty =>
    simp only [Heap.size] at size
    simp [Tables.call, Heap.isEmpty, Std.TreeMap.isEmpty_eq_size_eq_zero, size]
  | staticsEmpty => exact congrArg TableReply.truth statics.isEmpty_eq
  | put | setFlag | clear | putStatic | clearStatics => rfl

@[simp] theorem flag_place (tables : Tables) (location : Location) (shadow : Shadow)
    (id : ObjectId) :
    (tables.place location shadow).heap.flag id = tables.heap.flag id := by
  cases location with
  | object other key => exact tables.heap.flag_put other key shadow id
  | this | argument | localVar | static | returned => rfl

theorem flag_mark (tables : Tables) (location : Location) (shadow : Shadow) (id : ObjectId) :
    (tables.mark location shadow).heap.flag id =
      if shadow.reference? = some id then .symbolic else tables.heap.flag id := by
  cases shadow with
  | reference other =>
    simp [Tables.mark, Shadow.reference?, tables.heap.flag_setFlag other Flag.stored_symbolic,
      eq_comm]
  | concrete | symbolic => simp [Tables.mark, Shadow.reference?]

/-- Marking what is symbolic already changes nothing in the tables. -/
theorem Valid.mark_self (valid : tables.Valid) {engine : Engine} {location : Location}
    (symbolic : tables.heap.resolve (engine.look tables location) = .symbolic) :
    (tables.mark location (engine.look tables location)).plain = tables.plain ∧
      ∀ id,
        (tables.mark location (engine.look tables location)).heap.contains id =
        tables.heap.contains id := by
  cases found : engine.look tables location with
  | concrete =>
    rw [found] at symbolic
    cases symbolic
  | reference id =>
    -- The object has an entry already, or its flag would be concrete.
    have marked : tables.heap.flag id = .symbolic := by rwa [found] at symbolic
    constructor
    · rw [Tables.mark, plain_setFlag _ _ Flag.stored_symbolic, Plain.Tables.setFlag, ← marked]
      simp [plain]
    · intro other
      have present : tables.heap.contains id = true :=
        Heap.contains_of_flag (by rw [marked]; decide)
      exact Heap.contains_update_present present _ _ other
  | symbolic =>
    simp only [Tables.mark, valid.plain_place]
    cases location with
    | this | argument | localVar | returned => exact ⟨rfl, fun _ => rfl⟩
    | static field =>
      refine ⟨?_, fun _ => rfl⟩
      have there : tables.statics.get field = .symbolic := found
      simp [Plain.Tables.place, Plain.Shared.place, Plain.Shared.putStatic, plain, ← there]
    | object id key =>
      have there : tables.heap.shadow id key = .symbolic := found
      constructor
      · simp [Plain.Tables.place, Plain.Shared.place, Plain.Shared.put, plain, ← there]
      · intro other
        have present : tables.heap.contains id = true :=
          Heap.contains_of_shadow (by rw [there]; decide)
        exact Heap.contains_update_present present _ _ other

end Tables

/-! ## One event -/

theorem Collector.contains_of_active {collector : Collector} {name : String}
    (active : (collector.engine name).depth ≠ 0) :
    collector.threads.contains name = true := by
  by_contra absent
  have fresh : collector.thread name = {} :=
    Std.TreeMap.getD_eq_fallback_of_contains_eq_false (Bool.eq_false_iff.mpr absent)
  simp [Collector.engine, fresh, Engine.depth, CallStack.depth] at active

theorem Collector.resolved_eq (collector : Collector) (spot : Spot) :
    collector.resolved spot =
      (collector.load spot).map fun shadow => .flag (collector.tables.heap.resolve shadow) :=
  Engine.result_resolve _ _ _

/-- All that other places have to do with a store: what flags it sets. -/
theorem Event.spreads_of_flags {event : Event} {here spot : Spot} {object? : Option ObjectId}
    {flag : Flag} (kept : event.after.load spot = event.before.load spot)
    (stored : event.after.resolved here = .ok (.flag flag))
    (flags : ∀ id, event.after.tables.heap.flag id = if object? = some id then flag
      else event.before.tables.heap.flag id) :
    event.Spreads here object? spot := by
  refine ⟨kept, ?_, ?_⟩
  · intro id member refers
    rw [stored, Collector.resolved_eq, kept, refers]
    simp [Except.map, Heap.resolve, flags, Option.mem_def.mp member]
  · intro other
    rw [Collector.resolved_eq, Collector.resolved_eq, kept]
    cases loaded : event.before.load spot with
    | error => rfl
    | ok shadow =>
      -- Only a reference depends on the tables for its flag.
      cases shadow with
      | concrete | symbolic => rfl
      | reference id =>
        have unset : object? ≠ some id := fun member => other id member loaded
        simp [Except.map, Heap.resolve, flags, unset]

namespace Event.Valid

variable {event : Event} {name : String} {location : Location} {id : InstructionId}
  {value : Written}

/-- A hook of one thread leaves the engines of the others alone. -/
theorem engine_other (valid : event.Valid) {hook : Hook} (done : event.done? name = some hook)
    {thread : String} (other : thread ≠ name) :
    event.after.engine thread = event.before.engine thread := by
  obtain ⟨rfl, asked, -⟩ := Event.done?_eq_some_iff.mp done
  simpa only [asked, other, if_false] using valid.engine thread

theorem load_write (valid : event.Valid) (tables : event.before.tables.Valid)
    (done : event.done? name = some (.write id location value)) {spot : Spot}
    (apart : ¬ Spot.Same ⟨name, 0, location⟩ spot)
    (kept : spot.thread = name → spot.location = .returned →
      (event.before.engine name).window.pending? = some id) :
    event.after.load spot = event.before.load spot := by
  have active := valid.active_of_done done trivial
  have stored := valid.tables_of_done done
  obtain ⟨thread, level, other⟩ := spot
  rw [Engine.write_active _ _ _ _ _ active] at stored
  rw [Collector.load, Collector.load, stored,
    Engine.load_tables_place _ (tables.written _ value) apart, Engine.load_written]
  -- The tables aside, only the thread's own engine changes: by opening a window, and by what it
  -- stores itself.
  by_cases same : thread = name
  · subst same
    obtain ⟨-, -, -, engine⟩ := valid.of_done done
    rw [engine, Engine.write_active _ _ _ _ _ active, Engine.load_place_other _ apart,
      Engine.load_observe _ _ _ _ (kept rfl)]
  · rw [valid.engine_other done same]

theorem load_mark (valid : event.Valid) (tables : event.before.tables.Valid)
    (done : event.done? name = some (.markSymbolic location)) {spot : Spot}
    (apart : ¬ Spot.Same ⟨name, 0, location⟩ spot) :
    event.after.load spot = event.before.load spot := by
  have active := valid.active_of_done done trivial
  have stored := valid.tables_of_done done
  obtain ⟨-, -, -, engine⟩ := valid.of_done done
  obtain ⟨thread, level, other⟩ := spot
  rw [Engine.markSymbolic_active _ _ _ active] at stored engine
  rw [Collector.load, Collector.load, stored]
  cases found : (event.before.engine name).look event.before.tables location with
  | reference id =>
    -- Nothing is stored but a flag.
    simp only [Tables.mark, Engine.load_setFlag]
    by_cases same : thread = name
    · subst same
      rw [engine, found, Engine.mark]
    · rw [valid.engine_other done same]
  | concrete | symbolic =>
    simp only [Tables.mark]
    rw [Engine.load_tables_place _ tables apart]
    by_cases same : thread = name
    · subst same
      simp only [engine, found, Engine.mark]
      rw [Engine.load_place_other _ apart]
    · rw [valid.engine_other done same]

/-- What a write stores is found there without the reserved bits. -/
theorem resolved_write (valid : event.Valid) (tables : event.before.tables.Valid)
    (done : event.done? name = some (.write id location value)) :
    event.after.resolved ⟨name, 0, location⟩ =
      .ok (.flag (event.after.status name).accumulator.stored) := by
  obtain ⟨-, -, -, engine⟩ := valid.of_done done
  have written :=
    (event.before.engine name).resolve_written tables (valid.active_of_done done trivial) id
      location value
  simp only [← valid.tables_of_done done, ← engine] at written
  have load : event.after.load ⟨name, 0, location⟩ =
    (event.after.engine name).load event.after.tables location := rfl
  rw [Collector.resolved_eq, load, Collector.status_eq]
  cases loaded : (event.after.engine name).load event.after.tables location with
  | error =>
    rw [loaded] at written
    cases written
  | ok shadow =>
    rw [loaded] at written
    exact congrArg (fun flag => Except.ok (Reply.flag flag)) (Except.ok.inj written)

/-- What is there after marking is symbolic, by itself or through a reference. -/
theorem resolved_mark (valid : event.Valid) (tables : event.before.tables.Valid)
    (done : event.done? name = some (.markSymbolic location)) :
    event.after.resolved ⟨name, 0, location⟩ = .ok (.flag .symbolic) := by
  have active := valid.active_of_done done trivial
  have stored := valid.tables_of_done done
  obtain ⟨-, -, -, engine⟩ := valid.of_done done
  rw [Engine.markSymbolic_active _ _ _ active] at stored engine
  have still : (event.after.engine name).depth ≠ 0 := by rwa [valid.depth_of_done done rfl]
  have loaded : event.after.load ⟨name, 0, location⟩ =
      .ok ((event.after.engine name).look event.after.tables location) :=
    Engine.load_active _ _ _ still
  rw [Collector.resolved_eq, loaded, Except.map, engine, stored]
  cases found : (event.before.engine name).look event.before.tables location with
  | reference id =>
    have again : (event.before.engine name).look
        { event.before.tables with heap := event.before.tables.heap.setFlag id .symbolic }
          location = .reference id := by
      rw [← found]
      cases location <;> simp [Engine.look]
    simp [Engine.mark, Tables.mark, again, Heap.resolve,
      event.before.tables.heap.flag_setFlag id Flag.stored_symbolic]
  | concrete | symbolic =>
    simp only [Engine.mark, Tables.mark, Engine.look_place _ tables active]
    rfl

theorem flag_write (valid : event.Valid) (done : event.done? name = some (.write id location value))
    (object : ObjectId) :
    event.after.tables.heap.flag object =
      if value.object? = some object then (event.after.status name).accumulator.stored
      else event.before.tables.heap.flag object := by
  rw [valid.accumulator_write done, valid.tables_of_done done,
    Engine.write_active _ _ _ _ _ (valid.active_of_done done trivial), Tables.flag_place]
  rcases value with _ | _ | other
  · rfl
  · rfl
  · simp [Written.mark, Written.object?,
      event.before.tables.heap.flag_setFlag other (Flag.stored_stored _), eq_comm]

theorem flag_mark (valid : event.Valid) (done : event.done? name = some (.markSymbolic location))
    (object : ObjectId) :
    event.after.tables.heap.flag object =
      if (event.before.load ⟨name, 0, location⟩).toOption.bind Shadow.reference? = some object then
        .symbolic
      else event.before.tables.heap.flag object := by
  have active := valid.active_of_done done trivial
  have loaded : event.before.load ⟨name, 0, location⟩ = .ok _ := Engine.load_active _ _ _ active
  rw [valid.tables_of_done done, Engine.markSymbolic_active _ _ _ active, Tables.flag_mark, loaded]
  rfl

/-- Marking what is symbolic already changes nothing. -/
theorem mark_again (valid : event.Valid) (tables : event.before.tables.Valid)
    (done : event.done? name = some (.markSymbolic location))
    (symbolic : event.before.resolved ⟨name, 0, location⟩ = .ok (.flag .symbolic)) :
    event.after.Agree event.before := by
  have active := valid.active_of_done done trivial
  have step := (event.before.engine name).markSymbolic_active event.before.tables location active
  have stored : event.after.tables =
      event.before.tables.mark location
        ((event.before.engine name).look event.before.tables location) := by
    rw [valid.tables_of_done done, step]
  have resolves :
    event.before.tables.heap.resolve
    ((event.before.engine name).look event.before.tables location) =
      .symbolic := by
    have loaded : event.before.load ⟨name, 0, location⟩ = .ok _ := Engine.load_active _ _ _ active
    rw [Collector.resolved_eq, loaded] at symbolic
    exact Reply.flag.inj (Except.ok.inj symbolic)
  have unmarked : (event.before.engine name).mark location
    ((event.before.engine name).look event.before.tables location) =
      event.before.engine name := by
    cases found : (event.before.engine name).look event.before.tables location with
    | reference => rfl
    | symbolic => exact Engine.place_eq_self found active
    | concrete =>
      rw [found] at resolves
      cases resolves
  obtain ⟨plain, contains⟩ := tables.mark_self resolves
  rw [← stored] at plain contains
  obtain ⟨objects, statics, reply⟩ := (valid.tables_valid tables).reply_eq tables plain contains
  -- The thread is there and makes no record, so it is put back as it was.
  obtain ⟨started, start, acted⟩ := valid
  obtain ⟨rfl, asked, -⟩ := Event.done?_eq_some_iff.mp done
  obtain rfl : started = event.before := by
    rcases Collector.start_eq_ok_iff.mp start with ⟨-, same⟩ | ⟨absent, -⟩
    · exact same
    · cases (Collector.contains_of_active active).symm.trans absent
  have stepped : (event.before.thread event.step.thread).step event.before.tables event.before.files
      (.markSymbolic location) =
        (.ok .done, event.before.thread event.step.thread, event.after.tables,
          event.before.files) := by
    rw [unmarked, ← stored] at step
    simp only [Collector.engine] at step
    simp [Thread.step, step, Trace.append]
  have after : event.after =
      { event.before.setThread event.step.thread (event.before.thread event.step.thread) with
        tables := event.after.tables } := by
    have hooked := congrArg Prod.snd acted
    rw [asked, Collector.act_hook, Collector.hook, stepped] at hooked
    exact hooked.symm
  have thread (other : String) : event.after.thread other = event.before.thread other := by
    rw [after]
    exact event.before.thread_setThread_self event.step.thread other
  refine ⟨by rw [after]; rfl, thread, ?_, reply⟩
  intro other
  simp only [Collector.status, thread, objects, statics]

end Event.Valid

/-- The exact effect of a write and of a mark, at any point of any run and whatever the settings
are. A write leaves at its location what the reads of its window add up to, less the reserved bits,
which is nothing if it opens the window; a mark leaves it symbolic, and marking again changes
nothing. No other place holds anything else afterwards, except for what was returned, which a write
discards that opens a window. The flag of another place changes only if it refers to the object that
is written or, for a mark, that the location refers to; then it is the flag of the location. -/
theorem Run.stores_reach_aliases (run : Run) (name : String) (past future : List Event)
    (event : Event) (parts : run.events = past ++ event :: future) (own : event.step.thread = name)
    (active : (event.before.engine name).depth ≠ 0) (location : Location) :
    (∀ id value, event.step.action = .hook (.write id location value) →
      event.answer = .hook .done ∧
      (event.after.status name).accumulator =
        (Span.touch (Event.window past name) id).1.accumulator ∧
      (event.opens past name = true → (event.after.status name).accumulator = .concrete) ∧
      event.after.resolved ⟨name, 0, location⟩ =
        .ok (.flag (event.after.status name).accumulator.stored) ∧
      ∀ spot, ¬ Spot.Same ⟨name, 0, location⟩ spot →
        (spot.thread = name → spot.location = .returned → event.opens past name = false) →
        event.Spreads ⟨name, 0, location⟩ value.object? spot) ∧
    (event.step.action = .hook (.markSymbolic location) →
      event.answer = .hook .done ∧
      event.after.resolved ⟨name, 0, location⟩ = .ok (.flag .symbolic) ∧
      (∀ spot, ¬ Spot.Same ⟨name, 0, location⟩ spot →
        event.Spreads ⟨name, 0, location⟩
          ((event.before.load ⟨name, 0, location⟩).toOption.bind Shadow.reference?) spot) ∧
      ∀ again rest, future = again :: rest → again.step.thread = name →
        again.step.action = .hook (.markSymbolic location) → again.after.Agree again.before) := by
  obtain ⟨before, valid, onward⟩ := run.cut parts
  have tables : event.before.tables.Valid := before.tables_valid run.tables_valid
  have merges := before.merges_window (run.idle name)
  have answer := valid.answer
  constructor
  · intro id value asked
    simp only [asked, own, Engine.write_active _ _ _ _ _ active] at answer
    have done : event.done? name = some (.write id location value) :=
      Event.done?_eq_some_iff.mpr ⟨own, asked, .done, answer⟩
    have opens := valid.opens_eq merges.shows done
    refine ⟨answer, ?_, ?_, valid.resolved_write tables done, ?_⟩
    · rw [valid.accumulator_write done]
      exact (Engine.merges_observe merges id location).accumulator
    · intro opened
      have other : (event.before.engine name).window.pending? ≠ some id := by
        simpa [opens, Engine.opens] using opened
      simp [valid.accumulator_write done, Engine.observe, other, Engine.accumulator]
    · intro spot apart kept
      refine Event.spreads_of_flags (valid.load_write tables done apart ?_)
        (valid.resolved_write tables done)
        (valid.flag_write done)
      intro same returned
      simpa [opens, Engine.opens] using kept same returned
  · intro asked
    simp only [asked, own, Engine.markSymbolic_active _ _ _ active] at answer
    have done : event.done? name = some (.markSymbolic location) :=
      Event.done?_eq_some_iff.mpr ⟨own, asked, .done, answer⟩
    have symbolic := valid.resolved_mark tables done
    refine ⟨answer, symbolic, ?_, ?_⟩
    · intro spot apart
      exact Event.spreads_of_flags (valid.load_mark tables done apart) symbolic
        (valid.flag_mark done)
    · rintro again rest rfl own' asked'
      obtain ⟨next, valid', -⟩ := onward.uncons
      have tables' := valid.tables_valid tables
      have still : (event.after.engine name).depth ≠ 0 := by rwa [valid.depth_of_done done rfl]
      rw [← next] at symbolic tables' still
      have answer' := valid'.answer
      simp only [asked', own', Engine.markSymbolic_active _ _ _ still] at answer'
      exact valid'.mark_again tables' (Event.done?_eq_some_iff.mpr ⟨own', asked', .done, answer'⟩)
        symbolic

/-! ## A run -/

/-- An object is referred to by a static field. A symbolic value is read, and the instruction then
stores a reference to the object in a field of the object itself. After that the static field is
marked twice. -/
def Hook.selfReference : List Hook :=
  [.enter, .assign (.static 0) (.reference 7), .markSymbolic (.localVar 0),
    .read ⟨1, 0, .int 0, none⟩ (.localVar 0), .write 1 (.object 7 (.field 0)) (.reference (some 7)),
    .markSymbolic (.static 0), .markSymbolic (.static 0)]

/-- The accumulator, and what the static field holds. -/
def Collector.staticAlias (collector : Collector) : Flag × Option Shadow :=
  ((collector.status "main").accumulator, (collector.load ⟨"main", 0, .static 0⟩).toOption)

/-- The static field becomes symbolic with the write, without being stored at; marking it twice is
marking it once. -/
theorem Run.stores_reach_aliases_selfReference :
    ∃ (run : Run) (past : List Event) (write mark again : Event),
      run.steps = Hook.selfReference.map .ofMain ∧ run.events = past ++ [write, mark, again] ∧
      write.before.load ⟨"main", 0, .static 0⟩ = .ok (.reference 7) ∧
      write.after.resolved ⟨"main", 0, .object 7 (.field 0)⟩ = .ok (.flag .symbolic) ∧
      write.after.resolved ⟨"main", 0, .static 0⟩ = .ok (.flag .symbolic) ∧
      again.after.Agree again.before := by
  obtain ⟨run, steps, shown⟩ :=
    Run.exists_of_hooks Collector.staticAlias Hook.selfReference
      [(.done, 1, .concrete, some .concrete), (.done, 1, .concrete, some (.reference 7)),
        (.done, 1, .concrete, some (.reference 7)),
        (.flag .symbolic, 1, .symbolic, some (.reference 7)),
        (.done, 1, .symbolic, some (.reference 7)), (.done, 1, .symbolic, some (.reference 7)),
        (.done, 1, .symbolic, some (.reference 7))]
      (by decide +kernel)
  simp only [Hook.selfReference, List.zip_cons_cons, List.zip_nil_left, List.forall₂_cons_right_iff,
    List.forall₂_nil_right_iff] at shown
  obtain ⟨outer, _, -, ⟨assign, _, -, ⟨first, _, -, ⟨read, _, readShown, ⟨write, _, writeShown,
      ⟨mark, _, markShown, ⟨again, _, againShown, rfl, rfl⟩, rfl⟩, rfl⟩, rfl⟩, rfl⟩, rfl⟩, events⟩
      := shown
  have parts : run.events = [outer, assign, first, read] ++ write :: [mark, again] := events
  have marking : run.events = [outer, assign, first, read, write] ++ mark :: [again] := events
  have wrote := writeShown.done
  have marked := markShown.done
  obtain ⟨-, -, -, here, others⟩ :=
    (run.stores_reach_aliases "main" _ _ write parts (by rw [writeShown.step]; rfl)
      ((run.trail.valid write (by simp [events])).active_of_done wrote trivial)
        (.object 7 (.field 0))).1 1 _
      (by rw [writeShown.step]; rfl)
  obtain ⟨-, -, -, repeated⟩ :=
    (run.stores_reach_aliases "main" _ _ mark marking (by rw [markShown.step]; rfl)
      ((run.trail.valid mark (by simp [events])).active_of_done marked trivial) (.static 0)).2
      (by rw [markShown.step]; rfl)
  have accumulator : (write.after.status "main").accumulator = .symbolic :=
    congrArg Prod.fst writeShown.view
  have fourth : run.events[3]? = some read := by rw [events]; rfl
  have previous : write.before = read.after := run.trail.next_before fourth (by rw [events]; rfl)
  have held : write.before.load ⟨"main", 0, .static 0⟩ = .ok (.reference 7) := by
    have seen : (read.after.load ⟨"main", 0, .static 0⟩).toOption = some (.reference 7) :=
      congrArg Prod.snd readShown.view
    rw [previous]
    cases loaded : read.after.load ⟨"main", 0, .static 0⟩ with
    | error => simp [loaded, Except.toOption] at seen
    | ok shadow => simpa [loaded, Except.toOption] using seen
  rw [accumulator] at here
  have spreads := others ⟨"main", 0, .static 0⟩ (by simp [Spot.Same]) (by simp)
  refine ⟨run, _, write, mark, again, steps, parts, held, here, ?_, ?_⟩
  · rw [spreads.aliased 7 rfl held]
    exact here
  · exact repeated again [] rfl (by rw [againShown.step]; rfl) (by rw [againShown.step]; rfl)

end ShadowTrace
