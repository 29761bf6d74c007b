import ShadowTrace.Proofs.Refinement
import ShadowTrace.Proofs.Related

/-! # Footprints

The objects and static fields that a thread names are its footprint. References get around, in
slots, fields, seeds and returned values, but only those that some hook of the thread has named: as
long as no other thread names them too, all that the thread can reach lies in its footprint. On the
plain machine this is an equation. A step of the thread commutes with forgetting all other threads
and all that is outside of its region, and a step of another thread is not seen there. -/

namespace ShadowTrace

/-! ## What is named -/

/-- What threads share: the objects and the static fields. -/
inductive Item where
  | object (id : ObjectId)
  | static (field : FieldId)
deriving DecidableEq

def Shadow.items : Shadow → List Item
  | reference id => [.object id]
  | concrete | symbolic => []

def Location.items : Location → List Item
  | static field => [.static field]
  | object id _ => [.object id]
  | this | argument _ | localVar _ | returned => []

def Written.items : Written → List Item
  | reference (some id) => [.object id]
  | primitive | reference none => []

def Seed.items (seed : Seed) : List Item :=
  seed.receiver.toList.flatMap Shadow.items ++ seed.arguments.cells.toList.flatMap Shadow.items

/-- The items that occur in a hook. -/
def Hook.items : Hook → List Item
  | enterWith seed => seed.items
  | read _ location | markSymbolic location | resolve location => location.items
  | write _ location value => location.items ++ value.items
  | assign location shadow => location.items ++ shadow.items
  | enter | exit | close _ | reset => []

def Action.items : Action → List Item
  | hook asked => asked.items
  | table _ | resetShared | records | instructionIds | texts | drain | clearTrace => []

/-- Whether the action is one of the thread itself: a hook, or one that is about its trace. -/
def Action.isOwn : Action → Bool
  | hook _ | records | instructionIds | texts | drain | clearTrace => true
  | table _ | resetShared => false

/-- The steps of one thread, in their order. -/
def Step.ofThread (steps : List Step) (name : String) : List Step := steps.filter (·.thread = name)

/-- The items that occur in the steps of the thread. -/
def Step.footprint (steps : List Step) (name : String) : List Item :=
  (Step.ofThread steps name).flatMap (·.action.items)

namespace Plain

/-! ## The part of the tables that lies in a region -/

section Mask

variable {ι β : Type} {region : List Item}

/-- The map at the items of the region, and the base elsewhere. -/
def mask (item : ι → Item) (region : List Item) (base : β) (map : ι → β) : ι → β :=
  fun index => if item index ∈ region then map index else base

theorem mask_apply (item : ι → Item) {index : ι} (inside : item index ∈ region) (base : β)
    (map : ι → β) :
    mask item region base map index = map index :=
  if_pos inside

variable [DecidableEq ι]

theorem mask_update (item : ι → Item) {index : ι} (inside : item index ∈ region) (base : β)
    (map : ι → β) (content : β) :
    mask item region base (Function.update map index content) =
      Function.update (mask item region base map) index content := by
  funext other
  by_cases same : other = index
  · subst same
    simp [mask, inside]
  · simp [mask, same]

theorem mask_update_apart (item : ι → Item) {index : ι} (outside : item index ∉ region) (base : β)
    (map : ι → β) (content : β) :
    mask item region base (Function.update map index content) = mask item region base map := by
  funext other
  by_cases same : other = index
  · subst same
    simp [mask, outside]
  · simp [mask, same]

end Mask

variable {α : Type} [Inhabited α] {region : List Item}

def Shared.restrict (shared : Shared α) (region : List Item) : Shared α where
  object := mask .object region (fun _ => default) shared.object
  static := mask .static region default shared.static

def Tables.restrict (tables : Tables) (region : List Item) : Tables where
  shared := tables.shared.restrict region
  flag := mask .object region .concrete tables.flag

theorem Cells.look_restrict (cells : Cells α) (shared : Shared α) {location : Location}
    (inside : location.items ⊆ region) :
    cells.look (shared.restrict region) location = cells.look shared location := by
  cases location with
  | static field =>
    exact mask_apply .static (inside (List.mem_singleton.mpr rfl)) default shared.static
  | object id key =>
    exact congrFun (mask_apply .object (inside (List.mem_singleton.mpr rfl)) _ shared.object) key
  | this | argument | localVar | returned => rfl

theorem Shared.restrict_place (shared : Shared α) {location : Location}
    (inside : location.items ⊆ region) (content : α) :
    (shared.place location content).restrict region =
      (shared.restrict region).place location content := by
  cases location with
  | static field =>
    have own : Item.static field ∈ region := inside (List.mem_singleton.mpr rfl)
    simp only [place, putStatic, restrict, mask_update Item.static own]
  | object id key =>
    have own : Item.object id ∈ region := inside (List.mem_singleton.mpr rfl)
    simp only [place, put, restrict, mask_update Item.object own, mask_apply Item.object own]
  | this | argument | localVar | returned => rfl

theorem Shared.restrict_place_apart (shared : Shared α) {location : Location}
    (outside : location.items.Disjoint region) (content : α) :
    (shared.place location content).restrict region = shared.restrict region := by
  cases location with
  | static field =>
    have other : Item.static field ∉ region := outside (List.mem_singleton.mpr rfl)
    simp only [place, putStatic, restrict, mask_update_apart Item.static other]
  | object id key =>
    have other : Item.object id ∉ region := outside (List.mem_singleton.mpr rfl)
    simp only [place, put, restrict, mask_update_apart Item.object other]
  | this | argument | localVar | returned => rfl

namespace Tables

variable (tables : Tables)

@[simp] theorem shared_restrict :
    (tables.restrict region).shared = tables.shared.restrict region := rfl

theorem resolve_restrict {shadow : Shadow} (inside : shadow.items ⊆ region) :
    (tables.restrict region).resolve shadow = tables.resolve shadow := by
  cases shadow with
  | reference id =>
    exact mask_apply .object (inside (List.mem_singleton.mpr rfl)) .concrete tables.flag
  | concrete | symbolic => rfl

theorem restrict_place {location : Location} (inside : location.items ⊆ region) (shadow : Shadow) :
    (tables.place location shadow).restrict region =
      (tables.restrict region).place location shadow := by
  simp only [restrict, place, tables.shared.restrict_place inside]

theorem restrict_place_apart {location : Location} (outside : location.items.Disjoint region)
    (shadow : Shadow) :
    (tables.place location shadow).restrict region = tables.restrict region := by
  simp only [restrict, place, tables.shared.restrict_place_apart outside]

theorem restrict_setFlag {id : ObjectId} (inside : .object id ∈ region) (flag : Flag) :
    (tables.setFlag id flag).restrict region = (tables.restrict region).setFlag id flag := by
  simp only [restrict, setFlag, mask_update Item.object inside]

theorem restrict_setFlag_apart {id : ObjectId} (outside : .object id ∉ region) (flag : Flag) :
    (tables.setFlag id flag).restrict region = tables.restrict region := by
  simp only [restrict, setFlag, mask_update_apart Item.object outside]

/-- The tables once a write has passed its flag on to the object it refers to. -/
def pass (flag : Flag) : Written → Tables
  | .reference (some id) => tables.setFlag id flag.stored
  | .primitive | .reference none => tables

@[simp] theorem shared_pass (flag : Flag) (value : Written) :
    (tables.pass flag value).shared = tables.shared := by
  rcases value with _ | _ | id <;> rfl

theorem restrict_pass {value : Written} (inside : value.items ⊆ region) (flag : Flag) :
    (tables.pass flag value).restrict region = (tables.restrict region).pass flag value := by
  rcases value with _ | _ | id
  · rfl
  · rfl
  · exact tables.restrict_setFlag (inside (List.mem_singleton.mpr rfl)) flag.stored

theorem restrict_pass_apart {value : Written} (outside : value.items.Disjoint region)
    (flag : Flag) :
    (tables.pass flag value).restrict region = tables.restrict region := by
  rcases value with _ | _ | id
  · rfl
  · rfl
  · exact tables.restrict_setFlag_apart (outside (List.mem_singleton.mpr rfl)) flag.stored

end Tables

theorem items_shadow (value : Written) (flag : Flag) : (value.shadow flag).items = value.items := by
  have own : (Shadow.ofFlag flag).items = [] := by
    unfold Shadow.ofFlag
    split
    · rfl
    · rfl
  rcases value with _ | _ | id
  · exact own
  · exact own
  · rfl

/-! ## One hook -/

/-- All references that the cells hold lead into the region. This is a relation of the cells to
themselves that looks at one side only, so all that is known of related cells applies to it. -/
def Cells.Within (cells : Cells Shadow) (region : List Item) : Prop :=
  cells.Related (fun shadow _ => shadow.items ⊆ region) cells

/-- The thread cannot leave the region: what it holds and what it finds there leads into the
region again. -/
structure Engine.Within (engine : Engine) (tables : Tables) (region : List Item) : Prop where
  cells : engine.cells.Within region
  shared : (tables.shared.restrict region).Related (fun shadow _ => shadow.items ⊆ region)
    (tables.shared.restrict region)

/-- The outcome with the tables restricted. -/
def Outcome.restrict (outcome : Outcome) (region : List Item) : Outcome :=
  { outcome with tables := outcome.tables.restrict region }

/-- What the hook does, it does in the region: it is the same on the tables that have only the
region, the thread stays within it, and no part of the tables outside of it changes. -/
structure Engine.Local (engine : Engine) (tables : Tables) (hook : Hook) (region : List Item) :
    Prop where
  same : engine.step (tables.restrict region) hook = (engine.step tables hook).restrict region
  within : (engine.step tables hook).engine.Within (engine.step tables hook).tables region
  apart : ∀ other : List Item, region.Disjoint other →
    (engine.step tables hook).tables.restrict other = tables.restrict other

theorem Frame.within_ofSeed {seed : Seed} (inside : seed.items ⊆ region) :
    (Frame.ofSeed seed).Related (fun shadow _ => shadow.items ⊆ region) (Frame.ofSeed seed) := by
  have receiver : (seed.receiver.getD .concrete).items ⊆ region := by
    cases given : seed.receiver with
    | none => simp [Shadow.items]
    | some shadow =>
      intro item member
      exact inside (by simp [Seed.items, given, show item ∈ shadow.items from member])
  have argument (index : UInt32) : (seed.arguments.get index).items ⊆ region := by
    intro item member
    rw [Slots.get, Array.getD_eq_getD_getElem?] at member
    cases given : seed.arguments.cells[index.toNat]? with
    | none => simp [given, Shadow.items] at member
    | some shadow =>
      have cell : shadow ∈ seed.arguments.cells.toList :=
        Array.mem_toList_iff.mpr (Array.mem_of_getElem? given)
      apply inside
      simp only [given, Option.getD_some] at member
      simp only [Seed.items, List.mem_append, List.mem_flatMap]
      exact .inr ⟨shadow, cell, member⟩
  exact ⟨receiver, argument, fun _ => List.nil_subset _⟩

namespace Engine

variable {engine : Engine} {tables : Tables}

/-- What was never stored leads nowhere. -/
private theorem items_default : (default : Shadow).items ⊆ region := List.nil_subset _

/-- A hook that leaves the tables alone and does not depend on what is outside of the region. -/
theorem Within.local_of_tables (within : engine.Within tables region) {hook : Hook}
    (same : engine.step (tables.restrict region) hook = (engine.step tables hook).restrict region)
    (unchanged : (engine.step tables hook).tables = tables)
    (cells : (engine.step tables hook).engine.cells.Within region) :
    engine.Local tables hook region where
  same := same
  within := ⟨cells, by rw [unchanged]; exact within.shared⟩
  apart _ _ := by rw [unchanged]

theorem Within.exit (within : engine.Within tables region) : engine.Local tables .exit region := by
  obtain ⟨cells, unchanged⟩ := engine.exit_cells tables
  have after : (engine.exit tables).engine.cells.Within region := by
    rw [cells]
    exact Cells.Related.exit within.cells items_default
  refine within.local_of_tables ?_ unchanged after
  rcases frames : engine.cells.frames with _ | ⟨frame, _ | ⟨caller, rest⟩⟩ <;>
    simp [step, Engine.exit, frames, Outcome.restrict]

theorem Within.close (within : engine.Within tables region) (id : InstructionId) :
    engine.Local tables (.close id) region := by
  obtain ⟨cells, unchanged⟩ := engine.close_cells tables id
  have after : (engine.close tables id).engine.cells.Within region := by
    rw [cells]
    exact within.cells
  refine within.local_of_tables ?_ unchanged after
  rcases closed : engine.window.close id with desync | ⟨window, recorded⟩ <;>
    simp [step, Engine.close, closed, Outcome.restrict]

/-- Without a frame an access is refused, whatever the tables hold. -/
theorem Within.idle (within : engine.Within tables region) {hook : Hook}
    (needs : ShadowTrace.Engine.Needs hook) (idle : engine.cells.frames = []) :
    engine.Local tables hook region := by
  cases hook with
  | read | write | assign | markSymbolic | resolve =>
    apply within.local_of_tables <;> simp [step, access, idle, Outcome.restrict, within.cells]
  | enter | enterWith | exit | close | reset => exact needs.elim

theorem access_of_ne_nil (active : engine.cells.frames ≠ []) (outcome : Outcome) :
    engine.access tables outcome = outcome := by
  obtain ⟨frame, rest, frames⟩ := List.exists_cons_of_ne_nil active
  simp [access, frames]

theorem Within.look (within : engine.Within tables region) {location : Location}
    (inside : location.items ⊆ region) :
    (engine.cells.look tables.shared location).items ⊆ region := by
  -- In the restricted tables nothing leads out, and inside of the region they are the same tables.
  have found := Cells.Related.look within.cells items_default within.shared location
  rwa [Cells.look_restrict _ _ inside] at found

theorem Within.observe (within : engine.Within tables region) (id : InstructionId)
    (location : Location) :
    (engine.observe id location).1.cells.Within region := by
  unfold Engine.observe
  split
  · exact within.cells
  · exact Cells.Related.turn within.cells items_default location

theorem Within.read (within : engine.Within tables region) (active : engine.cells.frames ≠ [])
    (operand : Operand) {location : Location} (inside : location.items ⊆ region) :
    engine.Local tables (.read operand location) region := by
  have found := within.look inside
  apply within.local_of_tables
  · simp only [step, access_of_ne_nil active, Engine.read, Outcome.restrict, Tables.shared_restrict,
      Cells.look_restrict _ _ inside, Tables.resolve_restrict _ found]
  · simp only [step, access_of_ne_nil active, Engine.read]
  · simp only [step, access_of_ne_nil active, Engine.read]
    have observed := within.observe operand.instruction location
    exact Cells.Related.forward (Cells.Related.take observed items_default location) found
      operand.forward

theorem Within.resolve (within : engine.Within tables region) (active : engine.cells.frames ≠ [])
    {location : Location} (inside : location.items ⊆ region) :
    engine.Local tables (.resolve location) region := by
  have found := within.look inside
  apply within.local_of_tables
  · simp only [step, access_of_ne_nil active, Engine.resolve, Outcome.restrict,
      Tables.shared_restrict, Cells.look_restrict _ _ inside, Tables.resolve_restrict _ found]
  · simp only [step, access_of_ne_nil active, Engine.resolve]
  · simp only [step, access_of_ne_nil active, Engine.resolve]
    exact within.cells

/-- Storing in the region what leads into the region keeps the thread within it. -/
theorem Within.place {observed : Engine} (cells : observed.cells.Within region)
    (within : engine.Within tables region) {location : Location} (inside : location.items ⊆ region)
    {shadow : Shadow} (leads : shadow.items ⊆ region) :
    Engine.Within { observed with cells := observed.cells.place location shadow }
      (tables.place location shadow) region where
  cells := Cells.Related.place cells items_default location leads
  shared := by
    simp only [Tables.place, tables.shared.restrict_place inside]
    exact within.shared.place location leads

theorem Within.assign (within : engine.Within tables region) (active : engine.cells.frames ≠ [])
    {location : Location} (inside : location.items ⊆ region) (shadow : Shadow)
    (leads : shadow.items ⊆ region) :
    engine.Local tables (.assign location shadow) region where
  same := by
    simp only [step, access_of_ne_nil active, Engine.assign, Outcome.restrict,
      tables.restrict_place inside]
  within := by
    simp only [step, access_of_ne_nil active, Engine.assign]
    exact Within.place within.cells within inside leads
  apart other disjoint := by
    simp only [step, access_of_ne_nil active, Engine.assign]
    exact tables.restrict_place_apart (List.disjoint_of_subset_left inside disjoint) shadow

theorem Within.markSymbolic (within : engine.Within tables region)
    (active : engine.cells.frames ≠ []) {location : Location} (inside : location.items ⊆ region) :
    engine.Local tables (.markSymbolic location) region := by
  have found := within.look inside
  have assigned := within.assign active inside .symbolic (List.nil_subset region)
  cases looked : engine.cells.look tables.shared location with
  | reference id =>
    -- The object was not named by the hook, but the reference was found in the region.
    have own : Item.object id ∈ region := found (by simp [looked, Shadow.items])
    have step_eq : engine.step tables (.markSymbolic location) =
        { result := .ok .done, engine, tables := tables.setFlag id .symbolic } := by
      simp [step, access_of_ne_nil active, Engine.markSymbolic, looked]
    refine ⟨?_, ?_, ?_⟩
    · rw [step_eq]
      simp [step, access_of_ne_nil active, Engine.markSymbolic, Cells.look_restrict _ _ inside,
        looked, Outcome.restrict, tables.restrict_setFlag own]
    · rw [step_eq]
      exact ⟨within.cells, within.shared⟩
    · intro other disjoint
      rw [step_eq]
      exact tables.restrict_setFlag_apart (disjoint own) .symbolic
  | concrete | symbolic =>
    -- It is marked by storing the mark in its place.
    have step_eq : engine.step tables (.markSymbolic location) =
        engine.step tables (.assign location .symbolic) := by
      simp [step, access_of_ne_nil active, Engine.markSymbolic, looked]
    refine ⟨?_, ?_, ?_⟩
    · rw [step_eq, ← assigned.same]
      simp [step, access_of_ne_nil active, Engine.markSymbolic,
        Cells.look_restrict _ _ inside, looked]
    · rw [step_eq]
      exact assigned.within
    · rw [step_eq]
      exact assigned.apart

theorem write_eq (engine : Engine) (tables : Tables) (id : InstructionId) (location : Location)
    (value : Written) :
    engine.write tables id location value =
      let observed := (engine.observe id location).1
      let flag := observed.window.accumulator
      { result := .ok .done
        engine := { observed with cells := observed.cells.place location (value.shadow flag) }
        tables := (tables.pass flag value).place location (value.shadow flag)
        recorded := (engine.observe id location).2 } := by
  rcases value with _ | _ | object <;> rfl

theorem Within.write (within : engine.Within tables region) (active : engine.cells.frames ≠ [])
    (id : InstructionId) {location : Location} {value : Written} (inside : location.items ⊆ region)
    (leads : value.items ⊆ region) :
    engine.Local tables (.write id location value) region := by
  have observed := within.observe id location
  refine ⟨?_, ?_, ?_⟩
  · simp only [step, access_of_ne_nil active, write_eq, Outcome.restrict,
      Tables.restrict_place _ inside, Tables.restrict_pass _ leads]
  · simp only [step, access_of_ne_nil active, write_eq]
    generalize (engine.observe id location).1.window.accumulator = flag
    -- Passing the flag on changes no cell.
    have passed : engine.Within (tables.pass flag value) region :=
      ⟨within.cells, by simpa using within.shared⟩
    exact Within.place observed passed inside (by rwa [items_shadow])
  · intro other disjoint
    simp only [step, access_of_ne_nil active, write_eq]
    rw [Tables.restrict_place_apart _ (List.disjoint_of_subset_left inside disjoint),
      Tables.restrict_pass_apart _ (List.disjoint_of_subset_left leads disjoint)]

/-- Every hook of a thread that is within the region, and names only what is in it, stays there. -/
theorem Within.step (within : engine.Within tables region) {hook : Hook}
    (inside : hook.items ⊆ region) :
    engine.Local tables hook region := by
  by_cases failed : ShadowTrace.Engine.Needs hook ∧ engine.cells.frames = []
  · exact within.idle failed.1 failed.2
  · have active (needs : ShadowTrace.Engine.Needs hook) : engine.cells.frames ≠ [] :=
      fun idle => failed ⟨needs, idle⟩
    cases hook with
    | enter =>
      exact within.local_of_tables
        rfl rfl (Cells.Related.enter within.cells items_default within.cells.callee)
    | enterWith seed =>
      have frame := Frame.within_ofSeed (show seed.items ⊆ region from inside)
      exact within.local_of_tables rfl rfl (Cells.Related.enter within.cells items_default frame)
    | exit => exact within.exit
    | read operand location => exact within.read (active trivial) operand inside
    | write id location value =>
      obtain ⟨place, leads⟩ :=
        List.append_subset.mp (show location.items ++ value.items ⊆ region from inside)
      exact within.write (active trivial) id place leads
    | assign location shadow =>
      obtain ⟨place, leads⟩ :=
        List.append_subset.mp (show location.items ++ shadow.items ⊆ region from inside)
      exact within.assign (active trivial) place shadow leads
    | markSymbolic location => exact within.markSymbolic (active trivial) inside
    | resolve location => exact within.resolve (active trivial) inside
    | close id => exact within.close id
    | reset => exact within.local_of_tables rfl rfl (Cells.related_empty items_default)

end Engine

/-! ## All threads -/

namespace State

/-- The thread alone, with the tables that have only the region. -/
def only (state : State) (name : String) (region : List Item) : State where
  tables := state.tables.restrict region
  engine := Function.update (fun _ => {}) name (state.engine name)
  records := Function.update (fun _ => []) name (state.records name)

variable {state : State}

/-- What a thread does within its region, it does in the same way alone. -/
theorem only_act {name : String} (within : (state.engine name).Within state.tables region)
    {action : Action} (own : action.isOwn = true) (inside : action.items ⊆ region) :
    (state.only name region).act name action =
      ((state.act name action).1, (state.act name action).2.only name region) := by
  cases action with
  | hook hook =>
    have same := (within.step inside).same
    simp only [act, only, Function.update_self, same, Outcome.restrict, Function.update_idem]
  | records | instructionIds | texts => simp only [act, only, Function.update_self]
  | drain | clearTrace => simp only [act, only, Function.update_self, Function.update_idem]
  | table | resetShared => cases own

theorem act_within {name : String} (within : (state.engine name).Within state.tables region)
    {action : Action} (own : action.isOwn = true) (inside : action.items ⊆ region) :
    ((state.act name action).2.engine name).Within (state.act name action).2.tables region := by
  cases action with
  | hook hook => simpa only [act, Function.update_self] using (within.step inside).within
  | records | instructionIds | texts | drain | clearTrace => exact within
  | table | resetShared => cases own

/-- Outside of its region a thread changes nothing. -/
theorem restrict_act {name : String} (within : (state.engine name).Within state.tables region)
    {action : Action} (own : action.isOwn = true) (inside : action.items ⊆ region)
    {other : List Item} (apart : region.Disjoint other) :
    (state.act name action).2.tables.restrict other = state.tables.restrict other := by
  cases action with
  | hook hook => exact (within.step inside).apart other apart
  | records | instructionIds | texts | drain | clearTrace => rfl
  | table | resetShared => cases own

/-- Nor does it change another thread. -/
theorem act_other (state : State) {name thread : String} (other : name ≠ thread) (action : Action) :
    (state.act thread action).2.engine name = state.engine name ∧
      (state.act thread action).2.records name = state.records name := by
  cases action with
  | hook | drain | clearTrace => simp [act, other]
  | table | resetShared | records | instructionIds | texts => exact ⟨rfl, rfl⟩

/-- Every thread is within its region. -/
def Separate (state : State) (regions : String → List Item) : Prop :=
  ∀ name, (state.engine name).Within state.tables (regions name)

/-- The regions have nothing in common. -/
def Apart (regions : String → List Item) : Prop :=
  ∀ name other, name ≠ other → (regions name).Disjoint (regions other)

/-- The step is an action of its own thread, and names only what is in the region of that. -/
def Keeps (regions : String → List Item) (step : Step) : Prop :=
  step.action.isOwn = true ∧ step.action.items ⊆ regions step.thread

variable {regions : String → List Item}

/-- A step of another thread is not seen at all. -/
theorem Separate.only_act_other (separate : state.Separate regions) (apart : Apart regions)
    {step : Step} (keeps : Keeps regions step) {name : String} (other : name ≠ step.thread) :
    (state.act step.thread step.action).2.only name (regions name) =
      state.only name (regions name) := by
  obtain ⟨engine, records⟩ := state.act_other other step.action
  have tables :=
    restrict_act (separate step.thread) keeps.1 keeps.2 (apart step.thread name (Ne.symm other))
  simp only [only, tables, engine, records]

theorem Separate.act (separate : state.Separate regions) (apart : Apart regions) {step : Step}
    (keeps : Keeps regions step) : (state.act step.thread step.action).2.Separate regions := by
  intro name
  by_cases own : name = step.thread
  · subst own
    exact act_within (separate step.thread) keeps.1 keeps.2
  · -- The thread is where it was, and its region of the tables is as it was.
    obtain ⟨engine, -⟩ := state.act_other own step.action
    have tables :=
      restrict_act (separate step.thread) keeps.1 keeps.2 (apart step.thread name (Ne.symm own))
    have shared := congrArg (·.shared) tables
    simp only [Tables.shared_restrict] at shared
    rw [engine]
    refine ⟨(separate name).cells, ?_⟩
    rw [shared]
    exact (separate name).shared

/-- The state after the steps. -/
def after (state : State) (steps : List Step) : State :=
  steps.foldl (fun state step => (state.act step.thread step.action).2) state

/-- After any interleaving a thread is where it gets alone, and what is in no region has
not changed. -/
theorem Separate.after (separate : state.Separate regions) (apart : Apart regions)
    {steps : List Step} (keeps : ∀ step ∈ steps, Keeps regions step) :
    (∀ name, (state.after steps).only name (regions name) =
        (state.only name (regions name)).after (Step.ofThread steps name)) ∧
      ∀ other : List Item, (∀ name, (regions name).Disjoint other) →
        (state.after steps).tables.restrict other = state.tables.restrict other := by
  -- A step of the thread is taken alone as well, and a step of another one is not seen.
  induction steps generalizing state with
  | nil => exact ⟨fun _ => rfl, fun _ _ => rfl⟩
  | cons step steps ih =>
    have here := keeps step (by simp)
    obtain ⟨alone, outside⟩ :=
      ih (separate.act apart here) fun step member => keeps step (by simp [member])
    constructor
    · intro name
      refine (alone name).trans ?_
      by_cases own : step.thread = name
      · subst own
        simp only [Step.ofThread, List.filter_cons, decide_true, if_true, State.after,
          List.foldl_cons, only_act (separate step.thread) here.1 here.2]
      · simp only [Step.ofThread, List.filter_cons, own, decide_false, Bool.false_eq_true, if_false,
          separate.only_act_other apart here (Ne.symm own)]
    · intro other disjoint
      refine (outside other disjoint).trans ?_
      exact restrict_act (separate step.thread) here.1 here.2 (disjoint step.thread)

end State

/-! ## From the start -/

theorem Tables.restrict_empty (region : List Item) : Tables.restrict {} region = {} := by
  simp only [Tables.restrict, Shared.restrict, Tables.mk.injEq, Shared.mk.injEq]
  refine ⟨⟨?_, ?_⟩, ?_⟩ <;> funext index <;> exact ite_self _

theorem State.only_empty (name : String) (region : List Item) : State.only {} name region = {} := by
  simp only [State.only, Tables.restrict_empty, Function.update_eq_self]

theorem State.separate_empty (regions : String → List Item) : State.Separate {} regions := by
  intro name
  have nowhere : (default : Shadow).items ⊆ regions name := List.nil_subset _
  refine ⟨Cells.related_empty nowhere, ?_⟩
  have shared := congrArg (·.shared) (Tables.restrict_empty (regions name))
  simp only [Tables.shared_restrict] at shared
  rw [shared]
  exact Shared.related_empty nowhere

/-- Tables that agree on a region agree at each item of it. -/
structure Tables.AgreeAt (tables other : Tables) (item : Item) : Prop where
  object : ∀ id key, item = .object id → tables.shared.object id key = other.shared.object id key
  flag : ∀ id, item = .object id → tables.flag id = other.flag id
  static : ∀ field, item = .static field → tables.shared.static field = other.shared.static field

theorem Tables.agreeAt_of_restrict {tables other : Tables} {item : Item} (inside : item ∈ region)
    (same : tables.restrict region = other.restrict region) : tables.AgreeAt other item where
  object id key := by
    rintro rfl
    have objects := congrFun (congrFun (congrArg (·.shared.object) same) id) key
    simpa only [Tables.restrict, Shared.restrict, mask_apply Item.object inside] using objects
  flag id := by
    rintro rfl
    have flags := congrFun (congrArg (·.flag) same) id
    simpa only [Tables.restrict, mask_apply Item.object inside] using flags
  static field := by
    rintro rfl
    have statics := congrFun (congrArg (·.shared.static) same) field
    simpa only [Tables.restrict, Shared.restrict, mask_apply Item.static inside] using statics

/-- Two interleavings of the same threads end with the same tables. -/
theorem State.agreeAt_after {regions : String → List Item} (apart : State.Apart regions)
    {steps others : List Step} (keeps : ∀ step ∈ steps, State.Keeps regions step)
    (otherKeeps : ∀ step ∈ others, State.Keeps regions step)
    (threads : ∀ name, Step.ofThread others name = Step.ofThread steps name) (item : Item) :
    (State.after {} others).tables.AgreeAt (State.after {} steps).tables item := by
  obtain ⟨alone, outside⟩ := (State.separate_empty regions).after apart keeps
  obtain ⟨otherAlone, otherOutside⟩ := (State.separate_empty regions).after apart otherKeeps
  by_cases owned : ∃ name, item ∈ regions name
  · -- It is in the region of a thread, and both times this is what the thread makes of it alone.
    obtain ⟨name, inside⟩ := owned
    have same := (otherAlone name).trans ((threads name ▸ alone name).symm)
    exact Tables.agreeAt_of_restrict inside (congrArg (·.tables) same)
  · -- It is in no region, and both times it is as it was.
    have disjoint (name : String) : (regions name).Disjoint [item] := by
      rw [List.disjoint_singleton]
      exact fun inside => owned ⟨name, inside⟩
    exact Tables.agreeAt_of_restrict (List.mem_singleton.mpr rfl)
      ((otherOutside [item] disjoint).trans (outside [item] disjoint).symm)

end Plain

theorem Step.keeps_footprint {steps : List Step} {step : Step} (member : step ∈ steps)
    (own : step.action.isOwn = true) : Plain.State.Keeps (Step.footprint steps) step := by
  refine ⟨own, ?_⟩
  intro item occurs
  have mine : step ∈ Step.ofThread steps step.thread := List.mem_filter.mpr ⟨member, by simp⟩
  exact List.mem_flatMap.mpr ⟨step, mine, occurs⟩

end ShadowTrace
