import Mathlib.Data.List.Forall2
import ShadowTrace.Proofs.Plain
import ShadowTrace.Proofs.Windows

/-! # Related cells and windows

Cells only move their contents about. So if two threads hold contents that are related, cell by
cell, and the same is done to both with related contents, they hold related contents afterwards.
What the relation is does not matter, as long as two cells that were never stored to are related.
The same goes for windows and what is known of their reads. -/

namespace ShadowTrace

/-! ## Windows -/

/-- Calls that do the same to a window, whatever it holds. -/
structure Call.Alike (call other : Call) : Prop where
  instruction : call.instruction? = other.instruction?
  reset : call.hook = .reset ↔ other.hook = .reset
  ends : call.ends = other.ends

theorem Call.Alike.refl (call : Call) : call.Alike call := ⟨rfl, .rfl, rfl⟩

namespace Span

variable {α β : Type} {R : α → β → Prop}

/-- Windows of the same instruction with related reads. -/
structure Related (R : α → β → Prop) (span : Span α) (other : Span β) : Prop where
  instruction : span.instruction = other.instruction
  reads : List.Forall₂ R span.reads other.reads

theorem Related.add {span : Span α} {other : Span β} (related : span.Related R other)
    {reads : List α} {reads' : List β} (more : List.Forall₂ R reads reads') :
    (span.add reads).Related R (other.add reads') :=
  ⟨related.instruction, List.rel_append related.reads more⟩

variable {current : Option (Span α)} {other : Option (Span β)}

theorem related_instruction (related : Option.Rel (Related R) current other) :
    current.map (·.instruction) = other.map (·.instruction) := by
  cases related with
  | none => rfl
  | some span => exact congrArg some span.instruction

theorem related_toList (related : Option.Rel (Related R) current other) :
    List.Forall₂ (Related R) current.toList other.toList := by
  cases related with
  | none => exact .nil
  | some span => exact .cons span .nil

theorem related_touch (related : Option.Rel (Related R) current other) (id : InstructionId) :
    (touch current id).1.Related R (touch other id).1 ∧
      Option.Rel (Related R) (touch current id).2 (touch other id).2 := by
  cases related with
  | none => exact ⟨⟨rfl, .nil⟩, .none⟩
  | some span =>
    simp only [touch, ← span.instruction]
    split
    · exact ⟨span, .none⟩
    · exact ⟨⟨rfl, .nil⟩, .some span⟩

theorem related_next (related : Option.Rel (Related R) current other) {call call' : Call}
    (alike : call.Alike call') {reads : List α} {reads' : List β}
    (read : List.Forall₂ R reads reads') :
    Option.Rel (Related R) (next current call reads).1 (next other call' reads').1 ∧
      Option.Rel (Related R) (next current call reads).2 (next other call' reads').2 := by
  unfold next
  rw [← alike.instruction, ← alike.ends]
  cases call.instruction? with
  | some id =>
    obtain ⟨opened, ended⟩ := related_touch related id
    exact ⟨.some (opened.add read), ended⟩
  | none =>
    simp only [← alike.reset]
    split
    · exact ⟨.none, .none⟩
    · cases related with
      | none => exact ⟨.none, .none⟩
      | some span =>
        simp only [Option.any_some, ← span.instruction]
        split
        · exact ⟨.none, .some span⟩
        · exact ⟨.some span, .none⟩

end Span

/-! ## Cells -/

namespace Plain

/-- Storing at one point of two maps. -/
theorem related_update {ι α β : Type} [DecidableEq ι] {R : α → β → Prop} {f : ι → α} {g : ι → β}
    (related : ∀ i, R (f i) (g i)) (index : ι) {content : α} {same : β} (stored : R content same)
    (i : ι) :
    R (Function.update f index content i) (Function.update g index same i) := by
  by_cases own : i = index
  · subst own
    simpa using stored
  · simpa [own] using related i

variable {α β : Type} [Inhabited α] [Inhabited β]

structure Frame.Related (R : α → β → Prop) (frame : Frame α) (other : Frame β) : Prop where
  receiver : R frame.receiver other.receiver
  argument : ∀ index, R (frame.argument index) (other.argument index)
  localVar : ∀ index, R (frame.localVar index) (other.localVar index)

structure Cells.Related (R : α → β → Prop) (cells : Cells α) (other : Cells β) : Prop where
  frames : List.Forall₂ (Frame.Related R) cells.frames other.frames
  callee : Frame.Related R cells.callee other.callee
  returned : R cells.returned other.returned

structure Shared.Related (R : α → β → Prop) (shared : Shared α) (other : Shared β) : Prop where
  object : ∀ id key, R (shared.object id key) (other.object id key)
  static : ∀ field, R (shared.static field) (other.static field)

variable {R : α → β → Prop} {content : α} {same : β}

theorem Frame.related_empty (base : R default default) : Frame.Related R {} {} :=
  ⟨base, fun _ => base, fun _ => base⟩

theorem Cells.related_empty (base : R default default) : Cells.Related R {} {} :=
  ⟨.nil, Frame.related_empty base, base⟩

theorem Shared.related_empty (base : R default default) : Shared.Related R {} {} :=
  ⟨fun _ _ => base, fun _ => base⟩

theorem Shared.Related.place {shared : Shared α} {other : Shared β}
    (related : shared.Related R other) (location : Location) (stored : R content same) :
    (shared.place location content).Related R (other.place location same) := by
  cases location with
  | static field => exact ⟨related.object, related_update related.static field stored⟩
  | object id key =>
    -- One cell of one object: the update is inside another.
    refine ⟨fun id' => ?_, related.static⟩
    by_cases own : id' = id
    · subst own
      simpa [Shared.place, Shared.put] using related_update (related.object id') key stored
    · simpa [Shared.place, Shared.put, own] using related.object id'
  | _ => exact related

namespace Cells.Related

variable {cells : Cells α} {other : Cells β}

theorem depth (related : cells.Related R other) : cells.frames.length = other.frames.length :=
  related.frames.length_eq

theorem top (related : cells.Related R other) (base : R default default) :
    cells.top.Related R other.top := by
  have frames := related.frames
  unfold Cells.top
  generalize cells.frames = here, other.frames = there at frames
  cases frames with
  | nil => exact Frame.related_empty base
  | cons frame => exact frame

theorem setTop (related : cells.Related R other) {frame : Frame α} {frame' : Frame β}
    (changed : frame.Related R frame') : (cells.setTop frame).Related R (other.setTop frame') := by
  have rest : List.Forall₂ (Frame.Related R) cells.frames.tail other.frames.tail := by
    simpa only [List.drop_one] using List.forall₂_drop 1 related.frames
  exact ⟨.cons changed rest, related.callee, related.returned⟩

theorem look (related : cells.Related R other) (base : R default default) {shared : Shared α}
    {shared' : Shared β} (everywhere : shared.Related R shared') (location : Location) :
    R (cells.look shared location) (other.look shared' location) := by
  have top := related.top base
  cases location with
  | this => exact top.receiver
  | argument index => exact top.argument index
  | localVar index => exact top.localVar index
  | static field => exact everywhere.static field
  | object id key => exact everywhere.object id key
  | returned => exact related.returned

theorem place (related : cells.Related R other) (base : R default default) (location : Location)
    (stored : R content same) :
    (cells.place location content).Related R (other.place location same) := by
  have top := related.top base
  cases location with
  | this => exact related.setTop ⟨stored, top.argument, top.localVar⟩
  | argument index =>
    exact related.setTop ⟨top.receiver, related_update top.argument index stored, top.localVar⟩
  | localVar index =>
    exact related.setTop ⟨top.receiver, top.argument, related_update top.localVar index stored⟩
  | returned => exact ⟨related.frames, related.callee, stored⟩
  | _ => exact related

theorem turn (related : cells.Related R other) (base : R default default) (location : Location) :
    (cells.turn location).Related R (other.turn location) := by
  refine ⟨related.frames, Frame.related_empty base, ?_⟩
  by_cases back : location = .returned
  · simpa [Cells.turn, back] using related.returned
  · simpa [Cells.turn, back] using base

theorem take (related : cells.Related R other) (base : R default default) (location : Location) :
    (cells.take location).Related R (other.take location) := by
  refine ⟨related.frames, related.callee, ?_⟩
  by_cases back : location = .returned
  · simpa [Cells.take, back] using base
  · simpa [Cells.take, back] using related.returned

theorem forward (related : cells.Related R other) (passed : R content same)
    (position : Option Position) :
    (cells.forward content position).Related R (other.forward same position) := by
  rcases position with _ | (_ | index | _)
  · exact related
  · exact ⟨related.frames, ⟨passed, related.callee.argument, related.callee.localVar⟩,
      related.returned⟩
  · have argument := related_update related.callee.argument index passed
    exact ⟨related.frames, ⟨related.callee.receiver, argument, related.callee.localVar⟩,
      related.returned⟩
  · exact ⟨related.frames, related.callee, passed⟩

theorem enter (related : cells.Related R other) (base : R default default) {frame : Frame α}
    {frame' : Frame β} (entered : frame.Related R frame') :
    (cells.enter frame).Related R (other.enter frame') :=
  ⟨.cons entered related.frames, Frame.related_empty base, base⟩

theorem exit (related : cells.Related R other) (base : R default default) :
    cells.exit.Related R other.exit := by
  obtain ⟨frames, callee, returned⟩ := cells
  obtain ⟨frames', callee', returned'⟩ := other
  -- The stacks are equally deep, so both are emptied by this exit or neither is.
  have popped := related.frames
  match frames, frames', popped with
  | [], [], .nil => exact related
  | [_], [_], .cons _ .nil => exact ⟨.nil, Frame.related_empty base, related.returned⟩
  | _ :: _ :: _, _ :: _ :: _, .cons _ rest => exact ⟨rest, related.callee, related.returned⟩

end Cells.Related

end Plain

end ShadowTrace
