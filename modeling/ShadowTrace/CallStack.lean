import ShadowTrace.Frame
import ShadowTrace.Window

/-! # The call stack

The active frames of one thread, the innermost first. -/

namespace ShadowTrace

structure CallStack where
  frames : List Frame := []
deriving DecidableEq

namespace CallStack

def depth (stack : CallStack) : Nat := stack.frames.length

def isEmpty (stack : CallStack) : Bool := stack.frames.isEmpty

def push (stack : CallStack) (seed : Seed) : CallStack := ⟨seed.frame :: stack.frames⟩

def pop (stack : CallStack) : Except Desync (Frame × CallStack) :=
  match stack.frames with
  | [] => .error .stackUnderflow
  | frame :: rest => .ok (frame, ⟨rest⟩)

def top (stack : CallStack) : Except Desync Frame :=
  match stack.frames with
  | [] => .error .noActiveFrame
  | frame :: _ => .ok frame

def modifyTop (stack : CallStack) (change : Frame → Frame) : Except Desync CallStack :=
  match stack.frames with
  | [] => .error .noActiveFrame
  | frame :: rest => .ok ⟨change frame :: rest⟩

@[simp] theorem depth_push (stack : CallStack) (seed : Seed) :
    (stack.push seed).depth = stack.depth + 1 := rfl

theorem top_eq_error_iff (stack : CallStack) (desync : Desync) :
    stack.top = .error desync ↔ stack.depth = 0 ∧ desync = .noActiveFrame := by
  obtain ⟨frames⟩ := stack
  cases frames <;> simp [top, depth, eq_comm]

theorem pop_eq_error_iff (stack : CallStack) (desync : Desync) :
    stack.pop = .error desync ↔ stack.depth = 0 ∧ desync = .stackUnderflow := by
  obtain ⟨frames⟩ := stack
  cases frames <;> simp [pop, depth, eq_comm]

end CallStack

end ShadowTrace
