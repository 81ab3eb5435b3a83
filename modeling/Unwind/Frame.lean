import Unwind.Activation
import Unwind.Program
import Unwind.Thread

/-!
Frames: the active invocations of scopes, and what each makes of a signal.

A frame decides about a signal from its own scope, its place in the code, and how it was
entered: it may end with a value, go on behind the current call, enter a handler, or pass the
signal to its caller.
-/

namespace Unwind

/-- What a method call has to undo when it ends. -/
structure MethodCall where
  method : String
  module : Module
  /-- Whether observers are told of the call. -/
  traceable : Bool
  /-- The depth of the call stack before the call. -/
  callDepth : Nat
  /-- The depth of the backtrace before the call. -/
  traceDepth : Nat
  deriving DecidableEq

structure Frame where
  scope : Scope
  activation : Activation
  pc : Nat := 0
  /-- The instruction that was executed last. -/
  last : Option Instr := none
  /-- How deeply scopes were nested before this one was entered. -/
  nesting : Nat
  /-- The method call that the frame belongs to; closures are no method calls. -/
  call : Option MethodCall
  deriving DecidableEq

/-- The instruction that comes next; `none` past the end. -/
def Frame.next? (f : Frame) : Option Instr := f.scope.code.instr? f.pc

def Frame.goTo (f : Frame) (pc : Nat) : Frame := { f with pc := pc }

/-- Goes on behind the current instruction, which has the given result. -/
def Frame.resume (f : Frame) (v : Value) : Frame :=
  { f with
    pc := f.pc + 1
    activation := f.activation.store (f.last.bind Instr.resultSlot?) v }

/-- Enters handler code with a pending signal. -/
def Frame.handle (f : Frame) (pc : Nat) (s : Signal) : Frame :=
  { f with pc := pc, activation := f.activation.setPending s }

/-! ## Signals -/

/-- What a frame makes of a signal. -/
inductive Verdict
  /-- The frame ends with a value. -/
  | finish (v : Value)
  /-- The current instruction is complete with a value. -/
  | resume (v : Value)
  /-- The frame's own handler is entered. -/
  | handle (pc : Nat) (s : Signal)
  /-- The signal goes on to the caller. -/
  | pass (s : Signal)
  deriving DecidableEq

/-- A raise meets the innermost rescue code around the current place. -/
def Frame.onRaise (f : Frame) (v : Value) : Verdict :=
  match f.scope.code.rescuerAt? f.pc with
  | some pc => .handle pc (.raise v)
  | none => .pass (.raise v)

/-- A signal that rescue code does not see meets the innermost ensure code. -/
def Frame.onUnrescued (f : Frame) (s : Signal) : Verdict :=
  match f.scope.code.ensurerAt? f.pc with
  | some pc => .handle pc s
  | none => .pass s

/-- A `return` on its way out ends at a lambda, or at the method that it looks for. -/
def Frame.onReturnJump (f : Frame) (target : Option ScopeId) (v : Value) : Verdict :=
  if f.activation.inLambda ∨ target = some f.scope.id then .finish v
  else .pass (.returnJump target v)

/-- The raise of a `break` that this frame refuses. -/
def Frame.onUnexpectedBreak (f : Frame) (thread : Thread) (v : Value) : Verdict :=
  f.onRaise (.exception (.unexpectedBreak v thread.backtraceLines))

/-- A `break` of the frame itself is refused outside closures and in detached procedures, and a
lambda claims it.  A `break` from a callee must not reach a lambda; a claimed one, or one that
looks for this scope, completes the current call; any other runs ensure code on its way. -/
def Frame.onBreakJump (f : Frame) (thread : Thread) (target : ScopeId) (v : Value)
    (claimed : Bool) : Verdict :=
  if f.last.any Instr.isBreak then
    if !f.scope.isClosure || f.activation.inProc then f.onUnexpectedBreak thread v
    else .pass (.breakJump target v (claimed || f.activation.inLambda))
  else if f.activation.inLambda then f.onUnexpectedBreak thread v
  else if claimed || target == f.scope.id then .resume v
  else f.onUnrescued (.breakJump target v claimed)

/-- What a frame makes of a signal at its current place. -/
def Frame.verdict (f : Frame) (thread : Thread) : Signal → Verdict
  | .raise v => f.onRaise v
  | .fatal message => f.onUnrescued (.fatal message)
  | .returnJump target v => f.onReturnJump target v
  | .breakJump target v claimed => f.onBreakJump thread target v claimed

/-- The value of a raise that a verdict is about. -/
def Verdict.raised? : Verdict → Option Value
  | .handle _ (.raise v) => some v
  | .pass (.raise v) => some v
  | _ => none

/-! ## The end of the code -/

/-- Whether the frame's last instruction is a return that still has to reach its method. -/
def Frame.leavingReturn? (f : Frame) : Option (Option ScopeId) :=
  match f.last with
  | some (.ret _ method) => if f.activation.inLambda then none else some method
  | _ => none

/-- Whether a return out of this frame has lost its method. -/
def Frame.isOrphaned (f : Frame) (thread : Thread) (method : Option ScopeId) : Bool :=
  f.scope.isClosure && !method.any thread.isActive

/-- How a frame ends at the end of its code: with its return value, unless that was set by a
return out of a closure or one that names its method. -/
def Frame.close (f : Frame) (thread : Thread) : Completion :=
  let v := f.activation.returnValue
  match f.leavingReturn? with
  | none => .ok v
  | some method =>
      if f.isOrphaned thread method then
        .error (.ofException (.unexpectedReturn v thread.backtraceLines))
      else if f.scope.isClosure || method.isSome then .error (.returnJump method v)
      else .ok v

end Unwind
