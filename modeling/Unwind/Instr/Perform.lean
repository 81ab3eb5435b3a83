import Unwind.Activation
import Unwind.Thread

/-!
What one instruction does to the thread and to the activation that executes it.

A call is only named here; entering the called scope is the machine's part.
-/

namespace Unwind

/-- A call that an instruction asks for. -/
inductive Call
  | method (scope : ScopeId) (args : List Value)
  | closure (scope : ScopeId) (mode : BlockMode) (args : List Value)
  deriving DecidableEq

/-- How an instruction ends. -/
inductive Effect
  | next
  | branch (target : Label)
  | signal (s : Signal)
  | call (c : Call)
  deriving DecidableEq

/-- The state after an instruction, and how it ended. -/
structure Performed where
  thread : Thread
  activation : Activation
  effect : Effect
  deriving DecidableEq

/-- The signal of raising a value: an exception is raised as it is, a string becomes the
message of a new one, and anything else cannot be raised. -/
def raiseSignal (thread : Thread) : Value → Signal
  | .exception e => .ofException e
  | .str message => .ofException (.plain "RuntimeError" message thread.backtraceLines)
  | v => .ofException (.plain "TypeError"
      ("exception class/object expected, got " ++ v.typeName) thread.backtraceLines)

/-- The pending exception goes to the register; any other pending signal stays, and the
register gets nil. -/
def Activation.receive (a : Activation) (dst : Reg) : Activation :=
  match a.pending with
  | some (.raise v) => a.takePending.2.set dst v
  | _ => a.set dst .nil

/-- Performs an instruction. -/
def Instr.perform (i : Instr) (thread : Thread) (receiver : Value) (a : Activation) :
    Performed :=
  let goOn (a : Activation) : Performed := ⟨thread, a, .next⟩
  let ends (s : Signal) : Performed := ⟨thread, a, .signal s⟩
  match i with
  | .loadConst value dst => goOn (a.set dst value)
  | .copy src dst => goOn (a.set dst (a.operand receiver src))
  | .binary op lhs rhs dst =>
      let lhs := a.operand receiver lhs
      let rhs := a.operand receiver rhs
      match op.apply? lhs rhs with
      | some v => goOn (a.set dst v)
      | none => ends (.ofException
          (.plain "TypeError" (op.refusal lhs rhs) thread.backtraceLines))
  | .jump target => ⟨thread, a, .branch target⟩
  | .branch truthy cond target =>
      if (a.operand receiver cond).isTruthy = truthy then ⟨thread, a, .branch target⟩
      else goOn a
  | .ret value _ => ⟨thread, a.setReturn (a.operand receiver value), .branch .exit⟩
  | .brk value target => ends (.breakJump target (a.operand receiver value) false)
  | .raise value => ends (raiseSignal thread (a.operand receiver value))
  | .fatal message => ends (.fatal message)
  | .receiveException dst => goOn (a.receive dst)
  | .resumePending =>
      match a.takePending with
      | (some s, a) => ⟨thread, a, .signal s⟩
      | (none, a) => goOn a
  | .clearPending => goOn a.takePending.2
  | .callMethod method args _ =>
      ⟨thread, a, .call (.method method (args.map (a.operand receiver)))⟩
  | .callClosure closure mode args _ =>
      ⟨thread, a, .call (.closure closure mode (args.map (a.operand receiver)))⟩
  | .line number => ⟨thread.setLine number, a, .next⟩

end Unwind
