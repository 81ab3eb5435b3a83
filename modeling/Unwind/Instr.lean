import Unwind.Name
import Unwind.Value.Arithmetic

/-!
The instructions of a scope.

An instruction goes on to the next one, branches to a label, calls another scope, or ends in a
signal.
-/

namespace Unwind

inductive Operand
  | reg (r : Reg)
  | const (v : Value)
  /-- The receiver of the executing frame. -/
  | receiver
  | nil
  deriving DecidableEq

def Operand.text : Operand → String
  | .reg r => r.text
  | .const v => v.text
  | .receiver => "self"
  | .nil => "nil"

def Operand.reg? : Operand → Option Reg
  | .reg r => some r
  | _ => none

/-- How a closure is called: yielded to by the frame that passed it, as a lambda, or as a
detached procedure. -/
inductive BlockMode
  | block
  | lambda
  | proc
  deriving DecidableEq

def BlockMode.text : BlockMode → String
  | .block => "block"
  | .lambda => "lambda"
  | .proc => "proc"

inductive Instr
  | loadConst (value : Value) (dst : Reg)
  | copy (src : Operand) (dst : Reg)
  | binary (op : BinaryOp) (lhs rhs : Operand) (dst : Reg)
  | jump (target : Label)
  /-- Branches if the condition's truthiness is as told. -/
  | branch (truthy : Bool) (cond : Operand) (target : Label)
  /-- Sets the frame's return value and leaves the scope; `method` names the frame that a
  return out of a closure has to reach. -/
  | ret (value : Operand) (method : Option ScopeId)
  | brk (value : Operand) (target : ScopeId)
  | raise (value : Operand)
  | fatal (message : String)
  /-- Moves a pending raised exception into a register. -/
  | receiveException (dst : Reg)
  /-- Ends in the pending signal again, if there is one. -/
  | resumePending
  | clearPending
  | callMethod (method : ScopeId) (args : List Operand) (dst : Option Reg)
  | callClosure (closure : ScopeId) (mode : BlockMode) (args : List Operand) (dst : Option Reg)
  | line (number : UInt32)
  deriving DecidableEq

/-- The register that takes the result of an instruction, and the value of a `break` that the
instruction consumes. -/
def Instr.resultSlot? : Instr → Option Reg
  | .loadConst _ dst => some dst
  | .copy _ dst => some dst
  | .binary _ _ _ dst => some dst
  | .receiveException dst => some dst
  | .callMethod _ _ dst => dst
  | .callClosure _ _ _ dst => dst
  | _ => none

def Instr.isBreak : Instr → Bool
  | .brk _ _ => true
  | _ => false

def Instr.isReturn : Instr → Bool
  | .ret _ _ => true
  | _ => false

/-- The label that an instruction may branch to.  A return is not a branch. -/
def Instr.branchTarget? : Instr → Option Label
  | .jump target => some target
  | .branch _ _ target => some target
  | _ => none

/-- The operands that an instruction reads, in order. -/
def Instr.operands : Instr → List Operand
  | .copy src _ => [src]
  | .binary _ lhs rhs _ => [lhs, rhs]
  | .branch _ cond _ => [cond]
  | .ret value _ => [value]
  | .brk value _ => [value]
  | .raise value => [value]
  | .callMethod _ args _ => args
  | .callClosure _ _ args _ => args
  | _ => []

/-- The registers that an instruction reads, and then the one that it writes. -/
def Instr.registers (i : Instr) : List Reg :=
  i.operands.filterMap Operand.reg? ++ i.resultSlot?.toList

/-! ## Text -/

def argumentText (args : List Operand) : String :=
  "(" ++ String.intercalate ", " (args.map Operand.text) ++ ")"

/-- The result register in front of a call that has one. -/
def assignment (dst : Option Reg) : String := dst.elim "" fun r => r.text ++ " = "

def Instr.text : Instr → String
  | .loadConst value dst => dst.text ++ " = " ++ value.text
  | .copy src dst => dst.text ++ " = " ++ src.text
  | .binary op lhs rhs dst =>
      dst.text ++ " = " ++ lhs.text ++ " " ++ op.symbol ++ " " ++ rhs.text
  | .jump target => "jump " ++ target.text
  | .branch true cond target => "branch_if " ++ cond.text ++ ", " ++ target.text
  | .branch false cond target => "branch_unless " ++ cond.text ++ ", " ++ target.text
  | .ret value none => "return " ++ value.text
  | .ret value (some method) => "return " ++ value.text ++ " from " ++ method.text
  | .brk value target => "break " ++ value.text ++ " to " ++ target.text
  | .raise value => "raise " ++ value.text
  | .fatal message => "fatal " ++ quoted message
  | .receiveException dst => dst.text ++ " = $!"
  | .resumePending => "resume_pending"
  | .clearPending => "clear_pending"
  | .callMethod method args dst =>
      assignment dst ++ "call " ++ method.text ++ argumentText args
  | .callClosure closure mode args dst =>
      assignment dst ++ "call_" ++ mode.text ++ " " ++ closure.text ++ argumentText args
  | .line number => "line " ++ toString number.toNat

section Witness

example : (Instr.binary .add (.reg ⟨3⟩) (.const (.int 1)) ⟨0⟩).registers = [⟨3⟩, ⟨0⟩] := by
  decide

example : (Instr.callMethod ⟨1⟩ [.reg ⟨4⟩, .receiver] none).registers = [⟨4⟩] := by decide

example : (Instr.callClosure ⟨2⟩ .lambda [.nil, .receiver] (some ⟨1⟩)).text =
    "r1 = call_lambda scope#2(nil, self)" := by decide +kernel

end Witness

end Unwind
