import Unwind.Instr
import Unwind.Signal

/-!
Activations: what one invocation of a scope owns, and nobody else.
-/

namespace Unwind

/-- How a scope was entered. -/
inductive Invocation
  | method
  | block
  | lambda
  | proc
  deriving DecidableEq

def Invocation.ofMode : BlockMode → Invocation
  | .block => .block
  | .lambda => .lambda
  | .proc => .proc

def Invocation.text : Invocation → String
  | .method => "method"
  | .block => "block"
  | .lambda => "lambda"
  | .proc => "proc"

structure Activation where
  invocation : Invocation
  registers : Array Value := #[]
  /-- The signal that handler code was entered with. -/
  pending : Option Signal := none
  returnValue : Value := .nil
  deriving DecidableEq

/-- A new activation; the arguments are in the first registers. -/
def Activation.fresh (invocation : Invocation) (args : List Value) : Activation :=
  { invocation := invocation, registers := args.toArray }

def Activation.inLambda (a : Activation) : Bool := a.invocation == .lambda

def Activation.inProc (a : Activation) : Bool := a.invocation == .proc

/-- Registers filled up with nil to at least the given number. -/
def padRegisters (registers : Array Value) (count : Nat) : Array Value :=
  registers ++ Array.replicate (count - registers.size) Value.nil

def Activation.reserve (a : Activation) (count : Nat) : Activation :=
  { a with registers := padRegisters a.registers count }

/-- A register beyond the last one holds nil. -/
def Activation.get (a : Activation) (r : Reg) : Value := a.registers.getD r.toNat .nil

/-- Writes a register, after making room for it. -/
def Activation.set (a : Activation) (r : Reg) (v : Value) : Activation :=
  { a with registers := (padRegisters a.registers (r.toNat + 1)).setIfInBounds r.toNat v }

/-- Writes a result where there is a register for it. -/
def Activation.store (a : Activation) : Option Reg → Value → Activation
  | none, _ => a
  | some r, v => a.set r v

def Activation.operand (a : Activation) (receiver : Value) : Operand → Value
  | .reg r => a.get r
  | .const v => v
  | .receiver => receiver
  | .nil => .nil

def Activation.setPending (a : Activation) (s : Signal) : Activation :=
  { a with pending := some s }

def Activation.takePending (a : Activation) : Option Signal × Activation :=
  (a.pending, { a with pending := none })

def Activation.setReturn (a : Activation) (v : Value) : Activation :=
  { a with returnValue := v }

section Witness

example : ((Activation.fresh .method []).set ⟨3⟩ (.int 9)).registers =
    #[.nil, .nil, .nil, .int 9] := by decide

example : ((Activation.fresh .method [.int 1]).reserve 3).get ⟨0⟩ = .int 1 := by decide

end Witness

end Unwind
