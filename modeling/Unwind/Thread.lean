import Unwind.Name

/-!
The state of a thread of execution: the scopes of its active method calls, its backtrace, how
deeply scopes are nested, and where in the source it is.

Both stacks begin with the innermost entry.
-/

namespace Unwind

/-- The module that methods belong to, known by its name. -/
structure Module where
  name : String
  deriving DecidableEq

/-- The module of programs that were given none. -/
def Module.object : Module := ⟨"Object"⟩

/-- An entry of the backtrace: a named call, and where the thread was when it began. -/
structure TraceFrame where
  module : Module
  method : String
  file : String
  line : UInt32
  deriving DecidableEq

def TraceFrame.text (f : TraceFrame) : String :=
  f.file ++ ":" ++ toString f.line.toNat ++ ":in `" ++ f.module.name ++ "#" ++ f.method ++ "'"

structure Thread where
  calls : List ScopeId := []
  backtrace : List TraceFrame := []
  nesting : Nat := 0
  file : String
  line : UInt32 := 0
  deriving DecidableEq

/-- A thread that has not begun. -/
def Thread.fresh (file : String) : Thread := { file := file }

/-- The texts of the backtrace, innermost first. -/
def Thread.backtraceLines (t : Thread) : List String := t.backtrace.map TraceFrame.text

def Thread.setLine (t : Thread) (line : UInt32) : Thread := { t with line := line }

/-! ## The call stack -/

def Thread.pushCall (t : Thread) (scope : ScopeId) : Thread :=
  { t with calls := scope :: t.calls }

def Thread.popCall (t : Thread) : Option ScopeId × Thread :=
  (t.calls.head?, { t with calls := t.calls.tail })

/-- Whether a method call of the scope is active. -/
def Thread.isActive (t : Thread) (scope : ScopeId) : Bool := t.calls.contains scope

/-! ## The backtrace -/

def Thread.pushTrace (t : Thread) (module : Module) (method : String) : Thread :=
  { t with backtrace := ⟨module, method, t.file, t.line⟩ :: t.backtrace }

def Thread.popTrace (t : Thread) : Option TraceFrame × Thread :=
  (t.backtrace.head?, { t with backtrace := t.backtrace.tail })

/-! ## Going back to a depth -/

/-- The outermost entries of a stack, as many as asked for if there are that many. -/
def outermost {α : Type} (depth : Nat) (stack : List α) : List α :=
  stack.drop (stack.length - depth)

/-- What was pushed on top of a stack is gone again. -/
theorem outermost_append {α : Type} (inner outer : List α) :
    outermost outer.length (inner ++ outer) = outer := by
  simp [outermost]

def Thread.cutCalls (t : Thread) (depth : Nat) : Thread :=
  { t with calls := outermost depth t.calls }

def Thread.cutTrace (t : Thread) (depth : Nat) : Thread :=
  { t with backtrace := outermost depth t.backtrace }

section Witness

example : (((Thread.fresh "demo.json").setLine 7).pushTrace .object "inner").backtraceLines =
    ["demo.json:7:in `Object#inner'"] := by decide +kernel

end Witness

end Unwind
