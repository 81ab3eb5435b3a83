import Unwind.Machine

/-!
Where runs begin: with a scope, with a method call, with the root of a program, or with a
single instruction.
-/

namespace Unwind

/-- A machine that has not begun. -/
def Machine.idle (receiver : Value) (thread : Thread) (record : Record)
    (activation : Activation) : Machine :=
  ⟨receiver, thread, record, .leaving (.ok .nil) activation []⟩

/-- Runs a scope in an activation. -/
def Setup.interpret (setup : Setup) (receiver : Value) (thread : Thread) (record : Record)
    (id : ScopeId) (activation : Activation) : Machine :=
  (Machine.idle receiver thread record activation).enterScope setup id activation none []

/-- Calls a scope as a method in an activation. -/
def Setup.invoke (setup : Setup) (receiver : Value) (thread : Thread) (record : Record)
    (id : ScopeId) (activation : Activation) (method : String) (module : Module)
    (traceable : Bool) : Machine :=
  (Machine.idle receiver thread record activation).enterMethod setup id activation method module
    traceable []

/-! ## Programs -/

/-- Runs the root of the program, as a call without a name.  A program that has no module yet
gets the module `Object`. -/
def Setup.runRoot (setup : Setup) (receiver : Value) (thread : Thread) (record : Record) :
    Machine :=
  let (module, record) := record.initRootModule .object
  setup.invoke receiver thread record setup.program.root (.fresh .method []) "" module false

/-- What a run of the root ends with: a `break` that left the root was refused after all. -/
def Outcome.ofRoot (setup : Setup) (o : Outcome) : Outcome :=
  let record := o.record.noteIf setup.settings.debug
    (.interpreted setup.program.name o.record.executed)
  let result := match o.result with
    | .error (.breakJump _ v _) =>
        .error (.ofException (.unexpectedBreak v o.thread.backtraceLines))
    | result => result
  { o with result := result, record := record }

/-! ## Single instructions -/

/-- An executed instruction: it went on or branched to a label, or ended in a signal. -/
structure Executed where
  result : Except Signal (Option Label)
  activation : Activation
  thread : Thread
  record : Record

/-- An instruction is executed at once unless it is a call, which a machine has to run. -/
inductive Execution
  | ended (e : Executed)
  | calling (m : Machine) (activation : Activation)

/-- Executes an instruction outside any scope. -/
def Setup.execute (setup : Setup) (receiver : Value) (thread : Thread) (record : Record)
    (activation : Activation) (i : Instr) : Execution :=
  let performed := i.perform thread receiver activation
  let ended (result : Except Signal (Option Label)) : Execution :=
    .ended ⟨result, performed.activation, performed.thread, record⟩
  match performed.effect with
  | .next => ended (.ok none)
  | .branch label => ended (.ok (some label))
  | .signal s => ended (.error s)
  | .call c =>
      let m := Machine.idle receiver performed.thread record performed.activation
      .calling (m.enterCall setup c []) performed.activation

/-- A call instruction after its call: the result goes to the activation that called. -/
def Instr.afterCall (i : Instr) (activation : Activation) (o : Outcome) : Executed :=
  match o.result with
  | .ok v => ⟨.ok none, activation.store i.resultSlot? v, o.thread, o.record⟩
  | .error s => ⟨.error s, activation, o.thread, o.record⟩

end Unwind
