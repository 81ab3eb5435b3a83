import Unwind.Frame
import Unwind.Instr.Perform
import Unwind.Settings
import Unwind.Trace

/-!
The machine that runs programs.

A machine either runs the innermost of its active frames, or is leaving a frame, whose result
goes to the current instruction of its caller.  Each step executes one instruction, ends one
frame, or hands one result to a caller, so that the frames through which a signal passes are
seen one by one.  The machine has stopped once the outermost frame is left.
-/

namespace Unwind

/-- What stays the same while programs run. -/
structure Setup where
  program : Program
  settings : Settings := {}
  observer : Option Observer := none

/-- Tells the observer of an event, if the call is to be traced. -/
def Setup.fire (setup : Setup) (traceable : Bool) (record : Record) (e : Event) :
    Record × Option Signal :=
  match setup.observer with
  | some observer => if traceable then record.tell observer e else (record, none)
  | none => (record, none)

/-- What a machine is about to do; callers begin with the innermost. -/
inductive Control
  | running (frame : Frame) (callers : List Frame)
  | leaving (result : Completion) (activation : Activation) (callers : List Frame)

structure Machine where
  /-- The receiver that all frames share. -/
  receiver : Value
  thread : Thread
  record : Record
  control : Control

/-- The state in which a machine stopped, with the activation of its outermost frame. -/
structure Outcome where
  result : Completion
  activation : Activation
  thread : Thread
  record : Record

/-- The outcome of a machine that has stopped. -/
def Machine.outcome? (m : Machine) : Option Outcome :=
  match m.control with
  | .leaving result activation [] => some ⟨result, activation, m.thread, m.record⟩
  | _ => none

/-! ## Leaving frames -/

/-- Ends a method call: its scope leaves the call stack, observers are told, and then its entry
leaves the backtrace.  The failure of an observer becomes the result, but does not replace a
signal. -/
def MethodCall.finish (c : MethodCall) (setup : Setup) (thread : Thread) (record : Record)
    (result : Completion) : Completion × Thread × Record :=
  let (record, failure) := setup.fire c.traceable record ⟨.ret, c.method, c.module⟩
  let thread := (thread.cutCalls c.callDepth).cutTrace c.traceDepth
  match result, failure with
  | result, none => (result, thread, record)
  | .ok _, some s => (.error s, thread, record)
  | .error s, some failure =>
      (.error s, thread, record.note (.returnTraceFailed c.method failure))

/-- Leaves an invocation, which was nested at a depth and belonged to a method call or not. -/
def Machine.leave (m : Machine) (setup : Setup) (nesting : Nat) (call : Option MethodCall)
    (activation : Activation) (callers : List Frame) (result : Completion) : Machine :=
  let thread := { m.thread with nesting := nesting }
  match call with
  | none => { m with thread := thread, control := .leaving result activation callers }
  | some c =>
      let (result, thread, record) := c.finish setup thread m.record result
      { m with
        thread := thread
        record := record
        control := .leaving result activation callers }

/-- Leaves a frame with a result. -/
def Machine.leaveFrame (m : Machine) (setup : Setup) (frame : Frame) (callers : List Frame)
    (result : Completion) : Machine :=
  m.leave setup frame.nesting frame.call frame.activation callers result

/-! ## Entering scopes -/

/-- The signal of a scope that is nested too deeply. -/
def Signal.tooDeep : Signal := .fatal "stack level too deep"

/-- The signal of a scope that the program does not have. -/
def Signal.unknownScope (p : Program) (id : ScopeId) : Signal :=
  .fatal (id.text ++ " is not part of unit " ++ p.name)

/-- The signal of a branch to a label that names no place. -/
def Signal.unplacedLabel (label : Label) : Signal :=
  .fatal ("branch to unplaced label " ++ label.text)

/-- Enters a scope, unless scopes are nested as deeply as they may be. -/
def Machine.enterScope (m : Machine) (setup : Setup) (id : ScopeId) (activation : Activation)
    (call : Option MethodCall) (callers : List Frame) : Machine :=
  let nesting := m.thread.nesting
  if setup.settings.maxCallDepth ≤ nesting then
    m.leave setup nesting call activation callers (.error .tooDeep)
  else
    match setup.program.scope? id with
    | none =>
        m.leave setup nesting call activation callers (.error (.unknownScope setup.program id))
    | some scope =>
        let activation := activation.reserve scope.code.registerCount
        { m with
          thread := { m.thread with nesting := nesting + 1 }
          control := .running
            { scope := scope, activation := activation, nesting := nesting, call := call }
            callers }

/-- Enters a scope as a method: it goes onto the call stack and, if the call has a name, into
the backtrace, and observers are told before it runs. -/
def Machine.enterMethod (m : Machine) (setup : Setup) (id : ScopeId) (activation : Activation)
    (method : String) (module : Module) (traceable : Bool) (callers : List Frame) : Machine :=
  let call : MethodCall :=
    ⟨method, module, traceable, m.thread.calls.length, m.thread.backtrace.length⟩
  let thread := m.thread.pushCall id
  let thread := if method.isEmpty then thread else thread.pushTrace module method
  let (record, failure) := setup.fire traceable m.record ⟨.call, method, module⟩
  let m := { m with thread := thread, record := record }
  match failure with
  | some s => m.leave setup thread.nesting (some call) activation callers (.error s)
  | none => m.enterScope setup id activation (some call) callers

/-- Enters the scope of a call.  A method is called by the name of its scope. -/
def Machine.enterCall (m : Machine) (setup : Setup) (c : Call) (callers : List Frame) :
    Machine :=
  match c with
  | .method id args =>
      let activation := Activation.fresh .method args
      match setup.program.scope? id with
      | none =>
          { m with control :=
              .leaving (.error (.unknownScope setup.program id)) activation callers }
      | some scope =>
          m.enterMethod setup id activation scope.name m.record.module setup.settings.traceCalls
            callers
  | .closure id mode args =>
      m.enterScope setup id (.fresh (.ofMode mode) args) none callers

/-! ## Steps -/

/-- Does what a frame makes of a signal at its current place. -/
def Machine.settle (m : Machine) (setup : Setup) (frame : Frame) (callers : List Frame)
    (s : Signal) : Machine :=
  let verdict := frame.verdict m.thread s
  let record := match verdict.raised? with
    | some v => m.record.noteIf setup.settings.debug (.caughtRaise frame.scope.name frame.pc v)
    | none => m.record
  let m := { m with record := record }
  match verdict with
  | .finish v => m.leaveFrame setup frame callers (.ok v)
  | .resume v => { m with control := .running (frame.resume v) callers }
  | .handle pc s => { m with control := .running (frame.handle pc s) callers }
  | .pass s => m.leaveFrame setup frame callers (.error s)

/-- Executes the next instruction of a frame. -/
def Machine.execute (m : Machine) (setup : Setup) (frame : Frame) (callers : List Frame)
    (i : Instr) : Machine :=
  let record := m.record.count.noteIf setup.settings.debug
    (.executing frame.scope.name frame.pc i)
  let performed := i.perform m.thread m.receiver frame.activation
  let frame := { frame with last := some i, activation := performed.activation }
  let m := { m with thread := performed.thread, record := record }
  match performed.effect with
  | .next => { m with control := .running (frame.goTo (frame.pc + 1)) callers }
  | .branch label =>
      match frame.scope.code.place? label with
      | some pc => { m with control := .running (frame.goTo pc) callers }
      | none => m.settle setup frame callers (.unplacedLabel label)
  | .signal s => m.settle setup frame callers s
  | .call c => m.enterCall setup c (frame :: callers)

/-- Ends a frame that has come to the end of its code. -/
def Machine.closeFrame (m : Machine) (setup : Setup) (frame : Frame) (callers : List Frame) :
    Machine :=
  let orphaned := frame.leavingReturn?.any (frame.isOrphaned m.thread)
  let record := m.record.noteIf (setup.settings.debug && orphaned)
    (.raisingUnexpectedReturn frame.scope.name)
  { m with record := record }.leaveFrame setup frame callers (frame.close m.thread)

/-- One step.  A machine that has stopped stays as it is. -/
def Machine.step (setup : Setup) (m : Machine) : Machine :=
  match m.control with
  | .running frame callers =>
      match frame.next? with
      | some i => m.execute setup frame callers i
      | none => m.closeFrame setup frame callers
  | .leaving (.ok v) _ (frame :: callers) =>
      { m with control := .running (frame.resume v) callers }
  | .leaving (.error s) _ (frame :: callers) => m.settle setup frame callers s
  | .leaving _ _ [] => m

/-- As many steps as asked for. -/
def Machine.advance (setup : Setup) : Nat → Machine → Machine
  | 0, m => m
  | n + 1, m => Machine.advance setup n (m.step setup)

/-- Whether a machine stops with an outcome. -/
def Machine.Stops (setup : Setup) (m : Machine) (o : Outcome) : Prop :=
  ∃ n, (m.advance setup n).outcome? = some o

/-- A machine that has stopped does not move any more. -/
theorem Machine.step_of_outcome {setup : Setup} {m : Machine} {o : Outcome}
    (stopped : m.outcome? = some o) : m.step setup = m := by
  obtain ⟨receiver, thread, record, control⟩ := m
  cases control with
  | running frame callers => simp [Machine.outcome?] at stopped
  | leaving result activation callers =>
      cases callers with
      | nil => cases result <;> simp [Machine.step]
      | cons frame callers => simp [Machine.outcome?] at stopped

theorem Machine.advance_of_outcome {setup : Setup} {m : Machine} {o : Outcome}
    (stopped : m.outcome? = some o) (n : Nat) : m.advance setup n = m := by
  induction n with
  | zero => rfl
  | succ n ih => rw [Machine.advance, Machine.step_of_outcome stopped, ih]

theorem Machine.advance_add (setup : Setup) (a b : Nat) (m : Machine) :
    m.advance setup (a + b) = (m.advance setup a).advance setup b := by
  induction a generalizing m with
  | zero => simp [Machine.advance]
  | succ a ih => rw [Nat.succ_add, Machine.advance, ih, Machine.advance]

/-- A machine stops with one outcome at most. -/
theorem Machine.stops_unique {setup : Setup} {m : Machine} {o p : Outcome}
    (first : m.Stops setup o) (second : m.Stops setup p) : o = p := by
  obtain ⟨a, ha⟩ := first
  obtain ⟨b, hb⟩ := second
  have ab : (m.advance setup (a + b)).outcome? = some o := by
    rw [Machine.advance_add, Machine.advance_of_outcome ha, ha]
  have ba : (m.advance setup (b + a)).outcome? = some p := by
    rw [Machine.advance_add, Machine.advance_of_outcome hb, hb]
  rw [Nat.add_comm, ba] at ab
  exact (Option.some.inj ab).symm

end Unwind
