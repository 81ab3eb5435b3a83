import Unwind.Instr
import Unwind.Signal
import Unwind.Text.Terminal
import Unwind.Thread

/-!
What can be observed of a run: trace events of method calls, the log, and the number of
executed instructions.

Observers listen to trace events.  They change nothing, but an observer may fail, and then the
call that it was told of fails with that signal.
-/

namespace Unwind

/-! ## Events -/

inductive EventKind
  | call
  | ret
  deriving DecidableEq

def EventKind.text : EventKind → String
  | .call => "call"
  | .ret => "return"

/-- A method call begins or ends. -/
structure Event where
  kind : EventKind
  method : String
  module : Module
  deriving DecidableEq

/-- The method of an event as logs show it. -/
def Event.target (e : Event) : String := e.module.name ++ "#" ++ e.method

/-- An observer of trace events. -/
structure Observer where
  /-- Whether it listens at all. -/
  listens : Bool := true
  /-- Whether it writes the events to the log. -/
  logs : Bool := false
  /-- The failure with which it answers an event, given the earlier ones, latest first. -/
  failure? : List Event → Event → Option Signal := fun _ _ => none

/-- The observer that keeps the events and never fails. -/
def Observer.recorder : Observer := {}

/-- The observer that writes the events to the log. -/
def Observer.logger : Observer := { logs := true }

/-- The observer that does not listen. -/
def Observer.deaf : Observer := { listens := false }

/-- The observer that fails with a signal on the events that fit. -/
def Observer.failing (fits : Event → Bool) (s : Signal) : Observer where
  failure? _ e := if fits e then some s else none

/-! ## The log -/

inductive LogLevel
  | warn
  | info
  | debug
  deriving DecidableEq

def LogLevel.text : LogLevel → String
  | .warn => "WARN"
  | .info => "INFO"
  | .debug => "DEBUG"

inductive LogEntry
  | executing (scope : String) (pc : Nat) (instr : Instr)
  | caughtRaise (scope : String) (pc : Nat) (raised : Value)
  | raisingUnexpectedReturn (scope : String)
  | interpreted (program : String) (count : Nat)
  | returnTraceFailed (method : String) (failure : Signal)
  | traced (e : Event)
  deriving DecidableEq

def LogEntry.level : LogEntry → LogLevel
  | .executing _ _ _ => .debug
  | .caughtRaise _ _ _ => .debug
  | .raisingUnexpectedReturn _ => .debug
  | .interpreted _ _ => .info
  | .returnTraceFailed _ _ => .warn
  | .traced _ => .info

/-- Where an entry comes from: trace events have a source of their own. -/
def LogEntry.source : LogEntry → String
  | .traced _ => "ir_interp::trace"
  | _ => "ir_interp::interpreter"

/-- What an entry says. -/
def LogEntry.message : LogEntry → String
  | .executing _ _ i => "I: " ++ i.text
  | .caughtRaise _ _ _ => "caught raise"
  | .raisingUnexpectedReturn _ => "raising unexpected return local jump error"
  | .interpreted _ _ => "interpreted instructions"
  | .returnTraceFailed _ _ => "return trace failed while unwinding; keeping in-flight signal"
  | .traced e => e.target

/-- The named details of an entry, in the order in which they follow its message. -/
def LogEntry.fields : LogEntry → List (String × String)
  | .executing scope pc _ => [("scope", scope), ("ipc", toString pc)]
  | .caughtRaise scope pc raised =>
      [("scope", scope), ("ipc", toString pc), ("exception", raised.text)]
  | .raisingUnexpectedReturn scope => [("scope", scope)]
  | .interpreted program count => [("unit", program), ("count", toString count)]
  | .returnTraceFailed method failure => [("method", method), ("failure", failure.text)]
  | .traced e => [("event", e.kind.text)]

/-- The line of an entry, with its message in the given form. -/
def LogEntry.lineWith (form : String → String) (entry : LogEntry) : String :=
  entry.level.text ++ " " ++ entry.source ++ ": " ++ form entry.message
    ++ String.join (entry.fields.map fun field => " " ++ field.1 ++ "=" ++ field.2)

def LogEntry.line (entry : LogEntry) : String := entry.lineWith id

/-- The line of an entry on a terminal: its message is inert, the details are as they are. -/
def LogEntry.terminalLine (entry : LogEntry) : String := entry.lineWith inert

/-! ## The record of runs -/

/-- What outlives a run: the number of executed instructions, the events that observers heard
and the log, both latest first, and the module that the program was given. -/
structure Record where
  executed : Nat := 0
  heard : List Event := []
  log : List LogEntry := []
  rootModule : Option Module := none
  deriving DecidableEq

def Record.count (r : Record) : Record := { r with executed := r.executed + 1 }

def Record.note (r : Record) (entry : LogEntry) : Record := { r with log := entry :: r.log }

/-- Notes an entry where a setting asks for it. -/
def Record.noteIf (r : Record) (wanted : Bool) (entry : LogEntry) : Record :=
  if wanted then r.note entry else r

/-- Tells an observer of an event; gives its failure, if it fails. -/
def Record.tell (r : Record) (observer : Observer) (e : Event) : Record × Option Signal :=
  if observer.listens then
    ({ r with heard := e :: r.heard }.noteIf observer.logs (.traced e),
      observer.failure? r.heard e)
  else (r, none)

/-- The module of the program's methods. -/
def Record.module (r : Record) : Module := r.rootModule.getD .object

/-- Gives the program a module unless it has one; tells whether it took it. -/
def Record.setRootModule (r : Record) (m : Module) : Bool × Record :=
  if r.rootModule.isSome then (false, r) else (true, { r with rootModule := some m })

/-- The module that the program has after it was offered one. -/
def Record.initRootModule (r : Record) (m : Module) : Module × Record :=
  (r.rootModule.getD m, (r.setRootModule m).2)

end Unwind
