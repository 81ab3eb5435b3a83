import Unwind.CommandLine

/-!
The program: reads its arguments and files, runs the machine, and writes the answer.
-/

namespace Unwind

/-- The variables that commands look at. -/
def variableNames : List String := ["IR_DEBUG", "IR_TRACE", "NO_COLOR", "CLICOLOR", "CLICOLOR_FORCE"]

def readEnvironment : IO Environment := do
  let values ← variableNames.mapM fun name => do return (name, ← IO.getEnv name)
  return fun name => (values.lookup name).join

/-- The fault of an error number, which may come with a negative sign. -/
def ReadFault.ofNumber (code : UInt32) (text : String) : ReadFault :=
  let magnitude := if code < 0x80000000 then code else 0 - code
  .system text.capitalize magnitude.toNat

/-- The fault behind an error of the system.  An error without a number is about the text. -/
def ReadFault.ofError : IO.Error → ReadFault
  | .noFileOrDirectory _ code text
  | .permissionDenied _ code text
  | .inappropriateType _ code text
  | .invalidArgument _ code text
  | .otherError code text => .ofNumber code text
  | _ => .notText

def readSource (file : String) : IO (Except ReadFault String) := do
  try
    return .ok (← IO.FS.readFile file)
  catch e =>
    return .error (.ofError e)

/-- Runs a machine until it stops, and writes its log as it goes. -/
partial def runToEnd (setup : Setup) (m : Machine) : IO Outcome := do
  let shown := setup.settings.logText m.record.log
  IO.eprint shown
  let m := { m with record := { m.record with log := [] } }
  match m.outcome? with
  | some o => return o
  | none => runToEnd setup (m.advance setup 1000)

def Output.write (o : Output) : IO UInt32 := do
  IO.print o.stdout
  IO.eprint o.stderr
  return UInt32.ofNat o.code

end Unwind

open Unwind in
def main (arguments : List String) : IO UInt32 := do
  match Command.parse? arguments with
  | none =>
      IO.eprint helpText
      return 2
  | some command =>
      let env ← readEnvironment
      let colours := env.colours (← (← IO.getStdout).isTty)
      let contents ← match command.file? with
        | some file => readSource file
        | none => pure (.ok "")
      match command.begin env colours contents with
      | .now o => o.write
      | .afterRun setup m =>
          let o ← runToEnd setup m
          (Output.ofRun setup colours o).write
