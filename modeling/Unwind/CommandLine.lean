import Unwind.Listing.Codec
import Unwind.Machine.Entry

/-!
The command line.

There are two commands: `run` runs the program of a file from its root, and `dump` prints its
listing.  A command line that says anything else is refused with the exit code 2.
-/

namespace Unwind

/-- What to run, and how. -/
structure RunOptions where
  file : String
  debug : Bool := false
  trace : Bool := false
  maxDepth : Option Nat := none
  deriving DecidableEq

inductive Command
  | run (options : RunOptions)
  | dump (file : String)
  | version
  | help (text : String)
  deriving DecidableEq

/-- The file that a command reads. -/
def Command.file? : Command → Option String
  | .run options => some options.file
  | .dump file => some file
  | .version => none
  | .help _ => none

/-! ## Arguments -/

/-- A number of at most 64 bits, in decimal digits, possibly behind a plus sign. -/
def depthOfText? (s : String) : Option Nat :=
  let digits := match s.toList with
    | '+' :: rest => rest
    | cs => cs
  if digits.isEmpty ∨ ¬ digits.all Char.isDigit then none
  else
    let n := digits.foldl (fun n c => n * 10 + (c.toNat - '0'.toNat)) 0
    if n < 0x10000000000000000 then some n else none

/-- The options of a command as they are found; each may be given once. -/
structure FoundOptions where
  file : Option String := none
  debug : Bool := false
  trace : Bool := false
  maxDepth : Option Nat := none

/-- Takes the file, which may be given once and has a name. -/
def FoundOptions.takeFile? (found : FoundOptions) (file : String) : Option FoundOptions :=
  if found.file.isSome || file.isEmpty then none else some { found with file := some file }

def FoundOptions.takeDepth? (found : FoundOptions) (value : String) : Option FoundOptions :=
  if found.maxDepth.isSome then none
  else (depthOfText? value).map fun n => { found with maxDepth := some n }

/-- The arguments behind `--` are all files. -/
def FoundOptions.takeFiles? (found : FoundOptions) : List String → Option FoundOptions
  | [] => some found
  | file :: rest => (found.takeFile? file).bind fun found => found.takeFiles? rest

/-- What a list of arguments amounts to. -/
inductive Parsed (α : Type)
  | done (a : α)
  | help
  | refused

def Parsed.ofOption {α : Type} : Option α → Parsed α
  | some a => .done a
  | none => .refused

/-- The value of an option written as `--max-depth=N`. -/
def attachedDepth? (argument : String) : Option String :=
  let flag := "--max-depth=".toList
  if argument.toList.take flag.length = flag then
    some (String.ofList (argument.toList.drop flag.length))
  else none

/-- Whether an argument is a flag and not a file; a single dash is a file. -/
def isFlag (argument : String) : Bool :=
  argument.toList.head? == some '-' && argument ≠ "-"

/-- Reads the arguments of a command.  Only `run` has flags of its own. -/
def FoundOptions.parse (hasFlags : Bool) (found : FoundOptions) :
    List String → Parsed FoundOptions
  | [] => .done found
  | ["--max-depth"] => .refused
  | "--" :: rest => .ofOption (found.takeFiles? rest)
  | "--max-depth" :: value :: rest =>
      match if hasFlags then found.takeDepth? value else none with
      | some found => found.parse hasFlags rest
      | none => .refused
  | argument :: rest =>
      if isFlag argument then
        if argument = "--help" ∨ argument.toList.take 2 = ['-', 'h'] then .help
        else if !hasFlags then .refused
        else if argument = "--debug" ∧ found.debug = false then
          { found with debug := true }.parse hasFlags rest
        else if argument = "--trace" ∧ found.trace = false then
          { found with trace := true }.parse hasFlags rest
        else
          match (attachedDepth? argument).bind found.takeDepth? with
          | some found => found.parse hasFlags rest
          | none => .refused
      else
        match found.takeFile? argument with
        | some found => found.parse hasFlags rest
        | none => .refused

/-! ## Help -/

def helpText : String :=
  "Run CFG-based IR compilation units\n\nUsage: ir-interp <COMMAND>\n\nCommands:\n"
    ++ "  run   Run a compilation unit from its top-level entry\n"
    ++ "  dump  Print the scopes and instruction layout of a unit\n"
    ++ "  help  Print this message or the help of the given subcommand(s)\n\nOptions:\n"
    ++ "  -h, --help     Print help\n  -V, --version  Print version\n"

def runHelpText : String :=
  "Run a compilation unit from its top-level entry\n\n"
    ++ "Usage: ir-interp run [OPTIONS] <FILE>\n\n"
    ++ "Arguments:\n  <FILE>  Path to the .json unit file\n\nOptions:\n"
    ++ "      --debug          Log every executed instruction\n"
    ++ "      --trace          Emit call/return events for named method calls\n"
    ++ "      --max-depth <N>  Maximum nesting of method and block calls\n"
    ++ "  -h, --help           Print help\n"

def dumpHelpText : String :=
  "Print the scopes and instruction layout of a unit\n\nUsage: ir-interp dump <FILE>\n\n"
    ++ "Arguments:\n  <FILE>  Path to the .json unit file\n\nOptions:\n"
    ++ "  -h, --help  Print help\n"

def versionText : String := "ir-interp 0.1.0\n"

/-! ## Commands -/

def Command.parseRun? (arguments : List String) : Option Command :=
  match ({} : FoundOptions).parse true arguments with
  | .done found => found.file.map fun file =>
      .run ⟨file, found.debug, found.trace, found.maxDepth⟩
  | .help => some (.help runHelpText)
  | .refused => none

def Command.parseDump? (arguments : List String) : Option Command :=
  match ({} : FoundOptions).parse false arguments with
  | .done found => found.file.map .dump
  | .help => some (.help dumpHelpText)
  | .refused => none

/-- The command that a list of arguments asks for, unless they are refused. -/
def Command.parse? : List String → Option Command
  | "run" :: arguments => Command.parseRun? arguments
  | "dump" :: arguments => Command.parseDump? arguments
  | ["help"] => some (.help helpText)
  | ["help", "run"] => some (.help runHelpText)
  | ["help", "dump"] => some (.help dumpHelpText)
  | "--version" :: _ => some .version
  | "--help" :: _ => some (.help helpText)
  | argument :: _ =>
      match argument.toList with
      | '-' :: 'V' :: _ => some .version
      | '-' :: 'h' :: _ => some (.help helpText)
      | _ => none
  | [] => none

/-! ## Answers -/

/-- The environment variables that are set. -/
abbrev Environment := String → Option String

def Environment.isOn (env : Environment) (name : String) : Bool := (env name).any flagValue

/-- Whether reports are in colour: variables may force or forbid it, and otherwise it is for
terminals. -/
def Environment.colours (env : Environment) (terminal : Bool) : Bool :=
  if (env "CLICOLOR_FORCE").any (· != "0") then true
  else if (env "NO_COLOR").isSome then false
  else (env "CLICOLOR").all (· != "0") && terminal

/-- Why a file cannot be read, in the words of the system. -/
inductive ReadFault
  | system (text : String) (code : Nat)
  | notText

def ReadFault.missing : ReadFault := .system "No such file or directory" 2

def ReadFault.isDirectory : ReadFault := .system "Is a directory" 21

def ReadFault.message : ReadFault → String
  | .system text code => text ++ " (os error " ++ toString code ++ ")"
  | .notText => "stream did not contain valid UTF-8"

/-- What the program writes, and its exit code. -/
structure Output where
  code : Nat
  stdout : String := ""
  stderr : String := ""
  deriving DecidableEq

def Output.refused : Output := { code := 2 }

/-- A report ends the program. -/
def Output.ofReport (colours : Bool) (r : Report) : Output :=
  { code := 1, stderr := r.text colours }

/-- The program of a file, or the report that there is none. -/
def loadFile (file : String) (contents : Except ReadFault String) : Except Report Program :=
  match contents with
  | .error fault =>
      .error { kind := .load, message := "failed to read '" ++ file ++ "': " ++ fault.message }
  | .ok source =>
      match Program.load source with
      | .ok program => .ok program
      | .error e => .error e.report

/-- The settings of a run: a flag or a variable of the environment turns a setting on. -/
def RunOptions.settings (options : RunOptions) (env : Environment) : Settings where
  debug := options.debug || env.isOn "IR_DEBUG"
  traceCalls := options.trace || env.isOn "IR_TRACE"
  file := options.file
  maxCallDepth := options.maxDepth.getD 1000

def RunOptions.setup (options : RunOptions) (env : Environment) (program : Program) : Setup :=
  let settings := options.settings env
  { program := program
    settings := settings
    observer := if settings.traceCalls then some .logger else none }

/-- A command is answered at once, or a machine has to run first. -/
inductive Answer
  | now (o : Output)
  | afterRun (setup : Setup) (m : Machine)

/-- Begins to answer a command, given what its file holds. -/
def Command.begin (c : Command) (env : Environment) (colours : Bool)
    (contents : Except ReadFault String) : Answer :=
  match c with
  | .version => .now { code := 0, stdout := versionText }
  | .help text => .now { code := 0, stdout := text }
  | .dump file =>
      match loadFile file contents with
      | .error r => .now (.ofReport colours r)
      | .ok program => .now { code := 0, stdout := program.text }
  | .run options =>
      match loadFile options.file contents with
      | .error r => .now (.ofReport colours r)
      | .ok program =>
          let setup := options.setup env program
          .afterRun setup (setup.runRoot .nil (.fresh setup.settings.file) {})

/-- Whether a run shows an entry of its log: warnings always, and the others if it logs or
traces. -/
def Settings.shows (settings : Settings) (entry : LogEntry) : Bool :=
  entry.level == .warn || settings.debug || settings.traceCalls

/-- The log of a run, from the first entry to the last. -/
def Settings.logText (settings : Settings) (log : List LogEntry) : String :=
  String.join ((log.reverse.filter settings.shows).map fun entry => entry.terminalLine ++ "\n")

/-- What is written about the result of a run. -/
def Output.ofResult (colours : Bool) : Completion → Output
  | .ok v => { code := 0, stdout := v.text ++ "\n" }
  | .error s => .ofReport colours (.ofSignal s)

/-- The answer after a run has stopped: its log, and then its value or a report. -/
def Output.ofRun (setup : Setup) (colours : Bool) (o : Outcome) : Output :=
  let o := o.ofRoot setup
  let result := Output.ofResult colours o.result
  { result with stderr := setup.settings.logText o.record.log ++ result.stderr }

section Witness

example : Command.parse? ["run", "--max-depth=2", "u.json", "--trace"] =
    some (.run ⟨"u.json", false, true, some 2⟩) := by decide +kernel

example : Command.parse? ["run", "u.json", "--max-depth", "-1"] = none ∧
    Command.parse? ["dump", "u.json", "--debug"] = none ∧
    Command.parse? ["run", "--debug", "--debug", "u.json"] = none := by decide +kernel

example : Command.parse? ["run", "--", "--debug"] =
    some (.run ⟨"--debug", false, false, none⟩) := by decide +kernel

end Witness

end Unwind
