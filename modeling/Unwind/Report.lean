import Unwind.Signal
import Unwind.Text.Terminal

/-!
Reports: what the user is told about a program that cannot be loaded, or that ends in a signal.
-/

namespace Unwind

inductive ReportKind
  | load
  | build
  | uncaught
  | localJump
  | fatal
  | jump
  deriving DecidableEq

def ReportKind.text : ReportKind → String
  | .load => "Load Error"
  | .build => "Build Error"
  | .uncaught => "Uncaught Exception"
  | .localJump => "Local Jump Error"
  | .fatal => "Fatal Error"
  | .jump => "Unhandled Jump"

/-- A report; its backtrace begins with the innermost frame. -/
structure Report where
  kind : ReportKind
  message : String
  backtrace : List String := []
  help : Option String := none
  note : Option String := none
  deriving DecidableEq

/-- The report about a signal that left the outermost frame. -/
def Report.ofSignal : Signal → Report
  | .raise (.exception e) =>
      if e.isLocalJump then
        { kind := .localJump, message := e.message, backtrace := e.backtrace
          note := e.exitValue.map fun v => "exit value: " ++ v.text }
      else
        { kind := .uncaught, message := e.className ++ ": " ++ e.message
          backtrace := e.backtrace }
  | .raise v => { kind := .uncaught, message := v.text }
  | .fatal message => { kind := .fatal, message := message }
  | .returnJump target v => jump (.returnJump target v)
  | .breakJump target v claimed => jump (.breakJump target v claimed)
where
  jump (s : Signal) : Report :=
    { kind := .jump, message := s.text
      help := some "non-local return and break must be consumed by an active frame" }

/-! ## Text -/

/-- The looks that parts of a report have on a terminal. -/
inductive Style
  | title
  | headline
  | frame
  | help
  | note
  deriving DecidableEq

/-- The parameters of a style in a terminal's escape sequence. -/
def Style.parameters : Style → String
  | .title => "1;31"
  | .headline => "1"
  | .frame => "94"
  | .help => "93"
  | .note => "96"

/-- A text in a style, even if it is empty; the text itself without colours. -/
def Style.paint (style : Style) (colours : Bool) (s : String) : String :=
  if colours then styled style.parameters s else s

/-- A line that adds a remark to a report. -/
def Report.remark (style : Style) (colours : Bool) (remark : String) : String :=
  "   " ++ style.paint colours "=" ++ " " ++ style.paint colours remark ++ "\n"

/-- The text of a report: its kind and message, a line for each frame, then help and note. -/
def Report.text (r : Report) (colours : Bool) : String :=
  let head := Style.title.paint colours r.kind.text ++ ": "
    ++ Style.headline.paint colours r.message ++ "\n"
  let frames := r.backtrace.map fun frame =>
    "  " ++ Style.frame.paint colours "from" ++ " " ++ frame ++ "\n"
  let help := r.help.elim "" fun s => Report.remark .help colours ("help: " ++ s)
  let note := r.note.elim "" fun s => Report.remark .note colours ("note: " ++ s)
  head ++ String.join frames ++ help ++ note

section Witness

example : (Report.ofSignal
      (.ofException (.unexpectedBreak (.int 5) ["main.ir:3:in `Object#each'"]))).text false =
    "Local Jump Error: unexpected break\n  from main.ir:3:in `Object#each'\n" ++
      "   = note: exit value: 5\n" := by
  decide +kernel

end Witness

end Unwind
