import Unwind.Name
import Unwind.Value

/-!
Signals: the ways in which control leaves an instruction other than by going on or branching.

A raise is the guest's own exception and is met by rescue code.  A fatal condition is met by
ensure code only.  The two jumps look for the frame that they belong to.
-/

namespace Unwind

inductive Signal
  | raise (value : Value)
  | fatal (message : String)
  /-- A `return` on its way out of a closure, to the frame of `target`. -/
  | returnJump (target : Option ScopeId) (value : Value)
  /-- A `break` on its way to the frame of `target`.  A lambda that was broken out of has
  claimed it, and then the next frame consumes it. -/
  | breakJump (target : ScopeId) (value : Value) (claimed : Bool)
  deriving DecidableEq

/-- How a run, a call or a frame ends. -/
abbrev Completion := Except Signal Value

/-- The exception of a `break` that no frame may consume. -/
def Exception.unexpectedBreak (value : Value) (backtrace : List String) : Exception :=
  .localJump .byBreak value "unexpected break" backtrace

/-- The exception of a `return` whose method is not active. -/
def Exception.unexpectedReturn (value : Value) (backtrace : List String) : Exception :=
  .localJump .byReturn value "unexpected return" backtrace

/-- The raise of an exception object. -/
def Signal.ofException (e : Exception) : Signal := .raise (.exception e)

/-- The exception object that is raised, if the signal is the raise of one. -/
def Signal.exception? : Signal → Option Exception
  | .raise v => v.exception?
  | _ => none

/-- Whether the signal is the raise of a jump refused for the given reason. -/
def Signal.isLocalJump (reason : JumpReason) (s : Signal) : Bool :=
  s.exception?.any fun e => e.reason == some reason

def Signal.text : Signal → String
  | .raise v => "raise " ++ v.text
  | .fatal message => "fatal: " ++ message
  | .returnJump none v => "return " ++ v.text
  | .returnJump (some target) v => "return " ++ v.text ++ " to " ++ target.text
  | .breakJump target v claimed =>
      "break " ++ v.text ++ " to " ++ target.text
        ++ (if claimed then " (caught by lambda)" else "")

end Unwind
