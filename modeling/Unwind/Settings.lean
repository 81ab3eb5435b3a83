import Unwind.Text.Blank

/-!
The settings of a run.
-/

namespace Unwind

structure Settings where
  /-- Whether every executed instruction and every caught raise is logged. -/
  debug : Bool := false
  /-- Whether named method calls are traced. -/
  traceCalls : Bool := false
  /-- The source file that backtraces show. -/
  file : String := "-"
  /-- How many scopes may be nested. -/
  maxCallDepth : Nat := 1000
  deriving DecidableEq

/-- Whether the value of an environment variable turns a setting on. -/
def flagValue (value : String) : Bool := trimBlanks value ∉ ["", "0", "false", "off"]

section Witness

example : flagValue " off\t" = false ∧ flagValue "FALSE" = true ∧ flagValue "" = false := by
  decide +kernel

end Witness

end Unwind
