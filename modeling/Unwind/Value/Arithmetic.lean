import Unwind.Value

/-!
Arithmetic on guest values.

Two integers give the sum or difference modulo `2^64`, two floats follow the floating-point
standard, and two strings can be joined.  Every other pair of operands is refused.
-/

namespace Unwind

inductive BinaryOp
  | add
  | sub
  | lessThan
  deriving DecidableEq

def BinaryOp.symbol : BinaryOp → String
  | .add => "+"
  | .sub => "-"
  | .lessThan => "<"

/-- The result of an operation, if it is defined on the types of its operands. -/
def BinaryOp.apply? : BinaryOp → Value → Value → Option Value
  | .add, .int a, .int b => some (.int (a + b))
  | .add, .float a, .float b => some (.float (a + b))
  | .add, .str a, .str b => some (.str (a ++ b))
  | .sub, .int a, .int b => some (.int (a - b))
  | .sub, .float a, .float b => some (.float (a - b))
  | .lessThan, .int a, .int b => some (.bool (a < b))
  | .lessThan, .float a, .float b => some (.bool (a < b))
  | _, _, _ => none

/-- The message about an operation that is not defined on its operands. -/
def BinaryOp.refusal (op : BinaryOp) (lhs rhs : Value) : String :=
  "undefined operation " ++ lhs.typeName ++ " " ++ op.symbol ++ " " ++ rhs.typeName

section Witness

/-- Integers wrap around. -/
example : BinaryOp.add.apply? (.int 9223372036854775807) (.int 1) =
    some (.int (-9223372036854775808)) := by decide

example : BinaryOp.lessThan.apply? (.str "a") (.str "b") = none := by decide

end Witness

end Unwind
