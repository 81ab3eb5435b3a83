import Unwind.Decimal
import Unwind.Text.Quoted

/-!
Guest values: nil, truth values, 64-bit integers, floats, strings, and exception objects.
-/

namespace Unwind

/-- Why a jump was refused. -/
inductive JumpReason
  | byBreak
  | byReturn
  deriving DecidableEq

def JumpReason.text : JumpReason → String
  | .byBreak => "break"
  | .byReturn => "return"

mutual

inductive Value
  | nil
  | bool (b : Bool)
  | int (n : Int64)
  | float (x : Float)
  | str (s : String)
  | exception (e : Exception)

/-- An exception object.  Only a refused jump has a reason, and with it the value that the
jump carried. -/
structure Exception where
  className : String
  message : String
  reason : Option JumpReason
  exitValue : Option Value
  backtrace : List String

end

/-! ## Equality is decidable

Floats are compared as data here: two are equal when they are the same double. -/

mutual

def Value.decEq : (a b : Value) → Decidable (a = b)
  | .nil, .nil => isTrue rfl
  | .bool a, .bool b => decidable_of_iff (a = b) (by simp)
  | .int a, .int b => decidable_of_iff (a = b) (by simp)
  | .float a, .float b => decidable_of_iff (a = b) (by simp)
  | .str a, .str b => decidable_of_iff (a = b) (by simp)
  | .exception a, .exception b =>
      have := Exception.decEq a b
      decidable_of_iff (a = b) (by simp)
  | .nil, .bool _ | .nil, .int _ | .nil, .float _ | .nil, .str _ | .nil, .exception _
  | .bool _, .nil | .bool _, .int _ | .bool _, .float _ | .bool _, .str _
  | .bool _, .exception _ | .int _, .nil | .int _, .bool _ | .int _, .float _
  | .int _, .str _ | .int _, .exception _ | .float _, .nil | .float _, .bool _
  | .float _, .int _ | .float _, .str _ | .float _, .exception _ | .str _, .nil
  | .str _, .bool _ | .str _, .int _ | .str _, .float _ | .str _, .exception _
  | .exception _, .nil | .exception _, .bool _ | .exception _, .int _
  | .exception _, .float _ | .exception _, .str _ => isFalse nofun
termination_by structural a => a

def Exception.decEq : (a b : Exception) → Decidable (a = b)
  | ⟨c, m, r, v, t⟩, ⟨c', m', r', v', t'⟩ =>
      have := Value.decEqOption v v'
      decidable_of_iff (c = c' ∧ m = m' ∧ r = r' ∧ v = v' ∧ t = t') (by simp)
termination_by structural a => a

def Value.decEqOption : (a b : Option Value) → Decidable (a = b)
  | none, none => isTrue rfl
  | none, some _ => isFalse nofun
  | some _, none => isFalse nofun
  | some a, some b =>
      have := Value.decEq a b
      decidable_of_iff (a = b) (by simp)
termination_by structural a => a

end

instance : DecidableEq Value := Value.decEq

instance : DecidableEq Exception := Exception.decEq

/-! ## Reading values -/

/-- Only nil and false are falsy. -/
def Value.isTruthy : Value → Bool
  | .nil => false
  | .bool b => b
  | _ => true

def Value.typeName : Value → String
  | .nil => "nil"
  | .bool _ => "bool"
  | .int _ => "int"
  | .float _ => "float"
  | .str _ => "string"
  | .exception _ => "exception"

def Value.exception? : Value → Option Exception
  | .exception e => some e
  | _ => none

/-- The text of a value: strings are quoted, an exception shows its class and message as they
are. -/
def Value.text : Value → String
  | .nil => "nil"
  | .bool b => if b then "true" else "false"
  | .int n => toString n.toInt
  | .float x => plainFloat x
  | .str s => quoted s
  | .exception e => "#<" ++ e.className ++ ": " ++ e.message ++ ">"

/-! ## Making exceptions -/

/-- An ordinary exception. -/
def Exception.plain (className message : String) (backtrace : List String) : Exception where
  className := className
  message := message
  reason := none
  exitValue := none
  backtrace := backtrace

/-- The exception that stands for a refused jump. -/
def Exception.localJump (reason : JumpReason) (exitValue : Value) (message : String)
    (backtrace : List String) : Exception where
  className := "LocalJumpError"
  message := message
  reason := some reason
  exitValue := some exitValue
  backtrace := backtrace

def Exception.isLocalJump (e : Exception) : Bool := e.reason.isSome

section Witness

example : Value.exception (.plain "A" "b" []) ≠ .exception (.plain "A" "c" []) := by decide

example : (Value.exception (.localJump .byBreak (.int 5) "unexpected break" [])).text =
    "#<LocalJumpError: unexpected break>" := by decide +kernel

end Witness

end Unwind
