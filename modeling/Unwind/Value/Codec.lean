import Unwind.Json
import Unwind.Value

/-!
Values as JSON.

Nil is the text `nil`, or a record of that one name with nothing under it; every other value
is a record of one member that names its type.  Writing gives the usual form, and reading
takes every accepted one.
-/

namespace Unwind

/-! ## Writing -/

def JumpReason.toJson (reason : JumpReason) : Json := .text reason.text

mutual

def Value.toJson : Value → Json
  | .nil => .text "nil"
  | .bool b => .record [("bool", .bool b)]
  | .int n => .record [("int", .number (.whole n.toInt))]
  | .float x => .record [("float", .number (.float x))]
  | .str s => .record [("str", .text s)]
  | .exception e => .record [("exception", e.toJson)]
termination_by structural v => v

def Exception.toJson : Exception → Json
  | ⟨className, message, reason, exitValue, backtrace⟩ => .record [
      ("class", .text className),
      ("message", .text message),
      ("reason", Json.ofOption JumpReason.toJson reason),
      ("exit_value", Value.optionToJson exitValue),
      ("backtrace", .list (backtrace.map .text))]
termination_by structural e => e

def Value.optionToJson : Option Value → Json
  | none => .null
  | some v => v.toJson
termination_by structural v => v

end

/-! ## Reading -/

/-- One of the names, by itself or as the only member of a record with nothing under it. -/
def Json.choice? {α : Type} (emptyCounts : Bool) (choices : List (String × α)) :
    Json → Option α
  | .text s => choices.lookup s
  | .record [(name, j)] => if j.isNothing emptyCounts then choices.lookup name else none
  | _ => none

def JumpReason.ofJson? (emptyCounts : Bool) : Json → Option JumpReason :=
  Json.choice? emptyCounts [("break", .byBreak), ("return", .byReturn)]

/-- An integer of 64 bits. -/
def Json.int64? : Json → Option Int64
  | .number (.whole n) =>
      if -0x8000000000000000 ≤ n ∧ n < 0x8000000000000000 then some (Int64.ofInt n) else none
  | _ => none

/-- The fields of an exception, in the order of declaration. -/
def Exception.fieldNames : List String :=
  ["class", "message", "reason", "exit_value", "backtrace"]

/-- An exception from its fields, given the exit value that was found among them. -/
def Exception.ofFields? (emptyCounts : Bool) (fields : Fields) (exitValue : Option Value) :
    Option Exception :=
  if fields.suit Exception.fieldNames then do
    let className ← fields.require? 0 "class" Json.text?
    let message ← fields.require? 1 "message" Json.text?
    let reason ← fields.optional? 2 "reason" (JumpReason.ofJson? emptyCounts)
    let backtrace ← fields.default? 4 "backtrace" Json.texts? []
    return ⟨className, message, reason, exitValue, backtrace⟩
  else none

mutual

/-- A value from JSON.  Where `emptyCounts`, an empty record stands for no content just as
null does. -/
def Value.ofJson? (emptyCounts : Bool) : Json → Option Value
  | .text s => if s = "nil" then some .nil else none
  | .record [("nil", j)] => if j.isNothing emptyCounts then some .nil else none
  | .record [("bool", .bool b)] => some (.bool b)
  | .record [("int", j)] => j.int64?.map .int
  | .record [("float", .number n)] => some (.float n.toFloat)
  | .record [("str", .text s)] => some (.str s)
  | .record [("exception", .record members)] => do
      let exitValue ← Value.ofMembers? emptyCounts members
      return .exception (← Exception.ofFields? emptyCounts (.named members) exitValue)
  | .record [("exception", .list values)] => do
      let exitValue ← Value.ofPlace? emptyCounts 3 values
      return .exception (← Exception.ofFields? emptyCounts (.placed values) exitValue)
  | _ => none
termination_by structural j => j

/-- The exit value among the members of an exception; null is none. -/
def Value.ofMembers? (emptyCounts : Bool) : List (String × Json) → Option (Option Value)
  | [] => some none
  | (name, j) :: members =>
      if name = "exit_value" then
        if j.isNothing false then some none else (Value.ofJson? emptyCounts j).map some
      else Value.ofMembers? emptyCounts members
termination_by structural members => members

/-- The exit value at a place among the values of an exception; null is none. -/
def Value.ofPlace? (emptyCounts : Bool) : Nat → List Json → Option (Option Value)
  | _, [] => some none
  | 0, j :: _ =>
      if j.isNothing false then some none else (Value.ofJson? emptyCounts j).map some
  | place + 1, _ :: values => Value.ofPlace? emptyCounts place values
termination_by structural _ values => values

end

section Witness

example : Value.ofJson? false (.record [("nil", .null)]) = some .nil := by decide

example : Value.ofJson? false (.record [("nil", .record [])]) = none ∧
    Value.ofJson? true (.record [("nil", .record [])]) = some .nil := by decide

example : Value.ofJson? false (.record [("exception", .list [.text "A", .text "b"])]) =
    some (.exception (.plain "A" "b" [])) := by decide

end Witness

end Unwind
