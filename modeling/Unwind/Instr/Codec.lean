import Unwind.Instr
import Unwind.Value.Codec

/-!
Instructions as JSON.

An instruction is a record whose member `op` names its operation beside the fields, or a list
that begins with that name.  The members of no field are ignored.
-/

namespace Unwind

def Reg.ofJson? (j : Json) : Option Reg := j.word?.map Reg.mk

def Reg.toJson (r : Reg) : Json := .ofWord r.index

def Label.ofJson? (j : Json) : Option Label := j.word?.map Label.mk

def Label.toJson (l : Label) : Json := .ofWord l.number

def ScopeId.ofJson? (j : Json) : Option ScopeId := j.word?.map ScopeId.mk

def ScopeId.toJson (id : ScopeId) : Json := .ofWord id.index

theorem Reg.ofJson?_toJson (r : Reg) : Reg.ofJson? r.toJson = some r := by
  simp [Reg.ofJson?, Reg.toJson, Json.word?_ofWord]

theorem Label.ofJson?_toJson (l : Label) : Label.ofJson? l.toJson = some l := by
  simp [Label.ofJson?, Label.toJson, Json.word?_ofWord]

theorem ScopeId.ofJson?_toJson (id : ScopeId) : ScopeId.ofJson? id.toJson = some id := by
  simp [ScopeId.ofJson?, ScopeId.toJson, Json.word?_ofWord]

/-- An operand.  Inside instructions an empty record stands for no content. -/
def Operand.ofJson? : Json → Option Operand
  | .record [("reg", j)] => (Reg.ofJson? j).map .reg
  | .record [("const", j)] => (Value.ofJson? true j).map .const
  | j => j.choice? true [("self", .receiver), ("nil", .nil)]

def Operand.toJson : Operand → Json
  | .reg r => .record [("reg", r.toJson)]
  | .const v => .record [("const", v.toJson)]
  | .receiver => .text "self"
  | .nil => .text "nil"

def Operand.listOfJson? : Json → Option (List Operand)
  | .list items => items.mapM Operand.ofJson?
  | _ => none

def BlockMode.ofJson? : Json → Option BlockMode :=
  Json.choice? true [("block", .block), ("lambda", .lambda), ("proc", .proc)]

def BlockMode.toJson (mode : BlockMode) : Json := .text mode.text

/-! ## Reading -/

/-- The names of the operations, in the order in which a unit file numbers them. -/
def Instr.opNames : List String := [
  "load_const", "copy", "add", "sub", "less_than", "jump", "branch_if", "branch_unless",
  "return", "break", "raise", "fatal", "receive_exception", "resume_pending", "clear_pending",
  "call_method", "call_block", "line"]

def Instr.binaryOfFields? (op : BinaryOp) (fields : Fields) : Option Instr :=
  if fields.suit ["lhs", "rhs", "dst"] then do
    return .binary op (← fields.require? 0 "lhs" Operand.ofJson?)
      (← fields.require? 1 "rhs" Operand.ofJson?) (← fields.require? 2 "dst" Reg.ofJson?)
  else none

def Instr.branchOfFields? (truthy : Bool) (fields : Fields) : Option Instr :=
  if fields.suit ["cond", "target"] then do
    return .branch truthy (← fields.require? 0 "cond" Operand.ofJson?)
      (← fields.require? 1 "target" Label.ofJson?)
  else none

/-- An instruction from the name of its operation and its fields. -/
def Instr.ofFields? (op : String) (fields : Fields) : Option Instr :=
  match op with
  | "load_const" =>
      if fields.suit ["value", "dst"] then do
        return .loadConst (← fields.require? 0 "value" (Value.ofJson? true))
          (← fields.require? 1 "dst" Reg.ofJson?)
      else none
  | "copy" =>
      if fields.suit ["src", "dst"] then do
        return .copy (← fields.require? 0 "src" Operand.ofJson?)
          (← fields.require? 1 "dst" Reg.ofJson?)
      else none
  | "add" => Instr.binaryOfFields? .add fields
  | "sub" => Instr.binaryOfFields? .sub fields
  | "less_than" => Instr.binaryOfFields? .lessThan fields
  | "jump" =>
      if fields.suit ["target"] then
        (fields.require? 0 "target" Label.ofJson?).map .jump
      else none
  | "branch_if" => Instr.branchOfFields? true fields
  | "branch_unless" => Instr.branchOfFields? false fields
  | "return" =>
      if fields.suit ["value", "method"] then do
        return .ret (← fields.require? 0 "value" Operand.ofJson?)
          (← fields.optional? 1 "method" ScopeId.ofJson?)
      else none
  | "break" =>
      if fields.suit ["value", "target"] then do
        return .brk (← fields.require? 0 "value" Operand.ofJson?)
          (← fields.require? 1 "target" ScopeId.ofJson?)
      else none
  | "raise" =>
      if fields.suit ["value"] then
        (fields.require? 0 "value" Operand.ofJson?).map .raise
      else none
  | "fatal" =>
      if fields.suit ["message"] then
        (fields.require? 0 "message" Json.text?).map .fatal
      else none
  | "receive_exception" =>
      if fields.suit ["dst"] then
        (fields.require? 0 "dst" Reg.ofJson?).map .receiveException
      else none
  | "resume_pending" => if fields.suit [] then some .resumePending else none
  | "clear_pending" => if fields.suit [] then some .clearPending else none
  | "call_method" =>
      if fields.suit ["method", "args", "dst"] then do
        return .callMethod (← fields.require? 0 "method" ScopeId.ofJson?)
          (← fields.default? 1 "args" Operand.listOfJson? [])
          (← fields.optional? 2 "dst" Reg.ofJson?)
      else none
  | "call_block" =>
      if fields.suit ["closure", "mode", "args", "dst"] then do
        return .callClosure (← fields.require? 0 "closure" ScopeId.ofJson?)
          (← fields.require? 1 "mode" BlockMode.ofJson?)
          (← fields.default? 2 "args" Operand.listOfJson? [])
          (← fields.optional? 3 "dst" Reg.ofJson?)
      else none
  | "line" =>
      if fields.suit ["line"] then (fields.require? 0 "line" Json.word?).map .line else none
  | _ => none

/-- The name of an operation.  Where `numbered`, its position among the names stands for it. -/
def Instr.opName? (numbered : Bool) : Json → Option String
  | .text s => some s
  | .number (.whole n) => if numbered && 0 ≤ n then Instr.opNames[n.toNat]? else none
  | _ => none

/-- An instruction from JSON that is usable throughout. -/
def Instr.ofJson? (numbered : Bool) (j : Json) : Option Instr :=
  if j.isUsable then
    match j with
    | .record members =>
        if members.countP (fun m => m.1 == "op") = 1 then do
          let op ← (Json.member? members "op").bind (Instr.opName? numbered)
          Instr.ofFields? op (.named members)
        else none
    | .list (op :: values) => do
        Instr.ofFields? (← Instr.opName? numbered op) (.placed values)
    | _ => none
  else none

/-! ## Writing -/

/-- An instruction as a record of its operation and all its fields. -/
def Instr.withOp (op : String) (fields : List (String × Json)) : Json :=
  .record (("op", .text op) :: fields)

def BinaryOp.opName : BinaryOp → String
  | .add => "add"
  | .sub => "sub"
  | .lessThan => "less_than"

def Instr.toJson : Instr → Json
  | .loadConst value dst => withOp "load_const" [("value", value.toJson), ("dst", dst.toJson)]
  | .copy src dst => withOp "copy" [("src", src.toJson), ("dst", dst.toJson)]
  | .binary op lhs rhs dst =>
      withOp op.opName [("lhs", lhs.toJson), ("rhs", rhs.toJson), ("dst", dst.toJson)]
  | .jump target => withOp "jump" [("target", target.toJson)]
  | .branch true cond target =>
      withOp "branch_if" [("cond", cond.toJson), ("target", target.toJson)]
  | .branch false cond target =>
      withOp "branch_unless" [("cond", cond.toJson), ("target", target.toJson)]
  | .ret value method =>
      withOp "return" [("value", value.toJson), ("method", .ofOption ScopeId.toJson method)]
  | .brk value target => withOp "break" [("value", value.toJson), ("target", target.toJson)]
  | .raise value => withOp "raise" [("value", value.toJson)]
  | .fatal message => withOp "fatal" [("message", .text message)]
  | .receiveException dst => withOp "receive_exception" [("dst", dst.toJson)]
  | .resumePending => withOp "resume_pending" []
  | .clearPending => withOp "clear_pending" []
  | .callMethod method args dst => withOp "call_method" [
      ("method", method.toJson), ("args", .list (args.map Operand.toJson)),
      ("dst", .ofOption Reg.toJson dst)]
  | .callClosure closure mode args dst => withOp "call_block" [
      ("closure", closure.toJson), ("mode", mode.toJson),
      ("args", .list (args.map Operand.toJson)), ("dst", .ofOption Reg.toJson dst)]
  | .line number => withOp "line" [("line", .ofWord number)]

section Witness

example : Instr.ofJson? false (Instr.toJson (.callMethod ⟨3⟩ [.receiver, .nil] none)) =
    some (.callMethod ⟨3⟩ [.receiver, .nil] none) := by decide +kernel

example : Instr.ofJson? false (.list [.text "line", .ofWord 3]) = some (.line 3) := by
  decide +kernel

example : Instr.ofJson? false (.list [.text "clear_pending", .ofWord 1]) = none := by
  decide +kernel

end Witness

end Unwind
