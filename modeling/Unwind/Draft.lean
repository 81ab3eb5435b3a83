import Unwind.Program
import Unwind.Report

/-!
Drafts: programs under construction.

A scope is drafted by placing labels, emitting instructions and adding protected regions, and
then built into code.  A program is drafted by declaring its scopes, which fixes their
identities, and defining each of them once; finishing it checks what its scopes say about one
another.
-/

namespace Unwind

/-- What a call instruction may name. -/
inductive Callee
  | method
  | closure
  deriving DecidableEq

def Callee.text : Callee → String
  | .method => "method"
  | .closure => "closure"

/-- Why a draft is refused; `scope` is the name of the scope at fault. -/
inductive BuildError
  | undefinedLabel (scope : String) (label : Label)
  | duplicateLabel (scope : String) (label : Label)
  | invalidRegion (scope : String) (start stop : Label)
  | handlerOutOfRange (scope : String) (label : Label)
  | unknownScope (scope : String) (target : ScopeId)
  | badCallTarget (scope : String) (target : ScopeId) (expected : Callee)
  | undefinedScope (scope : String)
  | alreadyDefined (scope : String)
  | reservedLabel (scope : String)
  | registerOutOfRange (scope : String) (reg : Reg)
  deriving DecidableEq

/-- Every register has an index below this. -/
def registerLimit : Nat := 65536

def BuildError.message : BuildError → String
  | .undefinedLabel scope label =>
      "in " ++ scope ++ ": label " ++ label.text ++ " is never placed"
  | .duplicateLabel scope label =>
      "in " ++ scope ++ ": label " ++ label.text ++ " is placed twice"
  | .invalidRegion scope start stop =>
      "in " ++ scope ++ ": protected region " ++ start.text ++ ".." ++ stop.text
        ++ " ends before it starts"
  | .handlerOutOfRange scope label =>
      "in " ++ scope ++ ": handler " ++ label.text ++ " does not point at an instruction"
  | .unknownScope scope target => "in " ++ scope ++ ": reference to unknown " ++ target.text
  | .badCallTarget scope target expected =>
      "in " ++ scope ++ ": " ++ target.text ++ " is not a " ++ expected.text
  | .undefinedScope scope => "scope " ++ scope ++ " was declared but never defined"
  | .alreadyDefined scope => "scope " ++ scope ++ " is defined twice"
  | .reservedLabel scope =>
      "in " ++ scope ++ ": label " ++ toString Label.exit.toNat
        ++ " is reserved for the scope exit"
  | .registerOutOfRange scope reg =>
      "in " ++ scope ++ ": register " ++ reg.text ++ " exceeds the limit of "
        ++ toString registerLimit ++ " registers"

def BuildError.report (e : BuildError) : Report := { kind := .build, message := e.message }

/-! ## Scopes -/

/-- A protected region in terms of labels. -/
structure RegionDraft where
  start : Label
  stop : Label
  rescue : Option Label
  ensure : Option Label
  deriving DecidableEq

/-- A region whose handler receives raises. -/
def RegionDraft.rescuing (start stop handler : Label) : RegionDraft :=
  ⟨start, stop, some handler, none⟩

/-- A region whose handler receives every signal, raises too, so that it runs before any outer
rescue code. -/
def RegionDraft.ensuring (start stop handler : Label) : RegionDraft :=
  ⟨start, stop, some handler, some handler⟩

structure ScopeDraft where
  instrs : Array Instr := #[]
  placed : List (Label × Nat) := []
  regions : List RegionDraft := []
  nextLabel : UInt32 := 0
  deriving DecidableEq

def ScopeDraft.empty : ScopeDraft := {}

def ScopeDraft.isPlaced (d : ScopeDraft) (label : Label) : Bool :=
  d.placed.any fun entry => entry.1 == label

/-- The first free number from the given one on, if no more than `skips` are taken. -/
def ScopeDraft.freeNumber (d : ScopeDraft) : (skips : Nat) → UInt32 → UInt32
  | 0, n => n
  | skips + 1, n =>
      if ⟨n⟩ = Label.exit ∨ d.isPlaced ⟨n⟩ then d.freeNumber skips (n + 1) else n

/-- A label that is neither the exit nor placed nor handed out before.  Only the exit and the
placed labels are ever skipped. -/
def ScopeDraft.newLabel (d : ScopeDraft) : Label × ScopeDraft :=
  let n := d.freeNumber (d.placed.length + 1) d.nextLabel
  (⟨n⟩, { d with nextLabel := n + 1 })

/-- Binds a label to the next instruction. -/
def ScopeDraft.place (d : ScopeDraft) (label : Label) : ScopeDraft :=
  { d with placed := d.placed ++ [(label, d.instrs.size)] }

/-- Appends an instruction, whose place is the number of those before it. -/
def ScopeDraft.emit (d : ScopeDraft) (i : Instr) : Nat × ScopeDraft :=
  (d.instrs.size, { d with instrs := d.instrs.push i })

def ScopeDraft.region (d : ScopeDraft) (r : RegionDraft) : ScopeDraft :=
  { d with regions := d.regions ++ [r] }

/-! ### Building a scope -/

/-- Checks the placed labels in order, against those before them. -/
def checkPlaced (scope : String) (before : List Label) :
    List (Label × Nat) → Except BuildError Unit
  | [] => .ok ()
  | (label, _) :: rest =>
      if label = .exit then .error (.reservedLabel scope)
      else if label ∈ before then .error (.duplicateLabel scope label)
      else checkPlaced scope (label :: before) rest

/-- The place of a label. -/
def ScopeDraft.resolve (d : ScopeDraft) (scope : String) (label : Label) :
    Except BuildError Nat :=
  match d.placed.lookup label with
  | some pc => .ok pc
  | none => .error (.undefinedLabel scope label)

/-- Checks the registers of an instruction, and then its branch target. -/
def ScopeDraft.checkInstr (d : ScopeDraft) (scope : String) (i : Instr) :
    Except BuildError Unit :=
  match i.registers.find? fun r => registerLimit ≤ r.toNat with
  | some r => .error (.registerOutOfRange scope r)
  | none =>
      match i.branchTarget? with
      | none => .ok ()
      | some target => if target = .exit then .ok () else (d.resolve scope target).map fun _ => ()

def ScopeDraft.checkInstrs (d : ScopeDraft) (scope : String) : List Instr → Except BuildError Unit
  | [] => .ok ()
  | i :: rest =>
      match d.checkInstr scope i with
      | .error e => .error e
      | .ok () => d.checkInstrs scope rest

/-- The place of a handler, which has to be an instruction. -/
def ScopeDraft.resolveHandler (d : ScopeDraft) (scope : String) :
    Option Label → Except BuildError (Option Nat)
  | none => .ok none
  | some label =>
      match d.resolve scope label with
      | .error e => .error e
      | .ok pc =>
          if pc < d.instrs.size then .ok (some pc) else .error (.handlerOutOfRange scope label)

def ScopeDraft.resolveRegion (d : ScopeDraft) (scope : String) (r : RegionDraft) :
    Except BuildError Region := do
  let start ← d.resolve scope r.start
  let stop ← d.resolve scope r.stop
  if stop < start then throw (.invalidRegion scope r.start r.stop)
  let rescuer ← d.resolveHandler scope r.rescue
  let ensurer ← d.resolveHandler scope r.ensure
  return ⟨start, stop, rescuer, ensurer⟩

/-- The code of a drafted scope.  The labels are checked first, then the instructions, then
the regions, each in order. -/
def ScopeDraft.build (d : ScopeDraft) (scope : String) : Except BuildError Code := do
  checkPlaced scope [] d.placed
  d.checkInstrs scope d.instrs.toList
  let regions ← d.regions.mapM (d.resolveRegion scope)
  return ⟨d.instrs, d.placed, regions⟩

/-! ## Programs -/

/-- A declared scope, with its code once it is defined. -/
structure Declaration where
  name : String
  kind : ScopeKind
  lexicalMethod : Option ScopeId
  code : Option Code
  deriving DecidableEq

structure ProgramDraft where
  name : String
  scopes : Array Declaration := #[]
  deriving DecidableEq

def ProgramDraft.add (d : ProgramDraft) (declaration : Declaration) : ScopeId × ProgramDraft :=
  (.ofNat d.scopes.size, { d with scopes := d.scopes.push declaration })

/-- Declares a scope and fixes its identity. -/
def ProgramDraft.declare (d : ProgramDraft) (name : String) (kind : ScopeKind) :
    ScopeId × ProgramDraft :=
  d.add ⟨name, kind, none, none⟩

/-- Declares a closure that stands in a method. -/
def ProgramDraft.declareClosure (d : ProgramDraft) (name : String) (method : ScopeId) :
    ScopeId × ProgramDraft :=
  d.add ⟨name, .closure, some method, none⟩

/-- The name under which faults of the program as a whole are reported. -/
def programScope : String := "<unit>"

/-- Gives a declared scope its code. -/
def ProgramDraft.define (d : ProgramDraft) (id : ScopeId) (body : ScopeDraft) :
    Except BuildError ProgramDraft :=
  match d.scopes[id.toNat]? with
  | none => .error (.unknownScope programScope id)
  | some declared =>
      if declared.code.isSome then .error (.alreadyDefined declared.name)
      else
        match body.build declared.name with
        | .error e => .error e
        | .ok code =>
            let defined := { declared with code := some code }
            .ok { d with scopes := d.scopes.setIfInBounds id.toNat defined }

/-! ### Finishing a program -/

/-- The kind of a scope that is referred to. -/
def ProgramDraft.kindOf (d : ProgramDraft) (scope : String) (target : ScopeId) :
    Except BuildError ScopeKind :=
  match d.scopes[target.toNat]? with
  | some declared => .ok declared.kind
  | none => .error (.unknownScope scope target)

/-- Checks that a scope exists and may be called as asked. -/
def ProgramDraft.checkCallee (d : ProgramDraft) (scope : String) (target : ScopeId)
    (expected : Callee) : Except BuildError Unit :=
  match d.kindOf scope target with
  | .error e => .error e
  | .ok kind =>
      if (kind == .closure) == (expected == .closure) then .ok ()
      else .error (.badCallTarget scope target expected)

/-- Checks the scopes that an instruction refers to. -/
def ProgramDraft.checkReference (d : ProgramDraft) (scope : String) :
    Instr → Except BuildError Unit
  | .callMethod method _ _ => d.checkCallee scope method .method
  | .callClosure closure _ _ _ => d.checkCallee scope closure .closure
  | .brk _ target => (d.kindOf scope target).map fun _ => ()
  | .ret _ (some target) => (d.kindOf scope target).map fun _ => ()
  | _ => .ok ()

def ProgramDraft.checkReferences (d : ProgramDraft) (scope : String) :
    List Instr → Except BuildError Unit
  | [] => .ok ()
  | i :: rest =>
      match d.checkReference scope i with
      | .error e => .error e
      | .ok () => d.checkReferences scope rest

/-- Turns a declaration into the scope at its position. -/
def ProgramDraft.finishScope (d : ProgramDraft) (declared : Declaration) (position : Nat) :
    Except BuildError Scope :=
  match declared.code with
  | none => .error (.undefinedScope declared.name)
  | some code => do
      if let some method := declared.lexicalMethod then
        discard (d.kindOf declared.name method)
      d.checkReferences declared.name code.instrs.toList
      return ⟨.ofNat position, declared.name, declared.kind, declared.lexicalMethod, code⟩

/-- The finished program.  The root is checked first, then the scopes in order. -/
def ProgramDraft.finish (d : ProgramDraft) (root : ScopeId) : Except BuildError Program := do
  d.checkCallee programScope root .method
  let scopes ← d.scopes.toList.zipIdx.mapM fun (declared, position) =>
    d.finishScope declared position
  return ⟨d.name, scopes.toArray, root⟩

section Witness

/-- A fresh label steps over the placed ones. -/
example : ((ScopeDraft.empty.place ⟨0⟩).place ⟨1⟩).newLabel.1 = ⟨2⟩ := by decide

example : (ScopeDraft.empty.emit (.jump ⟨9⟩)).2.build "m" =
    .error (.undefinedLabel "m" ⟨9⟩) := rfl

example : (ScopeDraft.empty.place .exit).build "m" = .error (.reservedLabel "m") := rfl

end Witness

end Unwind
