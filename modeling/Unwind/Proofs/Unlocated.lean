import Unwind.Frame
import Unwind.Proofs.Perform

/-!
Values and code without source positions.

A run learns where it is in the source from the file of its thread and from the lines in its code,
and shows it in the backtraces of exceptions alone.  `unlocated` takes the positions away.  What an
instruction does, and what a frame makes of a signal, does not depend on them: done without
positions it gives the same, without positions.
-/

namespace Unwind

/-! ## Values -/

mutual

/-- The value without the backtraces of the exceptions in it. -/
def Value.unlocated : Value → Value
  | .nil => .nil
  | .bool b => .bool b
  | .int n => .int n
  | .float x => .float x
  | .str s => .str s
  | .exception e => .exception e.unlocated
termination_by structural v => v

def Exception.unlocated : Exception → Exception
  | ⟨className, message, reason, exitValue, _⟩ =>
      ⟨className, message, reason, Value.unlocatedOption exitValue, []⟩
termination_by structural e => e

def Value.unlocatedOption : Option Value → Option Value
  | none => none
  | some v => some v.unlocated
termination_by structural v => v

end

mutual

theorem Value.unlocated_unlocated : (v : Value) → v.unlocated.unlocated = v.unlocated
  | .nil => rfl
  | .bool _ => rfl
  | .int _ => rfl
  | .float _ => rfl
  | .str _ => rfl
  | .exception e => congrArg Value.exception e.unlocated_unlocated

theorem Exception.unlocated_unlocated : (e : Exception) → e.unlocated.unlocated = e.unlocated
  | ⟨_, _, _, exitValue, _⟩ => by
      simp only [Exception.unlocated, Value.unlocatedOption_unlocatedOption exitValue]

theorem Value.unlocatedOption_unlocatedOption : (v : Option Value) →
    Value.unlocatedOption (Value.unlocatedOption v) = Value.unlocatedOption v
  | none => rfl
  | some v => congrArg some v.unlocated_unlocated

end

attribute [simp] Value.unlocated_unlocated

@[simp]
theorem Value.isTruthy_unlocated (v : Value) : v.unlocated.isTruthy = v.isTruthy := by
  cases v <;> rfl

@[simp]
theorem Value.typeName_unlocated (v : Value) : v.unlocated.typeName = v.typeName := by
  cases v <;> rfl

theorem BinaryOp.apply?_unlocated (op : BinaryOp) (a b : Value) :
    op.apply? a.unlocated b.unlocated = ( op.apply? a b).map Value.unlocated := by
  cases op <;> cases a <;> cases b <;> rfl

theorem BinaryOp.refusal_unlocated (op : BinaryOp) (a b : Value) :
    op.refusal a.unlocated b.unlocated = op.refusal a b := by
  unfold refusal
  rw [a.typeName_unlocated, b.typeName_unlocated]

/-! ## Signals and threads -/

def Signal.unlocated : Signal → Signal
  | .raise v => .raise v.unlocated
  | .fatal message => .fatal message
  | .returnJump target v => .returnJump target v.unlocated
  | .breakJump target v claimed => .breakJump target v.unlocated claimed

def Completion.unlocated : Completion → Completion
  | .ok v => .ok v.unlocated
  | .error s => .error s.unlocated

/-- The thread without a place in the source, and without the places that it came through. -/
def Thread.unlocated (t : Thread) : Thread := { t with backtrace := [], file := "", line := 0 }

@[simp]
theorem Signal.unlocated_unlocated (s : Signal) : s.unlocated.unlocated = s.unlocated := by
  cases s <;> simp [unlocated]

@[simp]
theorem Completion.unlocated_unlocated (r : Completion) :
    unlocated (unlocated r) = unlocated r := by
  cases r <;> simp [unlocated]

/-- What is made of a thread without positions has no backtrace. -/
theorem Signal.unlocated_unexpectedBreak (v : Value) (t : Thread) :
    (ofException (.unexpectedBreak v t.backtraceLines)).unlocated =
      ofException (.unexpectedBreak v.unlocated t.unlocated.backtraceLines) := rfl

theorem raiseSignal_unlocated (t : Thread) (v : Value) :
    (raiseSignal t v).unlocated = raiseSignal t.unlocated v.unlocated := by
  cases v <;> rfl

/-! ## Instructions -/

def Operand.unlocated : Operand → Operand
  | .const v => .const v.unlocated
  | o => o

/-- The instruction with the line zero if it has one, and without backtraces in its constants. -/
def Instr.unlocated : Instr → Instr
  | .loadConst value dst => .loadConst value.unlocated dst
  | .copy src dst => .copy src.unlocated dst
  | .binary op lhs rhs dst => .binary op lhs.unlocated rhs.unlocated dst
  | .branch truthy cond target => .branch truthy cond.unlocated target
  | .ret value method => .ret value.unlocated method
  | .brk value target => .brk value.unlocated target
  | .raise value => .raise value.unlocated
  | .callMethod method args dst => .callMethod method (args.map Operand.unlocated) dst
  | .callClosure closure mode args dst =>
      .callClosure closure mode (args.map Operand.unlocated) dst
  | .line _ => .line 0
  | i => i

@[simp]
theorem Operand.unlocated_unlocated (o : Operand) : o.unlocated.unlocated = o.unlocated := by
  cases o <;> simp [unlocated]

@[simp]
theorem Operand.reg?_unlocated (o : Operand) : o.unlocated.reg? = o.reg? := by
  cases o <;> rfl

@[simp]
theorem Instr.unlocated_unlocated (i : Instr) : i.unlocated.unlocated = i.unlocated := by
  cases i <;> simp [unlocated]

@[simp]
theorem Instr.isBreak_unlocated (i : Instr) : i.unlocated.isBreak = i.isBreak := by
  cases i <;> rfl

@[simp]
theorem Instr.resultSlot?_unlocated (i : Instr) : i.unlocated.resultSlot? = i.resultSlot? := by
  cases i <;> rfl

@[simp]
theorem Instr.registers_unlocated (i : Instr) : i.unlocated.registers = i.registers := by
  have hargs (args : List Operand) :
      (args.map Operand.unlocated).filterMap Operand.reg? = args.filterMap Operand.reg? := by
    rw [List.filterMap_map]
    exact congrArg (List.filterMap · args) (funext Operand.reg?_unlocated)
  have hoperands : i.unlocated.operands = i.operands.map Operand.unlocated := by
    cases i <;> rfl
  rw [registers, registers, hoperands, hargs, resultSlot?_unlocated]

/-! ## Activations -/

def Activation.unlocated (a : Activation) : Activation where
  invocation := a.invocation
  registers := a.registers.map Value.unlocated
  pending := a.pending.map Signal.unlocated
  returnValue := a.returnValue.unlocated

section Activations

variable (a : Activation)

@[simp]
theorem Activation.unlocated_unlocated : a.unlocated.unlocated = a.unlocated := by
  have hvalues : Value.unlocated ∘ Value.unlocated = Value.unlocated :=
    funext Value.unlocated_unlocated
  have hsignals : Signal.unlocated ∘ Signal.unlocated = Signal.unlocated :=
    funext Signal.unlocated_unlocated
  simp [unlocated, hvalues, hsignals]

theorem padRegisters_unlocated (registers : Array Value) (count : Nat) :
    (padRegisters registers count).map Value.unlocated =
      padRegisters (registers.map Value.unlocated) count := by
  simp [padRegisters, Value.unlocated]

theorem Activation.fresh_unlocated (invocation : Invocation) (args : List Value) :
    (fresh invocation args).unlocated = fresh invocation (args.map Value.unlocated) := by
  simp [fresh, unlocated, Value.unlocated]

theorem Activation.reserve_unlocated (count : Nat) :
    (a.reserve count).unlocated = a.unlocated.reserve count := by
  simp [reserve, unlocated, padRegisters_unlocated]

theorem Activation.get_unlocated (r : Reg) : (a.get r).unlocated = a.unlocated.get r := by
  simp only [get, unlocated, Array.getD_eq_getD_getElem?, Array.getElem?_map]
  cases a.registers[r.toNat]? <;> rfl

theorem Activation.set_unlocated (r : Reg) (v : Value) :
    (a.set r v).unlocated = a.unlocated.set r v.unlocated := by
  simp [set, unlocated, padRegisters_unlocated, Array.map_setIfInBounds]

theorem Activation.store_unlocated (slot : Option Reg) (v : Value) :
    (a.store slot v).unlocated = a.unlocated.store slot v.unlocated := by
  cases slot with
  | none => rfl
  | some r => exact a.set_unlocated r v

theorem Activation.operand_unlocated (receiver : Value) (o : Operand) :
    (a.operand receiver o).unlocated = a.unlocated.operand receiver.unlocated o.unlocated := by
  cases o with
  | reg r => exact a.get_unlocated r
  | _ => rfl

theorem Activation.operands_unlocated (receiver : Value) (args : List Operand) :
    (args.map (a.operand receiver)).map Value.unlocated =
      (args.map Operand.unlocated).map (a.unlocated.operand receiver.unlocated) := by
  rw [List.map_map, List.map_map]
  apply List.map_congr_left
  intro o _
  exact a.operand_unlocated receiver o

theorem Activation.receive_unlocated (dst : Reg) :
    (a.receive dst).unlocated = a.unlocated.receive dst := by
  obtain ⟨invocation, registers, pending, returnValue⟩ := a
  cases pending with
  | none => exact set_unlocated _ dst .nil
  | some s =>
      cases s with
      | raise v => exact set_unlocated ⟨invocation, registers, none, returnValue⟩ dst v
      | _ => exact set_unlocated _ dst .nil

end Activations

/-! ## What instructions do -/

def Call.unlocated : Call → Call
  | .method id args => .method id (args.map Value.unlocated)
  | .closure id mode args => .closure id mode (args.map Value.unlocated)

def Effect.unlocated : Effect → Effect
  | .next => .next
  | .branch l => .branch l
  | .signal s => .signal s.unlocated
  | .call c => .call c.unlocated

def Performed.unlocated (p : Performed) : Performed :=
  ⟨p.thread.unlocated, p.activation.unlocated, p.effect.unlocated⟩

/-- An instruction without positions does the same without positions. -/
theorem Instr.perform_unlocated (i : Instr) (t : Thread) (receiver : Value) (a : Activation) :
    (i.perform t receiver a).unlocated =
      i.unlocated.perform t.unlocated receiver.unlocated a.unlocated := by
  cases i with
  | loadConst value dst =>
      simp only [perform, unlocated, Performed.unlocated, Effect.unlocated, a.set_unlocated]
  | copy src dst =>
      simp only [perform, unlocated, Performed.unlocated, Effect.unlocated, a.set_unlocated,
        a.operand_unlocated]
  | binary op lhs rhs dst =>
      simp only [perform, unlocated, ← a.operand_unlocated, op.apply?_unlocated,
        op.refusal_unlocated]
      cases op.apply? (a.operand receiver lhs) (a.operand receiver rhs) with
      | none => rfl
      | some v =>
          simp only [Option.map_some, Performed.unlocated, Effect.unlocated, a.set_unlocated]
  | jump target => rfl
  | branch truthy cond target =>
      simp only [perform, unlocated, ← a.operand_unlocated, Value.isTruthy_unlocated]
      split <;> rfl
  | ret value method =>
      simp only [perform, unlocated, ← a.operand_unlocated]
      rfl
  | brk value target =>
      simp only [perform, unlocated, ← a.operand_unlocated]
      rfl
  | raise value =>
      simp only [perform, unlocated, ← a.operand_unlocated, ← raiseSignal_unlocated]
      rfl
  | fatal message => rfl
  | receiveException dst =>
      simp only [perform, unlocated, Performed.unlocated, Effect.unlocated, a.receive_unlocated]
  | resumePending =>
      obtain ⟨invocation, registers, pending, returnValue⟩ := a
      cases pending <;> rfl
  | clearPending => rfl
  | callMethod method args dst =>
      simp only [perform, unlocated, ← a.operands_unlocated]
      rfl
  | callClosure closure mode args dst =>
      simp only [perform, unlocated, ← a.operands_unlocated]
      rfl
  | line number => rfl

/-! ## Programs -/

def Code.unlocated (code : Code) : Code :=
  { code with instrs := code.instrs.map Instr.unlocated }

def Scope.unlocated (s : Scope) : Scope := { s with code := s.code.unlocated }

/-- The program without the lines in its code and the backtraces in its constants. -/
def Program.unlocated (p : Program) : Program :=
  { p with scopes := p.scopes.map Scope.unlocated }

@[simp]
theorem Code.unlocated_unlocated (code : Code) : code.unlocated.unlocated = code.unlocated := by
  have hinstrs : Instr.unlocated ∘ Instr.unlocated = Instr.unlocated :=
    funext Instr.unlocated_unlocated
  simp [unlocated, hinstrs]

@[simp]
theorem Scope.unlocated_unlocated (s : Scope) : s.unlocated.unlocated = s.unlocated := by
  simp [unlocated]

@[simp]
theorem Program.unlocated_unlocated (p : Program) : p.unlocated.unlocated = p.unlocated := by
  have hscopes : Scope.unlocated ∘ Scope.unlocated = Scope.unlocated :=
    funext Scope.unlocated_unlocated
  simp [unlocated, hscopes]

@[simp]
theorem Code.length_unlocated (code : Code) : code.unlocated.length = code.length := by
  simp [unlocated, length]

@[simp]
theorem Code.place?_unlocated (code : Code) (l : Label) :
    code.unlocated.place? l = code.place? l := by
  simp only [place?, length_unlocated]
  rfl

@[simp]
theorem Code.registerCount_unlocated (code : Code) :
    code.unlocated.registerCount = code.registerCount := by
  simp [registerCount, unlocated, List.flatMap_map]

theorem Code.instr?_unlocated (code : Code) (pc : Nat) :
    code.unlocated.instr? pc = (code.instr? pc).map Instr.unlocated := by
  simp [instr?, unlocated]

theorem Program.scope?_unlocated (p : Program) (id : ScopeId) :
    p.unlocated.scope? id = (p.scope? id).map Scope.unlocated := by
  simp [scope?, unlocated]

/-! ## What frames make of signals -/

/-- The call without the depth of the backtrace. -/
def MethodCall.unlocated (c : MethodCall) : MethodCall := { c with traceDepth := 0 }

def Frame.unlocated (f : Frame) : Frame where
  scope := f.scope.unlocated
  activation := f.activation.unlocated
  pc := f.pc
  last := f.last.map Instr.unlocated
  nesting := f.nesting
  call := f.call.map MethodCall.unlocated

def Verdict.unlocated : Verdict → Verdict
  | .finish v => .finish v.unlocated
  | .resume v => .resume v.unlocated
  | .handle pc s => .handle pc s.unlocated
  | .pass s => .pass s.unlocated

section Frames

variable (f : Frame)

@[simp]
theorem Frame.unlocated_unlocated : f.unlocated.unlocated = f.unlocated := by
  have hinstrs : Instr.unlocated ∘ Instr.unlocated = Instr.unlocated :=
    funext Instr.unlocated_unlocated
  have hcalls : MethodCall.unlocated ∘ MethodCall.unlocated = MethodCall.unlocated := rfl
  simp [unlocated, hinstrs, hcalls]

theorem Frame.next?_unlocated : f.unlocated.next? = f.next?.map Instr.unlocated :=
  f.scope.code.instr?_unlocated f.pc

theorem Frame.resume_unlocated (v : Value) :
    (f.resume v).unlocated = f.unlocated.resume v.unlocated := by
  have hslot : (f.last.map Instr.unlocated).bind Instr.resultSlot? =
      f.last.bind Instr.resultSlot? := by
    cases f.last with
    | none => rfl
    | some i => exact i.resultSlot?_unlocated
  simp only [resume, unlocated, Activation.store_unlocated, hslot]

theorem Frame.last_isBreak_unlocated :
    f.unlocated.last.any Instr.isBreak = f.last.any Instr.isBreak := by
  simp only [unlocated]
  cases f.last with
  | none => rfl
  | some i => exact i.isBreak_unlocated

theorem Frame.onRaise_unlocated (v : Value) :
    (f.onRaise v).unlocated = f.unlocated.onRaise v.unlocated := by
  have hhandler : f.unlocated.scope.code.rescuerAt? f.unlocated.pc =
      f.scope.code.rescuerAt? f.pc := rfl
  simp only [onRaise, hhandler]
  cases f.scope.code.rescuerAt? f.pc <;> rfl

theorem Frame.onUnrescued_unlocated (s : Signal) :
    (f.onUnrescued s).unlocated = f.unlocated.onUnrescued s.unlocated := by
  have hhandler : f.unlocated.scope.code.ensurerAt? f.unlocated.pc =
      f.scope.code.ensurerAt? f.pc := rfl
  simp only [onUnrescued, hhandler]
  cases f.scope.code.ensurerAt? f.pc <;> rfl

theorem Frame.onUnexpectedBreak_unlocated (t : Thread) (v : Value) :
    (f.onUnexpectedBreak t v).unlocated =
      f.unlocated.onUnexpectedBreak t.unlocated v.unlocated :=
  f.onRaise_unlocated _

/-- A frame without positions makes the same of a signal without positions. -/
theorem Frame.verdict_unlocated (t : Thread) (s : Signal) :
    (f.verdict t s).unlocated = f.unlocated.verdict t.unlocated s.unlocated := by
  have hlambda : f.unlocated.activation.inLambda = f.activation.inLambda := rfl
  have hproc : f.unlocated.activation.inProc = f.activation.inProc := rfl
  have hclosure : f.unlocated.scope.isClosure = f.scope.isClosure := rfl
  have hid : f.unlocated.scope.id = f.scope.id := rfl
  cases s with
  | raise v => exact f.onRaise_unlocated v
  | fatal message => exact f.onUnrescued_unlocated (.fatal message)
  | returnJump target v =>
      simp only [verdict, Signal.unlocated, onReturnJump, hlambda, hid]
      split <;> rfl
  | breakJump target v claimed =>
      simp only [verdict, Signal.unlocated, onBreakJump, f.last_isBreak_unlocated, hlambda, hproc,
        hclosure, hid, ← f.onUnexpectedBreak_unlocated]
      split
      · split <;> rfl
      · split
        · rfl
        · split
          · rfl
          · exact f.onUnrescued_unlocated _

theorem Frame.leavingReturn?_unlocated : f.unlocated.leavingReturn? = f.leavingReturn? := by
  have hlambda : f.unlocated.activation.inLambda = f.activation.inLambda := rfl
  simp only [leavingReturn?, hlambda]
  simp only [unlocated]
  cases f.last with
  | none => rfl
  | some i => cases i <;> rfl

/-- A frame without positions ends the same without positions. -/
theorem Frame.close_unlocated (t : Thread) :
    Completion.unlocated (f.close t) = f.unlocated.close t.unlocated := by
  have horphaned (method : Option ScopeId) :
      f.unlocated.isOrphaned t.unlocated method = f.isOrphaned t method := rfl
  have hclosure : f.unlocated.scope.isClosure = f.scope.isClosure := rfl
  simp only [close, f.leavingReturn?_unlocated, horphaned, hclosure]
  cases f.leavingReturn? with
  | none => rfl
  | some method =>
      simp only
      split
      · rfl
      · split <;> rfl

end Frames

end Unwind
