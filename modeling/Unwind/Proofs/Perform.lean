import Unwind.Instr.Perform

/-!
What performing an instruction can do.

`Instr.Acts` lists it by how the instruction ends; the lemmas behind it say what is left alone.
A thread changes in its line at most.  An instruction that ends in a signal or asks for a call
changes nothing of its activation but what is pending.
-/

namespace Unwind

/-- All that a thread is besides its line. -/
def Thread.standing (t : Thread) : Thread := t.setLine 0

theorem Thread.standing_eq_iff {t u : Thread} :
    t.standing = u.standing ↔ t = u.setLine t.line := by
  obtain ⟨calls, backtrace, nesting, file, line⟩ := t
  obtain ⟨calls', backtrace', nesting', file', line'⟩ := u
  simp [Thread.standing, Thread.setLine]

/-! ## The ways in which instructions end -/

/-- What an instruction can make of a thread and an activation. -/
inductive Instr.Acts (i : Instr) (t : Thread) (receiver : Value) (a : Activation) :
    Performed → Prop
  /-- It writes its result. -/
  | write {dst : Reg} {v : Value} (hslot : i.resultSlot? = some dst) :
      i.Acts t receiver a ⟨t, a.set dst v, .next⟩
  | receive {dst : Reg} (hi : i = .receiveException dst) :
      i.Acts t receiver a ⟨t, a.receive dst, .next⟩
  /-- It clears what is pending, or finds nothing to resume. -/
  | clear (hi : i = .clearPending ∨ i = .resumePending ∧ a.pending = none) :
      i.Acts t receiver a ⟨t, a.takePending.2, .next⟩
  | line {number : UInt32} (hi : i = .line number) :
      i.Acts t receiver a ⟨t.setLine number, a, .next⟩
  /-- It does not take its branch. -/
  | stay {l : Label} (htarget : i.branchTarget? = some l) : i.Acts t receiver a ⟨t, a, .next⟩
  | branch {l : Label} (htarget : i.branchTarget? = some l) :
      i.Acts t receiver a ⟨t, a, .branch l⟩
  | ret {value : Operand} {method : Option ScopeId} (hi : i = .ret value method) :
      i.Acts t receiver a ⟨t, a.setReturn (a.operand receiver value), .branch .exit⟩
  /-- It raises a value, or the refusal of its operands. -/
  | raise {v : Value} : i.Acts t receiver a ⟨t, a, .signal (.raise v)⟩
  | fatal {message : String} (hi : i = .fatal message) :
      i.Acts t receiver a ⟨t, a, .signal (.fatal message)⟩
  | brk {value : Operand} {target : ScopeId} (hi : i = .brk value target) :
      i.Acts t receiver a ⟨t, a, .signal (.breakJump target (a.operand receiver value) false)⟩
  /-- It resumes what is pending. -/
  | resume {s : Signal} (hi : i = .resumePending) (hpending : a.pending = some s) :
      i.Acts t receiver a ⟨t, a.takePending.2, .signal s⟩
  | callMethod {id : ScopeId} {args : List Operand} {dst : Option Reg}
      (hi : i = .callMethod id args dst) :
      i.Acts t receiver a ⟨t, a, .call (.method id (args.map (a.operand receiver)))⟩
  | callClosure {id : ScopeId} {mode : BlockMode} {args : List Operand} {dst : Option Reg}
      (hi : i = .callClosure id mode args dst) :
      i.Acts t receiver a ⟨t, a, .call (.closure id mode (args.map (a.operand receiver)))⟩

theorem raiseSignal_eq_raise (t : Thread) (v : Value) : ∃ w, raiseSignal t v = .raise w := by
  cases v <;> exact ⟨_, rfl⟩

theorem Instr.perform_acts (i : Instr) (t : Thread) (receiver : Value) (a : Activation) :
    i.Acts t receiver a (i.perform t receiver a) := by
  cases i with
  | loadConst value dst => exact .write rfl
  | copy src dst => exact .write rfl
  | binary op lhs rhs dst =>
      simp only [perform]
      split
      · exact .write rfl
      · exact .raise
  | jump target => exact .branch rfl
  | branch truthy cond target =>
      simp only [perform]
      split
      · exact .branch rfl
      · exact .stay rfl
  | ret value method => exact .ret rfl
  | brk value target => exact .brk rfl
  | raise value =>
      obtain ⟨w, hw⟩ := raiseSignal_eq_raise t (a.operand receiver value)
      simp only [perform, hw]
      exact .raise
  | fatal message => exact .fatal rfl
  | receiveException dst => exact .receive rfl
  | resumePending =>
      cases hpending : a.pending with
      | none =>
          simp only [perform, Activation.takePending, hpending]
          exact .clear (Or.inr ⟨rfl, hpending⟩)
      | some s =>
          simp only [perform, Activation.takePending, hpending]
          exact .resume rfl hpending
  | clearPending => exact .clear (Or.inl rfl)
  | callMethod method args dst => exact .callMethod rfl
  | callClosure closure mode args dst => exact .callClosure rfl
  | line number => exact .line rfl

/-! ## What is left alone -/

/-- An instruction changes the line of the thread at most. -/
theorem Instr.perform_thread_standing (i : Instr) (t : Thread) (receiver : Value)
    (a : Activation) : (i.perform t receiver a).thread.standing = t.standing := by
  have hacts := i.perform_acts t receiver a
  generalize i.perform t receiver a = performed at *
  cases hacts <;> rfl

/-- An instruction that ends in a signal changes nothing but what is pending. -/
theorem Instr.perform_of_signal {i : Instr} {t : Thread} {receiver : Value} {a : Activation}
    {s : Signal} (heffect : (i.perform t receiver a).effect = .signal s) :
    (i.perform t receiver a).thread = t ∧
      ∃ pending, (i.perform t receiver a).activation = { a with pending := pending } := by
  have hacts := i.perform_acts t receiver a
  generalize i.perform t receiver a = performed at *
  cases hacts with
  | raise => exact ⟨rfl, a.pending, rfl⟩
  | fatal hi => exact ⟨rfl, a.pending, rfl⟩
  | brk hi => exact ⟨rfl, a.pending, rfl⟩
  | resume hi hpending => exact ⟨rfl, none, rfl⟩
  | _ => cases heffect

/-- An instruction that branches changes the return value at most. -/
theorem Instr.perform_of_branch {i : Instr} {t : Thread} {receiver : Value} {a : Activation}
    {l : Label} (heffect : (i.perform t receiver a).effect = .branch l) :
    (i.perform t receiver a).thread = t ∧
      ((i.perform t receiver a).activation = a ∨
        l = .exit ∧ ∃ v, (i.perform t receiver a).activation = a.setReturn v) := by
  have hacts := i.perform_acts t receiver a
  generalize i.perform t receiver a = performed at *
  cases hacts with
  | branch htarget => exact ⟨rfl, Or.inl rfl⟩
  | ret hi =>
      cases heffect
      exact ⟨rfl, Or.inr ⟨rfl, _, rfl⟩⟩
  | _ => cases heffect

/-- An instruction that asks for a call changes nothing itself. -/
theorem Instr.perform_of_call {i : Instr} {t : Thread} {receiver : Value} {a : Activation}
    {c : Call} (heffect : (i.perform t receiver a).effect = .call c) :
    (i.perform t receiver a).thread = t ∧ (i.perform t receiver a).activation = a := by
  have hacts := i.perform_acts t receiver a
  generalize i.perform t receiver a = performed at *
  cases hacts with
  | callMethod hi => exact ⟨rfl, rfl⟩
  | callClosure hi => exact ⟨rfl, rfl⟩
  | _ => cases heffect

/-- A call names the scope that its instruction names. -/
theorem Instr.call_cases {i : Instr} {t : Thread} {receiver : Value} {a : Activation} {c : Call}
    (heffect : (i.perform t receiver a).effect = .call c) :
    (∃ id args dst vs, i = .callMethod id args dst ∧ c = .method id vs) ∨
      ∃ id mode args dst vs, i = .callClosure id mode args dst ∧ c = .closure id mode vs := by
  have hacts := i.perform_acts t receiver a
  generalize i.perform t receiver a = performed at *
  cases hacts with
  | callMethod hi => exact Or.inl ⟨_, _, _, _, hi, (Effect.call.inj heffect).symm⟩
  | callClosure hi => exact Or.inr ⟨_, _, _, _, _, hi, (Effect.call.inj heffect).symm⟩
  | _ => cases heffect

theorem Instr.eq_callMethod_of_call {i : Instr} {t : Thread} {receiver : Value} {a : Activation}
    {id : ScopeId} {vs : List Value}
    (heffect : (i.perform t receiver a).effect = .call (.method id vs)) :
    ∃ args dst, i = .callMethod id args dst := by
  rcases call_cases heffect with ⟨id', args, dst, vs', rfl, hcall⟩ | ⟨_, _, _, _, _, -, hcall⟩
  · obtain ⟨rfl, -⟩ := Call.method.inj hcall
    exact ⟨args, dst, rfl⟩
  · cases hcall

theorem Instr.eq_callClosure_of_call {i : Instr} {t : Thread} {receiver : Value} {a : Activation}
    {id : ScopeId} {mode : BlockMode} {vs : List Value}
    (heffect : (i.perform t receiver a).effect = .call (.closure id mode vs)) :
    ∃ args dst, i = .callClosure id mode args dst := by
  rcases call_cases heffect with ⟨_, _, _, _, -, hcall⟩ | ⟨id', mode', args, dst, vs', rfl, hcall⟩
  · cases hcall
  · obtain ⟨rfl, rfl, -⟩ := Call.closure.inj hcall
    exact ⟨args, dst, rfl⟩

/-! ## Pending signals -/

theorem Activation.store_pending (a : Activation) (slot : Option Reg) (v : Value) :
    (a.store slot v).pending = a.pending := by
  cases slot <;> rfl

/-- An instruction never makes a signal pending; it keeps the pending one or drops it. -/
theorem Instr.perform_pending (i : Instr) (t : Thread) (receiver : Value) (a : Activation) :
    (i.perform t receiver a).activation.pending = a.pending ∨
      (i.perform t receiver a).activation.pending = none := by
  have hacts := i.perform_acts t receiver a
  generalize i.perform t receiver a = performed at *
  cases hacts with
  | receive hi =>
      simp only [Activation.receive]
      split
      · exact Or.inr rfl
      · exact Or.inl rfl
  | clear hi => exact Or.inr rfl
  | resume hi hpending => exact Or.inr rfl
  | _ => exact Or.inl rfl

/-- The signal looks for the frame that it belongs to, and not for a handler alone. -/
def Signal.isJump : Signal → Bool
  | .raise _ => false
  | .fatal _ => false
  | .returnJump _ _ => true
  | .breakJump _ _ _ => true

/-- An instruction ends in a `return` on its way only if this was pending. -/
theorem Instr.pending_of_returnJump {i : Instr} {t : Thread} {receiver : Value}
    {a : Activation} {target : Option ScopeId} {v : Value}
    (heffect : (i.perform t receiver a).effect = .signal (.returnJump target v)) :
    a.pending = some (.returnJump target v) := by
  have hacts := i.perform_acts t receiver a
  generalize i.perform t receiver a = performed at *
  cases hacts with
  | resume hi hpending => exact Effect.signal.inj heffect ▸ hpending
  | _ => cases heffect

end Unwind
