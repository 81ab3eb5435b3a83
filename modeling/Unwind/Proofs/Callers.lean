import Unwind.Proofs.Restoration

/-!
Which call a frame runs.

Every active frame but the outermost runs the scope that the frame outside it has called, in the
way in which it was called, and a frame that waits waits for a call.  Every frame has the receiver
of the run.
-/

namespace Unwind

variable {p : Program} {setup : Setup}

/-! ## The receiver -/

theorem Machine.leave_receiver (m : Machine) (setup : Setup) (nesting : Nat)
    (call : Option MethodCall) (a : Activation) (cs : List Frame) (r : Completion) :
    (m.leave setup nesting call a cs r).receiver = m.receiver := by
  cases call <;> rfl

theorem Machine.enterScope_receiver (m : Machine) (setup : Setup) (id : ScopeId)
    (a : Activation) (call : Option MethodCall) (cs : List Frame) :
    (m.enterScope setup id a call cs).receiver = m.receiver := by
  simp only [Machine.enterScope]
  split
  · exact m.leave_receiver setup _ call a cs _
  · split
    · exact m.leave_receiver setup _ call a cs _
    · rfl

theorem Machine.enterMethod_receiver (m : Machine) (setup : Setup) (id : ScopeId)
    (a : Activation) (method : String) (module : Module) (traceable : Bool) (cs : List Frame) :
    (m.enterMethod setup id a method module traceable cs).receiver = m.receiver := by
  simp only [Machine.enterMethod]
  split
  · exact Machine.leave_receiver _ setup _ _ a cs _
  · exact Machine.enterScope_receiver _ setup id a _ cs

theorem Machine.enterCall_receiver (m : Machine) (setup : Setup) (c : Call) (cs : List Frame) :
    (m.enterCall setup c cs).receiver = m.receiver := by
  cases c with
  | method id args =>
      simp only [Machine.enterCall]
      split
      · rfl
      · exact m.enterMethod_receiver setup id _ _ _ _ cs
  | closure id mode args => exact m.enterScope_receiver setup id _ none cs

theorem Machine.settle_receiver (m : Machine) (setup : Setup) (f : Frame) (cs : List Frame)
    (s : Signal) : (m.settle setup f cs s).receiver = m.receiver := by
  simp only [Machine.settle]
  split
  · exact Machine.leave_receiver _ setup _ _ _ cs _
  · rfl
  · rfl
  · exact Machine.leave_receiver _ setup _ _ _ cs _

theorem Machine.step_receiver (setup : Setup) (m : Machine) :
    (m.step setup).receiver = m.receiver := by
  simp only [Machine.step]
  split
  · split
    · simp only [Machine.execute]
      split
      · rfl
      · split
        · rfl
        · exact Machine.settle_receiver _ setup _ _ _
      · exact Machine.settle_receiver _ setup _ _ _
      · exact Machine.enterCall_receiver _ setup _ _
    · exact Machine.leave_receiver _ setup _ _ _ _ _
  · rfl
  · exact m.settle_receiver setup _ _ _
  · rfl

theorem Setup.runRoot_receiver (setup : Setup) (receiver : Value) (thread : Thread)
    (record : Record) (n : Nat) :
    ((setup.runRoot receiver thread record).advance setup n).receiver = receiver := by
  induction n with
  | zero => exact Machine.enterMethod_receiver _ setup _ _ _ _ _ _
  | succ n ih => rw [Machine.advance_succ, Machine.step_receiver, ih]

/-! ## Calls -/

/-- The scope that an instruction calls, and how it is entered. -/
def Instr.callee? : Instr → Option (ScopeId × Invocation)
  | .callMethod id _ _ => some (id, .method)
  | .callClosure id mode _ _ => some (id, .ofMode mode)
  | _ => none

/-- The frame waits for a call. -/
def Frame.AwaitsCall (g : Frame) : Prop := (g.last.bind Instr.callee?).isSome

theorem Frame.AwaitsCall.breaks {g : Frame} (hawaits : g.AwaitsCall) :
    g.last.any Instr.isBreak = false := by
  cases hlast : g.last with
  | none => rfl
  | some i =>
      rw [Frame.AwaitsCall, hlast] at hawaits
      cases i with
      | brk value target => cases hawaits
      | _ => rfl

/-- The frame `f` runs what the frame `g` has called. -/
def Frame.CalledBy (p : Program) (f g : Frame) : Prop :=
  ∃ id, g.last.bind Instr.callee? = some (id, f.activation.invocation) ∧
    p.scope? id = some f.scope

/-- Every frame runs what the next one has called, and the outermost is a method. -/
def CalledFrom (p : Program) : Frame → List Frame → Prop
  | f, [] => f.activation.invocation = .method
  | f, g :: cs => f.CalledBy p g ∧ CalledFrom p g cs

theorem Frame.CalledBy.awaitsCall {f g : Frame} (hcalled : f.CalledBy p g) : g.AwaitsCall := by
  obtain ⟨id, hcallee, -⟩ := hcalled
  rw [Frame.AwaitsCall, hcallee]
  rfl

namespace CalledFrom

variable {f g : Frame} {cs : List Frame}

theorem replace (hcalled : CalledFrom p f cs) (hscope : g.scope = f.scope)
    (hinvocation : g.activation.invocation = f.activation.invocation) : CalledFrom p g cs := by
  cases cs with
  | nil => exact hinvocation.trans hcalled
  | cons c cs =>
      obtain ⟨⟨id, hcallee, hid⟩, hrest⟩ := hcalled
      exact ⟨⟨id, by rw [hcallee, hinvocation], by rw [hid, hscope]⟩, hrest⟩

theorem awaitsCall (hcalled : CalledFrom p f cs) : ∀ c ∈ cs, c.AwaitsCall := by
  induction cs generalizing f with
  | nil => exact List.forall_mem_nil _
  | cons c cs ih => exact List.forall_mem_cons.mpr ⟨hcalled.1.awaitsCall, ih hcalled.2⟩

theorem calledBy {inner rest : List Frame} {e g : Frame} (hcalled : CalledFrom p f cs)
    (hsplit : f :: cs = inner ++ e :: g :: rest) : e.CalledBy p g := by
  induction inner generalizing f cs with
  | nil =>
      obtain ⟨rfl, rfl⟩ := List.cons.inj hsplit
      exact hcalled.1
  | cons top inner ih =>
      obtain ⟨rfl, hrest⟩ := List.cons.inj hsplit
      cases cs with
      | nil => simp at hrest
      | cons c cs => exact ih hcalled.2 hrest

end CalledFrom

/-- The active frames of a machine run what they were called for. -/
def Machine.Called (p : Program) (m : Machine) : Prop :=
  match m.control with
  | .running f cs => CalledFrom p f cs
  | .leaving _ _ [] => True
  | .leaving _ _ (g :: cs) => g.AwaitsCall ∧ CalledFrom p g cs

theorem Machine.called_of_running {m : Machine} {f : Frame} {cs : List Frame}
    (hcontrol : m.control = .running f cs) : m.Called p ↔ CalledFrom p f cs := by
  rw [Machine.Called, hcontrol]

theorem Machine.called_of_leaving {m : Machine} {r : Completion} {a : Activation} {g : Frame}
    {cs : List Frame} (hcontrol : m.control = .leaving r a (g :: cs)) :
    m.Called p ↔ g.AwaitsCall ∧ CalledFrom p g cs := by
  rw [Machine.Called, hcontrol]

theorem Machine.Called.awaitsCall {m : Machine} (hm : m.Called p) :
    ∀ g ∈ m.waiting, g.AwaitsCall := by
  cases hcontrol : m.control with
  | running f cs =>
      rw [waiting_of_running hcontrol]
      exact ((called_of_running hcontrol).mp hm).awaitsCall
  | leaving r a cs =>
      rw [waiting_of_leaving hcontrol]
      cases cs with
      | nil => exact List.forall_mem_nil _
      | cons g cs =>
          obtain ⟨hawaits, hcalled⟩ := (called_of_leaving hcontrol).mp hm
          exact List.forall_mem_cons.mpr ⟨hawaits, hcalled.awaitsCall⟩

/-- Of two active frames next to each other, the inner one runs what the outer one has called. -/
theorem Machine.Called.calledBy {m : Machine} (hm : m.Called p) {f g : Frame}
    {rest : List Frame} (hactive : m.IsActive f (g :: rest)) : f.CalledBy p g := by
  obtain ⟨inner, hinner⟩ := hactive
  cases hcontrol : m.control with
  | running e cs =>
      rw [active_of_running hcontrol] at hinner
      exact ((called_of_running hcontrol).mp hm).calledBy hinner
  | leaving r a cs =>
      rw [active_of_leaving hcontrol] at hinner
      cases cs with
      | nil => simp at hinner
      | cons e cs => exact ((called_of_leaving hcontrol).mp hm).2.calledBy hinner

/-! ## Steps -/

theorem Instr.perform_invocation (i : Instr) (t : Thread) (receiver : Value) (a : Activation) :
    (i.perform t receiver a).activation.invocation = a.invocation := by
  have hacts := i.perform_acts t receiver a
  generalize i.perform t receiver a = performed at *
  cases hacts with
  | receive hi =>
      simp only [Activation.receive]
      split <;> rfl
  | _ => rfl

theorem Activation.store_invocation (a : Activation) (slot : Option Reg) (v : Value) :
    (a.store slot v).invocation = a.invocation := by
  cases slot <;> rfl

theorem Machine.EndsIn.calledFrom {m : Machine} {f : Frame} {cs : List Frame} {s : Signal}
    (hends : m.EndsIn f cs s) (hm : m.Called p) : CalledFrom p f cs := by
  cases hends with
  | own hrunning _ _ =>
      exact ((called_of_running hrunning).mp hm).replace rfl (Instr.perform_invocation _ _ _ _)
  | unplaced hrunning _ _ _ =>
      exact ((called_of_running hrunning).mp hm).replace rfl (Instr.perform_invocation _ _ _ _)
  | callee hleaving => exact ((called_of_leaving hleaving).mp hm).2

theorem Machine.Resumes.calledFrom {m : Machine} {f : Frame} {cs : List Frame} {v : Value}
    (hresumes : m.Resumes f cs v) (hm : m.Called p) : CalledFrom p f cs := by
  cases hresumes with
  | value hleaving => exact ((called_of_leaving hleaving).mp hm).2
  | consume hends _ => exact hends.calledFrom hm

theorem Machine.Leaves.calledFrom {m : Machine} {f : Frame} {cs : List Frame} {r : Completion}
    (hleaves : m.Leaves f cs r) (hm : m.Called p) : CalledFrom p f cs := by
  cases hleaves with
  | close hrunning _ => exact (called_of_running hrunning).mp hm
  | finish hends _ => exact hends.calledFrom hm
  | pass hends _ => exact hends.calledFrom hm

/-- A call that is performed is the one that its instruction names. -/
theorem Call.EnteredAs.calledBy {f g : Frame} {i : Instr} {m : Machine} {c : Call}
    (heffect : (i.perform m.thread m.receiver f.activation).effect = .call c) {module : Module}
    (hentered : c.EnteredAs setup module g) : g.CalledBy setup.program (f.calling i) := by
  cases hentered with
  | method hscope _ _ _ =>
      obtain ⟨args, dst, rfl⟩ := Instr.eq_callMethod_of_call heffect
      exact ⟨_, rfl, hscope⟩
  | closure hscope =>
      obtain ⟨args, dst, rfl⟩ := Instr.eq_callClosure_of_call heffect
      exact ⟨_, rfl, hscope⟩

theorem Instr.callee?_isSome_of_call {i : Instr} {t : Thread} {receiver : Value}
    {a : Activation} {c : Call} (heffect : (i.perform t receiver a).effect = .call c) :
    i.callee?.isSome := by
  rcases Instr.call_cases heffect with ⟨_, _, _, _, rfl, -⟩ | ⟨_, _, _, _, _, rfl, -⟩ <;> rfl

theorem Machine.Called.step {m : Machine} (hm : m.Called setup.program) :
    (m.step setup).Called setup.program := by
  cases m.step_turn setup with
  | proceed hrunning hnext heffect hcontrol hthread =>
      rw [called_of_running hcontrol]
      exact ((called_of_running hrunning).mp hm).replace rfl (Instr.perform_invocation _ _ _ _)
  | enter hrunning hnext heffect hcontrol hentered hover =>
      rw [called_of_running hcontrol]
      exact ⟨hentered.calledBy heffect, ((called_of_running hrunning).mp hm).replace rfl rfl⟩
  | refuse hrunning hnext heffect hrefuses hcontrol hthread =>
      rw [called_of_leaving hcontrol]
      exact ⟨Instr.callee?_isSome_of_call heffect,
        ((called_of_running hrunning).mp hm).replace rfl rfl⟩
  | resume hresumes hcontrol hthread =>
      rw [called_of_running hcontrol]
      exact (hresumes.calledFrom hm).replace rfl (Activation.store_invocation _ _ _)
  | handle hends hverdict hcontrol hthread =>
      rw [called_of_running hcontrol]
      exact (hends.calledFrom hm).replace rfl rfl
  | @leave f cs r result hleaves hresult hcontrol hthread =>
      have hcalled := hleaves.calledFrom hm
      cases cs with
      | nil =>
          rw [Machine.Called, hcontrol]
          trivial
      | cons g cs =>
          rw [called_of_leaving hcontrol]
          exact ⟨hcalled.1.awaitsCall, hcalled.2⟩
  | stop hleaving hsame => rwa [hsame]

/-- The frames of a run run what they were called for. -/
theorem Setup.runRoot_called (setup : Setup) (receiver : Value) (thread : Thread)
    (record : Record) (n : Nat) :
    ((setup.runRoot receiver thread record).advance setup n).Called setup.program := by
  induction n with
  | zero =>
      rcases setup.runRoot_cases receiver thread record with
        ⟨s, a, -, hcontrol⟩ | ⟨scope, nesting, call, -, hcontrol⟩
      · rw [Machine.advance, Machine.Called, hcontrol]
        trivial
      · rw [Machine.advance, Machine.called_of_running hcontrol]
        rfl
  | succ n ih =>
      rw [Machine.advance_succ]
      exact ih.step

end Unwind
