import Unwind.Proofs.Built
import Unwind.Proofs.Restoration
import Unwind.Proofs.Suspension

/-!
Instructions that end in a signal.

Whatever an instruction has called, if it ends in a signal, then its activation and its thread are
what they were before it, but for the line and for a signal that it resumes.  So a frame enters its
handlers in the state in which it began the instruction.
-/

namespace Unwind

variable {setup : Setup}

/-! ## Single instructions -/

/-- An instruction, with what it calls, is executed outside any scope and comes to an end. -/
inductive Setup.Executes (setup : Setup) (receiver : Value) (thread : Thread) (record : Record)
    (a : Activation) (i : Instr) : Executed → Prop
  | ended {e : Executed} (hended : setup.execute receiver thread record a i = .ended e) :
      setup.Executes receiver thread record a i e
  | called {m : Machine} {b : Activation} {o : Outcome}
      (hcalls : setup.execute receiver thread record a i = .calling m b)
      (hstops : m.Stops setup o) : setup.Executes receiver thread record a i (i.afterCall b o)

/-- What an instruction that ends in the signal leaves behind of an activation and a thread. -/
structure Executed.Preserves (e : Executed) (i : Instr) (a : Activation) (thread : Thread)
    (s : Signal) : Prop where
  registers : e.activation.registers = a.registers
  returnValue : e.activation.returnValue = a.returnValue
  invocation : e.activation.invocation = a.invocation
  pending : i ≠ .resumePending → e.activation.pending = a.pending
  /-- To resume is to take the signal. -/
  resumed : i = .resumePending → a.pending = some s ∧ e.activation.pending = none
  thread : e.thread = thread.setLine e.thread.line

/-- An instruction that ends in a signal itself changes nothing, unless it resumes the signal. -/
theorem Instr.perform_eq_of_signal {i : Instr} {t : Thread} {receiver : Value} {a : Activation}
    {s : Signal} (heffect : (i.perform t receiver a).effect = .signal s) :
    i ≠ .resumePending ∧ i.perform t receiver a = ⟨t, a, .signal s⟩ ∨
      i = .resumePending ∧ a.pending = some s ∧
        i.perform t receiver a = ⟨t, a.takePending.2, .signal s⟩ := by
  cases i with
  | resumePending =>
      cases hpending : a.pending with
      | none => simp [perform, Activation.takePending, hpending] at heffect
      | some t =>
          obtain rfl : t = s := by
            simpa [perform, Activation.takePending, hpending] using heffect
          exact Or.inr ⟨rfl, rfl, by simp [perform, Activation.takePending, hpending]⟩
  | binary op lhs rhs dst =>
      refine Or.inl ⟨by simp, ?_⟩
      simp only [perform] at heffect ⊢
      split at heffect
      · cases heffect
      · rw [← heffect]
  | brk value target => exact Or.inl ⟨by simp, by rw [← heffect]; rfl⟩
  | raise value => exact Or.inl ⟨by simp, by rw [← heffect]; rfl⟩
  | fatal message => exact Or.inl ⟨by simp, by rw [← heffect]; rfl⟩
  | branch truthy cond target =>
      simp only [perform] at heffect
      split at heffect <;> cases heffect
  | _ => cases heffect

theorem Instr.ne_resumePending_of_call {i : Instr} {t : Thread} {receiver : Value}
    {a : Activation} {c : Call} (heffect : (i.perform t receiver a).effect = .call c) :
    i ≠ .resumePending := by
  rintro rfl
  rcases Instr.call_cases heffect with ⟨_, _, _, _, hi, -⟩ | ⟨_, _, _, _, _, hi, -⟩ <;> cases hi

theorem Setup.execute_eq_ended {receiver : Value} {thread : Thread} {record : Record}
    {a : Activation} {i : Instr} {e : Executed} {s : Signal}
    (hended : setup.execute receiver thread record a i = .ended e) (hresult : e.result = .error s) :
    i.perform thread receiver a = ⟨e.thread, e.activation, .signal s⟩ := by
  unfold execute at hended
  cases hperformed : i.perform thread receiver a with
  | mk t b effect =>
      rw [hperformed] at hended
      cases effect with
      | signal made =>
          obtain rfl := Execution.ended.inj hended
          rw [Except.error.inj hresult]
      | call c => cases hended
      | _ =>
          obtain rfl := Execution.ended.inj hended
          cases hresult

/-- An instruction whose call has ended in a signal keeps its activation. -/
theorem Instr.afterCall_of_error {i : Instr} {a : Activation} {o : Outcome} {s : Signal}
    (hresult : (i.afterCall a o).result = .error s) :
    i.afterCall a o = ⟨.error s, a, o.thread, o.record⟩ := by
  unfold afterCall at hresult ⊢
  split at hresult
  · cases hresult
  · rw [← hresult]

theorem Setup.Executes.preserves {receiver : Value} {thread : Thread} {record : Record}
    {a : Activation} {i : Instr} {e : Executed} {s : Signal}
    (hexecutes : setup.Executes receiver thread record a i e) (hresult : e.result = .error s) :
    e.Preserves i a thread s := by
  cases hexecutes with
  | ended hended =>
      have hperform := setup.execute_eq_ended hended hresult
      obtain ⟨result, b, t, told⟩ := e
      rcases Instr.perform_eq_of_signal (congrArg Performed.effect hperform) with
        ⟨hother, hkept⟩ | ⟨hresumes, hpending, htaken⟩
      · obtain ⟨rfl, rfl, -⟩ := Performed.mk.inj (hkept.symm.trans hperform)
        exact ⟨rfl, rfl, rfl, fun _ => rfl, fun hi => absurd hi hother, rfl⟩
      · obtain ⟨rfl, rfl, -⟩ := Performed.mk.inj (htaken.symm.trans hperform)
        exact ⟨rfl, rfl, rfl, fun hi => absurd hresumes hi, fun _ => ⟨hpending, rfl⟩, rfl⟩
  | called hcalls hstops =>
      obtain ⟨c, heffect, rfl, -⟩ := setup.execute_eq_calling hcalls
      have hother := Instr.ne_resumePending_of_call heffect
      -- the activation has waited for the call, which gives the thread back however it ends
      rw [Instr.afterCall_of_error hresult]
      exact ⟨rfl, rfl, rfl, fun _ => rfl, fun hi => absurd hi hother,
        (Setup.execute_stackedOn hcalls).thread_of_stops hstops⟩

/-! ## Handlers -/

/-- A frame enters its handler as it was when it began the instruction, with the signal pending
and on the thread of that moment. -/
theorem Machine.EndsIn.handle_began {m : Machine} (hstart : m.waiting = []) {n : Nat} {f : Frame}
    {cs : List Frame} {s handled : Signal} {pc : Nat} (hends : (m.advance setup n).EndsIn f cs s)
    (hverdict : f.verdict (m.advance setup n).thread s = .handle pc handled) :
    ∃ k g i, m.Began setup k n g i cs ∧
      (m.advance setup (n + 1)).control = .running ((g.calling i).handle pc handled) cs ∧
      (m.advance setup (n + 1)).thread.standing = (m.advance setup k).thread.standing := by
  obtain ⟨k, g, i, hbegan, hperforms, hbase⟩ := hends.began hstart (List.nil_append _).symm
  have hspec := hends.step_spec setup
  rw [hverdict, ← advance_succ] at hspec
  refine ⟨k, g, i, hbegan, ?_, ?_⟩
  · rw [hspec.1, hperforms.handle_eq]
  · rw [hspec.2]
    -- the signal is that of the frame's own instruction, or of what this has called
    rcases hbase with ⟨-, rfl⟩ | hstacked
    · rfl
    · obtain ⟨f₀, hactive, -⟩ := hends.active
      exact hstacked.standing_eq (by rw [hactive, List.length_cons, List.length_cons])

/-- An instruction that ends in a signal leaves the registers, the return value and the kind of
its activation as they were, and also what is pending, unless it resumes that; its thread changes
in the line at most.  In runs, handler code begins in the state before the instruction whose signal
it handles. -/
theorem failing_instruction (setup : Setup) :
    (∀ receiver thread record a i e s, setup.Executes receiver thread record a i e →
      e.result = .error s → e.Preserves i a thread s) ∧
    ∀ (m : Machine) n f cs s pc handled, m.waiting = [] → (m.advance setup n).EndsIn f cs s →
      f.verdict (m.advance setup n).thread s = .handle pc handled →
      ∃ k g i, m.Began setup k n g i cs ∧
        (m.advance setup (n + 1)).control = .running
          { g with
            pc := pc
            last := some i
            activation := { g.activation with pending := some handled } } cs ∧
        (m.advance setup (n + 1)).thread =
          (m.advance setup k).thread.setLine (m.advance setup (n + 1)).thread.line := by
  refine ⟨?_, ?_⟩
  · intro receiver thread record a i e s hexecutes hresult
    exact hexecutes.preserves hresult
  · intro m n f cs s pc handled hstart hends hverdict
    obtain ⟨k, g, i, hbegan, hcontrol, hstanding⟩ := hends.handle_began hstart hverdict
    exact ⟨k, g, i, hbegan, hcontrol, Thread.standing_eq_iff.mp hstanding⟩

namespace FailingInstructionWitness

/-- A script that sets a register, calls a method and rescues what comes of it; the method goes on
to another line and raises. -/
def listing : Listing where
  name := "failing"
  root := 0
  scopes := [
    ⟨"<main>", .script, none,
      [.instr (.loadConst (.int 8) ⟨0⟩), .label ⟨0⟩,
        .instr (.callMethod ⟨1⟩ [.reg ⟨0⟩] (some ⟨0⟩)), .label ⟨1⟩, .instr (.ret .nil none),
        .label ⟨2⟩, .instr (.ret (.reg ⟨0⟩) none)],
      [.rescuing ⟨0⟩ ⟨1⟩ ⟨2⟩]⟩,
    ⟨"work", .method, none,
      [.instr (.loadConst (.int 9) ⟨0⟩), .instr (.line 5),
        .instr (.raise (.const (.str "boom")))], []⟩]

/-- An observer fails as well, at the end of the call. -/
def failing : Setup where
  program :=
    { name := "failing"
      root := ⟨0⟩
      scopes := #[
        ⟨⟨0⟩, "<main>", .script, none,
          ⟨#[.loadConst (.int 8) ⟨0⟩, .callMethod ⟨1⟩ [.reg ⟨0⟩] (some ⟨0⟩), .ret .nil none,
              .ret (.reg ⟨0⟩) none],
            [(⟨0⟩, 1), (⟨1⟩, 2), (⟨2⟩, 3)], [⟨1, 2, some 3, none⟩]⟩⟩,
        ⟨⟨1⟩, "work", .method, none,
          ⟨#[.loadConst (.int 9) ⟨0⟩, .line 5, .raise (.const (.str "boom"))], [], []⟩⟩] }
  settings := { traceCalls := true }
  observer := some (.failing (fun e => e.kind == .ret) (.fatal "hook failed"))

theorem failing_listed : failing.program.Listed := ⟨listing, rfl⟩

def run : Machine := failing.runRoot .nil (.fresh "-") {}

/-- An activation whose handler code calls the method. -/
def handling : Activation where
  invocation := .lambda
  registers := #[.int 8]
  pending := some (.fatal "broken")
  returnValue := .int 3

def callWork : Instr := .callMethod ⟨1⟩ [.reg ⟨0⟩] (some ⟨0⟩)

/-- The call ends in the raise of the method, and nothing is left of this but the line; to resume
takes the pending signal; and the script enters its rescue code with the register that it set. -/
theorem failing_instruction_call :
    failing.program.Listed ∧
      (∃ e s, failing.Executes .nil (.fresh "-") {} handling callWork e ∧ e.result = .error s ∧
        e.thread.line = 5 ∧ e.Preserves callWork handling (.fresh "-") s) ∧
      (∃ e, failing.Executes .nil (.fresh "-") {} handling .resumePending e ∧
        e.result = .error (.fatal "broken") ∧
        e.Preserves .resumePending handling (.fresh "-") (.fatal "broken")) ∧
      ∃ f s k g i, (run.advance failing 5).EndsIn f [] s ∧
        f.verdict (run.advance failing 5).thread s = .handle 3 s ∧
        run.Began failing k 5 g i [] ∧
        (run.advance failing 6).control = .running
          { g with
            pc := 3
            last := some i
            activation := { g.activation with pending := some s } } [] ∧
        (run.advance failing 6).thread =
          (run.advance failing k).thread.setLine (run.advance failing 6).thread.line := by
  have hresult := failing_instruction failing
  have hcalled : failing.Executes .nil (.fresh "-") {} handling callWork _ :=
    .called rfl ⟨5, rfl⟩
  have hended : failing.Executes .nil (.fresh "-") {} handling .resumePending _ := .ended rfl
  have hends : (run.advance failing 5).EndsIn _ [] _ := .callee rfl
  obtain ⟨k, g, i, hhandled⟩ := hresult.2 run 5 _ [] _ 3 _ rfl hends rfl
  exact ⟨failing_listed, ⟨_, _, hcalled, rfl, rfl, hresult.1 _ _ _ _ _ _ _ hcalled rfl⟩,
    ⟨_, hended, rfl, hresult.1 _ _ _ _ _ _ _ hended rfl⟩, _, _, k, g, i, hends, rfl, hhandled⟩

end FailingInstructionWitness

end Unwind
