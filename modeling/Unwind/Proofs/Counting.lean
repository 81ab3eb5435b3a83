import Unwind.Proofs.Tracing

/-!
How many instructions are executed.

A step that executes an instruction counts it, and nothing else is counted: neither observers nor
the log, nor frames that come and go, change the number.
-/

namespace Unwind

theorem Record.noteIf_executed (r : Record) (wanted : Bool) (entry : LogEntry) :
    (r.noteIf wanted entry).executed = r.executed := by
  unfold Record.noteIf
  split <;> rfl

theorem Setup.fire_executed (setup : Setup) (traceable : Bool) (record : Record) (e : Event) :
    (setup.fire traceable record e).1.executed = record.executed := by
  unfold Setup.fire
  split
  · split
    · unfold Record.tell
      split
      · exact Record.noteIf_executed _ _ _
      · rfl
    · rfl
  · rfl

theorem MethodCall.finish_executed (c : MethodCall) (setup : Setup) (thread : Thread)
    (record : Record) (r : Completion) :
    (c.finish setup thread record r).2.2.executed = record.executed := by
  have hfire := setup.fire_executed c.traceable record ⟨.ret, c.method, c.module⟩
  cases hend : setup.fire c.traceable record ⟨.ret, c.method, c.module⟩ with
  | mk told failure =>
      rw [hend] at hfire
      cases failure with
      | none => simpa [MethodCall.finish, hend] using hfire
      | some s => cases r <;> simpa [MethodCall.finish, hend, Record.note] using hfire

theorem Machine.leave_executed (m : Machine) (setup : Setup) (nesting : Nat)
    (call : Option MethodCall) (a : Activation) (cs : List Frame) (r : Completion) :
    (m.leave setup nesting call a cs r).record.executed = m.record.executed := by
  cases call with
  | none => rfl
  | some c => exact c.finish_executed setup _ m.record r

theorem Machine.enterScope_executed (m : Machine) (setup : Setup) (id : ScopeId) (a : Activation)
    (call : Option MethodCall) (cs : List Frame) :
    (m.enterScope setup id a call cs).record.executed = m.record.executed := by
  rcases m.enterScope_eq setup id a call cs with ⟨s, -, henter⟩ | ⟨scope, -, -, henter⟩
  · rw [henter, Machine.leave_executed]
  · rw [henter]

theorem Machine.enterMethod_executed (m : Machine) (setup : Setup) (id : ScopeId)
    (a : Activation) (method : String) (module : Module) (traceable : Bool) (cs : List Frame) :
    (m.enterMethod setup id a method module traceable cs).record.executed = m.record.executed := by
  have hcalls (c : MethodCall) : (m.calls setup id c).record.executed = m.record.executed :=
    setup.fire_executed _ _ _
  rw [m.enterMethod_eq]
  split
  · rw [Machine.leave_executed, hcalls]
  · rw [Machine.enterScope_executed, hcalls]

theorem Machine.enterCall_executed (m : Machine) (setup : Setup) (c : Call) (cs : List Frame) :
    (m.enterCall setup c cs).record.executed = m.record.executed := by
  cases c with
  | method id args =>
      simp only [Machine.enterCall]
      split
      · rfl
      · exact m.enterMethod_executed setup id _ _ _ _ cs
  | closure id mode args => exact m.enterScope_executed setup id _ none cs

theorem Machine.settle_executed (m : Machine) (setup : Setup) (f : Frame) (cs : List Frame)
    (s : Signal) : (m.settle setup f cs s).record.executed = m.record.executed := by
  have hleft {noted : Record} (hnoted : noted.executed = m.record.executed) (r : Completion) :
      (Machine.leaveFrame { m with record := noted } setup f cs r).record.executed =
        m.record.executed :=
    (Machine.leave_executed _ setup _ _ _ cs r).trans hnoted
  cases hverdict : f.verdict m.thread s with
  | finish v =>
      simp only [Machine.settle, hverdict]
      exact hleft rfl (.ok v)
  | resume v => simp only [Machine.settle, hverdict, Verdict.raised?]
  | handle pc handled =>
      simp only [Machine.settle, hverdict]
      split
      · exact m.record.noteIf_executed _ _
      · rfl
  | pass passed =>
      simp only [Machine.settle, hverdict]
      split
      · exact hleft (m.record.noteIf_executed _ _) (.error passed)
      · exact hleft rfl (.error passed)

/-- A step counts the instruction that it executes. -/
theorem Machine.step_executed (setup : Setup) (m : Machine) :
    (m.step setup).record.executed = m.record.executed + m.begins?.toList.length := by
  cases hcontrol : m.control with
  | leaving r a cs =>
      rw [begins?_of_leaving hcontrol]
      cases cs with
      | nil => cases r <;> simp [Machine.step, hcontrol]
      | cons f cs =>
          cases r with
          | ok v => simp [Machine.step, hcontrol]
          | error s => simpa [Machine.step, hcontrol] using m.settle_executed setup f cs s
  | running f cs =>
      cases hnext : f.next? with
      | none =>
          simp only [Machine.step, hcontrol, hnext, begins?_of_end hcontrol hnext, closeFrame]
          exact (Machine.leave_executed _ setup _ _ _ cs _).trans (m.record.noteIf_executed _ _)
      | some i =>
          have hcounted (entry : LogEntry) :
              (m.record.count.noteIf setup.settings.debug entry).executed =
                m.record.executed + 1 := m.record.count.noteIf_executed _ _
          rw [begins?_of_running hcontrol hnext]
          simp only [Machine.step, hcontrol, hnext, execute]
          split
          · exact hcounted _
          · split
            · exact hcounted _
            · exact (Machine.settle_executed _ setup _ cs _).trans (hcounted _)
          · exact (Machine.settle_executed _ setup _ cs _).trans (hcounted _)
          · exact (Machine.enterCall_executed _ setup _ _).trans (hcounted _)

theorem Setup.runRoot_executed (setup : Setup) (receiver : Value) (thread : Thread)
    (record : Record) :
    (setup.runRoot receiver thread record).record.executed = record.executed := by
  have hkept : (record.initRootModule .object).2.executed = record.executed := by
    cases hgiven : record.rootModule with
    | none => simp [Record.initRootModule, Record.setRootModule, hgiven]
    | some given => simp [Record.initRootModule, Record.setRootModule, hgiven]
  exact (Machine.enterMethod_executed _ setup _ _ _ _ _ _).trans hkept

theorem Outcome.ofRoot_executed (o : Outcome) (setup : Setup) :
    (o.ofRoot setup).record.executed = o.record.executed :=
  o.record.noteIf_executed _ _

end Unwind
