import Unwind.Proofs.Built
import Unwind.Proofs.Tracing
import Unwind.Proofs.Unlocated

/-!
Source positions never influence where control goes.

A machine without source positions and without its log does the same as the whole one, but for the
positions.  So two runs of programs that differ in their lines only go side by side, from whatever
file and line they begin, and end alike but for the backtraces of exceptions.
-/

namespace Unwind

variable {setup : Setup}

/-! ## Machines without positions -/

/-- The record without the log, which shows the lines in the code. -/
def Record.unlogged (r : Record) : Record := { r with log := [] }

def Control.unlocated : Control → Control
  | .running f cs => .running f.unlocated (cs.map Frame.unlocated)
  | .leaving r a cs =>
      .leaving (Completion.unlocated r) a.unlocated (cs.map Frame.unlocated)

def Machine.unlocated (m : Machine) : Machine where
  receiver := m.receiver.unlocated
  thread := m.thread.unlocated
  record := m.record.unlogged
  control := m.control.unlocated

/-- The observer that logs nothing and whose failures have no backtraces. -/
def Observer.unlocated (o : Observer) : Observer where
  listens := o.listens
  failure? es e := (o.failure? es e).map Signal.unlocated

def Setup.unlocated (setup : Setup) : Setup where
  program := setup.program.unlocated
  settings :=
    { traceCalls := setup.settings.traceCalls, maxCallDepth := setup.settings.maxCallDepth }
  observer := setup.observer.map Observer.unlocated

@[simp]
theorem Record.noteIf_unlogged (r : Record) (wanted : Bool) (entry : LogEntry) :
    (r.noteIf wanted entry).unlogged = r.unlogged := by
  unfold noteIf
  split <;> rfl

@[simp]
theorem Frame.map_unlocated_unlocated (cs : List Frame) :
    (cs.map Frame.unlocated).map Frame.unlocated = cs.map Frame.unlocated := by
  rw [List.map_map]
  exact congrArg (List.map · cs) (funext Frame.unlocated_unlocated)

@[simp]
theorem MethodCall.map_unlocated_unlocated (c : Option MethodCall) :
    (c.map MethodCall.unlocated).map MethodCall.unlocated = c.map MethodCall.unlocated := by
  cases c <;> rfl

@[simp]
theorem Control.unlocated_unlocated (c : Control) : c.unlocated.unlocated = c.unlocated := by
  cases c <;> simp [unlocated]

@[simp]
theorem Machine.unlocated_unlocated (m : Machine) : m.unlocated.unlocated = m.unlocated := by
  simp only [unlocated, Value.unlocated_unlocated, Control.unlocated_unlocated]
  rfl

@[simp]
theorem Setup.unlocated_unlocated (setup : Setup) :
    setup.unlocated.unlocated = setup.unlocated := by
  have hsignals : Signal.unlocated ∘ Signal.unlocated = Signal.unlocated :=
    funext Signal.unlocated_unlocated
  have hobservers : Observer.unlocated ∘ Observer.unlocated = Observer.unlocated := by
    funext o
    simp [Observer.unlocated, hsignals]
  simp [unlocated, hobservers]

/-! ## Operations without positions -/

theorem Setup.fire_unlocated (setup : Setup) (traceable : Bool) (record : Record) (e : Event) :
    setup.unlocated.fire traceable record.unlogged e =
      ((setup.fire traceable record e).1.unlogged,
        (setup.fire traceable record e).2.map Signal.unlocated) := by
  cases hobserver : setup.observer with
  | none => simp [fire, unlocated, hobserver]
  | some observer =>
      by_cases htraceable : traceable = true
      · by_cases hlistens : observer.listens = true
        · simp [fire, unlocated, hobserver, htraceable, Record.tell, Observer.unlocated, hlistens]
          exact ⟨rfl, rfl⟩
        · simp [fire, unlocated, hobserver, htraceable, Record.tell, Observer.unlocated, hlistens]
      · simp [fire, unlocated, hobserver, htraceable]

theorem MethodCall.finish_unlocated (setup : Setup) (c : MethodCall) (thread : Thread)
    (record : Record) (r : Completion) :
    (c.unlocated.finish setup.unlocated thread.unlocated record.unlogged
        (Completion.unlocated r)).1 =
      Completion.unlocated (c.finish setup thread record r).1 ∧
    (c.unlocated.finish setup.unlocated thread.unlocated record.unlogged
        (Completion.unlocated r)).2.1 = (c.finish setup thread record r).2.1.unlocated ∧
    (c.unlocated.finish setup.unlocated thread.unlocated record.unlogged
        (Completion.unlocated r)).2.2.unlogged = (c.finish setup thread record r).2.2.unlogged := by
  have hfire : setup.unlocated.fire c.unlocated.traceable record.unlogged
      ⟨.ret, c.unlocated.method, c.unlocated.module⟩ = _ :=
    setup.fire_unlocated c.traceable record ⟨.ret, c.method, c.module⟩
  unfold finish
  rw [hfire]
  obtain ⟨told, failure⟩ := setup.fire c.traceable record ⟨.ret, c.method, c.module⟩
  cases r <;> cases failure <;> exact ⟨rfl, rfl, rfl⟩

theorem Machine.leave_unlocated (m : Machine) (nesting : Nat) (call : Option MethodCall)
    (a : Activation) (cs : List Frame) (r : Completion) :
    (m.leave setup nesting call a cs r).unlocated =
      (m.unlocated.leave setup.unlocated nesting (call.map MethodCall.unlocated) a.unlocated
        (cs.map Frame.unlocated) (Completion.unlocated r)).unlocated := by
  cases call with
  | none =>
      simp only [leave, Option.map_none, unlocated, Control.unlocated, Value.unlocated_unlocated,
        Completion.unlocated_unlocated, Activation.unlocated_unlocated,
        Frame.map_unlocated_unlocated]
      rfl
  | some c =>
      have hthread : { m.unlocated.thread with nesting := nesting } =
        Thread.unlocated { m.thread with nesting := nesting } := rfl
      have hrecord : m.unlocated.record = m.record.unlogged := rfl
      obtain ⟨hresult, hleft, htold⟩ :=
        c.finish_unlocated setup { m.thread with nesting := nesting } m.record r
      simp only [leave, Option.map_some, hthread, hrecord]
      generalize c.unlocated.finish _ _ _ _ = finished at *
      obtain ⟨result, thread, record⟩ := finished
      simp only at hresult hleft htold
      subst hresult hleft
      simp only [unlocated, Control.unlocated, Value.unlocated_unlocated,
        Completion.unlocated_unlocated, Activation.unlocated_unlocated,
        Frame.map_unlocated_unlocated, htold]
      rfl

theorem Machine.enterScope_unlocated (m : Machine) (id : ScopeId) (a : Activation)
    (call : Option MethodCall) (cs : List Frame) :
    (m.enterScope setup id a call cs).unlocated =
      (m.unlocated.enterScope setup.unlocated id a.unlocated (call.map MethodCall.unlocated)
        (cs.map Frame.unlocated)).unlocated := by
  have hnesting : m.unlocated.thread.nesting = m.thread.nesting := rfl
  have hlimit : setup.unlocated.settings.maxCallDepth = setup.settings.maxCallDepth := rfl
  have hscopes : setup.unlocated.program.scope? id =
      (setup.program.scope? id).map Scope.unlocated := setup.program.scope?_unlocated id
  simp only [enterScope, hnesting, hlimit, hscopes]
  by_cases hdeep : setup.settings.maxCallDepth ≤ m.thread.nesting
  · simp only [hdeep, ↓reduceIte]
    exact m.leave_unlocated _ call a cs (.error .tooDeep)
  · simp only [hdeep, ↓reduceIte]
    cases hscope : setup.program.scope? id with
    | none => exact m.leave_unlocated _ call a cs (.error (.unknownScope setup.program id))
    | some scope =>
        have hcount : scope.unlocated.code.registerCount = scope.code.registerCount :=
          scope.code.registerCount_unlocated
        simp only [Option.map_some, unlocated, Control.unlocated, Frame.unlocated, hcount,
          MethodCall.map_unlocated_unlocated, Scope.unlocated_unlocated, Value.unlocated_unlocated,
          Frame.map_unlocated_unlocated, Activation.reserve_unlocated,
          Activation.unlocated_unlocated]
        rfl

/-- Machines that agree but for positions leave an invocation alike. -/
theorem Machine.leave_congr {m n : Machine} (hsame : n.unlocated = m.unlocated) (nesting : Nat)
    (call : Option MethodCall) (a : Activation) (cs : List Frame) (r : Completion) :
    (m.leave setup nesting call a cs r).unlocated =
      (n.leave setup.unlocated nesting (call.map MethodCall.unlocated) a.unlocated
        (cs.map Frame.unlocated) (Completion.unlocated r)).unlocated := by
  rw [m.leave_unlocated, n.leave_unlocated, hsame]
  simp only [Setup.unlocated_unlocated, Activation.unlocated_unlocated,
    MethodCall.map_unlocated_unlocated, Frame.map_unlocated_unlocated,
    Completion.unlocated_unlocated]

/-- Machines that agree but for positions enter a scope alike. -/
theorem Machine.enterScope_congr {m n : Machine} (hsame : n.unlocated = m.unlocated) (id : ScopeId)
    (a : Activation) (call : Option MethodCall) (cs : List Frame) :
    (m.enterScope setup id a call cs).unlocated =
      (n.enterScope setup.unlocated id a.unlocated (call.map MethodCall.unlocated)
        (cs.map Frame.unlocated)).unlocated := by
  rw [m.enterScope_unlocated, n.enterScope_unlocated, hsame]
  simp only [Setup.unlocated_unlocated, Activation.unlocated_unlocated,
    MethodCall.map_unlocated_unlocated, Frame.map_unlocated_unlocated]

theorem Machine.calls_unlocated (m : Machine) (id : ScopeId) (c : MethodCall) :
    (m.unlocated.calls setup.unlocated id c.unlocated).unlocated =
      (m.calls setup id c).unlocated := by
  have hfire : setup.unlocated.fire c.unlocated.traceable m.unlocated.record
      ⟨.call, c.unlocated.method, c.unlocated.module⟩ = _ :=
    setup.fire_unlocated c.traceable m.record ⟨.call, c.method, c.module⟩
  have hthread : (m.unlocated.thread.pushMethod id c.unlocated).unlocated =
      (m.thread.pushMethod id c).unlocated := by
    unfold Thread.pushMethod
    by_cases hname : c.method.isEmpty = true
    · simp only [MethodCall.unlocated, hname, ↓reduceIte]
      rfl
    · simp only [MethodCall.unlocated, hname]
      rfl
  simp only [calls, hfire]
  simp only [unlocated, Value.unlocated_unlocated, Control.unlocated_unlocated] at hthread ⊢
  rw [hthread]
  rfl

theorem Machine.enterMethod_unlocated (m : Machine) (id : ScopeId) (a : Activation)
    (method : String) (module : Module) (traceable : Bool) (cs : List Frame) :
    (m.enterMethod setup id a method module traceable cs).unlocated =
      (m.unlocated.enterMethod setup.unlocated id a.unlocated method module traceable
        (cs.map Frame.unlocated)).unlocated := by
  have hfire : setup.unlocated.fire traceable m.unlocated.record ⟨.call, method, module⟩ = _ :=
    setup.fire_unlocated traceable m.record ⟨.call, method, module⟩
  have hcalled := @calls_unlocated setup m id (m.callRecord method module traceable)
  rw [m.enterMethod_eq, m.unlocated.enterMethod_eq, hfire]
  cases (setup.fire traceable m.record ⟨.call, method, module⟩).2 with
  | none => exact enterScope_congr hcalled id a (some (m.callRecord method module traceable)) cs
  | some s =>
      exact leave_congr hcalled m.thread.nesting
        (some (m.callRecord method module traceable)) a cs (.error s)

theorem Machine.enterCall_unlocated (m : Machine) (c : Call) (cs : List Frame) :
    (m.enterCall setup c cs).unlocated =
      (m.unlocated.enterCall setup.unlocated c.unlocated (cs.map Frame.unlocated)).unlocated := by
  cases c with
  | closure id mode args =>
      have hentered := @enterScope_unlocated setup m id (.fresh (.ofMode mode) args) none cs
      rw [Activation.fresh_unlocated] at hentered
      exact hentered
  | method id args =>
      have hscopes : setup.unlocated.program.scope? id =
          (setup.program.scope? id).map Scope.unlocated := setup.program.scope?_unlocated id
      simp only [enterCall, Call.unlocated, hscopes, ← Activation.fresh_unlocated]
      cases hscope : setup.program.scope? id with
      | some scope => exact m.enterMethod_unlocated id _ scope.name _ _ cs
      | none =>
          simp only [Option.map_none, unlocated, Control.unlocated, Value.unlocated_unlocated,
            Activation.unlocated_unlocated, Frame.map_unlocated_unlocated]
          rfl

theorem Machine.unlocated_of_unlogged (m : Machine) {record : Record}
    (hrecord : record.unlogged = m.record.unlogged) :
    Machine.unlocated { m with record := record } = m.unlocated := by
  simp only [unlocated, hrecord]

/-- Whatever was logged, a machine goes on without positions with the frame as it is without. -/
theorem Machine.running_unlocated (m : Machine) {record : Record}
    (hrecord : record.unlogged = m.record.unlogged) (f : Frame) (cs : List Frame) :
    Machine.unlocated { m with record := record, control := .running f cs } =
      Machine.unlocated
        { m.unlocated with control := .running f.unlocated (cs.map Frame.unlocated) } := by
  simp only [unlocated, Control.unlocated, hrecord, Value.unlocated_unlocated,
    Frame.unlocated_unlocated, Frame.map_unlocated_unlocated]
  rfl

theorem Machine.leaveFrame_unlocated (m : Machine) {record : Record}
    (hrecord : record.unlogged = m.record.unlogged) (f : Frame) (cs : List Frame)
    (r : Completion) :
    (Machine.leaveFrame { m with record := record } setup f cs r).unlocated =
      (m.unlocated.leaveFrame setup.unlocated f.unlocated (cs.map Frame.unlocated)
        (Completion.unlocated r)).unlocated := by
  rw [← m.unlocated_of_unlogged hrecord]
  exact leave_unlocated _ f.nesting f.call f.activation cs r

theorem Machine.settle_unlocated (m : Machine) (f : Frame) (cs : List Frame) (s : Signal) :
    (m.settle setup f cs s).unlocated =
      (m.unlocated.settle setup.unlocated f.unlocated (cs.map Frame.unlocated)
        s.unlocated).unlocated := by
  have hverdict : f.unlocated.verdict m.unlocated.thread s.unlocated = _ :=
    (f.verdict_unlocated m.thread s).symm
  have hlogged (v : Value) := m.record.noteIf_unlogged setup.settings.debug
    (.caughtRaise f.scope.name f.pc v)
  simp only [settle, hverdict]
  cases f.verdict m.thread s with
  | finish v => exact m.leaveFrame_unlocated rfl f cs (.ok v)
  | resume v =>
      have hresumed := m.running_unlocated rfl (f.resume v) cs
      rw [f.resume_unlocated] at hresumed
      exact hresumed
  | handle pc handled =>
      cases handled with
      | raise v => exact m.running_unlocated (hlogged v) (f.handle pc (.raise v)) cs
      | _ => exact m.running_unlocated rfl (f.handle pc _) cs
  | pass passed =>
      cases passed with
      | raise v => exact m.leaveFrame_unlocated (hlogged v) f cs (.error (.raise v))
      | _ => exact m.leaveFrame_unlocated rfl f cs (.error _)

theorem Machine.closeFrame_unlocated (m : Machine) (f : Frame) (cs : List Frame) :
    (m.closeFrame setup f cs).unlocated =
      (m.unlocated.closeFrame setup.unlocated f.unlocated (cs.map Frame.unlocated)).unlocated := by
  have hclose : f.unlocated.close m.unlocated.thread = _ := (f.close_unlocated m.thread).symm
  simp only [closeFrame, hclose]
  exact m.leaveFrame_unlocated (m.record.noteIf_unlogged _ _) f cs (f.close m.thread)

theorem Machine.execute_unlocated (m : Machine) (f : Frame) (cs : List Frame) (i : Instr) :
    (m.execute setup f cs i).unlocated =
      (m.unlocated.execute setup.unlocated f.unlocated (cs.map Frame.unlocated)
        i.unlocated).unlocated := by
  have hcounted : (m.record.count.noteIf setup.settings.debug
      (.executing f.scope.name f.pc i)).unlogged = m.record.count.unlogged :=
    m.record.count.noteIf_unlogged _ _
  have hperformed : i.unlocated.perform m.unlocated.thread m.unlocated.receiver
      f.unlocated.activation = _ := (i.perform_unlocated m.thread m.receiver f.activation).symm
  have hplace (l : Label) : f.unlocated.scope.code.place? l = f.scope.code.place? l :=
    f.scope.code.place?_unlocated l
  simp only [execute, hperformed]
  generalize i.perform m.thread m.receiver f.activation = performed
  generalize m.record.count.noteIf _ _ = counted at hcounted ⊢
  obtain ⟨thread, activation, effect⟩ := performed
  -- the machine and the frame that have performed the instruction
  let next : Machine := { m with thread := thread, record := counted }
  let after : Frame := { f with last := some i, activation := activation }
  have hnext : next.unlocated =
      { m.unlocated with thread := thread.unlocated, record := m.record.count.unlogged } := by
    simp only [next, unlocated, hcounted]
  cases effect with
  | next =>
      have hwent := next.running_unlocated rfl (after.goTo (f.pc + 1)) cs
      rw [hnext] at hwent
      exact hwent
  | branch l =>
      simp only [Performed.unlocated, Effect.unlocated, hplace]
      cases f.scope.code.place? l with
      | some pc =>
          have hwent := next.running_unlocated rfl (after.goTo pc) cs
          rw [hnext] at hwent
          exact hwent
      | none =>
          have hsettled := @settle_unlocated setup next after cs (.unplacedLabel l)
          rw [hnext] at hsettled
          exact hsettled
  | signal s =>
      have hsettled := @settle_unlocated setup next after cs s
      rw [hnext] at hsettled
      exact hsettled
  | call c =>
      have hentered := @enterCall_unlocated setup next c (after :: cs)
      rw [hnext] at hentered
      exact hentered

/-- A step without positions leads to the same, without positions. -/
theorem Machine.step_unlocated (setup : Setup) (m : Machine) :
    (m.step setup).unlocated = (m.unlocated.step setup.unlocated).unlocated := by
  cases hcontrol : m.control with
  | running f cs =>
      have hplain : m.unlocated.control = .running f.unlocated (cs.map Frame.unlocated) :=
        congrArg Control.unlocated hcontrol
      simp only [step, hcontrol, hplain, f.next?_unlocated]
      cases f.next? with
      | none => exact m.closeFrame_unlocated f cs
      | some i => exact m.execute_unlocated f cs i
  | leaving r a cs =>
      have hplain : m.unlocated.control =
          .leaving (Completion.unlocated r) a.unlocated (cs.map Frame.unlocated) :=
        congrArg Control.unlocated hcontrol
      cases cs with
      | nil => cases r <;> simp [step, hcontrol, hplain, Completion.unlocated]
      | cons f cs =>
          cases r with
          | error s =>
              simp only [step, hcontrol, hplain, Completion.unlocated, List.map_cons]
              exact m.settle_unlocated f cs s
          | ok v =>
              have hresumed := m.running_unlocated rfl (f.resume v) cs
              rw [f.resume_unlocated] at hresumed
              simp only [step, hcontrol, hplain, Completion.unlocated, List.map_cons]
              exact hresumed

/-! ## Runs side by side -/

/-- The scope and the place in its code of the instruction that the next step executes. -/
def Machine.spot? (m : Machine) : Option (ScopeId × Nat) :=
  m.executing?.map fun executing => (executing.1.scope.id, executing.1.pc)

theorem Machine.spot?_unlocated (m : Machine) : m.unlocated.spot? = m.spot? := by
  cases hcontrol : m.control with
  | leaving r a cs => simp [spot?, executing?, unlocated, Control.unlocated, hcontrol]
  | running f cs =>
      have hplain : m.unlocated.control = .running f.unlocated (cs.map Frame.unlocated) :=
        congrArg Control.unlocated hcontrol
      simp only [spot?, executing?, hcontrol, hplain, f.next?_unlocated]
      cases f.next? <;> rfl

theorem Machine.heard_unlocated (m : Machine) : m.unlocated.record.heard = m.record.heard := rfl

/-- The outcome without positions and without the log. -/
def Outcome.unlocated (o : Outcome) : Outcome where
  result := Completion.unlocated o.result
  activation := o.activation.unlocated
  thread := o.thread.unlocated
  record := o.record.unlogged

theorem Machine.outcome?_unlocated (m : Machine) :
    m.unlocated.outcome? = m.outcome?.map Outcome.unlocated := by
  cases hcontrol : m.control with
  | running f cs => simp [outcome?, unlocated, Control.unlocated, hcontrol]
  | leaving r a cs =>
      cases cs <;> simp [outcome?, unlocated, Control.unlocated, hcontrol, Outcome.unlocated]

/-- What a run ends with depends on positions in backtraces alone. -/
theorem Outcome.ofRoot_unlocated (o : Outcome) (setup : Setup) :
    Completion.unlocated (o.ofRoot setup).result =
      Completion.unlocated (o.unlocated.ofRoot setup.unlocated).result := by
  obtain ⟨result, activation, thread, record⟩ := o
  cases result with
  | ok v => simp [ofRoot, unlocated, Completion.unlocated]
  | error s =>
      cases s with
      | breakJump target v claimed =>
          have hbreak := congrArg Signal.unlocated (Signal.unlocated_unexpectedBreak v thread)
          rw [Signal.unlocated_unlocated] at hbreak
          exact congrArg Except.error hbreak
      | _ => simp [ofRoot, unlocated, Completion.unlocated, Signal.unlocated]

theorem Setup.runRoot_unlocated (setup : Setup) (receiver : Value) (thread : Thread)
    (record : Record) :
    (setup.runRoot receiver thread record).unlocated =
      (setup.unlocated.runRoot receiver.unlocated thread.unlocated record.unlogged).unlocated := by
  have hentered (given : Record) (module : Module) :=
    @Machine.enterMethod_unlocated setup (Machine.idle receiver thread given (.fresh .method []))
      setup.program.root (.fresh .method []) "" module false []
  have hidle (given : Record) :
      (Machine.idle receiver thread given (.fresh .method [])).unlocated =
        Machine.idle receiver.unlocated thread.unlocated given.unlogged (.fresh .method []) := by
    rw [Machine.idle, Machine.unlocated, Control.unlocated, Activation.fresh_unlocated]
    rfl
  simp only [hidle, Activation.fresh_unlocated] at hentered
  obtain ⟨executed, heard, log, rootModule⟩ := record
  cases rootModule with
  | none => exact hentered _ _
  | some given => exact hentered _ _

/-- Two setups do the same but for positions. -/
structure Setup.SameButPositions (setup other : Setup) : Prop where
  program : other.program.unlocated = setup.program.unlocated
  traceCalls : other.settings.traceCalls = setup.settings.traceCalls
  maxCallDepth : other.settings.maxCallDepth = setup.settings.maxCallDepth
  observer : other.observer = setup.observer

variable {other : Setup}

theorem Setup.SameButPositions.symm (hsame : setup.SameButPositions other) :
    other.SameButPositions setup where
  program := hsame.program.symm
  traceCalls := hsame.traceCalls.symm
  maxCallDepth := hsame.maxCallDepth.symm
  observer := hsame.observer.symm

theorem Setup.SameButPositions.unlocated (hsame : setup.SameButPositions other) :
    other.unlocated = setup.unlocated := by
  simp only [Setup.unlocated, hsame.program, hsame.traceCalls, hsame.maxCallDepth, hsame.observer]

theorem Machine.step_congr (hsetup : other.unlocated = setup.unlocated) {m n : Machine}
    (hsame : n.unlocated = m.unlocated) :
    (n.step other).unlocated = (m.step setup).unlocated := by
  rw [n.step_unlocated, m.step_unlocated, hsetup, hsame]

/-- Machines that agree but for positions stay so. -/
theorem Machine.advance_congr (hsetup : other.unlocated = setup.unlocated) {m n : Machine}
    (hsame : n.unlocated = m.unlocated) (count : Nat) :
    (n.advance other count).unlocated = (m.advance setup count).unlocated := by
  induction count with
  | zero => exact hsame
  | succ count ih =>
      rw [advance_succ, advance_succ]
      exact step_congr hsetup ih

/-- A run of the root that begins at a line of a source file. -/
def Setup.runAt (setup : Setup) (receiver : Value) (record : Record) (file : String)
    (line : UInt32) : Machine :=
  setup.runRoot receiver ((Thread.fresh file).setLine line) record

section Runs

variable (receiver : Value) (record : Record) (file file' : String) (line line' : UInt32)

theorem Setup.runAt_congr (hsetup : other.unlocated = setup.unlocated) :
    (other.runAt receiver record file' line').unlocated =
      (setup.runAt receiver record file line).unlocated := by
  unfold runAt
  rw [other.runRoot_unlocated, setup.runRoot_unlocated, hsetup]
  rfl

theorem Setup.advance_runAt_congr (hsetup : other.unlocated = setup.unlocated) (n : Nat) :
    ((other.runAt receiver record file' line').advance other n).unlocated =
      ((setup.runAt receiver record file line).advance setup n).unlocated :=
  Machine.advance_congr hsetup (runAt_congr receiver record file file' line line' hsetup) n

/-- When one of two such runs stops, so does the other, with the same outcome but for
positions. -/
theorem Setup.runAt_stops_congr (hsetup : other.unlocated = setup.unlocated) {o : Outcome}
    (hstops : (setup.runAt receiver record file line).Stops setup o) :
    ∃ p, (other.runAt receiver record file' line').Stops other p ∧ p.unlocated = o.unlocated := by
  obtain ⟨n, hstopped⟩ := hstops
  have houtcome := congrArg Machine.outcome?
    (advance_runAt_congr receiver record file file' line line' hsetup n)
  rw [Machine.outcome?_unlocated, Machine.outcome?_unlocated, hstopped] at houtcome
  obtain ⟨p, hp, hsame⟩ := Option.map_eq_some_iff.mp houtcome
  exact ⟨p, ⟨n, hp⟩, hsame⟩

/-- Programs that differ in lines only, run under the same settings and observer from any two
lines of any two files, execute the same places and are heard alike at every step.  They stop both
or neither, and then with the same result but for the backtraces of exceptions. -/
theorem source_positions_neutral (hsame : setup.SameButPositions other) :
    (∀ n,
      ((other.runAt receiver record file' line').advance other n).spot? =
        ((setup.runAt receiver record file line).advance setup n).spot? ∧
      ((other.runAt receiver record file' line').advance other n).record.heard =
        ((setup.runAt receiver record file line).advance setup n).record.heard) ∧
    ((∃ o, (setup.runAt receiver record file line).Stops setup o) ↔
      ∃ p, (other.runAt receiver record file' line').Stops other p) ∧
    ∀ o p, (setup.runAt receiver record file line).Stops setup o →
      (other.runAt receiver record file' line').Stops other p →
      p.record.heard = o.record.heard ∧
        Completion.unlocated (p.ofRoot other).result =
          Completion.unlocated (o.ofRoot setup).result := by
  have hsetup := hsame.unlocated
  refine ⟨?_, ⟨?_, ?_⟩, ?_⟩
  · intro n
    have hmachine := Setup.advance_runAt_congr receiver record file file' line line' hsetup n
    constructor
    · rw [← Machine.spot?_unlocated, hmachine, Machine.spot?_unlocated]
    · rw [← Machine.heard_unlocated, hmachine, Machine.heard_unlocated]
  · rintro ⟨o, hstops⟩
    obtain ⟨p, hp, -⟩ :=
      Setup.runAt_stops_congr receiver record file file' line line' hsetup hstops
    exact ⟨p, hp⟩
  · rintro ⟨p, hstops⟩
    obtain ⟨o, ho, -⟩ :=
      Setup.runAt_stops_congr receiver record file' file line' line hsame.symm.unlocated hstops
    exact ⟨o, ho⟩
  · intro o p hstops hp
    obtain ⟨q, hq, hends⟩ :=
      Setup.runAt_stops_congr receiver record file file' line line' hsetup hstops
    obtain rfl := Machine.stops_unique hp hq
    constructor
    · exact congrArg (fun o => o.record.heard) hends
    · rw [p.ofRoot_unlocated, o.ofRoot_unlocated, hends, hsetup]

end Runs

namespace LocationWitness

/-- A script whose method raises, with two lines to choose. -/
def listing (main work : UInt32) : Listing where
  name := "lines"
  root := 0
  scopes := [
    ⟨"<main>", .script, none, [.instr (.line main), .instr (.callMethod ⟨1⟩ [] none)], []⟩,
    ⟨"work", .method, none, [.instr (.line work), .instr (.raise (.const (.str "boom")))], []⟩]

def program (main work : UInt32) : Program where
  name := "lines"
  root := ⟨0⟩
  scopes := #[
    ⟨⟨0⟩, "<main>", .script, none, ⟨#[.line main, .callMethod ⟨1⟩ [] none], [], []⟩⟩,
    ⟨⟨1⟩, "work", .method, none, ⟨#[.line work, .raise (.const (.str "boom"))], [], []⟩⟩]

/-- The script as it is traced by an observer. -/
def traced (main work : UInt32) : Setup where
  program := program main work
  settings := { traceCalls := true }
  observer := some .recorder

theorem lines_listed (main work : UInt32) : (traced main work).program.Listed :=
  ⟨listing main work, rfl⟩

theorem traced_same (main work main' work' : UInt32) :
    (traced main work).SameButPositions (traced main' work') where
  program := by
    simp [traced, program, Program.unlocated, Scope.unlocated, Code.unlocated, Instr.unlocated]
  traceCalls := rfl
  maxCallDepth := rfl
  observer := rfl

/-- The backtrace of the exception that a run of the root ends with. -/
def endTrace (setup : Setup) (o : Outcome) : Option (List String) :=
  match (o.ofRoot setup).result with
  | .error s => s.exception?.map Exception.backtrace
  | .ok _ => none

/-- The raise shows the line of the call in its backtrace, and nothing else is different. -/
theorem source_positions_neutral_lines :
    (traced 3 9).program.Listed ∧ (traced 40 8).program.Listed ∧
    (traced 3 9).SameButPositions (traced 40 8) ∧
    ∃ o p, ((traced 3 9).runAt .nil {} "a.json" 0).Stops (traced 3 9) o ∧
      ((traced 40 8).runAt .nil {} "b.json" 7).Stops (traced 40 8) p ∧
      endTrace (traced 3 9) o = some ["a.json:3:in `Object#work'"] ∧
      endTrace (traced 40 8) p = some ["b.json:40:in `Object#work'"] ∧
      p.record.heard = o.record.heard ∧
      Completion.unlocated (p.ofRoot (traced 40 8)).result =
        Completion.unlocated (o.ofRoot (traced 3 9)).result := by
  obtain ⟨-, hboth, halike⟩ :=
    source_positions_neutral .nil {} "a.json" "b.json" 0 7 (traced_same 3 9 40 8)
  obtain ⟨o, ho, htrace⟩ := Option.map_eq_some_iff.mp (show
    (((traced 3 9).runAt .nil {} "a.json" 0).advance (traced 3 9) 7).outcome?.map
      (endTrace (traced 3 9)) = some (some ["a.json:3:in `Object#work'"]) by decide +kernel)
  obtain ⟨q, hq, htrace'⟩ := Option.map_eq_some_iff.mp (show
    (((traced 40 8).runAt .nil {} "b.json" 7).advance (traced 40 8) 7).outcome?.map
      (endTrace (traced 40 8)) = some (some ["b.json:40:in `Object#work'"]) by decide +kernel)
  obtain ⟨p, hp⟩ := hboth.mp ⟨o, 7, ho⟩
  obtain rfl := Machine.stops_unique hp ⟨7, hq⟩
  exact ⟨lines_listed 3 9, lines_listed 40 8, traced_same 3 9 40 8, o, p, ⟨7, ho⟩, hp, htrace,
    htrace', halike o p ⟨7, ho⟩ hp⟩

end LocationWitness

end Unwind
