import Unwind.Proofs.Built
import Unwind.Proofs.Counting

/-!
Observation changes nothing.

A machine without its log and without what observers have heard does the same as the whole one, as
long as observers fail at most at the end of invocations that end with a signal.  So two runs that
differ only in how they are observed go side by side.
-/

namespace Unwind

variable {setup : Setup}

/-! ## Failures of observers -/

/-- The observer, told of an event if the call is to be traced, fails. -/
def Setup.FailsAt (setup : Setup) (traceable : Bool) (record : Record) (e : Event) : Prop :=
  (setup.fire traceable record e).2.isSome = true

/-- Whether the observer fails depends on what it has heard, and on nothing else of the record. -/
theorem Setup.failsAt_congr {record other : Record} (hheard : other.heard = record.heard)
    (traceable : Bool) (e : Event) :
    setup.FailsAt traceable other e ↔ setup.FailsAt traceable record e := by
  unfold FailsAt fire Record.tell
  rw [hheard]
  cases setup.observer with
  | none => rfl
  | some observer =>
      cases traceable with
      | false => rfl
      | true => cases hlistens : observer.listens <;> simp [hlistens]

theorem Setup.not_failsAt_of_untraced (setup : Setup) (record : Record) (e : Event) :
    ¬ setup.FailsAt false record e := by
  cases hobserver : setup.observer <;> simp [FailsAt, fire, hobserver]

/-- In the next step the observer fails, and not at the end of an invocation that ends with a
signal. -/
inductive Machine.Disturbed (setup : Setup) (m : Machine) : Prop
  /-- It fails when a method is called. -/
  | call {f : Frame} {cs : List Frame} {id : ScopeId} {args : List Operand} {dst : Option Reg}
      {s : Scope} (hrunning : m.control = .running f cs)
      (hnext : f.next? = some (.callMethod id args dst))
      (hscope : setup.program.scope? id = some s)
      (hfails : setup.FailsAt setup.settings.traceCalls m.record ⟨.call, s.name, m.record.module⟩)
  /-- It fails when the invocation of a method ends with a value. -/
  | ret {f : Frame} {cs : List Frame} {v : Value} {c : MethodCall}
      (hleaves : m.Leaves f cs (.ok v)) (hcall : f.call = some c)
      (hfails : setup.FailsAt c.traceable m.record ⟨.ret, c.method, c.module⟩)

/-- A disturbed step ends in the failure of the observer. -/
theorem Machine.Disturbed.fails {m : Machine} (hdisturbed : m.Disturbed setup) :
    ∃ s a cs, setup.MayFail s ∧ (m.step setup).control = .leaving (.error s) a cs := by
  cases hdisturbed with
  | @call f cs id args dst scope hrunning hnext hscope hfails =>
      obtain ⟨told, hhears, hstep⟩ := step_of_call hrunning hnext rfl setup
      rw [← hhears.module_eq, ← Setup.failsAt_congr hhears.heard] at hfails
      obtain ⟨s, hs⟩ := Option.isSome_iff_exists.mp hfails
      rw [hstep, enterCall, hscope]
      simp only [enterMethod_eq, hs]
      obtain ⟨result, hresult, hcontrol, -⟩ := leave_spec _ setup _ _ _ _ (.error s)
      rw [hresult.eq_of_error] at hcontrol
      exact ⟨s, _, _, Setup.mayFail_of_fire hs, hcontrol⟩
  | @ret f cs v c hleaves hcall hfails =>
      obtain ⟨before, -, hhears, hstep⟩ := hleaves.step_eq_leaveFrame setup
      rw [← Setup.failsAt_congr hhears.heard] at hfails
      obtain ⟨s, hs⟩ := Option.isSome_iff_exists.mp hfails
      refine ⟨s, f.activation, cs, Setup.mayFail_of_fire hs, ?_⟩
      cases hfire : setup.fire c.traceable before.record ⟨.ret, c.method, c.module⟩ with
      | mk told failure =>
          obtain rfl : failure = some s := by rw [← hs, hfire]
          rw [hstep]
          simp only [leaveFrame, hcall, leave, MethodCall.finish, hfire]

/-! ## Machines without observation -/

def MethodCall.untraced (c : MethodCall) : MethodCall := { c with traceable := false }

def Frame.untraced (f : Frame) : Frame := { f with call := f.call.map MethodCall.untraced }

def Control.untraced : Control → Control
  | .running f cs => .running f.untraced (cs.map Frame.untraced)
  | .leaving r a cs => .leaving r a (cs.map Frame.untraced)

/-- The machine without its log and the events that were heard, as if it had executed the given
number of instructions. -/
def Machine.unobserved (m : Machine) (count : Nat) : Machine :=
  { m with
    record := { executed := count, rootModule := m.record.rootModule }
    control := m.control.untraced }

/-- The setup that logs nothing and has no observer. -/
def Setup.unobserved (setup : Setup) : Setup where
  program := setup.program
  settings := { maxCallDepth := setup.settings.maxCallDepth }

section Reading

variable (m : Machine) (count : Nat)

@[simp]
theorem Machine.unobserved_thread : (m.unobserved count).thread = m.thread := rfl

@[simp]
theorem Machine.unobserved_module : (m.unobserved count).record.module = m.record.module := rfl

@[simp]
theorem Setup.unobserved_program (setup : Setup) : setup.unobserved.program = setup.program := rfl

@[simp]
theorem Setup.unobserved_limit (setup : Setup) :
    setup.unobserved.settings.maxCallDepth = setup.settings.maxCallDepth := rfl

theorem Machine.unobserved_of_rootModule {record : Record}
    (hmodule : record.rootModule = m.record.rootModule) :
    Machine.unobserved { m with record := record } count = m.unobserved count := by
  simp [unobserved, hmodule]

end Reading

/-! ## Operations without observation -/

/-- A call that the observer does not refuse to end with a value ends as it does unobserved. -/
theorem MethodCall.finish_unobserved (c : MethodCall) (thread : Thread) (record : Record)
    {r : Completion}
    (hspares : ∀ v, r = .ok v → ¬ setup.FailsAt c.traceable record ⟨.ret, c.method, c.module⟩)
    (plain : Record) :
    (c.finish setup thread record r).1 = (c.untraced.finish setup.unobserved thread plain r).1 ∧
      (c.finish setup thread record r).2.1 =
        (c.untraced.finish setup.unobserved thread plain r).2.1 := by
  have hplain : c.untraced.finish setup.unobserved thread plain r =
      (r, (thread.cutCalls c.callDepth).cutTrace c.traceDepth, plain) := by
    cases r <;> rfl
  obtain ⟨hresult, hthread⟩ := c.finish_spec setup thread record r
  rw [hplain]
  refine ⟨?_, hthread⟩
  cases r with
  | error s => exact hresult.eq_of_error
  | ok v =>
      have hcontent : (setup.fire c.traceable record ⟨.ret, c.method, c.module⟩).2 = none :=
        Option.not_isSome_iff_eq_none.mp (hspares v rfl)
      cases hend : setup.fire c.traceable record ⟨.ret, c.method, c.module⟩ with
      | mk told failure =>
          rw [hend] at hcontent
          cases hcontent
          simp [MethodCall.finish, hend]

theorem Machine.leave_unobserved (m : Machine) (nesting : Nat) (call : Option MethodCall)
    (a : Activation) (cs : List Frame) {r : Completion}
    (hspares : ∀ v c, r = .ok v → call = some c →
      ¬ setup.FailsAt c.traceable m.record ⟨.ret, c.method, c.module⟩) (count : Nat) :
    (m.leave setup nesting call a cs r).unobserved count =
      (m.unobserved count).leave setup.unobserved nesting (call.map MethodCall.untraced) a
        (cs.map Frame.untraced) r := by
  cases call with
  | none => rfl
  | some c =>
      have hmodule :=
        (c.finish_hears setup { m.thread with nesting := nesting } m.record r).rootModule
      obtain ⟨hresult, hthread⟩ := c.finish_unobserved { m.thread with nesting := nesting } m.record
        (fun v hvalue => hspares v c hvalue rfl) (m.unobserved count).record
      simp only [leave, unobserved, Control.untraced, Option.map_some, hmodule, hresult, hthread]
      cases r <;> rfl

theorem Machine.enterScope_unobserved (m : Machine) (id : ScopeId) (a : Activation)
    (call : Option MethodCall) (cs : List Frame) (count : Nat) :
    (m.enterScope setup id a call cs).unobserved count =
      (m.unobserved count).enterScope setup.unobserved id a (call.map MethodCall.untraced)
        (cs.map Frame.untraced) := by
  have hrefused (s : Signal) : (m.leave setup m.thread.nesting call a cs (.error s)).unobserved
      count = (m.unobserved count).leave setup.unobserved m.thread.nesting
        (call.map MethodCall.untraced) a (cs.map Frame.untraced) (.error s) := by
    apply m.leave_unobserved
    intro v c hvalue
    cases hvalue
  simp only [enterScope, unobserved_thread, Setup.unobserved_limit, Setup.unobserved_program]
  by_cases hdeep : setup.settings.maxCallDepth ≤ m.thread.nesting
  · simp only [hdeep, ↓reduceIte]
    exact hrefused .tooDeep
  · simp only [hdeep, ↓reduceIte]
    cases hscope : setup.program.scope? id with
    | none => exact hrefused (.unknownScope setup.program id)
    | some scope => rfl

theorem Machine.calls_unobserved (m : Machine) (id : ScopeId) (c : MethodCall) (count : Nat) :
    (m.calls setup id c).unobserved count =
      (m.unobserved count).calls setup.unobserved id c.untraced := by
  have hmodule := (m.calls_hears setup id c).rootModule
  simp only [unobserved, hmodule]
  rfl

theorem Machine.enterMethod_unobserved (m : Machine) (id : ScopeId) (a : Activation)
    (method : String) (module : Module) (traceable : Bool) (cs : List Frame)
    (hcontent : ¬ setup.FailsAt traceable m.record ⟨.call, method, module⟩) (count : Nat) :
    (m.enterMethod setup id a method module traceable cs).unobserved count =
      (m.unobserved count).enterMethod setup.unobserved id a method module false
        (cs.map Frame.untraced) := by
  rw [m.enterMethod_eq, (m.unobserved count).enterMethod_eq,
    Option.not_isSome_iff_eq_none.mp hcontent]
  have hentered := @enterScope_unobserved setup
    (m.calls setup id (m.callRecord method module traceable)) id a
    (some (m.callRecord method module traceable)) cs count
  rw [m.calls_unobserved] at hentered
  exact hentered

theorem Machine.enterCall_unobserved (m : Machine) (c : Call) (cs : List Frame)
    (hcontent : ∀ id args s, c = .method id args → setup.program.scope? id = some s →
      ¬ setup.FailsAt setup.settings.traceCalls m.record ⟨.call, s.name, m.record.module⟩)
    (count : Nat) :
    (m.enterCall setup c cs).unobserved count =
      (m.unobserved count).enterCall setup.unobserved c (cs.map Frame.untraced) := by
  cases c with
  | closure id mode args => exact m.enterScope_unobserved id _ none cs count
  | method id args =>
      simp only [enterCall, Setup.unobserved_program, unobserved_module]
      cases hscope : setup.program.scope? id with
      | none => rfl
      | some s => exact m.enterMethod_unobserved id _ _ _ _ cs (hcontent id args s rfl hscope) count

theorem Machine.settle_unobserved (m : Machine) (f : Frame) (cs : List Frame) (s : Signal)
    (hspares : ∀ v c, f.verdict m.thread s = .finish v → f.call = some c →
      ¬ setup.FailsAt c.traceable m.record ⟨.ret, c.method, c.module⟩) (count : Nat) :
    (m.settle setup f cs s).unobserved count =
      (m.unobserved count).settle setup.unobserved f.untraced (cs.map Frame.untraced) s := by
  have hsame : f.untraced.verdict m.thread s = f.verdict m.thread s := rfl
  have hnoted (v : Value) :
      (m.record.noteIf setup.settings.debug (.caughtRaise f.scope.name f.pc v)).rootModule =
        m.record.rootModule := (m.record.noteIf_hears _ _).rootModule
  have hpasses {noted : Record} (hmodule : noted.rootModule = m.record.rootModule) (s : Signal) :
      (Machine.leaveFrame { m with record := noted } setup f cs (.error s)).unobserved count =
        (m.unobserved count).leaveFrame setup.unobserved f.untraced (cs.map Frame.untraced)
          (.error s) := by
    rw [← unobserved_of_rootModule m count hmodule]
    apply leave_unobserved
    intro v c hvalue
    cases hvalue
  simp only [settle, unobserved_thread, hsame]
  cases hverdict : f.verdict m.thread s with
  | finish v =>
      refine m.leave_unobserved f.nesting f.call f.activation cs ?_ count
      intro w c _ hcall
      exact hspares v c hverdict hcall
  | resume v => rfl
  | handle pc handled =>
      cases handled with
      | raise v =>
          simp only [Verdict.raised?, unobserved, hnoted]
          rfl
      | _ => rfl
  | pass passed =>
      cases passed with
      | raise v => exact hpasses (hnoted v) (.raise v)
      | _ => exact hpasses rfl _

/-! ## Steps without observation -/

/-- Unless a step is disturbed, the observer lets a frame end to which a `return` has come. -/
theorem Machine.EndsIn.spares {m : Machine} {f : Frame} {cs : List Frame} {s : Signal}
    (hends : m.EndsIn f cs s) (hcontent : ¬ m.Disturbed setup) {record : Record}
    (hheard : record.heard = m.record.heard) (v : Value) (c : MethodCall)
    (hverdict : f.verdict m.thread s = .finish v) (hcall : f.call = some c) :
    ¬ setup.FailsAt c.traceable record ⟨.ret, c.method, c.module⟩ := by
  rw [Setup.failsAt_congr hheard]
  intro hfails
  exact hcontent (.ret (.finish hends hverdict) hcall hfails)

theorem Machine.closeFrame_unobserved {m : Machine} {f : Frame} {cs : List Frame}
    (hrunning : m.control = .running f cs) (hend : f.next? = none)
    (hcontent : ¬ m.Disturbed setup) (count : Nat) :
    (m.closeFrame setup f cs).unobserved count =
      (m.unobserved count).closeFrame setup.unobserved f.untraced (cs.map Frame.untraced) := by
  have hnoted := m.record.noteIf_hears
    (setup.settings.debug && f.leavingReturn?.any (f.isOrphaned m.thread))
    (.raisingUnexpectedReturn f.scope.name)
  simp only [closeFrame]
  generalize m.record.noteIf _ _ = noted at hnoted ⊢
  have hplain := m.unobserved_of_rootModule count hnoted.rootModule
  have hleft := @leave_unobserved setup { m with record := noted } f.nesting f.call f.activation cs
    (f.close m.thread) ?_ count
  · rw [hplain] at hleft
    exact hleft
  · intro v c hvalue hcall
    rw [Setup.failsAt_congr hnoted.heard]
    intro hfails
    have hleaves : m.Leaves f cs (.ok v) := hvalue ▸ .close hrunning hend
    exact hcontent (.ret hleaves hcall hfails)

theorem Machine.execute_unobserved {m : Machine} {f : Frame} {cs : List Frame} {i : Instr}
    (hrunning : m.control = .running f cs) (hnext : f.next? = some i)
    (hcontent : ¬ m.Disturbed setup) (count : Nat) :
    (m.execute setup f cs i).unobserved (count + 1) =
      (m.unobserved count).execute setup.unobserved f.untraced (cs.map Frame.untraced) i := by
  have hcounted := m.executing_hears setup.settings.debug (.executing f.scope.name f.pc i)
  have hplain : (i.perform (m.unobserved count).thread (m.unobserved count).receiver
      f.untraced.activation) = i.perform m.thread m.receiver f.activation := rfl
  simp only [execute, hplain]
  generalize m.record.count.noteIf _ _ = counted at hcounted ⊢
  have hmachine (t : Thread) (control : Control) : Machine.unobserved
      { m with thread := t, record := counted, control := control } (count + 1) =
      { m.unobserved count with
        thread := t
        record := (m.unobserved count).record.count
        control := control.untraced } := by
    simp only [unobserved, hcounted.rootModule]
    rfl
  have hsettles {s : Signal} (hends : m.EndsIn (f.after i m) cs s)
      (hthread : (i.perform m.thread m.receiver f.activation).thread = m.thread) :=
    settle_unobserved
      { m with thread := (i.perform m.thread m.receiver f.activation).thread, record := counted }
      (f.after i m) cs s (by rw [hthread]; exact hends.spares hcontent hcounted.heard) (count + 1)
  cases heffect : (i.perform m.thread m.receiver f.activation).effect with
  | next => exact hmachine _ (.running _ cs)
  | branch l =>
      have hplace : f.untraced.scope.code.place? l = f.scope.code.place? l := rfl
      simp only [hplace]
      cases hplaced : f.scope.code.place? l with
      | some pc => exact hmachine _ (.running _ cs)
      | none =>
          have hsettled := hsettles (.unplaced hrunning hnext heffect hplaced)
            (Instr.perform_of_branch heffect).1
          rw [hmachine _ m.control] at hsettled
          exact hsettled
  | signal s =>
      have hsettled := hsettles (.own hrunning hnext heffect) (Instr.perform_of_signal heffect).1
      rw [hmachine _ m.control] at hsettled
      exact hsettled
  | call c =>
      have hentered := @enterCall_unobserved setup
        { m with thread := (i.perform m.thread m.receiver f.activation).thread, record := counted }
        c (f.after i m :: cs) ?_ (count + 1)
      · rw [hmachine _ m.control] at hentered
        exact hentered
      · -- the observer lets the method be called
        rintro id values s rfl hscope
        rw [hcounted.module_eq, Setup.failsAt_congr hcounted.heard]
        intro hfails
        obtain ⟨args, dst, rfl⟩ := Instr.eq_callMethod_of_call heffect
        exact hcontent (.call hrunning hnext hscope hfails)

/-- Unless a step is disturbed, the machine does without observation what it does with it. -/
theorem Machine.step_unobserved {m : Machine} (hcontent : ¬ m.Disturbed setup) (count : Nat) :
    (m.step setup).unobserved (count + m.begins?.toList.length) =
      (m.unobserved count).step setup.unobserved := by
  cases hcontrol : m.control with
  | leaving r a cs =>
      have hplain : (m.unobserved count).control = .leaving r a (cs.map Frame.untraced) := by
        rw [unobserved, hcontrol]
        rfl
      rw [begins?_of_leaving hcontrol, Option.toList_none, List.length_nil, Nat.add_zero]
      cases cs with
      | nil =>
          have hstopped : m.step setup = m := by cases r <;> simp [step, hcontrol]
          rw [hstopped]
          cases r <;> simp [step, hplain]
      | cons f cs =>
          cases r with
          | ok v =>
              simp only [step, hcontrol, hplain, List.map_cons]
              rfl
          | error s =>
              simp only [step, hcontrol, hplain, List.map_cons]
              exact m.settle_unobserved f cs s
                ((EndsIn.callee hcontrol).spares hcontent rfl) count
  | running f cs =>
      have hplain : (m.unobserved count).control =
          .running f.untraced (cs.map Frame.untraced) := by
        rw [unobserved, hcontrol]
        rfl
      cases hnext : f.next? with
      | none =>
          have hend : f.untraced.next? = none := hnext
          simp only [step, hcontrol, hplain, hnext, hend, begins?_of_end hcontrol hnext]
          exact closeFrame_unobserved hcontrol hnext hcontent count
      | some i =>
          have hplainNext : f.untraced.next? = some i := hnext
          rw [begins?_of_running hcontrol hnext]
          simp only [step, hcontrol, hplain, hnext, hplainNext]
          exact execute_unobserved hcontrol hnext hcontent count

/-! ## Runs side by side -/

/-- A run that is never disturbed goes as it would go without observation. -/
theorem Machine.advance_unobserved {m : Machine}
    (hcontent : ∀ n, ¬ (m.advance setup n).Disturbed setup) (n : Nat) :
    ∃ count, (m.advance setup n).record.executed = m.record.executed + count ∧
      (m.advance setup n).unobserved count = (m.unobserved 0).advance setup.unobserved n := by
  induction n with
  | zero => exact ⟨0, rfl, rfl⟩
  | succ n ih =>
      obtain ⟨count, hcount, hsame⟩ := ih
      refine ⟨count + (m.advance setup n).begins?.toList.length, ?_, ?_⟩
      · rw [advance_succ, step_executed, hcount, Nat.add_assoc]
      · rw [advance_succ, step_unobserved (hcontent n), hsame, advance_succ]

theorem Setup.runRoot_unobserved (setup : Setup) (receiver : Value) (thread : Thread)
    (record : Record) :
    (setup.runRoot receiver thread record).unobserved 0 =
      setup.unobserved.runRoot receiver thread { rootModule := record.rootModule } := by
  have hentered (given : Record) (module : Module) :=
    (Machine.idle receiver thread given (.fresh .method [])).enterMethod_unobserved
      setup.program.root (.fresh .method []) "" module false []
      (setup.not_failsAt_of_untraced _ _) 0
  obtain ⟨executed, heard, log, rootModule⟩ := record
  cases rootModule with
  | none => exact hentered _ _
  | some given => exact hentered _ _

/-- The outcome of a machine that has stopped is that of the machine without observation, but for
what was observed. -/
theorem Machine.outcome?_unobserved (m : Machine) (count : Nat) :
    (m.unobserved count).outcome? = m.outcome?.map fun o =>
      { o with record := { executed := count, rootModule := o.record.rootModule } } := by
  cases hcontrol : m.control with
  | running f cs => simp [outcome?, unobserved, Control.untraced, hcontrol]
  | leaving r a cs => cases cs <;> simp [outcome?, unobserved, Control.untraced, hcontrol]

/-- Two runs, which began with the records `record` and `told`, have ended alike, whatever was
observed of them. -/
structure Outcome.EndsAlike (record told : Record) (o p : Outcome) : Prop where
  result : p.result = o.result
  thread : p.thread = o.thread
  rootModule : p.record.rootModule = o.record.rootModule
  executed : ∃ count, o.record.executed = record.executed + count ∧
    p.record.executed = told.executed + count

theorem Outcome.EndsAlike.ofRoot {record told : Record} {o p : Outcome}
    (hends : o.EndsAlike record told p) (setup other : Setup) :
    (o.ofRoot setup).EndsAlike record told (p.ofRoot other) where
  result := by simp only [Outcome.ofRoot, hends.result, hends.thread]
  thread := hends.thread
  rootModule :=
    ((p.record.noteIf_hears _ _).rootModule.trans hends.rootModule).trans
      (o.record.noteIf_hears _ _).rootModule.symm
  executed := by
    rw [o.ofRoot_executed, p.ofRoot_executed]
    exact hends.executed

variable {other : Setup} {receiver : Value} {thread : Thread} {record told : Record}

/-- Runs that are never disturbed are at each step the same machine but for what is observed. -/
theorem Setup.runRoot_side_by_side (hprogram : other.program = setup.program)
    (hlimit : other.settings.maxCallDepth = setup.settings.maxCallDepth)
    (hmodule : told.rootModule = record.rootModule)
    (hsetup : ∀ n, ¬ ((setup.runRoot receiver thread record).advance setup n).Disturbed setup)
    (hother : ∀ n, ¬ ((other.runRoot receiver thread told).advance other n).Disturbed other)
    (n : Nat) :
    ∃ count,
      ((setup.runRoot receiver thread record).advance setup n).record.executed =
        record.executed + count ∧
      ((other.runRoot receiver thread told).advance other n).record.executed =
        told.executed + count ∧
      ((setup.runRoot receiver thread record).advance setup n).unobserved count =
        ((other.runRoot receiver thread told).advance other n).unobserved count := by
  have hplain : other.unobserved = setup.unobserved := by
    rw [unobserved, unobserved, hprogram, hlimit]
  obtain ⟨count, hcount, hsame⟩ := Machine.advance_unobserved hsetup n
  obtain ⟨count', hcount', hsame'⟩ := Machine.advance_unobserved hother n
  rw [setup.runRoot_unobserved] at hsame
  rw [other.runRoot_unobserved, hplain, hmodule, ← hsame] at hsame'
  obtain rfl : count' = count := congrArg (fun m => m.record.executed) hsame'
  rw [setup.runRoot_executed] at hcount
  rw [other.runRoot_executed] at hcount'
  exact ⟨count', hcount, hcount', hsame'.symm⟩

/-- When one of two such runs stops, the other one stops alike. -/
theorem Setup.runRoot_stops_alike (hprogram : other.program = setup.program)
    (hlimit : other.settings.maxCallDepth = setup.settings.maxCallDepth)
    (hmodule : told.rootModule = record.rootModule)
    (hsetup : ∀ n, ¬ ((setup.runRoot receiver thread record).advance setup n).Disturbed setup)
    (hother : ∀ n, ¬ ((other.runRoot receiver thread told).advance other n).Disturbed other)
    {o : Outcome} (hstops : (setup.runRoot receiver thread record).Stops setup o) :
    ∃ p, (other.runRoot receiver thread told).Stops other p ∧ o.EndsAlike record told p := by
  obtain ⟨n, hstopped⟩ := hstops
  obtain ⟨count, hcount, hcount', hsame⟩ :=
    runRoot_side_by_side hprogram hlimit hmodule hsetup hother n
  have houtcome := congrArg Machine.outcome? hsame
  rw [Machine.outcome?_unobserved, Machine.outcome?_unobserved, hstopped] at houtcome
  obtain ⟨p, hp, heq⟩ := Option.map_eq_some_iff.mp houtcome.symm
  have hrecord := (Machine.control_of_outcome hstopped).2.2
  have hrecord' := (Machine.control_of_outcome hp).2.2
  simp only [Outcome.mk.injEq] at heq
  obtain ⟨hresult, -, hthread, hplain⟩ := heq
  refine ⟨p, ⟨n, hp⟩, hresult, hthread, ?_, count, ?_, ?_⟩
  · simpa using hplain
  · rw [hrecord, hcount]
  · rw [hrecord', hcount']

/-- Runs of a program from the same thread under the same limit, in which observers fail at most
at the end of invocations that end with a signal, stop both or neither.  Then they end alike: with
the same result, the same thread and the same module, after the same number of instructions. -/
theorem observation_neutral (hprogram : other.program = setup.program)
    (hlimit : other.settings.maxCallDepth = setup.settings.maxCallDepth)
    (hmodule : told.rootModule = record.rootModule)
    (hsetup : ∀ n, ¬ ((setup.runRoot receiver thread record).advance setup n).Disturbed setup)
    (hother : ∀ n, ¬ ((other.runRoot receiver thread told).advance other n).Disturbed other) :
    ((∃ o, (setup.runRoot receiver thread record).Stops setup o) ↔
      ∃ p, (other.runRoot receiver thread told).Stops other p) ∧
    ∀ o p, (setup.runRoot receiver thread record).Stops setup o →
      (other.runRoot receiver thread told).Stops other p →
      (o.ofRoot setup).EndsAlike record told (p.ofRoot other) := by
  refine ⟨⟨?_, ?_⟩, ?_⟩
  · rintro ⟨o, hstops⟩
    obtain ⟨p, hp, -⟩ :=
      Setup.runRoot_stops_alike hprogram hlimit hmodule hsetup hother hstops
    exact ⟨p, hp⟩
  · rintro ⟨p, hstops⟩
    obtain ⟨o, ho, -⟩ := Setup.runRoot_stops_alike hprogram.symm hlimit.symm hmodule.symm
      hother hsetup hstops
    exact ⟨o, ho⟩
  · intro o p hstops hp
    obtain ⟨q, hq, hends⟩ :=
      Setup.runRoot_stops_alike hprogram hlimit hmodule hsetup hother hstops
    obtain rfl := Machine.stops_unique hp hq
    exact hends.ofRoot setup other

namespace ObservationWitness

/-- A script whose method raises. -/
def listing : Listing where
  name := "watching"
  root := 0
  scopes := [
    ⟨"<main>", .script, none, [.instr (.callMethod ⟨1⟩ [] none)], []⟩,
    ⟨"work", .method, none, [.instr (.line 9), .instr (.raise (.const (.str "boom")))], []⟩]

/-- The observer fails whenever a call ends. -/
def watched : Setup where
  program :=
    { name := "watching"
      root := ⟨0⟩
      scopes := #[
        ⟨⟨0⟩, "<main>", .script, none, ⟨#[.callMethod ⟨1⟩ [] none], [], []⟩⟩,
        ⟨⟨1⟩, "work", .method, none, ⟨#[.line 9, .raise (.const (.str "boom"))], [], []⟩⟩] }
  settings := { debug := true, traceCalls := true }
  observer := some (.failing (fun e => e.kind == .ret) (.fatal "hook failed"))

def unwatched : Setup where
  program := watched.program

theorem watching_listed : watched.program.Listed := ⟨listing, rfl⟩

/-- The signal that a machine carries out of a frame. -/
def carried? (m : Machine) : Option Signal :=
  match m.control with
  | .leaving (.error s) _ _ => some s
  | _ => none

theorem watched_undisturbed (n : Nat) :
    ¬ ((watched.runRoot .nil (.fresh "-") {}).advance watched n).Disturbed watched := by
  intro hdisturbed
  obtain ⟨s, a, cs, ⟨observer, heard, e, hobserver, -, hs⟩, hcontrol⟩ := hdisturbed.fails
  obtain rfl := Option.some.inj hobserver
  have hfailure : s = .fatal "hook failed" := by
    simp only [Observer.failing, Option.ite_none_right_eq_some, Option.some.injEq] at hs
    exact hs.2.symm
  obtain ⟨o, ho⟩ := Option.isSome_iff_exists.mp (show
    ((watched.runRoot .nil (.fresh "-") {}).advance watched 5).outcome?.isSome = true
      by decide +kernel)
  have hnever := Machine.forall_advance ho (fun m => carried? m ≠ some (.fatal "hook failed"))
    (by decide +kernel) (n + 1)
  rw [Machine.advance_succ, carried?, hcontrol, hfailure] at hnever
  exact hnever rfl

theorem unwatched_undisturbed (n : Nat) :
    ¬ ((unwatched.runRoot .nil (.fresh "-") {}).advance unwatched n).Disturbed unwatched := by
  intro hdisturbed
  obtain ⟨s, a, cs, ⟨observer, heard, e, hobserver, -⟩, -⟩ := hdisturbed.fails
  cases hobserver

/-- The observer is told that the call of the method ends and fails, and the run ends with the
raise as it does unobserved. -/
theorem observation_neutral_watching :
    watched.program.Listed ∧ unwatched.program = watched.program ∧
    unwatched.settings.maxCallDepth = watched.settings.maxCallDepth ∧
    ∃ o p, (watched.runRoot .nil (.fresh "-") {}).Stops watched o ∧
      (unwatched.runRoot .nil (.fresh "-") {}).Stops unwatched p ∧
      o.record.heard.length = 2 ∧ p.record.heard.length = 0 ∧
      (o.ofRoot watched).EndsAlike {} {} (p.ofRoot unwatched) := by
  obtain ⟨hboth, halike⟩ := @observation_neutral watched unwatched .nil (.fresh "-") {} {} rfl rfl
    rfl watched_undisturbed unwatched_undisturbed
  obtain ⟨o, ho, hheard⟩ := Option.map_eq_some_iff.mp (show
    ((watched.runRoot .nil (.fresh "-") {}).advance watched 5).outcome?.map
      (fun o => o.record.heard.length) = some 2 by decide +kernel)
  obtain ⟨q, hq, hunheard⟩ := Option.map_eq_some_iff.mp (show
    ((unwatched.runRoot .nil (.fresh "-") {}).advance unwatched 5).outcome?.map
      (fun o => o.record.heard.length) = some 0 by decide +kernel)
  obtain ⟨p, hp⟩ := hboth.mp ⟨o, 5, ho⟩
  obtain rfl := Machine.stops_unique hp ⟨5, hq⟩
  exact ⟨watching_listed, rfl, rfl, o, p, ⟨5, ho⟩, hp, hheard, hunheard, halike o p ⟨5, ho⟩ hp⟩

end ObservationWitness

end Unwind
