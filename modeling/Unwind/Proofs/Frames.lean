import Unwind.Machine

/-!
How frames come and go.

Each of the machine's operations on the list of frames has one lemma here: it either enters a
scope on top of the thread or refuses it and leaves the thread as it was, and leaving a frame
restores what entering it changed.
-/

namespace Unwind

/-! ## Active frames -/

/-- The frames that wait for the call they made, innermost first. -/
def Machine.waiting (m : Machine) : List Frame :=
  match m.control with
  | .running _ callers => callers
  | .leaving _ _ callers => callers

/-- The frames that are not left yet, innermost first. -/
def Machine.active (m : Machine) : List Frame :=
  match m.control with
  | .running frame callers => frame :: callers
  | .leaving _ _ callers => callers

/-- The frame `f` is active, and called, directly or not, from the frames `cs` alone. -/
def Machine.IsActive (m : Machine) (f : Frame) (cs : List Frame) : Prop :=
  ∃ inner, m.active = inner ++ f :: cs

theorem Machine.waiting_of_running {m : Machine} {f : Frame} {cs : List Frame}
    (hcontrol : m.control = .running f cs) : m.waiting = cs := by
  rw [Machine.waiting, hcontrol]

theorem Machine.waiting_of_leaving {m : Machine} {r : Completion} {a : Activation}
    {cs : List Frame} (hcontrol : m.control = .leaving r a cs) : m.waiting = cs := by
  rw [Machine.waiting, hcontrol]

theorem Machine.active_of_running {m : Machine} {f : Frame} {cs : List Frame}
    (hcontrol : m.control = .running f cs) : m.active = f :: cs := by
  rw [Machine.active, hcontrol]

theorem Machine.active_of_leaving {m : Machine} {r : Completion} {a : Activation}
    {cs : List Frame} (hcontrol : m.control = .leaving r a cs) : m.active = cs := by
  rw [Machine.active, hcontrol]

theorem Machine.mem_active_of_running {m : Machine} {f : Frame} {cs : List Frame}
    (hcontrol : m.control = .running f cs) : f ∈ m.active := by
  rw [active_of_running hcontrol]
  exact List.mem_cons_self

theorem Machine.control_of_inactive {m : Machine} (hnone : m.active = []) :
    ∃ r a, m.control = .leaving r a [] := by
  cases hcontrol : m.control with
  | running f cs =>
      rw [active_of_running hcontrol] at hnone
      cases hnone
  | leaving r a cs =>
      rw [active_of_leaving hcontrol] at hnone
      subst hnone
      exact ⟨r, a, rfl⟩

theorem Machine.outcome?_of_leaving {m : Machine} {r : Completion} {a : Activation}
    (hcontrol : m.control = .leaving r a []) :
    m.outcome? = some ⟨r, a, m.thread, m.record⟩ := by
  rw [Machine.outcome?, hcontrol]

theorem Machine.control_of_outcome {m : Machine} {o : Outcome} (hstopped : m.outcome? = some o) :
    (∃ a, m.control = .leaving o.result a []) ∧ o.thread = m.thread ∧ o.record = m.record := by
  unfold Machine.outcome? at hstopped
  split at hstopped
  · rename_i r a hcontrol
    cases hstopped
    exact ⟨⟨a, hcontrol⟩, rfl, rfl⟩
  · cases hstopped

/-- The frame and the instruction that the next step executes, if it executes one. -/
def Machine.executing? (m : Machine) : Option (Frame × Instr) :=
  match m.control with
  | .running frame _ => frame.next?.map fun i => (frame, i)
  | .leaving _ _ _ => none

theorem Machine.executing?_of_leaving {m : Machine} {r : Completion} {a : Activation}
    {cs : List Frame} (hcontrol : m.control = .leaving r a cs) : m.executing? = none := by
  rw [Machine.executing?, hcontrol]

theorem Machine.executing?_of_running {m : Machine} {f : Frame} {cs : List Frame} {i : Instr}
    (hcontrol : m.control = .running f cs) (hnext : f.next? = some i) :
    m.executing? = some (f, i) := by
  simp [Machine.executing?, hcontrol, hnext]

/-! ## Leaving -/

/-- Undoes what entering a scope at a nesting depth made of the thread. -/
def Thread.restore (t : Thread) (nesting : Nat) (call : Option MethodCall) : Thread :=
  match call with
  | none => { t with nesting := nesting }
  | some c => ({ t with nesting := nesting }.cutCalls c.callDepth).cutTrace c.traceDepth

/-- The thread as a frame leaves it to its caller. -/
def Frame.restore (f : Frame) (t : Thread) : Thread := t.restore f.nesting f.call

/-- An observer that listens to the runs may answer an event with the signal. -/
def Setup.MayFail (setup : Setup) (s : Signal) : Prop :=
  ∃ observer heard e, setup.observer = some observer ∧ observer.listens = true ∧
    observer.failure? heard e = some s

/-- A frame that has come to `r` is left with `result`: the same, unless an observer failed at
the end of a call that had a value. -/
def Setup.LeavesWith (setup : Setup) (r result : Completion) : Prop :=
  result = r ∨ ∃ v s, r = .ok v ∧ result = .error s ∧ setup.MayFail s

theorem Setup.LeavesWith.eq_of_error {setup : Setup} {s : Signal} {result : Completion}
    (hleaves : setup.LeavesWith (.error s) result) : result = .error s := by
  rcases hleaves with hsame | ⟨v, failure, hvalue, -, -⟩
  · exact hsame
  · cases hvalue

theorem Setup.mayFail_of_fire {setup : Setup} {traceable : Bool} {record : Record} {e : Event}
    {s : Signal} (hfire : (setup.fire traceable record e).2 = some s) : setup.MayFail s := by
  unfold Setup.fire at hfire
  split at hfire
  · rename_i observer hobserver
    by_cases htraceable : traceable = true
    · simp only [htraceable, ↓reduceIte, Record.tell] at hfire
      split at hfire
      · rename_i hlistens
        exact ⟨observer, record.heard, e, hobserver, hlistens, hfire⟩
      · cases hfire
    · simp [htraceable] at hfire
  · cases hfire

theorem MethodCall.finish_spec (c : MethodCall) (setup : Setup) (thread : Thread)
    (record : Record) (r : Completion) :
    setup.LeavesWith r (c.finish setup thread record r).1 ∧
      (c.finish setup thread record r).2.1 =
        (thread.cutCalls c.callDepth).cutTrace c.traceDepth := by
  cases hfire : setup.fire c.traceable record ⟨.ret, c.method, c.module⟩ with
  | mk told failure =>
      cases failure with
      | none => cases r <;> simp [MethodCall.finish, hfire, Setup.LeavesWith]
      | some s =>
          have hfails : setup.MayFail s := Setup.mayFail_of_fire (by rw [hfire])
          cases r with
          | error raised => simp [MethodCall.finish, hfire, Setup.LeavesWith]
          | ok v => simp [MethodCall.finish, hfire, Setup.LeavesWith, hfails]

theorem Machine.leave_spec (m : Machine) (setup : Setup) (nesting : Nat)
    (call : Option MethodCall) (a : Activation) (cs : List Frame) (r : Completion) :
    ∃ result, setup.LeavesWith r result ∧
      (m.leave setup nesting call a cs r).control = .leaving result a cs ∧
      (m.leave setup nesting call a cs r).thread = m.thread.restore nesting call := by
  cases call with
  | none => exact ⟨r, Or.inl rfl, rfl, rfl⟩
  | some c =>
      have hfinish := c.finish_spec setup { m.thread with nesting := nesting } m.record r
      exact ⟨_, hfinish.1, rfl, hfinish.2⟩

/-! ## Entering -/

/-- What a method call makes of the thread before its scope is entered. -/
def Thread.pushMethod (t : Thread) (id : ScopeId) (c : MethodCall) : Thread :=
  if c.method.isEmpty then t.pushCall id else (t.pushCall id).pushTrace c.module c.method

/-- A frame was entered on top of the thread `outer`, which became the given one. -/
inductive Frame.Over (p : Program) (f : Frame) (outer : Thread) : Thread → Prop
  | bare {id : ScopeId} (hscope : p.scope? id = some f.scope) (hcall : f.call = none)
      (hnesting : f.nesting = outer.nesting) :
      f.Over p outer { outer with nesting := outer.nesting + 1 }
  | method {id : ScopeId} {c : MethodCall} (hscope : p.scope? id = some f.scope)
      (hcall : f.call = some c) (hnesting : f.nesting = outer.nesting)
      (hcalls : c.callDepth = outer.calls.length)
      (htrace : c.traceDepth = outer.backtrace.length) :
      f.Over p outer { outer.pushMethod id c with nesting := outer.nesting + 1 }

/-- A scope is refused for its depth, because the program lacks it, or by an observer. -/
def Setup.Refuses (setup : Setup) (s : Signal) : Prop :=
  s = .tooDeep ∨ (∃ id, s = .unknownScope setup.program id) ∨ setup.MayFail s

/-- A frame of a scope that has just been entered. -/
def Scope.entry (scope : Scope) (a : Activation) (nesting : Nat) (call : Option MethodCall) :
    Frame where
  scope := scope
  activation := a.reserve scope.code.registerCount
  nesting := nesting
  call := call

theorem Thread.restore_pushMethod (t : Thread) (id : ScopeId) (c : MethodCall)
    (hcalls : c.callDepth = t.calls.length) (htrace : c.traceDepth = t.backtrace.length)
    (depth : Nat) :
    Thread.restore { t.pushMethod id c with nesting := depth } t.nesting (some c) = t := by
  have hcut {α : Type} (x : α) (xs : List α) : outermost xs.length (x :: xs) = xs :=
    outermost_append [x] xs
  have hwhole {α : Type} (xs : List α) : outermost xs.length xs = xs := outermost_append [] xs
  unfold Thread.pushMethod
  by_cases hname : c.method.isEmpty
  · simp [hname, Thread.restore, Thread.cutCalls, Thread.cutTrace, Thread.pushCall, hcalls,
      htrace, hcut, hwhole]
  · simp [hname, Thread.restore, Thread.cutCalls, Thread.cutTrace, Thread.pushCall,
      Thread.pushTrace, hcalls, htrace, hcut]

/-- A scope is refused for its depth or because the program lacks it, or else its frame begins. -/
theorem Machine.enterScope_eq (m : Machine) (setup : Setup) (id : ScopeId) (a : Activation)
    (call : Option MethodCall) (cs : List Frame) :
    (∃ s, (s = .tooDeep ∨ s = .unknownScope setup.program id) ∧
        m.enterScope setup id a call cs =
          m.leave setup m.thread.nesting call a cs (.error s)) ∨
      ∃ scope, setup.program.scope? id = some scope ∧
        m.thread.nesting < setup.settings.maxCallDepth ∧
        m.enterScope setup id a call cs =
          { m with
            thread := { m.thread with nesting := m.thread.nesting + 1 }
            control := .running (scope.entry a m.thread.nesting call) cs } := by
  by_cases hdeep : setup.settings.maxCallDepth ≤ m.thread.nesting
  · exact Or.inl ⟨.tooDeep, Or.inl rfl, by simp [Machine.enterScope, hdeep]⟩
  · cases hscope : setup.program.scope? id with
    | none => exact Or.inl ⟨_, Or.inr rfl, by simp [Machine.enterScope, hdeep, hscope]⟩
    | some scope =>
        refine Or.inr ⟨scope, rfl, Nat.lt_of_not_le hdeep, ?_⟩
        simp [Machine.enterScope, hdeep, hscope, Scope.entry]

theorem Machine.enterScope_cases (m : Machine) (setup : Setup) (id : ScopeId)
    (a : Activation) (call : Option MethodCall) (cs : List Frame) :
    (∃ s, setup.Refuses s ∧
        (m.enterScope setup id a call cs).control = .leaving (.error s) a cs ∧
        (m.enterScope setup id a call cs).thread = m.thread.restore m.thread.nesting call) ∨
      ∃ scope, setup.program.scope? id = some scope ∧
        (m.enterScope setup id a call cs).control =
          .running (scope.entry a m.thread.nesting call) cs ∧
        (m.enterScope setup id a call cs).thread =
          { m.thread with nesting := m.thread.nesting + 1 } := by
  rcases m.enterScope_eq setup id a call cs with
    ⟨s, hs, henter⟩ | ⟨scope, hscope, -, henter⟩
  · left
    obtain ⟨result, hresult, hcontrol, hthread⟩ :=
      m.leave_spec setup m.thread.nesting call a cs (.error s)
    rw [hresult.eq_of_error] at hcontrol
    rw [henter]
    exact ⟨s, hs.imp_right fun hunknown => Or.inl ⟨id, hunknown⟩, hcontrol, hthread⟩
  · rw [henter]
    exact Or.inr ⟨scope, hscope, rfl, rfl⟩

/-- The part of a method call that a frame keeps, when it is made from the machine's state. -/
def Machine.callRecord (m : Machine) (method : String) (module : Module) (traceable : Bool) :
    MethodCall where
  method := method
  module := module
  traceable := traceable
  callDepth := m.thread.calls.length
  traceDepth := m.thread.backtrace.length

/-- The machine that has put a method call onto the thread and told observers of it. -/
def Machine.calls (m : Machine) (setup : Setup) (id : ScopeId) (c : MethodCall) : Machine :=
  { m with
    thread := m.thread.pushMethod id c
    record := (setup.fire c.traceable m.record ⟨.call, c.method, c.module⟩).1 }

theorem Machine.calls_nesting (m : Machine) (setup : Setup) (id : ScopeId) (c : MethodCall) :
    (m.calls setup id c).thread.nesting = m.thread.nesting := by
  simp only [Machine.calls, Thread.pushMethod]
  split <;> rfl

/-- A method call is refused by an observer, or else its scope is entered. -/
theorem Machine.enterMethod_eq (m : Machine) (setup : Setup) (id : ScopeId) (a : Activation)
    (method : String) (module : Module) (traceable : Bool) (cs : List Frame) :
    m.enterMethod setup id a method module traceable cs =
      match (setup.fire traceable m.record ⟨.call, method, module⟩).2 with
      | some s =>
          (m.calls setup id (m.callRecord method module traceable)).leave setup m.thread.nesting
            (some (m.callRecord method module traceable)) a cs (.error s)
      | none =>
          (m.calls setup id (m.callRecord method module traceable)).enterScope setup id a
            (some (m.callRecord method module traceable)) cs := by
  have hnesting := m.calls_nesting setup id (m.callRecord method module traceable)
  cases hfire : setup.fire traceable m.record ⟨.call, method, module⟩ with
  | mk told failure =>
      simp only [Machine.calls, Machine.callRecord, hfire, Thread.pushMethod] at hnesting ⊢
      rw [← hnesting]
      cases failure <;> simp [Machine.enterMethod, hfire]

theorem Machine.enterMethod_cases (m : Machine) (setup : Setup) (id : ScopeId)
    (a : Activation) (method : String) (module : Module) (traceable : Bool)
    (cs : List Frame) :
    (∃ s, setup.Refuses s ∧
        (m.enterMethod setup id a method module traceable cs).control =
          .leaving (.error s) a cs ∧
        (m.enterMethod setup id a method module traceable cs).thread = m.thread) ∨
      ∃ scope, setup.program.scope? id = some scope ∧
        (m.enterMethod setup id a method module traceable cs).control =
          .running (scope.entry a m.thread.nesting
            (some (m.callRecord method module traceable))) cs ∧
        (m.enterMethod setup id a method module traceable cs).thread =
          { m.thread.pushMethod id (m.callRecord method module traceable) with
            nesting := m.thread.nesting + 1 } := by
  rw [m.enterMethod_eq]
  have hnesting := m.calls_nesting setup id (m.callRecord method module traceable)
  have hrestore : (m.thread.pushMethod id (m.callRecord method module traceable)).restore
      m.thread.nesting (some (m.callRecord method module traceable)) = m.thread :=
    m.thread.restore_pushMethod id _ rfl rfl _
  generalize m.callRecord method module traceable = c at *
  cases hfailure : (setup.fire traceable m.record ⟨.call, method, module⟩).2 with
  | some s =>
      left
      obtain ⟨result, hresult, hcontrol, hthread⟩ :=
        (m.calls setup id c).leave_spec setup m.thread.nesting (some c) a cs (.error s)
      rw [hresult.eq_of_error] at hcontrol
      exact ⟨s, Or.inr (Or.inr (Setup.mayFail_of_fire hfailure)), hcontrol,
        hthread.trans hrestore⟩
  | none =>
      have hscope := (m.calls setup id c).enterScope_cases setup id a (some c) cs
      rw [hnesting] at hscope
      simp only [Machine.calls] at hscope ⊢
      rwa [hrestore] at hscope

/-- What a frame is when it was entered for a call, by a program with the given module. -/
inductive Call.EnteredAs (setup : Setup) (module : Module) : Call → Frame → Prop
  | method {id : ScopeId} {args : List Value} {scope : Scope} {nesting : Nat} {c : MethodCall}
      (hscope : setup.program.scope? id = some scope) (hmethod : c.method = scope.name)
      (hmodule : c.module = module) (htraceable : c.traceable = setup.settings.traceCalls) :
      Call.EnteredAs setup module (.method id args)
        (scope.entry (.fresh .method args) nesting (some c))
  | closure {id : ScopeId} {mode : BlockMode} {args : List Value} {scope : Scope}
      {nesting : Nat} (hscope : setup.program.scope? id = some scope) :
      Call.EnteredAs setup module (.closure id mode args)
        (scope.entry (.fresh (.ofMode mode) args) nesting none)

theorem Machine.enterCall_cases (m : Machine) (setup : Setup) (c : Call) (cs : List Frame) :
    (∃ s a, setup.Refuses s ∧ (m.enterCall setup c cs).control = .leaving (.error s) a cs ∧
        (m.enterCall setup c cs).thread = m.thread) ∨
      ∃ g, c.EnteredAs setup m.record.module g ∧
        g.Over setup.program m.thread (m.enterCall setup c cs).thread ∧
        (m.enterCall setup c cs).control = .running g cs := by
  cases c with
  | closure id mode args =>
      rcases m.enterScope_cases setup id (.fresh (.ofMode mode) args) none cs with
        ⟨s, hrefuses, hcontrol, hthread⟩ | ⟨scope, hscope, hcontrol, hthread⟩
      · exact Or.inl ⟨s, _, hrefuses, hcontrol, hthread⟩
      · refine Or.inr ⟨_, .closure hscope, ?_, hcontrol⟩
        rw [Machine.enterCall, hthread]
        exact .bare hscope rfl rfl
  | method id args =>
      cases hscope : setup.program.scope? id with
      | none =>
          refine Or.inl ⟨.unknownScope setup.program id, .fresh .method args,
            Or.inr (Or.inl ⟨id, rfl⟩), ?_, ?_⟩ <;> simp [Machine.enterCall, hscope]
      | some scope =>
          have hcall : m.enterCall setup (.method id args) cs =
              m.enterMethod setup id (.fresh .method args) scope.name m.record.module
                setup.settings.traceCalls cs := by
            simp [Machine.enterCall, hscope]
          rw [hcall]
          rcases m.enterMethod_cases setup id (.fresh .method args) scope.name
              m.record.module setup.settings.traceCalls cs with
            ⟨s, hrefuses, hcontrol, hthread⟩ | ⟨entered, hentered, hcontrol, hthread⟩
          · exact Or.inl ⟨s, _, hrefuses, hcontrol, hthread⟩
          · obtain rfl : scope = entered := Option.some.inj (hscope.symm.trans hentered)
            refine Or.inr ⟨_, .method hscope rfl rfl rfl, ?_, hcontrol⟩
            rw [hthread]
            exact .method hscope rfl rfl rfl rfl

end Unwind
