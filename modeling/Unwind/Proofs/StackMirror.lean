import Unwind.Proofs.Tracing
import Unwind.Proofs.Validation
import Unwind.Proofs.Regular

/-!
The stacks of a thread mirror the active invocations.

Every active frame was entered on the thread as it was when the frame outside it began its call.
So the call stack and the backtrace can be read off the frames: each invocation of a method has
put its scope onto the one and, if it has a name, its place onto the other, and every frame has
added one to the nesting.
-/

namespace Unwind

variable {setup : Setup}

/-! ## Invocations of methods -/

/-- An invocation of a method in a run: its scope, and the step that called it. -/
structure Invoked where
  scope : Scope
  start : Nat

/-- In a run, the invocations of methods among the frames that are active at step `n`, innermost
first.  The outermost frame is that of the root, which nothing has called. -/
inductive Machine.Invocations (setup : Setup) (m : Machine) (n : Nat) :
    List Frame → List Invoked → Prop
  | root {f : Frame} : m.Invocations setup n [f] []
  | method {f g : Frame} {outer : List Frame} {k : Nat} {id : ScopeId} {args : List Operand}
      {dst : Option Reg} {calls : List Invoked}
      (hbegan : m.Began setup k n g (.callMethod id args dst) outer)
      (hcalls : m.Invocations setup n (g.calling (.callMethod id args dst) :: outer) calls) :
      m.Invocations setup n (f :: g.calling (.callMethod id args dst) :: outer)
        (⟨f.scope, k⟩ :: calls)
  | closure {f g : Frame} {outer : List Frame} {k : Nat} {id : ScopeId} {mode : BlockMode}
      {args : List Operand} {dst : Option Reg} {calls : List Invoked}
      (hbegan : m.Began setup k n g (.callClosure id mode args dst) outer)
      (hcalls : m.Invocations setup n (g.calling (.callClosure id mode args dst) :: outer) calls) :
      m.Invocations setup n (f :: g.calling (.callClosure id mode args dst) :: outer) calls

theorem Machine.Invocations.length_lt {m : Machine} {n : Nat} {fs : List Frame}
    {calls : List Invoked} (hcalls : m.Invocations setup n fs calls) :
    calls.length < fs.length := by
  induction hcalls with
  | root => exact Nat.zero_lt_one
  | method hbegan hcalls ih => exact Nat.succ_lt_succ ih
  | closure hbegan hcalls ih => exact Nat.lt_succ_of_lt ih

/-- The invocations are determined by the run and the frames. -/
theorem Machine.Invocations.unique {m : Machine} {n : Nat} {fs : List Frame}
    {calls others : List Invoked} (hcalls : m.Invocations setup n fs calls)
    (hothers : m.Invocations setup n fs others) : calls = others := by
  induction hcalls generalizing others with
  | root =>
      cases hothers with
      | root => rfl
  | @method f g outer k id args dst calls hbegan hcalls ih =>
      generalize hframes : f :: g.calling (.callMethod id args dst) :: outer = frames at hothers
      cases hothers with
      | root => cases hframes
      | method hbegan' hcalls' =>
          obtain ⟨rfl, hrest⟩ := List.cons.inj hframes
          rw [← hrest] at hcalls'
          obtain ⟨-, rfl⟩ := List.cons.inj hrest
          rw [hbegan.start_unique hbegan', ih hcalls']
      | closure hbegan' hcalls' =>
          obtain ⟨-, hrest⟩ := List.cons.inj hframes
          cases congrArg Frame.last (List.cons.inj hrest).1
  | @closure f g outer k id mode args dst calls hbegan hcalls ih =>
      generalize hframes : f :: g.calling (.callClosure id mode args dst) :: outer = frames
        at hothers
      cases hothers with
      | root => cases hframes
      | method hbegan' hcalls' =>
          obtain ⟨-, hrest⟩ := List.cons.inj hframes
          cases congrArg Frame.last (List.cons.inj hrest).1
      | closure hbegan' hcalls' =>
          obtain ⟨-, hrest⟩ := List.cons.inj hframes
          rw [← hrest] at hcalls'
          exact ih hcalls'

/-! ## Frames on the threads of their calls -/

/-- In a run that began on the thread `base`, the frames are those of step `n`: each was entered
for the call that the next one began, on the thread as it was then.  The thread has come to `t`,
whatever its line. -/
inductive Machine.Tower (setup : Setup) (m : Machine) (base : Thread) (module : Module) (n : Nat) :
    List Frame → Thread → Prop
  | empty {t : Thread} (hsame : t.standing = base.standing) : m.Tower setup base module n [] t
  | root {f : Frame} {c : MethodCall} {inner t : Thread}
      (hscope : setup.program.scope? setup.program.root = some f.scope) (hcall : f.call = some c)
      (hmethod : c.method = "") (htraceable : c.traceable = false)
      (hover : f.Over setup.program base inner)
      (hdepth : f.nesting < setup.settings.maxCallDepth) (hsame : t.standing = inner.standing) :
      m.Tower setup base module n [f] t
  | call {f g : Frame} {i : Instr} {outer : List Frame} {k : Nat} {inner t : Thread}
      (hbegan : m.Began setup k n g i outer)
      (hbelow : m.Tower setup base module n (g.calling i :: outer) (m.advance setup k).thread)
      (hentered : f.EnteredBy setup module i)
      (hover : f.Over setup.program (m.advance setup k).thread inner)
      (hdepth : f.nesting < setup.settings.maxCallDepth) (hsame : t.standing = inner.standing) :
      m.Tower setup base module n (f :: g.calling i :: outer) t

namespace Machine.Tower

variable {m : Machine} {base t u : Thread} {module : Module} {n : Nat} {f g : Frame}
  {fs : List Frame}

theorem congr (htower : m.Tower setup base module n fs t) (hsame : u.standing = t.standing) :
    m.Tower setup base module n fs u := by
  cases htower with
  | empty hbase => exact .empty (hsame.trans hbase)
  | root hscope hcall hmethod htraceable hover hdepth hinner =>
      exact .root hscope hcall hmethod htraceable hover hdepth (hsame.trans hinner)
  | call hbegan hbelow hentered hover hdepth hinner =>
      exact .call hbegan hbelow hentered hover hdepth (hsame.trans hinner)

theorem replace (htower : m.Tower setup base module n (f :: fs) t) (hsame : f.SameEntry g) :
    m.Tower setup base module n (g :: fs) t := by
  cases htower with
  | root hscope hcall hmethod htraceable hover hdepth hinner =>
      rw [← hsame.scope] at hscope
      rw [← hsame.nesting] at hdepth
      exact .root hscope (hsame.call.trans hcall) hmethod htraceable (hsame.over hover) hdepth
        hinner
  | call hbegan hbelow hentered hover hdepth hinner =>
      rw [← hsame.nesting] at hdepth
      exact .call hbegan hbelow (hentered.sameEntry hsame) (hsame.over hover) hdepth hinner

/-- The frames stand as long as those of them that wait go on waiting. -/
theorem later (htower : m.Tower setup base module n fs t)
    (hwaits : ∃ inner, (m.advance setup (n + 1)).waiting = inner ++ fs.tail) :
    m.Tower setup base module (n + 1) fs t := by
  induction htower with
  | empty hsame => exact .empty hsame
  | root hscope hcall hmethod htraceable hover hdepth hsame =>
      exact .root hscope hcall hmethod htraceable hover hdepth hsame
  | @call f g i outer k inner t hbegan hbelow hentered hover hdepth hsame ih =>
      obtain ⟨before, hwaiting⟩ := hwaits
      refine .call (hbegan.succ hwaiting) (ih ?_) hentered hover hdepth hsame
      exact ⟨before ++ [g.calling i], hwaiting.trans (by simp)⟩

theorem leave (htower : m.Tower setup base module n (f :: fs) t) :
    m.Tower setup base module n fs (f.restore t) := by
  cases htower with
  | root hscope hcall hmethod htraceable hover hdepth hsame =>
      apply Tower.empty
      rw [← hover.restore_eq]
      exact Thread.restore_standing hsame _ _
  | call hbegan hbelow hentered hover hdepth hsame =>
      apply hbelow.congr
      rw [← hover.restore_eq]
      exact Thread.restore_standing hsame _ _

theorem step
    (htower : m.Tower setup base module n (m.advance setup n).active (m.advance setup n).thread)
    (hmodule : (m.advance setup n).record.module = module) :
    m.Tower setup base module (n + 1) (m.advance setup (n + 1)).active
      (m.advance setup (n + 1)).thread := by
  have haccount := (m.advance setup n).step_account setup
  rw [← advance_succ] at haccount
  cases haccount with
  | goOn hactive hcontrol hsame hthread hidle hhears =>
      rw [hactive] at htower
      rw [active_of_running hcontrol]
      exact ((htower.later ⟨[], waiting_of_running hcontrol⟩).replace hsame).congr hthread
  | @enter f g cs i hrunning hnext hcontrol hentered hover hdepth hhears =>
      rw [active_of_running hrunning] at htower
      rw [active_of_running hcontrol]
      rw [hmodule] at hentered
      have hwaiting := waiting_of_running hcontrol
      have hbelow := (htower.later ⟨[f.calling i], hwaiting⟩).replace
        (f.goesTo_calling i).toSameEntry
      have hbegan : m.Began setup _ (n + 1) f i cs :=
        (Began.now hrunning hnext).succ (hwaiting.trans (List.nil_append _).symm)
      exact .call hbegan hbelow hentered hover hdepth rfl
  | @refuse f cs i r a hrunning hnext hcontrol hthread hhears =>
      rw [active_of_running hrunning] at htower
      rw [active_of_leaving hcontrol, hthread]
      have hwaiting := waiting_of_leaving hcontrol
      exact (htower.later ⟨[f.calling i], hwaiting⟩).replace (f.goesTo_calling i).toSameEntry
  | leave hactive hcontrol hthread hidle hhears =>
      rw [hactive] at htower
      rw [active_of_leaving hcontrol, hthread]
      exact (htower.later ⟨[], waiting_of_leaving hcontrol⟩).leave
  | stop hactive hsame =>
      rw [hactive] at htower
      rw [hsame, hactive]
      cases htower with
      | empty hbase => exact .empty hbase

end Machine.Tower

/-- The frames of a run stand on the threads of their calls. -/
theorem Setup.runRoot_tower (setup : Setup) (receiver : Value) (thread : Thread)
    (record : Record) (n : Nat) :
    (setup.runRoot receiver thread record).Tower setup thread record.module n
      ((setup.runRoot receiver thread record).advance setup n).active
      ((setup.runRoot receiver thread record).advance setup n).thread := by
  induction n with
  | zero =>
      let given := record.initRootModule .object
      have hhears := (Machine.idle receiver thread given.2 (.fresh .method [])).enterMethod_hears
        setup setup.program.root (.fresh .method []) "" given.1 false []
      rcases (Machine.idle receiver thread given.2 (.fresh .method [])).enterMethod_cases setup
          setup.program.root (.fresh .method []) "" given.1 false [] with
        ⟨s, -, hcontrol, hthread⟩ | ⟨scope, hscope, hcontrol, hthread⟩
      · have hactive : (setup.runRoot receiver thread record).active = [] :=
          Machine.active_of_leaving hcontrol
        rw [Machine.advance, hactive]
        exact .empty (congrArg Thread.standing hthread)
      · have hactive : (setup.runRoot receiver thread record).active = [_] :=
          Machine.active_of_running hcontrol
        rw [Machine.advance, hactive]
        have hdepth : thread.nesting < setup.settings.maxCallDepth := by
          rcases hhears with ⟨r, b, hleft, -⟩ | ⟨g, hrunning, hdepth, -⟩
          · cases hcontrol.symm.trans hleft
          · obtain ⟨rfl, -⟩ := Control.running.inj (hcontrol.symm.trans hrunning)
            exact hdepth
        exact .root hscope rfl rfl rfl (.method hscope rfl rfl rfl rfl) hdepth
          (congrArg Thread.standing hthread)
  | succ n ih => exact ih.step (setup.runRoot_module receiver thread record n)

/-! ## Reading the stacks off the frames -/

theorem Frame.Over.nesting_eq {p : Program} {f : Frame} {outer inner : Thread}
    (hover : f.Over p outer inner) :
    f.nesting = outer.nesting ∧ inner.nesting = outer.nesting + 1 ∧ inner.file = outer.file := by
  cases hover with
  | bare hscope hcall hnesting => exact ⟨hnesting, rfl, rfl⟩
  | method hscope hcall hnesting hcalls htrace =>
      refine ⟨hnesting, rfl, ?_⟩
      simp only [Thread.pushMethod]
      split <;> rfl

theorem Thread.eq_of_standing {t u : Thread} (hsame : t.standing = u.standing) :
    t.calls = u.calls ∧ t.backtrace = u.backtrace ∧ t.nesting = u.nesting ∧ t.file = u.file := by
  rw [Thread.standing_eq_iff.mp hsame]
  exact ⟨rfl, rfl, rfl, rfl⟩

/-- The entry in the backtrace of an invocation: where the thread was when it was called. -/
def Invoked.traceFrame (setup : Setup) (m : Machine) (module : Module) (file : String)
    (c : Invoked) : TraceFrame where
  module := module
  method := c.scope.name
  file := file
  line := (m.advance setup c.start).thread.line

/-- The entries in the backtrace of the invocations that have a name. -/
def Machine.traceOf (setup : Setup) (m : Machine) (module : Module) (file : String)
    (calls : List Invoked) : List TraceFrame :=
  (calls.filter fun c => !c.scope.name.isEmpty).map (Invoked.traceFrame setup m module file)

namespace Machine.Tower

variable {m : Machine} {base t : Thread} {module : Module} {n : Nat} {f : Frame}
  {fs : List Frame}

/-- Every frame adds one to the nesting, and none changes the file. -/
theorem nesting_eq (htower : m.Tower setup base module n fs t) :
    t.nesting = base.nesting + fs.length ∧ t.file = base.file := by
  induction htower with
  | empty hsame =>
      obtain ⟨-, -, hnesting, hfile⟩ := Thread.eq_of_standing hsame
      exact ⟨hnesting, hfile⟩
  | root hscope hcall hmethod htraceable hover hdepth hsame =>
      obtain ⟨-, -, hnesting, hfile⟩ := Thread.eq_of_standing hsame
      obtain ⟨-, hinner, hkept⟩ := hover.nesting_eq
      exact ⟨hnesting.trans hinner, hfile.trans hkept⟩
  | call hbegan hbelow hentered hover hdepth hsame ih =>
      obtain ⟨-, -, hnesting, hfile⟩ := Thread.eq_of_standing hsame
      obtain ⟨-, hinner, hkept⟩ := hover.nesting_eq
      obtain ⟨houter, hsource⟩ := ih
      refine ⟨?_, (hfile.trans hkept).trans hsource⟩
      simp only [List.length_cons] at houter ⊢
      omega

theorem nesting_le (htower : m.Tower setup base module n (f :: fs) t) :
    t.nesting ≤ setup.settings.maxCallDepth := by
  cases htower with
  | root hscope hcall hmethod htraceable hover hdepth hsame =>
      obtain ⟨-, -, hnesting, -⟩ := Thread.eq_of_standing hsame
      obtain ⟨houter, hinner, -⟩ := hover.nesting_eq
      omega
  | call hbegan hbelow hentered hover hdepth hsame =>
      obtain ⟨-, -, hnesting, -⟩ := Thread.eq_of_standing hsame
      obtain ⟨houter, hinner, -⟩ := hover.nesting_eq
      omega

/-- The call stack and the backtrace list the invocations of the frames. -/
theorem mirrors (hsound : setup.program.Sound)
    (htower : m.Tower setup base module n (f :: fs) t) :
    ∃ calls, m.Invocations setup n (f :: fs) calls ∧
      t.calls = calls.map (fun c => c.scope.id) ++ setup.program.root :: base.calls ∧
      t.backtrace = m.traceOf setup module base.file calls ++ base.backtrace := by
  generalize hframes : f :: fs = frames at htower
  induction htower generalizing f fs with
  | empty hsame => cases hframes
  | @root f c inner t hscope hcall hmethod htraceable hover hdepth hsame =>
      obtain ⟨rfl, rfl⟩ := List.cons.inj hframes
      obtain ⟨hcalls, hbacktrace, -⟩ := Thread.eq_of_standing hsame
      refine ⟨[], .root, ?_⟩
      cases hover with
      | bare hid hnone hnesting => cases hnone.symm.trans hcall
      | @method id d hid hsome hnesting hdepths htraces =>
          obtain rfl := Option.some.inj (hsome.symm.trans hcall)
          have hroot : setup.program.root = id :=
            (hsound.identity _ _ hscope).symm.trans (hsound.identity _ _ hid)
          rw [hcalls, hbacktrace, hroot]
          simp [Thread.pushMethod, hmethod, Thread.pushCall, traceOf]
  | @call f g i outer k inner t hbegan hbelow hentered hover hdepth hsame ih =>
      obtain ⟨rfl, rfl⟩ := List.cons.inj hframes
      obtain ⟨calls, hinvoked, hbelowCalls, hbelowTrace⟩ := ih rfl
      obtain ⟨hcalls, hbacktrace, -⟩ := Thread.eq_of_standing hsame
      have hfile := hbelow.nesting_eq.2
      cases hentered with
      | closure hscope hcall =>
          refine ⟨calls, .closure hbegan hinvoked, ?_⟩
          cases hover with
          | bare hid hnone hnesting =>
              rw [hcalls, hbacktrace]
              exact ⟨hbelowCalls, hbelowTrace⟩
          | method hid hsome hnesting hdepths htraces => cases hsome.symm.trans hcall
      | @method id args dst c hscope hcall hmethod hmodule htraceable =>
          refine ⟨⟨f.scope, k⟩ :: calls, .method hbegan hinvoked, ?_⟩
          cases hover with
          | bare hid hnone hnesting => cases hnone.symm.trans hcall
          | @method id d hid hsome hnesting hdepths htraces =>
              obtain rfl := Option.some.inj (hsome.symm.trans hcall)
              have hidentity := hsound.identity _ _ hid
              rw [hcalls, hbacktrace]
              by_cases hnamed : f.scope.name.isEmpty
              · simp [Thread.pushMethod, hmethod, hnamed, Thread.pushCall, hidentity,
                  hbelowCalls, hbelowTrace, traceOf]
              · simp [Thread.pushMethod, hmethod, hmodule, hnamed, Thread.pushCall,
                  Thread.pushTrace, hidentity, hbelowCalls, hbelowTrace, traceOf,
                  Invoked.traceFrame, hfile]

end Machine.Tower

/-! ## Exceptions that are made in frames -/

/-- In the next step the frame makes the exception, and does not pass it on only. -/
inductive Machine.Creates (m : Machine) : Frame → Exception → Prop
  /-- An instruction refuses its operands, or raises a value that is no exception. -/
  | refusedOperand {f : Frame} {cs : List Frame} {i : Instr} {e : Exception}
      (hrunning : m.control = .running f cs) (hnext : f.next? = some i)
      (heffect : (i.perform m.thread m.receiver f.activation).effect = .signal (.ofException e))
      (hresumes : i ≠ .resumePending)
      (hraises : ∀ value, i = .raise value →
        f.activation.operand m.receiver value ≠ .exception e) : m.Creates f e
  /-- The frame refuses a `break`. -/
  | refusedBreak {f : Frame} {cs : List Frame} {target : ScopeId} {v : Value} {claimed : Bool}
      {e : Exception} (hends : m.EndsIn f cs (.breakJump target v claimed))
      (hraised : (f.verdict m.thread (.breakJump target v claimed)).raised? =
        some (.exception e)) : m.Creates f e
  /-- A `return` out of a closure has lost its method. -/
  | lostReturn {f : Frame} {cs : List Frame} {e : Exception}
      (hrunning : m.control = .running f cs) (hend : f.next? = none)
      (hclose : f.close m.thread = .error (.ofException e)) : m.Creates f e

theorem Frame.backtrace_of_refused_break {f : Frame} {t : Thread} {target : ScopeId} {v : Value}
    {claimed : Bool} {e : Exception}
    (hraised : (f.verdict t (.breakJump target v claimed)).raised? = some (.exception e)) :
    e.backtrace = t.backtraceLines := by
  by_cases hrefused : f.refusesBreak = true
  · have hregard : f.regard t (.breakJump target v claimed) =
        .ofException (.unexpectedBreak v t.backtraceLines) := by
      rw [regard, hrefused]
      rfl
    rw [verdict_of_not_jump (by rw [hregard]; rfl), hregard, seekHandler] at hraised
    have hmade : Exception.unexpectedBreak v t.backtraceLines = e := by
      split at hraised
      · exact Value.exception.inj (Option.some.inj hraised)
      · exact Value.exception.inj (Option.some.inj hraised)
    rw [← hmade]
    rfl
  · -- an accepted break is never raised
    rw [Bool.not_eq_true] at hrefused
    rw [verdict_of_break hrefused] at hraised
    split at hraised
    · cases hraised
    · split at hraised
      · cases hraised
      · rw [seekHandler] at hraised
        split at hraised <;> cases hraised

theorem Frame.backtrace_of_close {f : Frame} {t : Thread} {e : Exception}
    (hclose : f.close t = .error (.ofException e)) : e.backtrace = t.backtraceLines := by
  unfold close at hclose
  split at hclose
  · cases hclose
  · split at hclose
    · cases hclose
      rfl
    · split at hclose <;> cases hclose

/-- An exception that an instruction makes has the backtrace of the thread. -/
theorem Instr.backtrace_of_refusal {i : Instr} {t : Thread} {receiver : Value} {a : Activation}
    {e : Exception} (heffect : (i.perform t receiver a).effect = .signal (.ofException e))
    (hresumes : i ≠ .resumePending)
    (hraises : ∀ value, i = .raise value → a.operand receiver value ≠ .exception e) :
    e.backtrace = t.backtraceLines := by
  cases i with
  | binary op lhs rhs dst =>
      simp only [perform] at heffect
      split at heffect
      · cases heffect
      · cases heffect
        rfl
  | branch truthy cond target =>
      simp only [perform] at heffect
      split at heffect <;> cases heffect
  | raise value =>
      have hother := hraises value rfl
      simp only [perform] at heffect
      cases hoperand : a.operand receiver value with
      | exception given =>
          rw [hoperand] at heffect hother
          cases heffect
          exact absurd rfl hother
      | _ =>
          rw [hoperand] at heffect
          cases heffect
          rfl
  | resumePending => exact absurd rfl hresumes
  | _ => cases heffect

theorem Machine.Creates.backtrace_eq {m : Machine} {f : Frame} {e : Exception}
    (hcreates : m.Creates f e) : e.backtrace = m.thread.backtraceLines := by
  cases hcreates with
  | refusedOperand hrunning hnext heffect hresumes hraises =>
      exact Instr.backtrace_of_refusal heffect hresumes hraises
  | refusedBreak hends hraised => exact Frame.backtrace_of_refused_break hraised
  | lostReturn hrunning hend hclose => exact Frame.backtrace_of_close hclose

/-! ## The mirror -/

/-- At step `n` of a run, the stacks of the thread are those of the invocations that are active
then. -/
structure Machine.Mirrored (setup : Setup) (m : Machine) (module : Module) (file : String)
    (n : Nat) (calls : List Invoked) : Prop where
  invocations : m.Invocations setup n (m.advance setup n).active calls
  /-- The call stack is the root with the scopes of the invocations on top of it. -/
  callStack : (m.advance setup n).thread.calls =
    calls.map (fun c => c.scope.id) ++ [setup.program.root]
  /-- No closure is on the call stack. -/
  methods : ∀ id ∈ (m.advance setup n).thread.calls,
    ∃ s, setup.program.scope? id = some s ∧ s.isClosure = false
  /-- The backtrace has one entry for each invocation with a name. -/
  backtrace : (m.advance setup n).thread.backtrace = m.traceOf setup module file calls
  keepsModule : (m.advance setup n).record.module = module
  keepsFile : (m.advance setup n).thread.file = file
  depth : (m.advance setup n).thread.calls.length ≤ (m.advance setup n).thread.nesting
  limit : (m.advance setup n).thread.nesting ≤ setup.settings.maxCallDepth
  /-- The exceptions that frames make carry the entries, innermost first. -/
  exceptions : ∀ g e, (m.advance setup n).Creates g e →
    e.backtrace = (m.traceOf setup module file calls).map TraceFrame.text

/-- As long as a frame of a run is active, the stacks of the thread mirror the active
invocations. -/
theorem stack_mirror (hbuilt : setup.program.Built) (receiver : Value) (file : String)
    (record : Record) {n : Nat}
    (hactive : ((setup.runRoot receiver (.fresh file) record).advance setup n).active ≠ []) :
    ∃ calls,
      (setup.runRoot receiver (.fresh file) record).Mirrored setup record.module file n calls := by
  have hsound := hbuilt.sound
  have htower := setup.runRoot_tower receiver (.fresh file) record n
  obtain ⟨f, cs, hframes⟩ := List.exists_cons_of_ne_nil hactive
  rw [hframes] at htower
  obtain ⟨calls, hinvoked, hcalls, hbacktrace⟩ := htower.mirrors hsound
  rw [← hframes] at hinvoked
  refine ⟨calls, hinvoked, hcalls, ?_, ?_, ?_, htower.nesting_eq.2, ?_, htower.nesting_le, ?_⟩
  · intro id hid
    obtain ⟨inner, hinner, hstack⟩ :=
      (setup.runRoot_stackedOn receiver (.fresh file) record).advance n
    rw [hstack.calls_eq hsound, ← List.append_nil inner, ← hinner] at hid
    simp only [Thread.fresh, List.append_nil] at hid
    obtain ⟨g, hg, hmethod, rfl⟩ := mem_methodScopes.mp hid
    have hkind := (setup.runRoot_regular hsound receiver (.fresh file) record n g hg).kind
    refine ⟨g.scope, setup.runRoot_scope? hsound receiver (.fresh file) record n hg, ?_⟩
    simpa [hmethod] using hkind
  · simpa [Thread.fresh] using hbacktrace
  · exact setup.runRoot_module receiver (.fresh file) record n
  · have hlength := hinvoked.length_lt
    have hnesting := htower.nesting_eq.1
    rw [hframes] at hlength
    rw [hcalls, hnesting]
    simp only [List.length_append, List.length_map, List.length_cons, Thread.fresh,
      List.length_nil] at hlength ⊢
    omega
  · intro g e hcreates
    rw [hcreates.backtrace_eq, Thread.backtraceLines, hbacktrace]
    simp [Thread.fresh]

namespace StackMirrorWitness

/-- A script that calls a method; the block of this calls another method, which raises. -/
def listing : Listing where
  name := "mirroring"
  root := 0
  scopes := [
    ⟨"<main>", .script, none, [.instr (.line 3), .instr (.callMethod ⟨1⟩ [] none)], []⟩,
    ⟨"work", .method, none, [.instr (.line 7), .instr (.callClosure ⟨2⟩ .block [] none)], []⟩,
    ⟨"block in work", .closure, some ⟨1⟩,
      [.instr (.line 9), .instr (.callMethod ⟨3⟩ [] none)], []⟩,
    ⟨"inner", .method, none, [.instr (.raise (.const (.str "boom")))], []⟩]

def mirroring : Setup where
  program :=
    { name := "mirroring"
      root := ⟨0⟩
      scopes := #[
        ⟨⟨0⟩, "<main>", .script, none, ⟨#[.line 3, .callMethod ⟨1⟩ [] none], [], []⟩⟩,
        ⟨⟨1⟩, "work", .method, none, ⟨#[.line 7, .callClosure ⟨2⟩ .block [] none], [], []⟩⟩,
        ⟨⟨2⟩, "block in work", .closure, some ⟨1⟩,
          ⟨#[.line 9, .callMethod ⟨3⟩ [] none], [], []⟩⟩,
        ⟨⟨3⟩, "inner", .method, none, ⟨#[.raise (.const (.str "boom"))], [], []⟩⟩] }

def start : Machine := mirroring.runRoot .nil (.fresh "demo.ir") {}

theorem mirroring_listed : mirroring.program.Listed := ⟨listing, rfl⟩

/-- The raise carries the methods at the lines at which they were called, without the block. -/
theorem stack_mirror_mirroring :
    mirroring.program.Listed ∧
    ∃ calls f e, start.Mirrored mirroring .object "demo.ir" 6 calls ∧
      calls.map (fun c => c.scope.id) = [⟨3⟩, ⟨1⟩] ∧
      (start.advance mirroring 6).Creates f e ∧
      e.backtrace = [⟨.object, "inner", "demo.ir", 9⟩, ⟨.object, "work", "demo.ir", 3⟩].map
        TraceFrame.text := by
  obtain ⟨calls, hmirrored⟩ := stack_mirror mirroring_listed.built .nil "demo.ir" {} (n := 6)
    (List.cons_ne_nil _ _)
  have hcalls : calls.map (fun c => c.scope.id) ++ [⟨0⟩] = [⟨3⟩, ⟨1⟩] ++ [⟨0⟩] :=
    hmirrored.callStack.symm
  have hcreates : (start.advance mirroring 6).Creates _ _ :=
    .refusedOperand (i := .raise (.const (.str "boom"))) rfl rfl rfl nofun (by
      intro value hvalue
      cases hvalue
      exact nofun)
  refine ⟨mirroring_listed, calls, _, _, hmirrored, List.append_cancel_right hcalls, hcreates, ?_⟩
  rw [hmirrored.exceptions _ _ hcreates, ← hmirrored.backtrace]
  rfl

end StackMirrorWitness

end Unwind
