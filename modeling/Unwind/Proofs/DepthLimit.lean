import Unwind.Proofs.Callers
import Unwind.Proofs.Observation

/-!
The limit on the depth of scopes.

Only the entry into a scope asks for the limit.  So a run in which no entry is refused for its
depth goes the same way under every greater limit, and an entry that is refused ends the call in
its caller, on the thread of the caller.
-/

namespace Unwind

variable {setup : Setup} {limit : Nat}

/-! ## Entries -/

/-- The setup under another limit. -/
def Setup.withLimit (setup : Setup) (limit : Nat) : Setup :=
  { setup with settings := { setup.settings with maxCallDepth := limit } }

/-- The next step tries to enter a scope: the instruction `i` of the frame `f` calls a closure, or
a method that the program has and that the observer lets be called. -/
inductive Machine.TriesToEnter (setup : Setup) (m : Machine) : Frame → List Frame → Instr → Prop
  | method {f : Frame} {cs : List Frame} {id : ScopeId} {args : List Operand} {dst : Option Reg}
      {s : Scope} (hrunning : m.control = .running f cs)
      (hnext : f.next? = some (.callMethod id args dst))
      (hscope : setup.program.scope? id = some s)
      (hcontent :
        ¬ setup.FailsAt setup.settings.traceCalls m.record ⟨.call, s.name, m.record.module⟩) :
      m.TriesToEnter setup f cs (.callMethod id args dst)
  | closure {f : Frame} {cs : List Frame} {id : ScopeId} {mode : BlockMode} {args : List Operand}
      {dst : Option Reg} (hrunning : m.control = .running f cs)
      (hnext : f.next? = some (.callClosure id mode args dst)) :
      m.TriesToEnter setup f cs (.callClosure id mode args dst)

theorem Machine.TriesToEnter.begins {m : Machine} {f : Frame} {cs : List Frame} {i : Instr}
    (htries : m.TriesToEnter setup f cs i) : m.begins? = some i ∧ i.callee?.isSome = true := by
  cases htries with
  | method hrunning hnext hscope hcontent => exact ⟨begins?_of_running hrunning hnext, rfl⟩
  | closure hrunning hnext => exact ⟨begins?_of_running hrunning hnext, rfl⟩

/-- The scope that the machine's next step tries to enter is not nested too deeply. -/
def Machine.Fits (setup : Setup) (m : Machine) : Prop :=
  ∀ f cs i, m.TriesToEnter setup f cs i → m.thread.nesting < setup.settings.maxCallDepth

/-! ## Greater limits -/

theorem Machine.enterScope_withLimit (hle : setup.settings.maxCallDepth ≤ limit) {m : Machine}
    (hfits : m.thread.nesting < setup.settings.maxCallDepth) (id : ScopeId) (a : Activation)
    (call : Option MethodCall) (cs : List Frame) :
    m.enterScope (setup.withLimit limit) id a call cs = m.enterScope setup id a call cs := by
  have hshallow : ¬ setup.settings.maxCallDepth ≤ m.thread.nesting := Nat.not_le_of_lt hfits
  have hshallow' : ¬ limit ≤ m.thread.nesting := fun hdeep => hshallow (Nat.le_trans hle hdeep)
  simp only [enterScope, Setup.withLimit, hshallow, hshallow', ↓reduceIte]
  rfl

theorem Machine.enterMethod_withLimit (hle : setup.settings.maxCallDepth ≤ limit) (m : Machine)
    (id : ScopeId) (a : Activation) (method : String) (module : Module) (traceable : Bool)
    (cs : List Frame)
    (hfits : ¬ setup.FailsAt traceable m.record ⟨.call, method, module⟩ →
      m.thread.nesting < setup.settings.maxCallDepth) :
    m.enterMethod (setup.withLimit limit) id a method module traceable cs =
      m.enterMethod setup id a method module traceable cs := by
  have hsame : (setup.withLimit limit).fire traceable m.record ⟨.call, method, module⟩ =
      setup.fire traceable m.record ⟨.call, method, module⟩ := rfl
  rw [enterMethod_eq, enterMethod_eq, hsame]
  cases hfailure : (setup.fire traceable m.record ⟨.call, method, module⟩).2 with
  | some s => rfl
  | none =>
      have hshallow := hfits (by simp [Setup.FailsAt, hfailure])
      rw [← m.calls_nesting setup id (m.callRecord method module traceable)] at hshallow
      exact enterScope_withLimit hle hshallow id a _ cs

theorem Machine.enterCall_withLimit (hle : setup.settings.maxCallDepth ≤ limit) (m : Machine)
    (c : Call) (cs : List Frame)
    (hmethod : ∀ id args s, c = .method id args → setup.program.scope? id = some s →
      ¬ setup.FailsAt setup.settings.traceCalls m.record ⟨.call, s.name, m.record.module⟩ →
      m.thread.nesting < setup.settings.maxCallDepth)
    (hclosure : ∀ id mode args, c = .closure id mode args →
      m.thread.nesting < setup.settings.maxCallDepth) :
    m.enterCall (setup.withLimit limit) c cs = m.enterCall setup c cs := by
  cases c with
  | closure id mode args => exact enterScope_withLimit hle (hclosure id mode args rfl) id _ _ _
  | method id args =>
      have hprogram : (setup.withLimit limit).program = setup.program := rfl
      simp only [enterCall, hprogram]
      cases hscope : setup.program.scope? id with
      | none => rfl
      | some s => exact m.enterMethod_withLimit hle id _ _ _ _ _ (hmethod id args s rfl hscope)

/-- A step that does not try to enter a scope nested too deeply is the same under a greater
limit. -/
theorem Machine.Fits.step_withLimit (hle : setup.settings.maxCallDepth ≤ limit) {m : Machine}
    (hfits : m.Fits setup) : m.step (setup.withLimit limit) = m.step setup := by
  cases hcontrol : m.control with
  | leaving r a cs =>
      simp only [step, hcontrol]
      cases cs <;> cases r <;> rfl
  | running f cs =>
      cases hnext : f.next? with
      | none =>
          simp only [step, hcontrol, hnext]
          rfl
      | some i =>
          have hdebug : (setup.withLimit limit).settings.debug = setup.settings.debug := rfl
          simp only [step, hcontrol, hnext, execute, hdebug]
          cases heffect : (i.perform m.thread m.receiver f.activation).effect with
          | call c =>
              have hthread := (Instr.perform_of_call heffect).1
              have hcounted := m.executing_hears setup.settings.debug
                (.executing f.scope.name f.pc i)
              apply enterCall_withLimit hle
              · rintro id values s rfl hscope hcontent
                obtain ⟨args, dst, rfl⟩ := Instr.eq_callMethod_of_call heffect
                simp only [hcounted.module_eq, Setup.failsAt_congr hcounted.heard] at hcontent
                simp only [hthread]
                exact hfits f cs _ (.method hcontrol hnext hscope hcontent)
              · rintro id mode values rfl
                obtain ⟨args, dst, rfl⟩ := Instr.eq_callClosure_of_call heffect
                simp only [hthread]
                exact hfits f cs _ (.closure hcontrol hnext)
          | _ => rfl

/-- A run that never tries to enter a scope nested too deeply is the same under a greater limit. -/
theorem Machine.advance_withLimit (hle : setup.settings.maxCallDepth ≤ limit) {m : Machine}
    (hfits : ∀ n, (m.advance setup n).Fits setup) (n : Nat) :
    m.advance (setup.withLimit limit) n = m.advance setup n := by
  induction n with
  | zero => rfl
  | succ n ih => rw [advance_succ, advance_succ, ih, (hfits n).step_withLimit hle]

theorem Setup.runRoot_withLimit (hle : setup.settings.maxCallDepth ≤ limit) {thread : Thread}
    (hfits : thread.nesting < setup.settings.maxCallDepth) (receiver : Value) (record : Record) :
    (setup.withLimit limit).runRoot receiver thread record =
      setup.runRoot receiver thread record :=
  Machine.enterMethod_withLimit hle _ _ _ _ _ _ _ fun _ => hfits

/-! ## Refused entries -/

theorem Machine.enterScope_of_deep {m : Machine}
    (hdeep : setup.settings.maxCallDepth ≤ m.thread.nesting) (id : ScopeId) (a : Activation)
    (call : Option MethodCall) (cs : List Frame) :
    m.enterScope setup id a call cs =
      m.leave setup m.thread.nesting call a cs (.error .tooDeep) := by
  simp only [enterScope, hdeep, ↓reduceIte]

/-- A method that is nested too deeply is left at once. -/
theorem Machine.enterMethod_of_deep {m : Machine}
    (hdeep : setup.settings.maxCallDepth ≤ m.thread.nesting) (id : ScopeId) (a : Activation)
    (method : String) (module : Module) (traceable : Bool) (cs : List Frame)
    (hcontent : ¬ setup.FailsAt traceable m.record ⟨.call, method, module⟩) :
    (m.enterMethod setup id a method module traceable cs).control =
        .leaving (.error .tooDeep) a cs ∧
      (m.enterMethod setup id a method module traceable cs).thread = m.thread := by
  have hnesting := m.calls_nesting setup id (m.callRecord method module traceable)
  rw [enterMethod_eq, Option.not_isSome_iff_eq_none.mp hcontent]
  simp only
  rw [enterScope_of_deep (hnesting.symm ▸ hdeep), hnesting]
  obtain ⟨result, hresult, hcontrol, hthread⟩ :=
    (m.calls setup id (m.callRecord method module traceable)).leave_spec setup m.thread.nesting
      (some (m.callRecord method module traceable)) a cs (.error .tooDeep)
  rw [hresult.eq_of_error] at hcontrol
  exact ⟨hcontrol, hthread.trans (m.thread.restore_pushMethod id _ rfl rfl _)⟩

/-- A scope that is nested too deeply ends the call of its caller. -/
theorem Machine.TriesToEnter.refused {m : Machine} {f : Frame} {cs : List Frame} {i : Instr}
    (htries : m.TriesToEnter setup f cs i)
    (hdeep : setup.settings.maxCallDepth ≤ m.thread.nesting) :
    (∃ a, (m.step setup).control = .leaving (.error .tooDeep) a (f.calling i :: cs)) ∧
      (m.step setup).thread = m.thread ∧
      (m.step setup).record.executed = m.record.executed + 1 := by
  have hcounted := m.step_executed setup
  rw [htries.begins.1] at hcounted
  cases htries with
  | @method id args dst s hrunning hnext hscope hcontent =>
      obtain ⟨told, hhears, hstep⟩ := step_of_call hrunning hnext rfl setup
      rw [← hhears.module_eq, ← Setup.failsAt_congr hhears.heard] at hcontent
      obtain ⟨hcontrol, hthread⟩ :=
        @enterMethod_of_deep setup { m with record := told } hdeep id _ _ _ _ _ hcontent
      refine ⟨?_, ?_, hcounted⟩
      · rw [hstep, enterCall, hscope]
        exact ⟨_, hcontrol⟩
      · rw [hstep, enterCall, hscope]
        exact hthread
  | @closure id mode args dst hrunning hnext =>
      obtain ⟨told, -, hstep⟩ := step_of_call hrunning hnext rfl setup
      rw [enterCall, @enterScope_of_deep setup { m with record := told } hdeep] at hstep
      refine ⟨?_, ?_, hcounted⟩ <;> rw [hstep]
      · exact ⟨_, rfl⟩
      · rfl

/-- A root that is nested too deeply is not run. -/
theorem Setup.runRoot_of_deep {thread : Thread}
    (hdeep : setup.settings.maxCallDepth ≤ thread.nesting) (receiver : Value) (record : Record) :
    ∃ o, (setup.runRoot receiver thread record).Stops setup o ∧ o.result = .error .tooDeep ∧
      o.thread = thread ∧ o.record.executed = record.executed := by
  have hexecuted := setup.runRoot_executed receiver thread record
  obtain ⟨hcontrol, hthread⟩ : (setup.runRoot receiver thread record).control =
        .leaving (.error .tooDeep) (.fresh .method []) [] ∧
      (setup.runRoot receiver thread record).thread = thread :=
    Machine.enterMethod_of_deep hdeep _ _ _ _ _ _ (setup.not_failsAt_of_untraced _ _)
  exact ⟨_, ⟨0, Machine.outcome?_of_leaving hcontrol⟩, rfl, hthread, hexecuted⟩

/-- A run in which no entry of a scope is refused for its depth is step by step the same under
every greater limit: it executes the same instructions, is heard alike, and stops alike.  A scope
that is nested too deeply is not run: its caller, or the run if it is the root, ends in the signal
for that, on the thread that it had, and of the instructions only the call counts. -/
theorem depth_limit_only_limits (hle : setup.settings.maxCallDepth ≤ limit) (receiver : Value)
    (thread : Thread) (record : Record) :
    (thread.nesting < setup.settings.maxCallDepth →
      (∀ n, ((setup.runRoot receiver thread record).advance setup n).Fits setup) →
      (∀ n, ((setup.withLimit limit).runRoot receiver thread record).advance
          (setup.withLimit limit) n = (setup.runRoot receiver thread record).advance setup n) ∧
      ∀ o, ((setup.runRoot receiver thread record).Stops setup o ↔
          ((setup.withLimit limit).runRoot receiver thread record).Stops
            (setup.withLimit limit) o) ∧
        o.ofRoot (setup.withLimit limit) = o.ofRoot setup) ∧
    (setup.settings.maxCallDepth ≤ thread.nesting →
      ∃ o, (setup.runRoot receiver thread record).Stops setup o ∧
        (o.ofRoot setup).result = .error .tooDeep ∧ (o.ofRoot setup).thread = thread ∧
        (o.ofRoot setup).record.executed = record.executed) ∧
    ∀ n f cs i,
      ((setup.runRoot receiver thread record).advance setup n).TriesToEnter setup f cs i →
      setup.settings.maxCallDepth ≤
        ((setup.runRoot receiver thread record).advance setup n).thread.nesting →
      (∃ a, ((setup.runRoot receiver thread record).advance setup (n + 1)).control =
        .leaving (.error .tooDeep) a (f.calling i :: cs)) ∧
      ((setup.runRoot receiver thread record).advance setup (n + 1)).thread =
        ((setup.runRoot receiver thread record).advance setup n).thread ∧
      ((setup.runRoot receiver thread record).advance setup (n + 1)).record.executed =
        ((setup.runRoot receiver thread record).advance setup n).record.executed + 1 := by
  refine ⟨?_, ?_, ?_⟩
  · intro hroot hfits
    have hsame (n : Nat) : ((setup.withLimit limit).runRoot receiver thread record).advance
        (setup.withLimit limit) n = (setup.runRoot receiver thread record).advance setup n := by
      rw [Setup.runRoot_withLimit hle hroot, Machine.advance_withLimit hle hfits]
    refine ⟨hsame, fun o => ⟨?_, rfl⟩⟩
    simp only [Machine.Stops, hsame]
  · intro hdeep
    obtain ⟨o, hstops, hresult, hthread, hexecuted⟩ :=
      Setup.runRoot_of_deep hdeep receiver record
    refine ⟨o, hstops, ?_, hthread, (o.ofRoot_executed setup).trans hexecuted⟩
    simp only [Outcome.ofRoot, hresult, Signal.tooDeep]
  · intro n f cs i htries hdeep
    rw [Machine.advance_succ]
    exact htries.refused hdeep

namespace DepthLimitWitness

/-- A script that calls a method; this calls a block, which is nested three deep. -/
def listing : Listing where
  name := "nesting"
  root := 0
  scopes := [
    ⟨"<main>", .script, none, [.instr (.callMethod ⟨1⟩ [] none)], []⟩,
    ⟨"work", .method, none, [.instr (.callClosure ⟨2⟩ .block [] none)], []⟩,
    ⟨"block in work", .closure, some ⟨1⟩, [.instr (.line 5)], []⟩]

def nesting : Setup where
  program :=
    { name := "nesting"
      root := ⟨0⟩
      scopes := #[
        ⟨⟨0⟩, "<main>", .script, none, ⟨#[.callMethod ⟨1⟩ [] none], [], []⟩⟩,
        ⟨⟨1⟩, "work", .method, none, ⟨#[.callClosure ⟨2⟩ .block [] none], [], []⟩⟩,
        ⟨⟨2⟩, "block in work", .closure, some ⟨1⟩, ⟨#[.line 5], [], []⟩⟩] }
  settings := { maxCallDepth := 3 }

def start (limit : Nat) : Machine := (nesting.withLimit limit).runRoot .nil (.fresh "-") {}

theorem nesting_listed : nesting.program.Listed := ⟨listing, rfl⟩

theorem nesting_fits (n : Nat) : ((start 3).advance nesting n).Fits nesting := by
  intro f cs i htries
  obtain ⟨hbegins, hcallee⟩ := htries.begins
  obtain ⟨o, ho⟩ := Option.isSome_iff_exists.mp (show
    ((start 3).advance nesting 8).outcome?.isSome = true by decide +kernel)
  have hshallow := Machine.forall_advance ho
    (fun m => m.begins?.any (fun i => i.callee?.isSome) = true → m.thread.nesting < 3)
    (by decide +kernel) n
  apply hshallow
  rw [hbegins]
  exact hcallee

/-- Three levels are enough for the run, two are one too few, and none refuses the root. -/
theorem depth_limit_only_limits_nesting :
    nesting.program.Listed ∧
    (∃ o, (start 3).Stops nesting o ∧ (start 9).Stops (nesting.withLimit 9) o ∧
      o.record.executed = 3) ∧
    (∃ f cs i a, ((start 2).advance (nesting.withLimit 2) 1).TriesToEnter (nesting.withLimit 2)
        f cs i ∧
      ((start 2).advance (nesting.withLimit 2) 2).control =
        .leaving (.error .tooDeep) a (f.calling i :: cs)) ∧
    ∃ o, (start 0).Stops (nesting.withLimit 0) o ∧
      (o.ofRoot (nesting.withLimit 0)).result = .error .tooDeep := by
  obtain ⟨o, ho, hexecuted⟩ := Option.map_eq_some_iff.mp (show
    ((start 3).advance nesting 8).outcome?.map (fun o => o.record.executed) = some 3 by
      decide +kernel)
  have hless : nesting.settings.maxCallDepth ≤ 9 := by decide
  have hstops := ((depth_limit_only_limits hless .nil (.fresh "-") {}).1 (by decide)
    nesting_fits).2 o
  have htight := (@depth_limit_only_limits (nesting.withLimit 2) 2 (Nat.le_refl 2) .nil
    (.fresh "-") {}).2.2 1 _ _ _ (.closure rfl rfl) (by decide)
  obtain ⟨p, hp, hrefused, -⟩ := (@depth_limit_only_limits (nesting.withLimit 0) 0 (Nat.le_refl 0)
    .nil (.fresh "-") {}).2.1 (Nat.le_refl 0)
  obtain ⟨a, hcontrol⟩ := htight.1
  exact ⟨nesting_listed, ⟨o, ⟨8, ho⟩, hstops.1.mp ⟨8, ho⟩, hexecuted⟩,
    ⟨_, _, _, a, .closure rfl rfl, hcontrol⟩, p, hp, hrefused⟩

end DepthLimitWitness

end Unwind
