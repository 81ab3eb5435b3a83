import Unwind.Proofs.Origin

/-!
What observers hear in a step.

A step in which a method is called is heard, and a step in which the call of a method ends, be it
because its frame is left or because it was refused.  `Machine.Account` adds this to what a step
does to the frames and to the thread.
-/

namespace Unwind

variable {setup : Setup}

/-! ## Calls that begin and end -/

/-- The instruction that the next step executes, if it executes one. -/
def Machine.begins? (m : Machine) : Option Instr := m.executing?.map Prod.snd

/-- The instruction whose call has just ended, if one has. -/
def Machine.completes? (m : Machine) : Option Instr :=
  match m.control with
  | .leaving _ _ (g :: _) => g.last
  | _ => none

theorem Machine.begins?_of_running {m : Machine} {f : Frame} {cs : List Frame} {i : Instr}
    (hrunning : m.control = .running f cs) (hnext : f.next? = some i) : m.begins? = some i := by
  rw [begins?, executing?_of_running hrunning hnext]
  rfl

theorem Machine.begins?_of_end {m : Machine} {f : Frame} {cs : List Frame}
    (hrunning : m.control = .running f cs) (hend : f.next? = none) : m.begins? = none := by
  simp [begins?, executing?, hrunning, hend]

theorem Machine.begins?_of_leaving {m : Machine} {r : Completion} {a : Activation}
    {cs : List Frame} (hcontrol : m.control = .leaving r a cs) : m.begins? = none := by
  rw [begins?, executing?_of_leaving hcontrol]
  rfl

theorem Machine.completes?_of_running {m : Machine} {f : Frame} {cs : List Frame}
    (hrunning : m.control = .running f cs) : m.completes? = none := by
  rw [completes?, hrunning]

theorem Machine.completes?_of_leaving {m : Machine} {r : Completion} {a : Activation} {g : Frame}
    {cs : List Frame} (hcontrol : m.control = .leaving r a (g :: cs)) :
    m.completes? = g.last := by
  rw [completes?, hcontrol]

theorem Machine.leaving_of_completes {m : Machine} {i : Instr}
    (hcompletes : m.completes? = some i) :
    ∃ r a g cs, m.control = .leaving r a (g :: cs) ∧ g.last = some i := by
  unfold completes? at hcompletes
  split at hcompletes
  · rename_i r a g cs hcontrol
    exact ⟨r, a, g, cs, hcontrol, hcompletes⟩
  · cases hcompletes

/-- What observers hear of the call that an instruction makes, when the call begins or ends:
nothing of the call of a closure. -/
def Setup.callEvents (setup : Setup) (module : Module) (kind : EventKind) :
    Option Instr → List Event
  | some (.callMethod id _ _) =>
      match setup.program.scope? id with
      | some s =>
          if setup.settings.traceCalls && setup.listens then [⟨kind, s.name, module⟩] else []
      | none => []
  | _ => []

/-- A frame was entered for the call that an instruction made, in a program with the given
module. -/
inductive Frame.EnteredBy (setup : Setup) (module : Module) (f : Frame) : Instr → Prop
  | method {id : ScopeId} {args : List Operand} {dst : Option Reg} {c : MethodCall}
      (hscope : setup.program.scope? id = some f.scope) (hcall : f.call = some c)
      (hmethod : c.method = f.scope.name) (hmodule : c.module = module)
      (htraceable : c.traceable = setup.settings.traceCalls) :
      f.EnteredBy setup module (.callMethod id args dst)
  | closure {id : ScopeId} {mode : BlockMode} {args : List Operand} {dst : Option Reg}
      (hscope : setup.program.scope? id = some f.scope) (hcall : f.call = none) :
      f.EnteredBy setup module (.callClosure id mode args dst)

theorem Frame.EnteredBy.sameEntry {f g : Frame} {module : Module} {i : Instr}
    (hentered : f.EnteredBy setup module i) (hsame : f.SameEntry g) :
    g.EnteredBy setup module i := by
  obtain ⟨hscope, -, hcall⟩ := hsame
  cases hentered with
  | method hid hsome hmethod hmodule htraceable =>
      rw [← hscope] at hid hmethod
      exact .method hid (hcall.trans hsome) hmethod hmodule htraceable
  | closure hid hnone =>
      rw [← hscope] at hid
      exact .closure hid (hcall.trans hnone)

/-- Observers hear of the end of a frame what they hear of the end of its call. -/
theorem Frame.EnteredBy.events_eq {f : Frame} {module : Module} {i : Instr}
    (hentered : f.EnteredBy setup module i) (kind : EventKind) :
    setup.events kind f.call = setup.callEvents module kind (some i) := by
  cases hentered with
  | method hscope hcall hmethod hmodule htraceable =>
      simp only [Setup.events, hcall, hmethod, hmodule, htraceable, Setup.callEvents, hscope]
  | closure hscope hcall => simp only [Setup.events, hcall, Setup.callEvents]

theorem Call.EnteredAs.enteredBy {f g : Frame} {i : Instr} {m : Machine} {c : Call}
    (heffect : (i.perform m.thread m.receiver f.activation).effect = .call c) {module : Module}
    (hentered : c.EnteredAs setup module g) : g.EnteredBy setup module i := by
  cases hentered with
  | method hscope hmethod hmodule htraceable =>
      obtain ⟨args, dst, rfl⟩ := Instr.eq_callMethod_of_call heffect
      exact .method hscope rfl hmethod hmodule htraceable
  | closure hscope =>
      obtain ⟨args, dst, rfl⟩ := Instr.eq_callClosure_of_call heffect
      exact .closure hscope rfl

/-! ## Entering -/

theorem Machine.enterScope_hears (m : Machine) (setup : Setup) (id : ScopeId) (a : Activation)
    (call : Option MethodCall) (cs : List Frame) :
    (∃ r b, (m.enterScope setup id a call cs).control = .leaving r b cs ∧
        m.record.Hears (setup.events .ret call) (m.enterScope setup id a call cs).record) ∨
      ∃ g, (m.enterScope setup id a call cs).control = .running g cs ∧
        g.nesting < setup.settings.maxCallDepth ∧
        m.record.Hears [] (m.enterScope setup id a call cs).record := by
  rcases m.enterScope_eq setup id a call cs with
    ⟨s, -, henter⟩ | ⟨scope, -, hdepth, henter⟩
  · left
    obtain ⟨result, -, hcontrol, -⟩ := m.leave_spec setup m.thread.nesting call a cs (.error s)
    rw [henter]
    exact ⟨result, a, hcontrol, m.leave_hears setup _ call a cs _⟩
  · right
    rw [henter]
    exact ⟨_, rfl, hdepth, .refl m.record⟩

theorem Machine.enterMethod_hears (m : Machine) (setup : Setup) (id : ScopeId) (a : Activation)
    (method : String) (module : Module) (traceable : Bool) (cs : List Frame) :
    (∃ r b, (m.enterMethod setup id a method module traceable cs).control = .leaving r b cs ∧
        m.record.Hears
          (setup.events .ret (some (m.callRecord method module traceable)) ++
            setup.events .call (some (m.callRecord method module traceable)))
          (m.enterMethod setup id a method module traceable cs).record) ∨
      ∃ g, (m.enterMethod setup id a method module traceable cs).control = .running g cs ∧
        g.nesting < setup.settings.maxCallDepth ∧
        m.record.Hears (setup.events .call (some (m.callRecord method module traceable)))
          (m.enterMethod setup id a method module traceable cs).record := by
  rw [m.enterMethod_eq]
  have hcalls := m.calls_hears setup id (m.callRecord method module traceable)
  generalize m.callRecord method module traceable = c at *
  cases (setup.fire traceable m.record ⟨.call, method, module⟩).2 with
  | some s =>
      left
      obtain ⟨result, -, hcontrol, -⟩ :=
        (m.calls setup id c).leave_spec setup m.thread.nesting (some c) a cs (.error s)
      have hends := (m.calls setup id c).leave_hears setup m.thread.nesting (some c) a cs (.error s)
      exact ⟨result, a, hcontrol, hcalls.trans hends⟩
  | none =>
      rcases (m.calls setup id c).enterScope_hears setup id a (some c) cs with
        ⟨r, b, hcontrol, hends⟩ | ⟨g, hcontrol, hdepth, hquiet⟩
      · exact Or.inl ⟨r, b, hcontrol, hcalls.trans hends⟩
      · exact Or.inr ⟨g, hcontrol, hdepth, hcalls.trans hquiet⟩

/-- Observers hear that a method is called, and that the call has ended if it was refused. -/
theorem Machine.step_of_call_hears {m : Machine} {f : Frame} {cs : List Frame} {i : Instr}
    {c : Call} (hrunning : m.control = .running f cs) (hnext : f.next? = some i)
    (heffect : (i.perform m.thread m.receiver f.activation).effect = .call c) (setup : Setup) :
    (∃ r a, (m.step setup).control = .leaving r a (f.calling i :: cs) ∧
        m.record.Hears
          (setup.callEvents m.record.module .ret (some i) ++
            setup.callEvents m.record.module .call (some i))
          (m.step setup).record) ∨
      ∃ g, (m.step setup).control = .running g (f.calling i :: cs) ∧
        g.nesting < setup.settings.maxCallDepth ∧
        m.record.Hears (setup.callEvents m.record.module .call (some i))
          (m.step setup).record := by
  obtain ⟨told, hquiet, hcalls⟩ := step_of_call hrunning hnext heffect setup
  have hmodule := hquiet.module_eq
  rw [hcalls]
  rcases Instr.call_cases heffect with
    ⟨id, args, dst, vs, rfl, rfl⟩ | ⟨id, mode, args, dst, vs, rfl, rfl⟩
  · cases hscope : setup.program.scope? id with
    | none =>
        left
        simp only [enterCall, hscope, Setup.callEvents]
        exact ⟨_, _, rfl, hquiet⟩
    | some s =>
        have hevents (kind : EventKind) : setup.callEvents m.record.module kind
            (some (.callMethod id args dst)) = setup.events kind (some (callRecord
              { m with record := told } s.name told.module setup.settings.traceCalls)) := by
          simp only [Setup.callEvents, hscope, Setup.events, callRecord, hmodule]
        rw [hevents, hevents]
        simp only [enterCall, hscope]
        rcases enterMethod_hears { m with record := told } setup id (.fresh .method vs) s.name
            told.module setup.settings.traceCalls (f.calling (.callMethod id args dst) :: cs) with
          ⟨r, b, hcontrol, hends⟩ | ⟨g, hcontrol, hdepth, hbegins⟩
        · exact Or.inl ⟨r, b, hcontrol, by simpa using hquiet.trans hends⟩
        · exact Or.inr ⟨g, hcontrol, hdepth, by simpa using hquiet.trans hbegins⟩
  · simp only [enterCall, Setup.callEvents]
    rcases enterScope_hears { m with record := told } setup id (.fresh (.ofMode mode) vs) none
        (f.calling (.callClosure id mode args dst) :: cs) with
      ⟨r, b, hcontrol, hends⟩ | ⟨g, hcontrol, hdepth, hbegins⟩
    · exact Or.inl ⟨r, b, hcontrol, hquiet.trans hends⟩
    · exact Or.inr ⟨g, hcontrol, hdepth, hquiet.trans hbegins⟩

/-! ## Steps -/

/-- One step, by what becomes of the innermost active frame, of the thread under it, and of what
observers have heard. -/
inductive Machine.Account (setup : Setup) (m m' : Machine) : Prop
  /-- The innermost frame goes on. -/
  | goOn {f g : Frame} {cs : List Frame} (hactive : m.active = f :: cs)
      (hcontrol : m'.control = .running g cs) (hsame : f.SameEntry g)
      (hthread : m'.thread.standing = m.thread.standing)
      (hidle : ∀ module kind, setup.callEvents module kind m.begins? = [])
      (hhears : m.record.Hears [] m'.record)
  /-- The innermost frame calls a new one. -/
  | enter {f g : Frame} {cs : List Frame} {i : Instr} (hrunning : m.control = .running f cs)
      (hnext : f.next? = some i) (hcontrol : m'.control = .running g (f.calling i :: cs))
      (hentered : g.EnteredBy setup m.record.module i)
      (hover : g.Over setup.program m.thread m'.thread)
      (hdepth : g.nesting < setup.settings.maxCallDepth)
      (hhears : m.record.Hears (setup.callEvents m.record.module .call (some i)) m'.record)
  /-- The call of the innermost frame is refused. -/
  | refuse {f : Frame} {cs : List Frame} {i : Instr} {r : Completion} {a : Activation}
      (hrunning : m.control = .running f cs) (hnext : f.next? = some i)
      (hcontrol : m'.control = .leaving r a (f.calling i :: cs)) (hthread : m'.thread = m.thread)
      (hhears : m.record.Hears
        (setup.callEvents m.record.module .ret (some i) ++
          setup.callEvents m.record.module .call (some i)) m'.record)
  /-- The innermost frame is left. -/
  | leave {f : Frame} {cs : List Frame} {r : Completion} {a : Activation}
      (hactive : m.active = f :: cs) (hcontrol : m'.control = .leaving r a cs)
      (hthread : m'.thread = f.restore m.thread)
      (hidle : ∀ module kind, setup.callEvents module kind m.begins? = [])
      (hhears : m.record.Hears (setup.events .ret f.call) m'.record)
  | stop (hactive : m.active = []) (hsame : m' = m)

/-- Observers hear of no call where none is performed. -/
theorem Machine.callEvents_of_running {m : Machine} {f : Frame} {cs : List Frame} {i : Instr}
    (hrunning : m.control = .running f cs) (hnext : f.next? = some i)
    (heffect : ∀ c, (i.perform m.thread m.receiver f.activation).effect ≠ .call c)
    (module : Module) (kind : EventKind) : setup.callEvents module kind m.begins? = [] := by
  rw [begins?_of_running hrunning hnext]
  cases i with
  | callMethod id args dst => exact absurd rfl (heffect _)
  | _ => rfl

theorem Machine.EndsIn.callEvents_eq {m : Machine} {f : Frame} {cs : List Frame} {s : Signal}
    (hends : m.EndsIn f cs s) (module : Module) (kind : EventKind) :
    setup.callEvents module kind m.begins? = [] := by
  cases hends with
  | own hrunning hnext heffect =>
      apply callEvents_of_running hrunning hnext
      intro c hcall
      cases heffect.symm.trans hcall
  | unplaced hrunning hnext heffect hplace =>
      apply callEvents_of_running hrunning hnext
      intro c hcall
      cases heffect.symm.trans hcall
  | callee hleaving =>
      rw [begins?_of_leaving hleaving]
      rfl

theorem Machine.Leaves.callEvents_eq {m : Machine} {f : Frame} {cs : List Frame} {r : Completion}
    (hleaves : m.Leaves f cs r) (module : Module) (kind : EventKind) :
    setup.callEvents module kind m.begins? = [] := by
  cases hleaves with
  | close hrunning hend => simp [begins?_of_end hrunning hend, Setup.callEvents]
  | finish hends hverdict => exact hends.callEvents_eq module kind
  | pass hends hverdict => exact hends.callEvents_eq module kind

/-- When the instruction of a frame is complete or a handler is entered, nothing is heard. -/
theorem Machine.EndsIn.hears_nothing {m : Machine} {f : Frame} {cs : List Frame} {s : Signal}
    (hends : m.EndsIn f cs s)
    (hstays : (∃ v, f.verdict m.thread s = .resume v) ∨
      ∃ pc handled, f.verdict m.thread s = .handle pc handled) (setup : Setup) :
    m.record.Hears [] (m.step setup).record := by
  obtain ⟨before, hthread, hquiet, hstep⟩ := hends.step_eq_settle setup
  have hsettles := before.settle_hears setup f cs s
  rw [hthread] at hsettles
  rw [hstep]
  rcases hstays with ⟨v, hverdict⟩ | ⟨pc, handled, hverdict⟩
  · rw [hverdict] at hsettles
    exact hquiet.trans hsettles
  · rw [hverdict] at hsettles
    exact hquiet.trans hsettles

theorem Machine.step_account (setup : Setup) (m : Machine) :
    m.Account setup (m.step setup) := by
  cases m.step_turn setup with
  | @proceed f cs i pc hrunning hnext heffect hcontrol hthread =>
      have hsilent : ∀ c, (i.perform m.thread m.receiver f.activation).effect ≠ .call c := by
        intro c hcall
        rcases heffect with ⟨hgo, -⟩ | ⟨l, hbranch, -⟩
        · cases hgo.symm.trans hcall
        · cases hbranch.symm.trans hcall
      refine .goOn (active_of_running hrunning) hcontrol ⟨rfl, rfl, rfl⟩ ?_
        (callEvents_of_running hrunning hnext hsilent) ?_
      · rw [hthread]
        exact i.perform_thread_standing m.thread m.receiver f.activation
      · have hcounted :=
          m.executing_hears setup.settings.debug (.executing f.scope.name f.pc i)
        rcases heffect with ⟨hgo, -⟩ | ⟨l, hbranch, hplace⟩
        · simpa only [step, hrunning, hnext, execute, hgo] using hcounted
        · simpa only [step, hrunning, hnext, execute, hbranch, hplace] using hcounted
  | @enter f g cs i c hrunning hnext heffect hcontrol hentered hover =>
      rcases step_of_call_hears hrunning hnext heffect setup with
        ⟨r, a, hleft, -⟩ | ⟨e, hentering, hdepth, hhears⟩
      · cases hcontrol.symm.trans hleft
      · obtain ⟨rfl, -⟩ := Control.running.inj (hcontrol.symm.trans hentering)
        exact .enter hrunning hnext hcontrol (hentered.enteredBy heffect) hover hdepth hhears
  | @refuse f cs i c s a hrunning hnext heffect hrefuses hcontrol hthread =>
      rcases step_of_call_hears hrunning hnext heffect setup with
        ⟨r, b, hleft, hhears⟩ | ⟨e, hentering, -⟩
      · exact .refuse hrunning hnext hcontrol hthread hhears
      · cases hcontrol.symm.trans hentering
  | @resume f cs v hresumes hcontrol hthread =>
      obtain ⟨f₀, hactive, hgoes⟩ := hresumes.active
      refine .goOn hactive hcontrol ⟨hgoes.scope, hgoes.nesting, hgoes.call⟩
        (congrArg Thread.standing hthread) ?_ ?_
      · cases hresumes with
        | value hleaving =>
            intro module kind
            rw [begins?_of_leaving hleaving]
            rfl
        | consume hends hverdict => exact hends.callEvents_eq
      · cases hresumes with
        | value hleaving =>
            simp only [step, hleaving]
            exact .refl m.record
        | consume hends hverdict => exact hends.hears_nothing (Or.inl ⟨v, hverdict⟩) setup
  | @handle f cs s handled pc hends hverdict hcontrol hthread =>
      obtain ⟨f₀, hactive, hgoes⟩ := hends.active
      exact .goOn hactive hcontrol ⟨hgoes.scope, hgoes.nesting, hgoes.call⟩
        (congrArg Thread.standing hthread) hends.callEvents_eq
        (hends.hears_nothing (Or.inr ⟨pc, handled, hverdict⟩) setup)
  | @leave f cs r result hleaves hresult hcontrol hthread =>
      obtain ⟨f₀, hactive, hgoes⟩ := hleaves.active
      obtain ⟨before, -, hquiet, hstep⟩ := hleaves.step_eq_leaveFrame setup
      refine .leave hactive hcontrol (hthread.trans (hgoes.restore_eq _)) hleaves.callEvents_eq ?_
      rw [hstep, ← hgoes.call]
      simpa using hquiet.trans (before.leaveFrame_hears setup f cs r)
  | stop hleaving hsame => exact .stop (active_of_leaving hleaving) hsame

/-- The program keeps its module in a step. -/
theorem Machine.step_module (setup : Setup) (m : Machine) :
    (m.step setup).record.module = m.record.module := by
  cases m.step_account setup with
  | goOn _ _ _ _ _ hhears => exact hhears.module_eq
  | enter _ _ _ _ _ _ hhears => exact hhears.module_eq
  | refuse _ _ _ _ hhears => exact hhears.module_eq
  | leave _ _ _ _ hhears => exact hhears.module_eq
  | stop _ hsame => rw [hsame]

/-! ## The root -/

theorem Record.initRootModule_spec (r : Record) :
    (r.initRootModule .object).1 = r.module ∧ (r.initRootModule .object).2.module = r.module ∧
      (r.initRootModule .object).2.heard = r.heard := by
  cases hgiven : r.rootModule with
  | none => simp [initRootModule, setRootModule, module, hgiven]
  | some given => simp [initRootModule, setRootModule, module, hgiven]

/-- Nothing is heard of the root, whose frame belongs to a call without a name. -/
theorem Setup.runRoot_hears (setup : Setup) (receiver : Value) (thread : Thread)
    (record : Record) :
    (setup.runRoot receiver thread record).record.heard = record.heard ∧
      (setup.runRoot receiver thread record).record.module = record.module := by
  obtain ⟨-, hmodule, hheard⟩ := record.initRootModule_spec
  have hquiet : (record.initRootModule .object).2.Hears []
      (setup.runRoot receiver thread record).record := by
    rcases (Machine.idle receiver thread (record.initRootModule .object).2
        (.fresh .method [])).enterMethod_hears setup setup.program.root (.fresh .method []) ""
        (record.initRootModule .object).1 false [] with
      ⟨r, b, -, hhears⟩ | ⟨g, -, -, hhears⟩
    · rw [Setup.events_of_untraced rfl, Setup.events_of_untraced rfl] at hhears
      exact hhears
    · rw [Setup.events_of_untraced rfl] at hhears
      exact hhears
  exact ⟨hquiet.heard.trans hheard, hquiet.module_eq.trans hmodule⟩

/-- The program keeps its module throughout a run. -/
theorem Setup.runRoot_module (setup : Setup) (receiver : Value) (thread : Thread)
    (record : Record) (n : Nat) :
    ((setup.runRoot receiver thread record).advance setup n).record.module = record.module := by
  induction n with
  | zero => exact (setup.runRoot_hears receiver thread record).2
  | succ n ih => rw [Machine.advance_succ, Machine.step_module, ih]

end Unwind
