import Unwind.Proofs.StackMirror

/-!
Trace events bracket the calls.

What observers hear are brackets around the invocations of methods: a call event when one begins
and the return event that matches it when it ends, however it ends.  At any time the events leave
open just the invocations that are active, and when a run stops they are properly nested.
-/

namespace Unwind

variable {setup : Setup}

/-! ## Brackets -/

/-- What an event makes of the calls that are open, innermost first: a call is opened, and a return
closes the innermost one, if this is the call of the same method. -/
def Event.after? (e : Event) (calls : List Event) : Option (List Event) :=
  match e.kind, calls with
  | .call, calls => some (e :: calls)
  | .ret, [] => none
  | .ret, c :: rest => if c = { e with kind := .call } then some rest else none

/-- The calls that events leave open, if no return is without its call.  The latest event is the
first one. -/
def openCalls : List Event → Option (List Event)
  | [] => some []
  | e :: earlier => (openCalls earlier).bind e.after?

/-- Properly nested brackets, in the order of time. -/
inductive Bracketed : List Event → Prop
  | nil : Bracketed []
  | call {method : String} {module : Module} {inner rest : List Event}
      (hinner : Bracketed inner) (hrest : Bracketed rest) :
      Bracketed (⟨.call, method, module⟩ :: (inner ++ ⟨.ret, method, module⟩ :: rest))

theorem Bracketed.append {es fs : List Event} (hes : Bracketed es) (hfs : Bracketed fs) :
    Bracketed (es ++ fs) := by
  induction hes with
  | nil => exact hfs
  | call hinner hrest ihinner ihrest =>
      rw [List.cons_append, List.append_assoc, List.cons_append]
      exact .call hinner ihrest

/-- Brackets that are open, innermost first, in events in the order of time: between and behind
them stand proper ones. -/
inductive Bracketed.Leaves : List Event → List Event → Prop
  | closed {es : List Event} (hes : Bracketed es) : Leaves [] es
  | call {calls es inner : List Event} {method : String} {module : Module}
      (hes : Leaves calls es) (hinner : Bracketed inner) :
      Leaves (⟨.call, method, module⟩ :: calls) (es ++ ⟨.call, method, module⟩ :: inner)

theorem Bracketed.Leaves.append {calls es fs : List Event} (hes : Leaves calls es)
    (hfs : Bracketed fs) : Leaves calls (es ++ fs) := by
  cases hes with
  | closed hclosed => exact .closed (hclosed.append hfs)
  | call hopen hinner =>
      rw [List.append_assoc, List.cons_append]
      exact .call hopen (hinner.append hfs)

theorem Bracketed.leaves_of_openCalls {es calls : List Event}
    (hopen : openCalls es = some calls) : Leaves calls es.reverse := by
  induction es generalizing calls with
  | nil =>
      cases hopen
      exact .closed .nil
  | cons e earlier ih =>
      obtain ⟨before, hbefore, hafter⟩ := Option.bind_eq_some_iff.mp hopen
      have hearlier := ih hbefore
      rw [List.reverse_cons]
      obtain ⟨kind, method, module⟩ := e
      cases kind with
      | call =>
          cases hafter
          exact .call hearlier .nil
      | ret =>
          cases before with
          | nil => cases hafter
          | cons c rest =>
              simp only [Event.after?, Option.ite_none_right_eq_some, Option.some.injEq] at hafter
              obtain ⟨rfl, rfl⟩ := hafter
              -- the return closes the innermost open call
              generalize earlier.reverse = ordered at hearlier
              cases hearlier with
              | @call _ es inner _ _ hes hinner =>
                  have hpair := hes.append (@Bracketed.call method module inner [] hinner .nil)
                  simpa using hpair

theorem Bracketed.openCalls_eq {es : List Event} (hes : Bracketed es) {earlier calls : List Event}
    (hopen : openCalls earlier = some calls) :
    openCalls (es.reverse ++ earlier) = some calls := by
  induction hes generalizing earlier calls with
  | nil => exact hopen
  | @call method module inner rest hinner hrest ihinner ihrest =>
      have hcalled : openCalls (⟨.call, method, module⟩ :: earlier) =
          some (⟨.call, method, module⟩ :: calls) := by
        rw [openCalls, hopen]
        rfl
      have hreturned : openCalls (⟨.ret, method, module⟩ ::
          (inner.reverse ++ ⟨.call, method, module⟩ :: earlier)) = some calls := by
        rw [openCalls, ihinner hcalled]
        simp [Event.after?]
      have hall := ihrest hreturned
      simpa using hall

/-- Events leave no call open exactly if they are properly nested. -/
theorem openCalls_eq_nil_iff {es : List Event} : openCalls es = some [] ↔ Bracketed es.reverse := by
  constructor
  · intro hopen
    have hleaves := Bracketed.leaves_of_openCalls hopen
    generalize es.reverse = ordered at hleaves
    cases hleaves with
    | closed hclosed => exact hclosed
  · intro hes
    have hopen := hes.openCalls_eq (show openCalls [] = some [] from rfl)
    rwa [List.reverse_reverse, List.append_nil] at hopen

example : openCalls [⟨.ret, "g", .object⟩, ⟨.call, "g", .object⟩, ⟨.call, "f", .object⟩] =
    some [⟨.call, "f", .object⟩] := by decide

/-! ## Calls that are open in a run -/

/-- What is heard of a call when it begins and when it ends: nothing, or the two events of a
bracket. -/
inductive Bracket (heard : EventKind → List Event) : Prop
  | silent (hnone : ∀ kind, heard kind = [])
  | pair {method : String} {module : Module}
      (hboth : ∀ kind, heard kind = [⟨kind, method, module⟩])

theorem Bracket.openCalls_begin {heard : EventKind → List Event} (hbracket : Bracket heard)
    {es calls : List Event} (hopen : openCalls es = some calls) :
    openCalls (heard .call ++ es) = some (heard .call ++ calls) := by
  cases hbracket with
  | silent hnone => simpa [hnone] using hopen
  | pair hboth => simp [hboth, openCalls, hopen, Event.after?]

theorem Bracket.openCalls_end {heard : EventKind → List Event} (hbracket : Bracket heard)
    {es calls : List Event} (hopen : openCalls es = some (heard .call ++ calls)) :
    openCalls (heard .ret ++ es) = some calls := by
  cases hbracket with
  | silent hnone => simpa [hnone] using hopen
  | pair hboth =>
      rw [hboth] at hopen
      simp [hboth, openCalls, hopen, Event.after?]

theorem Bracket.of_heard (heard : Bool) (method : String) (module : Module) :
    Bracket fun kind => if heard then [⟨kind, method, module⟩] else [] := by
  cases heard with
  | false => exact .silent fun _ => rfl
  | true => exact .pair fun _ => rfl

theorem Setup.events_bracket (setup : Setup) (call : Option MethodCall) :
    Bracket (setup.events · call) := by
  cases call with
  | none => exact .silent fun _ => rfl
  | some c => exact .of_heard (c.traceable && setup.listens) c.method c.module

theorem Setup.callEvents_bracket (setup : Setup) (module : Module) (i : Option Instr) :
    Bracket (setup.callEvents module · i) := by
  cases i with
  | none => exact .silent fun _ => rfl
  | some i =>
      cases i with
      | callMethod id args dst =>
          cases hscope : setup.program.scope? id with
          | none =>
              simp only [callEvents, hscope]
              exact .silent fun _ => rfl
          | some s =>
              simp only [callEvents, hscope]
              exact .of_heard (setup.settings.traceCalls && setup.listens) s.name module
      | _ => exact .silent fun _ => rfl

/-- What was heard when the frames were entered. -/
def Setup.entryEvents (setup : Setup) (fs : List Frame) : List Event :=
  fs.flatMap fun f => setup.events .call f.call

theorem Setup.entryEvents_cons (setup : Setup) (f : Frame) (fs : List Frame) :
    setup.entryEvents (f :: fs) = setup.events .call f.call ++ setup.entryEvents fs :=
  List.flatMap_cons

/-- The calls that the events leave open are those of the active frames. -/
def Machine.OpenFrom (setup : Setup) (base : List Event) (m : Machine) : Prop :=
  ∃ es, m.record.heard = es ++ base ∧ openCalls es = some (setup.entryEvents m.active)

theorem Machine.OpenFrom.step {m : Machine} {base : List Event} (hopen : m.OpenFrom setup base) :
    (m.step setup).OpenFrom setup base := by
  obtain ⟨es, hheard, hcalls⟩ := hopen
  have hadds {fs : List Event} (hhears : m.record.Hears fs (m.step setup).record) :
      (m.step setup).record.heard = (fs ++ es) ++ base := by
    rw [hhears.heard, hheard, List.append_assoc]
  cases m.step_account setup with
  | goOn hactive hcontrol hsame hthread hidle hhears =>
      refine ⟨es, hadds hhears, ?_⟩
      rw [hactive, Setup.entryEvents_cons] at hcalls
      rw [active_of_running hcontrol, Setup.entryEvents_cons, hsame.call]
      exact hcalls
  | @enter f g cs i hrunning hnext hcontrol hentered hover hdepth hhears =>
      refine ⟨_, hadds hhears, ?_⟩
      rw [active_of_running hrunning] at hcalls
      rw [active_of_running hcontrol, Setup.entryEvents_cons, hentered.events_eq]
      exact (setup.callEvents_bracket _ (some i)).openCalls_begin hcalls
  | @refuse f cs i r a hrunning hnext hcontrol hthread hhears =>
      refine ⟨_, hadds hhears, ?_⟩
      rw [active_of_running hrunning] at hcalls
      rw [active_of_leaving hcontrol, List.append_assoc]
      -- the bracket of a refused call closes at once
      have hbracket := setup.callEvents_bracket m.record.module (some i)
      exact hbracket.openCalls_end (hbracket.openCalls_begin hcalls)
  | @leave f cs r a hactive hcontrol hthread hidle hhears =>
      refine ⟨_, hadds hhears, ?_⟩
      rw [hactive, Setup.entryEvents_cons] at hcalls
      rw [active_of_leaving hcontrol]
      exact (setup.events_bracket f.call).openCalls_end hcalls
  | stop hactive hsame =>
      rw [hsame]
      exact ⟨es, hheard, hcalls⟩

theorem Setup.runRoot_openFrom (setup : Setup) (receiver : Value) (thread : Thread)
    (record : Record) (n : Nat) :
    ((setup.runRoot receiver thread record).advance setup n).OpenFrom setup record.heard := by
  induction n with
  | zero =>
      refine ⟨[], (setup.runRoot_hears receiver thread record).1, ?_⟩
      have htower := setup.runRoot_tower receiver thread record 0
      rw [Machine.advance] at htower ⊢
      rcases setup.runRoot_cases receiver thread record with
        ⟨s, a, -, hcontrol⟩ | ⟨scope, nesting, call, -, hcontrol⟩
      · rw [Machine.active_of_leaving hcontrol]
        rfl
      · rw [Machine.active_of_running hcontrol] at htower ⊢
        cases htower with
        | root hscope hcall hmethod htraceable hover hdepth hsame =>
            rw [Setup.entryEvents_cons, hcall, Setup.events_of_untraced htraceable]
            rfl
  | succ n ih =>
      rw [Machine.advance_succ]
      exact ih.step

/-- The event of an invocation. -/
def Invoked.event (module : Module) (kind : EventKind) (c : Invoked) : Event where
  kind := kind
  method := c.scope.name
  module := module

/-- If calls are traced, each invocation of a method among the frames was heard when it began, and
nothing else was. -/
theorem Machine.Tower.entryEvents_eq {m : Machine} {base t : Thread} {module : Module} {n : Nat}
    {f : Frame} {fs : List Frame} (htraces : setup.settings.traceCalls = true)
    (hlistens : setup.listens = true) (htower : m.Tower setup base module n (f :: fs) t) :
    ∃ calls, m.Invocations setup n (f :: fs) calls ∧
      setup.entryEvents (f :: fs) = calls.map (Invoked.event module .call) := by
  generalize hframes : f :: fs = frames at htower
  induction htower generalizing f fs with
  | empty hsame => cases hframes
  | root hscope hcall hmethod htraceable hover hdepth hsame =>
      refine ⟨[], .root, ?_⟩
      rw [Setup.entryEvents_cons, hcall, Setup.events_of_untraced htraceable]
      rfl
  | call hbegan hbelow hentered hover hdepth hsame ih =>
      obtain ⟨calls, hcalls, hevents⟩ := ih rfl
      rw [Setup.entryEvents_cons, hentered.events_eq, hevents]
      cases hentered with
      | @method id args dst c hscope hcall hmethod hmodule htraceable =>
          refine ⟨_, .method hbegan hcalls, ?_⟩
          simp [Setup.callEvents, hscope, htraces, hlistens, Invoked.event]
      | closure hscope hcall => exact ⟨calls, .closure hbegan hcalls, rfl⟩

/-! ## Events of single steps -/

/-- What is heard of the call that an instruction makes, when it begins or ends, if calls of
methods are traced. -/
def Program.methodEvents (p : Program) (module : Module) (kind : EventKind) :
    Option Instr → List Event
  | some (.callMethod id _ _) => [⟨kind, (p.scope? id).elim "" Scope.name, module⟩]
  | _ => []

theorem Setup.callEvents_of_traced (htraces : setup.settings.traceCalls = true)
    (hlistens : setup.listens = true) {i : Option Instr}
    (hfound : ∀ id args dst, i = some (.callMethod id args dst) →
      ∃ s, setup.program.scope? id = some s) (module : Module) (kind : EventKind) :
    setup.callEvents module kind i = setup.program.methodEvents module kind i := by
  cases i with
  | none => rfl
  | some i =>
      cases i with
      | callMethod id args dst =>
          obtain ⟨s, hs⟩ := hfound id args dst rfl
          simp [callEvents, Program.methodEvents, hs, htraces, hlistens]
      | _ => rfl

theorem Setup.callEvents_of_untraced
    (hsilent : setup.settings.traceCalls = false ∨ setup.listens = false) (module : Module)
    (kind : EventKind) (i : Option Instr) : setup.callEvents module kind i = [] := by
  have hnone : (setup.settings.traceCalls && setup.listens) = false := by
    rcases hsilent with hoff | hdeaf
    · rw [hoff, Bool.false_and]
    · rw [hdeaf, Bool.and_false]
  unfold callEvents
  split
  · split
    · rw [hnone]
      rfl
    · rfl
  · rfl

/-- In a step of a run it is heard that the call begins which the step makes, and that the call
has ended which the step completes. -/
theorem Setup.runRoot_heard_succ (setup : Setup) (receiver : Value) (thread : Thread)
    (record : Record) (n : Nat) :
    ((setup.runRoot receiver thread record).advance setup (n + 1)).record.heard =
      setup.callEvents record.module .ret
          ((setup.runRoot receiver thread record).advance setup (n + 1)).completes? ++
        (setup.callEvents record.module .call
            ((setup.runRoot receiver thread record).advance setup n).begins? ++
          ((setup.runRoot receiver thread record).advance setup n).record.heard) := by
  have htower := setup.runRoot_tower receiver thread record n
  have hmodule := setup.runRoot_module receiver thread record n
  have haccount :=
    ((setup.runRoot receiver thread record).advance setup n).step_account setup
  rw [← Machine.advance_succ] at haccount
  cases haccount with
  | goOn hactive hcontrol hsame hthread hidle hhears =>
      rw [hhears.heard, Machine.completes?_of_running hcontrol, hidle]
      rfl
  | enter hrunning hnext hcontrol hentered hover hdepth hhears =>
      rw [hhears.heard, Machine.completes?_of_running hcontrol,
        Machine.begins?_of_running hrunning hnext, hmodule]
      rfl
  | refuse hrunning hnext hcontrol hthread hhears =>
      rw [hhears.heard, Machine.completes?_of_leaving hcontrol,
        Machine.begins?_of_running hrunning hnext, hmodule, List.append_assoc]
      rfl
  | @leave f cs r a hactive hcontrol hthread hidle hhears =>
      rw [hhears.heard, hidle, List.nil_append]
      rw [hactive] at htower
      cases htower with
      | root hscope hcall hmethod htraceable hover hdepth hsame =>
          -- the end of the root is not heard
          rw [hcall, Setup.events_of_untraced htraceable, Machine.completes?, hcontrol]
          rfl
      | call hbegan hbelow hentered hover hdepth hsame =>
          rw [Machine.completes?_of_leaving hcontrol, hentered.events_eq]
          rfl
  | stop hactive hsame =>
      obtain ⟨r, a, hcontrol⟩ := Machine.control_of_inactive hactive
      rw [hsame, Machine.begins?_of_leaving hcontrol, Machine.completes?, hcontrol]
      rfl

/-- The program has every method that a run calls. -/
theorem Setup.runRoot_called_scope? (hsound : setup.program.Sound) (receiver : Value)
    (thread : Thread) (record : Record) (n : Nat) {id : ScopeId} {args : List Operand}
    {dst : Option Reg}
    (hcalls : ((setup.runRoot receiver thread record).advance setup n).begins? =
        some (.callMethod id args dst) ∨
      ((setup.runRoot receiver thread record).advance setup n).completes? =
        some (.callMethod id args dst)) : ∃ s, setup.program.scope? id = some s := by
  have hfound {f : Frame}
      (hf : f ∈ ((setup.runRoot receiver thread record).advance setup n).active)
      (hinstr : .callMethod id args dst ∈ f.scope.code.instrs) :
      ∃ s, setup.program.scope? id = some s := by
    have hscope := setup.runRoot_scope? hsound receiver thread record n hf
    obtain ⟨s, hs, -⟩ := hsound.methods _ _ hscope id args dst hinstr
    exact ⟨s, hs⟩
  rcases hcalls with hbegins | hcompletes
  · obtain ⟨⟨f, i⟩, hexecuting, rfl⟩ := Option.map_eq_some_iff.mp hbegins
    obtain ⟨cs, hrunning, hnext⟩ := Machine.running_of_executing hexecuting
    exact hfound (Machine.mem_active_of_running hrunning) (Array.mem_of_getElem? hnext)
  · obtain ⟨r, a, g, cs, hcontrol, hlast⟩ := Machine.leaving_of_completes hcompletes
    have hwaiting : ((setup.runRoot receiver thread record).advance setup n).waiting =
        [] ++ g :: cs := Machine.waiting_of_leaving hcontrol
    obtain ⟨k, g₀, i, rfl, hbegan, -⟩ :=
      Machine.waiting_began (setup.runRoot_waiting receiver thread record) hwaiting
    obtain rfl := Option.some.inj hlast
    refine hfound (f := g₀.calling (.callMethod id args dst)) ?_
      (Array.mem_of_getElem? hbegan.next)
    rw [Machine.active_of_leaving hcontrol]
    exact List.mem_cons_self

/-! ## The trace -/

/-- What observers hear in a run of a program with the given module, in which calls are traced,
after they have heard the events `base`. -/
structure Machine.Traced (setup : Setup) (m : Machine) (module : Module) (base : List Event) :
    Prop where
  /-- That the root is called is not heard. -/
  start : m.record.heard = base
  /-- A step is heard to begin the call of the method that it calls, and to end the call of the
  method that returns with it or is refused. -/
  step : ∀ n, (m.advance setup (n + 1)).record.heard =
    setup.program.methodEvents module .ret (m.advance setup (n + 1)).completes? ++
      (setup.program.methodEvents module .call (m.advance setup n).begins? ++
        (m.advance setup n).record.heard)
  /-- The calls that the events leave open are the active invocations of methods. -/
  running : ∀ n, (m.advance setup n).active ≠ [] → ∃ es calls,
    (m.advance setup n).record.heard = es ++ base ∧
      m.Invocations setup n (m.advance setup n).active calls ∧
      openCalls es = some (calls.map (Invoked.event module .call))
  /-- When the run stops, the events are properly nested. -/
  stopped : ∀ o, m.Stops setup o → ∃ es, (o.ofRoot setup).record.heard = es ++ base ∧
    Bracketed es.reverse

theorem Outcome.ofRoot_heard (o : Outcome) (setup : Setup) :
    (o.ofRoot setup).record.heard = o.record.heard :=
  (o.record.noteIf_hears _ _).heard

/-- When a run stops, no call is open. -/
theorem Machine.OpenFrom.bracketed {m : Machine} {base : List Event}
    (hopen : m.OpenFrom setup base) {o : Outcome} (hstopped : m.outcome? = some o) :
    ∃ es, (o.ofRoot setup).record.heard = es ++ base ∧ Bracketed es.reverse := by
  obtain ⟨es, hheard, hcalls⟩ := hopen
  obtain ⟨⟨a, hcontrol⟩, -, hrecord⟩ := control_of_outcome hstopped
  rw [active_of_leaving hcontrol] at hcalls
  refine ⟨es, ?_, openCalls_eq_nil_iff.mp hcalls⟩
  rw [o.ofRoot_heard, hrecord, hheard]

theorem Setup.runRoot_heard_of_untraced
    (hsilent : setup.settings.traceCalls = false ∨ setup.listens = false) (receiver : Value)
    (thread : Thread) (record : Record) (n : Nat) :
    ((setup.runRoot receiver thread record).advance setup n).record.heard = record.heard := by
  induction n with
  | zero => exact (setup.runRoot_hears receiver thread record).1
  | succ n ih =>
      rw [setup.runRoot_heard_succ, callEvents_of_untraced hsilent, callEvents_of_untraced hsilent,
        ih]
      rfl

/-- If calls are traced and an observer listens, it hears brackets around the invocations of
methods, whether it fails or not, and else nothing. -/
theorem trace_events_bracket (hbuilt : setup.program.Built) (receiver : Value) (thread : Thread)
    (record : Record) :
    (setup.settings.traceCalls = true → setup.listens = true →
      (setup.runRoot receiver thread record).Traced setup record.module record.heard) ∧
    (setup.settings.traceCalls = false ∨ setup.listens = false →
      (∀ n, ((setup.runRoot receiver thread record).advance setup n).record.heard =
        record.heard) ∧
      ∀ o, (setup.runRoot receiver thread record).Stops setup o →
        (o.ofRoot setup).record.heard = record.heard) := by
  constructor
  · intro htraces hlistens
    have hfound (n : Nat) {id : ScopeId} {args : List Operand} {dst : Option Reg} :=
      @Setup.runRoot_called_scope? setup hbuilt.sound receiver thread record n id args dst
    refine ⟨(setup.runRoot_hears receiver thread record).1, ?_, ?_, ?_⟩
    · intro n
      rw [setup.runRoot_heard_succ, Setup.callEvents_of_traced htraces hlistens,
        Setup.callEvents_of_traced htraces hlistens]
      · intro id args dst hbegins
        exact hfound n (Or.inl hbegins)
      · intro id args dst hcompletes
        exact hfound (n + 1) (Or.inr hcompletes)
    · intro n hactive
      have htower := setup.runRoot_tower receiver thread record n
      obtain ⟨es, hheard, hopen⟩ := setup.runRoot_openFrom receiver thread record n
      obtain ⟨f, fs, hframes⟩ := List.exists_cons_of_ne_nil hactive
      rw [hframes] at htower hopen
      obtain ⟨calls, hcalls, hevents⟩ := htower.entryEvents_eq htraces hlistens
      rw [hevents] at hopen
      rw [← hframes] at hcalls
      exact ⟨es, calls, hheard, hcalls, hopen⟩
    · rintro o ⟨n, hstopped⟩
      exact (setup.runRoot_openFrom receiver thread record n).bracketed hstopped
  · intro hsilent
    have hquiet := setup.runRoot_heard_of_untraced hsilent receiver thread record
    refine ⟨hquiet, ?_⟩
    rintro o ⟨n, hstopped⟩
    obtain ⟨-, -, hrecord⟩ := Machine.control_of_outcome hstopped
    rw [o.ofRoot_heard, hrecord, hquiet n]

namespace BracketsWitness

/-- A script that calls a method; this calls a method which is barred, rescues the failure, and
then calls a method from a block, which is nested too deeply. -/
def listing : Listing where
  name := "bracketing"
  root := 0
  scopes := [
    ⟨"<main>", .script, none, [.instr (.callMethod ⟨1⟩ [] none)], []⟩,
    ⟨"work", .method, none,
      [.label ⟨0⟩, .instr (.callMethod ⟨2⟩ [] none), .label ⟨1⟩, .instr (.ret .nil none),
        .label ⟨2⟩, .instr (.callClosure ⟨3⟩ .block [] none)],
      [.rescuing ⟨0⟩ ⟨1⟩ ⟨2⟩]⟩,
    ⟨"barred", .method, none, [.instr (.ret .nil none)], []⟩,
    ⟨"block in work", .closure, some ⟨1⟩, [.instr (.callMethod ⟨4⟩ [] none)], []⟩,
    ⟨"inner", .method, none, [.instr (.ret .nil none)], []⟩]

/-- The script, while an observer answers the call of the barred method with a raise. -/
def bracketing (traceCalls : Bool) : Setup where
  program :=
    { name := "bracketing"
      root := ⟨0⟩
      scopes := #[
        ⟨⟨0⟩, "<main>", .script, none, ⟨#[.callMethod ⟨1⟩ [] none], [], []⟩⟩,
        ⟨⟨1⟩, "work", .method, none,
          ⟨#[.callMethod ⟨2⟩ [] none, .ret .nil none, .callClosure ⟨3⟩ .block [] none],
            [(⟨0⟩, 0), (⟨1⟩, 1), (⟨2⟩, 2)], [⟨0, 1, some 2, none⟩]⟩⟩,
        ⟨⟨2⟩, "barred", .method, none, ⟨#[.ret .nil none], [], []⟩⟩,
        ⟨⟨3⟩, "block in work", .closure, some ⟨1⟩, ⟨#[.callMethod ⟨4⟩ [] none], [], []⟩⟩,
        ⟨⟨4⟩, "inner", .method, none, ⟨#[.ret .nil none], [], []⟩⟩] }
  settings := { traceCalls := traceCalls, maxCallDepth := 3 }
  observer := some (.failing (· == ⟨.call, "barred", .object⟩) (.raise (.str "barred")))

def start (traceCalls : Bool) : Machine := (bracketing traceCalls).runRoot .nil (.fresh "-") {}

def brackets : List Event := [
  ⟨.call, "work", .object⟩,
  ⟨.call, "barred", .object⟩, ⟨.ret, "barred", .object⟩,
  ⟨.call, "inner", .object⟩, ⟨.ret, "inner", .object⟩,
  ⟨.ret, "work", .object⟩]

theorem bracketing_listed (traceCalls : Bool) : (bracketing traceCalls).program.Listed :=
  ⟨listing, rfl⟩

/-- The barred call and the one that is nested too deeply are in brackets, within those of the
method that ends in a fatal condition; its block is not heard.  While the block runs, only the
method is open.  If calls are not traced, the call is not barred and nothing is heard. -/
theorem trace_events_bracket_bracketing :
    (bracketing true).program.Listed ∧ (bracketing false).program.Listed ∧
    (∃ o, (start true).Stops (bracketing true) o ∧ o.result = .error .tooDeep ∧
      (o.ofRoot (bracketing true)).record.heard = brackets.reverse ∧ Bracketed brackets) ∧
    (∃ es calls, ((start true).advance (bracketing true) 4).record.heard = es ++ [] ∧
      (start true).Invocations (bracketing true) 4
        ((start true).advance (bracketing true) 4).active calls ∧
      openCalls es = some (calls.map (Invoked.event .object .call)) ∧
      calls.map (Invoked.event .object .call) = [⟨.call, "work", .object⟩]) ∧
    ∃ o, (start false).Stops (bracketing false) o ∧ o.result = .ok .nil ∧
      (o.ofRoot (bracketing false)).record.heard = [] := by
  have htraced := (trace_events_bracket (bracketing_listed true).built .nil (.fresh "-") {}).1
    rfl rfl
  have hstops : (start true).Stops (bracketing true) _ := ⟨8, rfl⟩
  obtain ⟨es, hheard, hnested⟩ := htraced.stopped _ hstops
  have hes : brackets.reverse ++ [] = es ++ [] := hheard
  rw [← List.append_cancel_right hes, List.reverse_reverse] at hnested
  obtain ⟨fs, calls, hsofar, hcalls, hopen⟩ := htraced.running 4 (List.cons_ne_nil _ _)
  have hfs : fs ++ [] = [⟨.ret, "barred", .object⟩, ⟨.call, "barred", .object⟩,
      ⟨.call, "work", .object⟩] ++ [] := hsofar.symm
  have hleft := hopen
  rw [List.append_cancel_right hfs] at hleft
  have hsilent := (trace_events_bracket (bracketing_listed false).built .nil (.fresh "-") {}).2
    (Or.inl rfl)
  have hends : (start false).Stops (bracketing false) _ := ⟨10, rfl⟩
  exact ⟨bracketing_listed true, bracketing_listed false, ⟨_, hstops, rfl, rfl, hnested⟩,
    ⟨fs, calls, hsofar, hcalls, hopen, (Option.some.inj hleft).symm⟩,
    _, hends, rfl, hsilent.2 _ hends⟩

end BracketsWitness

end Unwind
