import Unwind.Proofs.Brackets

/-!
The trace against the backtrace.

Whether a call of a method is heard does not depend on the name of the method, but only a call with
a name gets an entry in the backtrace.  So the backtrace lists the open calls of the trace that
have a name, and it lists all of them exactly as long as no method without a name is active.
-/

namespace Unwind

variable {setup : Setup}

/-! ## Names -/

/-- Whether the method of an event has a name. -/
def Event.isNamed (e : Event) : Bool := !e.method.isEmpty

/-- The method that an event is about. -/
def Event.called (e : Event) : Module × String := (e.module, e.method)

/-- The method that an entry of the backtrace is about. -/
def TraceFrame.called (f : TraceFrame) : Module × String := (f.module, f.method)

/-- The event of the call that an event is about. -/
def Event.begun (e : Event) : Event := { e with kind := .call }

/-- No call is open, and none is closed, that has not been begun. -/
theorem begun_mem_of_openCalls {es calls : List Event} (hopen : openCalls es = some calls) :
    (∀ c ∈ calls, c ∈ es) ∧ ∀ e ∈ es, e.begun ∈ es := by
  induction es generalizing calls with
  | nil =>
      cases hopen
      exact ⟨List.forall_mem_nil _, List.forall_mem_nil _⟩
  | cons e earlier ih =>
      obtain ⟨before, hbefore, hafter⟩ := Option.bind_eq_some_iff.mp hopen
      obtain ⟨hopened, hbegun⟩ := ih hbefore
      have hlater {x : Event} (hx : x ∈ earlier) : x ∈ e :: earlier := List.mem_cons_of_mem e hx
      obtain ⟨kind, method, module⟩ := e
      cases kind with
      | call =>
          cases hafter
          constructor
          · intro c hc
            rcases List.mem_cons.mp hc with rfl | hc
            · exact List.mem_cons_self
            · exact hlater (hopened c hc)
          · intro x hx
            rcases List.mem_cons.mp hx with rfl | hx
            · exact List.mem_cons_self
            · exact hlater (hbegun x hx)
      | ret =>
          cases before with
          | nil => cases hafter
          | cons c rest =>
              simp only [Event.after?, Option.ite_none_right_eq_some, Option.some.injEq] at hafter
              obtain ⟨rfl, rfl⟩ := hafter
              obtain ⟨hclosed, hrest⟩ := List.forall_mem_cons.mp hopened
              constructor
              · intro c hc
                exact hlater (hrest c hc)
              · intro x hx
                rcases List.mem_cons.mp hx with rfl | hx
                · exact hlater hclosed
                · exact hlater (hbegun x hx)

/-! ## Calls without a name -/

/-- The next step calls a method that has no name. -/
def Machine.CallsUnnamed (p : Program) (m : Machine) : Prop :=
  ∃ id args dst s, m.begins? = some (.callMethod id args dst) ∧ p.scope? id = some s ∧
    s.name.isEmpty = true

/-- What is heard when an instruction is begun has a name unless it calls a method without one. -/
theorem Machine.callEvents_named_iff (htraces : setup.settings.traceCalls = true)
    (hlistens : setup.listens = true) (m : Machine) (module : Module) :
    (∀ e ∈ setup.callEvents module .call m.begins?, e.isNamed = true) ↔
      ¬ m.CallsUnnamed setup.program := by
  have hsilent (hother : ∀ id args dst, m.begins? ≠ some (.callMethod id args dst)) :
      ¬ m.CallsUnnamed setup.program := by
    rintro ⟨id, args, dst, s, hbegins, -, -⟩
    exact hother id args dst hbegins
  cases hbegins : m.begins? with
  | none => simpa [Setup.callEvents] using hsilent (by simp [hbegins])
  | some i =>
      cases i with
      | callMethod id args dst =>
          cases hscope : setup.program.scope? id with
          | none => simp [Setup.callEvents, CallsUnnamed, hbegins, hscope]
          | some s =>
              simp [Setup.callEvents, CallsUnnamed, hbegins, hscope, htraces, hlistens,
                Event.isNamed]
      | _ => simpa [Setup.callEvents] using hsilent (by simp [hbegins])

/-- What is heard of a call is of the kind that is asked for. -/
theorem Setup.kind_of_callEvents {module : Module} {kind : EventKind} {i : Option Instr}
    {e : Event} (he : e ∈ setup.callEvents module kind i) : e.kind = kind := by
  unfold callEvents at he
  split at he
  · split at he
    · split at he
      · rw [List.mem_singleton.mp he]
      · cases he
    · cases he
  · cases he

/-- The calls that a run is heard to begin have names as long as the run calls no method without
one. -/
theorem Setup.runRoot_calls_named_iff (htraces : setup.settings.traceCalls = true)
    (hlistens : setup.listens = true) (receiver : Value) (thread : Thread) (record : Record)
    {n : Nat} {es : List Event}
    (hheard : ((setup.runRoot receiver thread record).advance setup n).record.heard =
      es ++ record.heard) :
    (∀ e ∈ es, e.kind = .call → e.isNamed = true) ↔
      ∀ k < n, ¬ ((setup.runRoot receiver thread record).advance setup k).CallsUnnamed
        setup.program := by
  induction n generalizing es with
  | zero =>
      have hnone : [] ++ record.heard = es ++ record.heard :=
        (setup.runRoot_hears receiver thread record).1.symm.trans hheard
      rw [← List.append_cancel_right hnone]
      simp
  | succ n ih =>
      obtain ⟨earlier, hearlier, -⟩ := setup.runRoot_openFrom receiver thread record n
      rw [setup.runRoot_heard_succ, hearlier, ← List.append_assoc, ← List.append_assoc] at hheard
      have hbegins := Machine.callEvents_named_iff htraces hlistens
        ((setup.runRoot receiver thread record).advance setup n) record.module
      rw [← List.append_cancel_right hheard, Nat.forall_lt_succ_right, ← ih hearlier, ← hbegins]
      constructor
      · intro hnamed
        constructor
        · intro e he
          exact hnamed e (by simp [he])
        · intro e he
          exact hnamed e (by simp [he]) (kind_of_callEvents he)
      · rintro ⟨hbefore, hnow⟩ e he hkind
        rcases List.mem_append.mp he with he | he
        · rcases List.mem_append.mp he with hends | hbegun
          · cases (kind_of_callEvents hends).symm.trans hkind
          · exact hnow e hbegun
        · exact hbefore e he hkind

/-! ## The backtrace -/

/-- If calls are traced, the entries that frames have put into the backtrace are those of the
calls that were heard when the frames were entered, as far as these have names. -/
theorem Machine.Tower.backtrace_called {m : Machine} {base t : Thread} {module : Module} {n : Nat}
    {fs : List Frame} (htraces : setup.settings.traceCalls = true)
    (hlistens : setup.listens = true) (htower : m.Tower setup base module n fs t) :
    t.backtrace.map TraceFrame.called =
      ((setup.entryEvents fs).filter Event.isNamed).map Event.called ++
        base.backtrace.map TraceFrame.called := by
  induction htower with
  | empty hsame =>
      rw [(Thread.eq_of_standing hsame).2.1]
      rfl
  | root hscope hcall hmethod htraceable hover hdepth hsame =>
      rw [(Thread.eq_of_standing hsame).2.1, Setup.entryEvents_cons, hcall,
        Setup.events_of_untraced htraceable]
      cases hover with
      | bare hid hnone hnesting => cases hnone.symm.trans hcall
      | method hid hsome hnesting hdepths htraces =>
          obtain rfl := Option.some.inj (hsome.symm.trans hcall)
          simp [Thread.pushMethod, hmethod, Thread.pushCall, Setup.entryEvents]
  | call hbegan hbelow hentered hover hdepth hsame ih =>
      rw [(Thread.eq_of_standing hsame).2.1, Setup.entryEvents_cons]
      cases hover with
      | bare hid hnone hnesting =>
          rw [hnone]
          exact ih
      | @method id c hid hsome hnesting hdepths htraces' =>
          cases hentered with
          | closure hscope hcall => cases hsome.symm.trans hcall
          | method hscope hcall hmethod hmodule htraceable =>
              obtain rfl := Option.some.inj (hsome.symm.trans hcall)
              rw [hsome]
              by_cases hunnamed : c.method.isEmpty = true
              · simp [Thread.pushMethod, hunnamed, Thread.pushCall, Setup.events, htraceable,
                  htraces, hlistens, Event.isNamed, ih]
              · simp [Thread.pushMethod, hunnamed, Thread.pushCall, Thread.pushTrace,
                  Setup.events, htraceable, htraces, hlistens, Event.isNamed, Event.called,
                  TraceFrame.called, ih]

/-- The calls that events leave open have names throughout exactly if leaving out the ones without
a name changes nothing. -/
theorem named_called_eq_iff (calls : List Event) :
    calls.map Event.called = (calls.filter Event.isNamed).map Event.called ↔
      ∀ c ∈ calls, c.isNamed = true := by
  constructor
  · intro hsame
    have hlength := congrArg List.length hsame
    rw [List.length_map, List.length_map] at hlength
    exact List.length_filter_eq_length_iff.mp hlength.symm
  · intro hnamed
    rw [List.filter_eq_self.mpr hnamed]

/-- If calls are traced and an observer listens, the events of a run have names exactly as long as
the run calls no method without a name.  The backtrace lists the calls that the events leave open
without those that have no name, so that it lists all of them exactly if each has a name. -/
theorem trace_matches_backtrace_iff_named (htraces : setup.settings.traceCalls = true)
    (hlistens : setup.listens = true) (receiver : Value) (file : String) (record : Record)
    (n : Nat) :
    ∃ es calls,
      ((setup.runRoot receiver (.fresh file) record).advance setup n).record.heard =
        es ++ record.heard ∧
      openCalls es = some calls ∧
      ((∀ e ∈ es, e.isNamed = true) ↔
        ∀ k < n, ¬ ((setup.runRoot receiver (.fresh file) record).advance setup k).CallsUnnamed
          setup.program) ∧
      ((setup.runRoot receiver (.fresh file) record).advance setup n).thread.backtrace.map
        TraceFrame.called = (calls.filter Event.isNamed).map Event.called ∧
      (calls.map Event.called =
          ((setup.runRoot receiver (.fresh file) record).advance setup n).thread.backtrace.map
            TraceFrame.called ↔
        ∀ c ∈ calls, c.isNamed = true) := by
  obtain ⟨es, hheard, hopen⟩ := setup.runRoot_openFrom receiver (.fresh file) record n
  have hcalls := setup.runRoot_calls_named_iff htraces hlistens receiver (.fresh file) record hheard
  have htower := setup.runRoot_tower receiver (.fresh file) record n
  have hbacktrace := htower.backtrace_called htraces hlistens
  rw [show (Thread.fresh file).backtrace = [] from rfl, List.map_nil, List.append_nil]
    at hbacktrace
  refine ⟨es, _, hheard, hopen, ?_, hbacktrace, ?_⟩
  · rw [← hcalls]
    constructor
    · intro hnamed e he _
      exact hnamed e he
    · intro hnamed e he
      -- a return is named like the call that it ends
      exact hnamed e.begun ((begun_mem_of_openCalls hopen).2 e he) rfl
  · rw [hbacktrace]
    exact named_called_eq_iff _

namespace NamedCallsWitness

/-- A script that calls a method; this calls one that has no name. -/
def listing : Listing where
  name := "unnaming"
  root := 0
  scopes := [
    ⟨"<main>", .script, none, [.instr (.callMethod ⟨1⟩ [] none)], []⟩,
    ⟨"work", .method, none, [.instr (.callMethod ⟨2⟩ [] none)], []⟩,
    ⟨"", .method, none, [.instr (.line 7)], []⟩]

def unnaming : Setup where
  program :=
    { name := "unnaming"
      root := ⟨0⟩
      scopes := #[
        ⟨⟨0⟩, "<main>", .script, none, ⟨#[.callMethod ⟨1⟩ [] none], [], []⟩⟩,
        ⟨⟨1⟩, "work", .method, none, ⟨#[.callMethod ⟨2⟩ [] none], [], []⟩⟩,
        ⟨⟨2⟩, "", .method, none, ⟨#[.line 7], [], []⟩⟩] }
  settings := { traceCalls := true }
  observer := some .recorder

def run (n : Nat) : Machine := (unnaming.runRoot .nil (.fresh "-") {}).advance unnaming n

theorem unnaming_listed : unnaming.program.Listed := ⟨listing, rfl⟩

/-- While the named method runs alone, the open call is the one entry of the backtrace.  Then the
method without a name is called, and the backtrace has only the other one of the open calls. -/
theorem trace_matches_backtrace_in_work :
    unnaming.settings.traceCalls = true ∧ unnaming.listens = true ∧
    (∃ es calls, (run 1).record.heard = es ++ [] ∧ openCalls es = some calls ∧
      (∀ e ∈ es, e.isNamed = true) ∧
      calls.map Event.called = (run 1).thread.backtrace.map TraceFrame.called ∧
      calls = [⟨.call, "work", .object⟩]) ∧
    ∃ es calls, (run 2).record.heard = es ++ [] ∧ openCalls es = some calls ∧
      (run 1).CallsUnnamed unnaming.program ∧ (¬ ∀ e ∈ es, e.isNamed = true) ∧
      (run 2).thread.backtrace.map TraceFrame.called =
        (calls.filter Event.isNamed).map Event.called ∧
      calls = [⟨.call, "", .object⟩, ⟨.call, "work", .object⟩] := by
  obtain ⟨es, calls, hheard, hopen, hnamed, -, hall⟩ :=
    @trace_matches_backtrace_iff_named unnaming rfl rfl .nil "-" {} 1
  have hes : [⟨.call, "work", .object⟩] ++ [] = es ++ [] := hheard
  have hcalls := hopen
  rw [← List.append_cancel_right hes] at hcalls
  obtain rfl : [⟨.call, "work", .object⟩] = calls := Option.some.inj hcalls
  obtain ⟨fs, others, hheard', hopen', hnamed', hbacktrace, -⟩ :=
    @trace_matches_backtrace_iff_named unnaming rfl rfl .nil "-" {} 2
  have hfs : [⟨.call, "", .object⟩, ⟨.call, "work", .object⟩] ++ [] = fs ++ [] := hheard'
  have hothers := hopen'
  rw [← List.append_cancel_right hfs] at hothers
  have hunnamed : (run 1).CallsUnnamed unnaming.program := ⟨_, _, _, _, rfl, rfl, rfl⟩
  refine ⟨rfl, rfl, ⟨es, _, hheard, hopen, ?_, hall.mpr (by decide), rfl⟩,
    fs, others, hheard', hopen', hunnamed, ?_, hbacktrace, (Option.some.inj hothers).symm⟩
  · rw [← List.append_cancel_right hes]
    decide
  · intro hevents
    exact hnamed'.mp hevents 1 (Nat.lt_succ_self 1) hunnamed

/-- The call of a method without a name is heard, and while an instruction of the method is
executed, its call is open and not in the backtrace. -/
theorem unnamed_call_traced :
    unnaming.program.Listed ∧ unnaming.settings.traceCalls = true ∧
    unnaming.observer = some .recorder ∧
    ∃ f i e calls, (run 2).executing? = some (f, i) ∧ e ∈ (run 2).record.heard ∧ e.method = "" ∧
      openCalls (run 2).record.heard = some calls ∧
      calls.map Event.called ≠ (run 2).thread.backtrace.map TraceFrame.called := by
  refine ⟨unnaming_listed, rfl, rfl, _, _, ⟨.call, "", .object⟩, _, rfl, ?_, rfl, rfl, ?_⟩
  · exact List.mem_cons_self
  · decide

end NamedCallsWitness

end Unwind
