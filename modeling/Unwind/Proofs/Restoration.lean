import Unwind.Proofs.Stack

/-!
Runs give their thread back.

However a run ends, with a value or with a signal, through refusals and failing observers, the
thread is what it was when the run began, in everything but the line.
-/

namespace Unwind

variable {setup : Setup}

theorem Setup.interpret_stackedOn (setup : Setup) (receiver : Value) (thread : Thread)
    (record : Record) (id : ScopeId) (a : Activation) :
    (setup.interpret receiver thread record id a).StackedOn setup.program thread [] := by
  rcases (Machine.idle receiver thread record a).enterScope_cases setup id a none [] with
    ⟨s, hrefuses, hcontrol, hthread⟩ | ⟨scope, hscope, hcontrol, hthread⟩
  · exact ⟨[], Machine.active_of_leaving hcontrol, .nil (congrArg Thread.standing hthread)⟩
  · refine ⟨[_], Machine.active_of_running hcontrol, ?_⟩
    refine .cons (.nil rfl) (.bare hscope rfl rfl) (congrArg Thread.standing hthread)

theorem Setup.invoke_stackedOn (setup : Setup) (receiver : Value) (thread : Thread)
    (record : Record) (id : ScopeId) (a : Activation) (method : String) (module : Module)
    (traceable : Bool) :
    (setup.invoke receiver thread record id a method module traceable).StackedOn
      setup.program thread [] := by
  rcases (Machine.idle receiver thread record a).enterMethod_cases setup id a method module
      traceable [] with
    ⟨s, hrefuses, hcontrol, hthread⟩ | ⟨scope, hscope, hcontrol, hthread⟩
  · exact ⟨[], Machine.active_of_leaving hcontrol, .nil (congrArg Thread.standing hthread)⟩
  · refine ⟨[_], Machine.active_of_running hcontrol, ?_⟩
    exact .cons (.nil rfl) (.method hscope rfl rfl rfl rfl) (congrArg Thread.standing hthread)

theorem Setup.runRoot_stackedOn (setup : Setup) (receiver : Value) (thread : Thread)
    (record : Record) :
    (setup.runRoot receiver thread record).StackedOn setup.program thread [] :=
  setup.invoke_stackedOn receiver thread _ _ _ _ _ _

/-- A run of the root is refused at once or begins in a frame of the root. -/
theorem Setup.runRoot_cases (setup : Setup) (receiver : Value) (thread : Thread)
    (record : Record) :
    (∃ s a, setup.Refuses s ∧
        (setup.runRoot receiver thread record).control = .leaving (.error s) a []) ∨
      ∃ scope nesting call, setup.program.scope? setup.program.root = some scope ∧
        (setup.runRoot receiver thread record).control =
          .running (scope.entry (.fresh .method []) nesting (some call)) [] := by
  let given := record.initRootModule .object
  rcases (Machine.idle receiver thread given.2 (.fresh .method [])).enterMethod_cases setup
      setup.program.root (.fresh .method []) "" given.1 false [] with
    ⟨s, hrefuses, hcontrol, -⟩ | ⟨scope, hscope, hcontrol, -⟩
  · exact Or.inl ⟨s, _, hrefuses, hcontrol⟩
  · exact Or.inr ⟨scope, _, _, hscope, hcontrol⟩

theorem Setup.runRoot_waiting (setup : Setup) (receiver : Value) (thread : Thread)
    (record : Record) : (setup.runRoot receiver thread record).waiting = [] := by
  rcases setup.runRoot_cases receiver thread record with
    ⟨s, a, -, hcontrol⟩ | ⟨scope, nesting, call, -, hcontrol⟩
  · exact Machine.waiting_of_leaving hcontrol
  · exact Machine.waiting_of_running hcontrol

/-- A single instruction that has to be run enters its call. -/
theorem Setup.execute_eq_calling {receiver : Value} {thread : Thread} {record : Record}
    {a b : Activation} {i : Instr} {m : Machine}
    (hcalls : setup.execute receiver thread record a i = .calling m b) :
    ∃ c, (i.perform thread receiver a).effect = .call c ∧ b = a ∧
      m = (Machine.idle receiver thread record a).enterCall setup c [] := by
  unfold execute at hcalls
  cases heffect : (i.perform thread receiver a).effect with
  | call c =>
      obtain ⟨hthread, hactivation⟩ := Instr.perform_of_call heffect
      simp only [heffect, hthread, hactivation, Execution.calling.injEq] at hcalls
      exact ⟨c, rfl, hcalls.2.symm, hcalls.1.symm⟩
  | _ => simp [heffect] at hcalls

theorem Setup.execute_stackedOn {receiver : Value} {thread : Thread} {record : Record}
    {a b : Activation} {i : Instr} {m : Machine}
    (hcalls : setup.execute receiver thread record a i = .calling m b) :
    m.StackedOn setup.program thread [] := by
  obtain ⟨c, -, -, rfl⟩ := setup.execute_eq_calling hcalls
  rcases (Machine.idle receiver thread record a).enterCall_cases setup c [] with
    ⟨s, b, -, hcontrol, hthread⟩ | ⟨g, -, hover, hcontrol⟩
  · exact ⟨[], Machine.active_of_leaving hcontrol, .nil (congrArg Thread.standing hthread)⟩
  · exact ⟨[g], Machine.active_of_running hcontrol, .cons (.nil rfl) hover rfl⟩

/-- A machine whose frames are stacked on a thread stops with this thread, but for the line. -/
theorem Machine.StackedOn.thread_of_stops {m : Machine} {thread : Thread} {o : Outcome}
    (hstacked : m.StackedOn setup.program thread []) (hstops : m.Stops setup o) :
    o.thread = thread.setLine o.thread.line := by
  obtain ⟨n, hstopped⟩ := hstops
  obtain ⟨⟨a, hcontrol⟩, hthread, -⟩ := Machine.control_of_outcome hstopped
  rw [hthread, ← Thread.standing_eq_iff]
  exact (hstacked.advance n).standing_eq (by rw [Machine.active_of_leaving hcontrol])

/-- Running a scope, calling a method and running a program give the thread back as it was, but
for the line, whatever they end with. -/
theorem thread_restored (setup : Setup) (receiver : Value) (thread : Thread) (record : Record)
    (id : ScopeId) (a : Activation) (method : String) (module : Module) (traceable : Bool)
    (o : Outcome) :
    ((setup.interpret receiver thread record id a).Stops setup o →
      o.thread = thread.setLine o.thread.line) ∧
    ((setup.invoke receiver thread record id a method module traceable).Stops setup o →
      o.thread = thread.setLine o.thread.line) ∧
    ((setup.runRoot receiver thread record).Stops setup o →
      (o.ofRoot setup).thread = thread.setLine (o.ofRoot setup).thread.line) := by
  refine ⟨?_, ?_, ?_⟩
  · exact (setup.interpret_stackedOn receiver thread record id a).thread_of_stops
  · exact (setup.invoke_stackedOn receiver thread record id a method module
      traceable).thread_of_stops
  · exact (setup.runRoot_stackedOn receiver thread record).thread_of_stops

namespace RestorationWitness

/-- A script whose method raises, while an observer fails at the end of every call. -/
def raising : Setup where
  program :=
    { name := "raising"
      root := ⟨0⟩
      scopes := #[
        ⟨⟨0⟩, "<main>", .script, none, ⟨#[.callMethod ⟨1⟩ [] none], [], []⟩⟩,
        ⟨⟨1⟩, "work", .method, none, ⟨#[.line 9, .raise (.const (.str "boom"))], [], []⟩⟩] }
  settings := { traceCalls := true }
  observer := some (.failing (fun e => e.kind == .ret) (.fatal "hook failed"))

/-- A thread in the middle of something else. -/
def busy : Thread where
  calls := [⟨7⟩]
  backtrace := [⟨.object, "outer", "busy.ir", 3⟩]
  nesting := 2
  file := "busy.ir"
  line := 4

theorem thread_restored_raising :
    ∃ o p q,
      ((raising.interpret .nil busy {} ⟨0⟩ (.fresh .method [])).Stops raising o ∧
        o.thread = busy.setLine o.thread.line) ∧
      ((raising.invoke .nil busy {} ⟨1⟩ (.fresh .lambda []) "work" .object true).Stops
          raising p ∧
        p.thread = busy.setLine p.thread.line) ∧
      ((raising.runRoot .nil busy {}).Stops raising q ∧
        (q.ofRoot raising).thread = busy.setLine (q.ofRoot raising).thread.line) := by
  obtain ⟨o, ho⟩ := Option.isSome_iff_exists.mp (show
    ((raising.interpret .nil busy {} ⟨0⟩ (.fresh .method [])).advance raising
      6).outcome?.isSome = true by decide +kernel)
  obtain ⟨p, hp⟩ := Option.isSome_iff_exists.mp (show
    ((raising.invoke .nil busy {} ⟨1⟩ (.fresh .lambda []) "work" .object true).advance raising
      6).outcome?.isSome = true by decide +kernel)
  obtain ⟨q, hq⟩ := Option.isSome_iff_exists.mp (show
    ((raising.runRoot .nil busy {}).advance raising 6).outcome?.isSome = true by decide +kernel)
  refine ⟨o, p, q, ⟨⟨6, ho⟩, ?_⟩, ⟨⟨6, hp⟩, ?_⟩, ⟨⟨6, hq⟩, ?_⟩⟩
  · exact (thread_restored raising .nil busy {} ⟨0⟩ (.fresh .method []) "" .object false o).1
      ⟨6, ho⟩
  · exact (thread_restored raising .nil busy {} ⟨1⟩ (.fresh .lambda []) "work" .object true
      p).2.1 ⟨6, hp⟩
  · exact (thread_restored raising .nil busy {} ⟨0⟩ (.fresh .method []) "" .object false q).2.2
      ⟨6, hq⟩

end RestorationWitness

end Unwind
