import Unwind.Proofs.Location
import Unwind.Proofs.Unlabelled

/-!
Labels are only names.

Machines that run programs which are the same but for labels go side by side: at every step they are
at the same places with the same registers, threads, and pending signals, and they stop alike.
-/

namespace Unwind

/-! ## Machines -/

def LogEntry.unlabelled : LogEntry → LogEntry
  | .executing scope pc i => .executing scope pc i.unlabelled
  | entry => entry

/-- The record without the labels of the instructions in its log. -/
def Record.unlabelled (r : Record) : Record := { r with log := r.log.map LogEntry.unlabelled }

inductive Control.SameButLabels : Control → Control → Prop
  | running {f g : Frame} {cs ds : List Frame} (hframe : f.SameButLabels g)
      (hcallers : List.Forall₂ Frame.SameButLabels cs ds) :
      Control.SameButLabels (.running f cs) (.running g ds)
  | leaving {cs ds : List Frame} (r : Completion) (a : Activation)
      (hcallers : List.Forall₂ Frame.SameButLabels cs ds) :
      Control.SameButLabels (.leaving r a cs) (.leaving r a ds)

/-- The machines agree on everything but what they are about to do, and on labels in the log. -/
structure Machine.SameState (m n : Machine) : Prop where
  receiver : n.receiver = m.receiver
  thread : n.thread = m.thread
  record : n.record.unlabelled = m.record.unlabelled

structure Machine.SameButLabels (m n : Machine) : Prop extends m.SameState n where
  control : m.control.SameButLabels n.control

/-- The setups run programs that are the same but for labels. -/
structure Setup.SameButLabels (setup other : Setup) : Prop where
  program : setup.program.SameButLabels other.program
  settings : other.settings = setup.settings
  observer : other.observer = setup.observer

theorem Record.noteIf_unlabelled (r : Record) (wanted : Bool) (entry : LogEntry) :
    (r.noteIf wanted entry).unlabelled = r.unlabelled.noteIf wanted entry.unlabelled := by
  unfold noteIf
  split <;> rfl

theorem Machine.SameState.noteIf {m n : Machine} (hstate : m.SameState n) (wanted : Bool)
    (entry : LogEntry) :
    Machine.SameState { m with record := m.record.noteIf wanted entry }
      { n with record := n.record.noteIf wanted entry } where
  receiver := hstate.receiver
  thread := hstate.thread
  record := by simp only [Record.noteIf_unlabelled, hstate.record]

theorem Setup.fire_unlabelled (setup : Setup) (traceable : Bool) (record : Record) (e : Event) :
    setup.fire traceable record.unlabelled e =
      ((setup.fire traceable record e).1.unlabelled, (setup.fire traceable record e).2) := by
  unfold fire
  split
  · by_cases htraceable : traceable = true
    · simp only [htraceable, ↓reduceIte, Record.tell]
      split
      · rw [Record.noteIf_unlabelled]
        rfl
      · rfl
    · simp [htraceable]
  · rfl

/-! ## Operations -/

section Operations

variable {setup other : Setup} (hsetup : setup.SameButLabels other)
variable {m n : Machine} {f g : Frame} {cs ds : List Frame}
variable (hcallers : List.Forall₂ Frame.SameButLabels cs ds)

include hsetup

/-- Observers are told alike, and fail alike. -/
theorem Setup.fire_sameButLabels {record noted : Record}
    (hrecord : noted.unlabelled = record.unlabelled) (traceable : Bool) (e : Event) :
    (other.fire traceable noted e).1.unlabelled = (setup.fire traceable record e).1.unlabelled ∧
      (other.fire traceable noted e).2 = (setup.fire traceable record e).2 := by
  have hobserver : other.fire traceable noted e = setup.fire traceable noted e := by
    rw [fire, fire, hsetup.observer]
  have hfire := setup.fire_unlabelled traceable noted e
  rw [hrecord, setup.fire_unlabelled traceable record e] at hfire
  rw [hobserver]
  exact ⟨(congrArg Prod.fst hfire).symm, (congrArg Prod.snd hfire).symm⟩

theorem MethodCall.finish_sameButLabels (c : MethodCall) (thread : Thread) {record noted : Record}
    (hrecord : noted.unlabelled = record.unlabelled) (r : Completion) :
    (c.finish other thread noted r).1 = (c.finish setup thread record r).1 ∧
    (c.finish other thread noted r).2.1 = (c.finish setup thread record r).2.1 ∧
    (c.finish other thread noted r).2.2.unlabelled =
      (c.finish setup thread record r).2.2.unlabelled := by
  obtain ⟨htold, hfails⟩ :=
    Setup.fire_sameButLabels hsetup hrecord c.traceable ⟨.ret, c.method, c.module⟩
  unfold finish
  generalize setup.fire c.traceable record ⟨.ret, c.method, c.module⟩ = told at *
  generalize other.fire c.traceable noted ⟨.ret, c.method, c.module⟩ = told' at *
  obtain ⟨told, failure⟩ := told
  obtain ⟨told', failure'⟩ := told'
  obtain rfl : failure' = failure := hfails
  have hnoted (entry : LogEntry) : (told'.note entry).unlabelled = (told.note entry).unlabelled :=
    congrArg (Record.note · entry.unlabelled) htold
  cases failure' with
  | none => exact ⟨rfl, rfl, htold⟩
  | some failure =>
      cases r with
      | ok v => exact ⟨rfl, rfl, htold⟩
      | error s => exact ⟨rfl, rfl, hnoted _⟩

include hcallers

theorem Machine.leave_sameButLabels (hstate : m.SameState n) (nesting : Nat)
    (call : Option MethodCall) (a : Activation) (r : Completion) :
    (m.leave setup nesting call a cs r).SameButLabels (n.leave other nesting call a ds r) := by
  cases call with
  | none =>
      refine ⟨⟨hstate.receiver, ?_, hstate.record⟩, .leaving r a hcallers⟩
      exact congrArg (fun t : Thread => { t with nesting := nesting }) hstate.thread
  | some c =>
      obtain ⟨hresult, hthread, hrecord⟩ := MethodCall.finish_sameButLabels hsetup c
        { m.thread with nesting := nesting } hstate.record r
      simp only [leave, hstate.thread]
      generalize c.finish setup _ m.record r = finished at *
      generalize c.finish other _ n.record r = finished' at *
      obtain ⟨result, thread, record⟩ := finished
      obtain ⟨result', thread', record'⟩ := finished'
      obtain rfl : result' = result := hresult
      exact ⟨⟨hstate.receiver, hthread, hrecord⟩, .leaving result' a hcallers⟩

theorem Machine.leaveFrame_sameButLabels (hstate : m.SameState n) (hframe : f.SameButLabels g)
    (r : Completion) :
    (m.leaveFrame setup f cs r).SameButLabels (n.leaveFrame other g ds r) := by
  rw [leaveFrame, leaveFrame, hframe.nesting, hframe.call, hframe.activation]
  exact leave_sameButLabels hsetup hcallers hstate f.nesting f.call f.activation r

theorem Machine.enterScope_sameButLabels (hstate : m.SameState n) (id : ScopeId) (a : Activation)
    (call : Option MethodCall) :
    (m.enterScope setup id a call cs).SameButLabels (n.enterScope other id a call ds) := by
  have hscopes := hsetup.program.scopes id
  simp only [enterScope, hstate.thread, hsetup.settings]
  split
  · exact leave_sameButLabels hsetup hcallers hstate _ call a _
  · generalize setup.program.scope? id = found at hscopes ⊢
    generalize other.program.scope? id = found' at hscopes ⊢
    cases hscopes with
    | none =>
        simp only [Signal.unknownScope, hsetup.program.name]
        exact leave_sameButLabels hsetup hcallers hstate _ call a _
    | some hscope =>
        have hcount := hscope.code.registerCount_eq
        refine ⟨⟨hstate.receiver, rfl, hstate.record⟩, .running ?_ hcallers⟩
        exact ⟨hscope, congrArg a.reserve hcount, rfl, rfl, rfl, rfl⟩

theorem Machine.enterMethod_sameButLabels (hstate : m.SameState n) (id : ScopeId) (a : Activation)
    (method : String) (module : Module) (traceable : Bool) :
    (m.enterMethod setup id a method module traceable cs).SameButLabels
      (n.enterMethod other id a method module traceable ds) := by
  obtain ⟨htold, hfails⟩ :=
    Setup.fire_sameButLabels hsetup hstate.record traceable ⟨.call, method, module⟩
  have hcall : n.callRecord method module traceable = m.callRecord method module traceable := by
    rw [callRecord, callRecord, hstate.thread]
  have hcalled : (m.calls setup id (m.callRecord method module traceable)).SameState
      (n.calls other id (m.callRecord method module traceable)) :=
    ⟨hstate.receiver, congrArg (Thread.pushMethod · id _) hstate.thread, htold⟩
  rw [m.enterMethod_eq, n.enterMethod_eq, hfails, hcall, hstate.thread]
  cases (setup.fire traceable m.record ⟨.call, method, module⟩).2 with
  | some s => exact leave_sameButLabels hsetup hcallers hcalled _ _ a (.error s)
  | none => exact enterScope_sameButLabels hsetup hcallers hcalled id a _

theorem Machine.enterCall_sameButLabels (hstate : m.SameState n) (c : Call) :
    (m.enterCall setup c cs).SameButLabels (n.enterCall other c ds) := by
  cases c with
  | closure id mode args => exact enterScope_sameButLabels hsetup hcallers hstate id _ none
  | method id args =>
      have hscopes := hsetup.program.scopes id
      have hmodule : n.record.module = m.record.module := by
        have hmodules := congrArg Record.module hstate.record
        exact hmodules
      simp only [enterCall]
      generalize setup.program.scope? id = found at hscopes ⊢
      generalize other.program.scope? id = found' at hscopes ⊢
      cases hscopes with
      | none =>
          simp only [Signal.unknownScope, hsetup.program.name]
          exact ⟨⟨hstate.receiver, hstate.thread, hstate.record⟩, .leaving _ _ hcallers⟩
      | some hscope =>
          simp only [hscope.name, hmodule, hsetup.settings]
          exact enterMethod_sameButLabels hsetup hcallers hstate id _ _ _ _

theorem Machine.settle_sameButLabels (hstate : m.SameState n) (hframe : f.SameButLabels g)
    (s : Signal) : (m.settle setup f cs s).SameButLabels (n.settle other g ds s) := by
  have hverdict : g.verdict n.thread s = f.verdict m.thread s := by
    rw [hstate.thread, hframe.verdict_eq]
  have hnoted (v : Value) :=
    hstate.noteIf setup.settings.debug (.caughtRaise f.scope.name f.pc v)
  simp only [settle, hverdict, hsetup.settings, hframe.scope.name, hframe.pc]
  cases f.verdict m.thread s with
  | finish v => exact leaveFrame_sameButLabels hsetup hcallers hstate hframe (.ok v)
  | resume v =>
      exact ⟨⟨hstate.receiver, hstate.thread, hstate.record⟩,
        .running (hframe.resume v) hcallers⟩
  | handle pc handled =>
      have hrunning := Control.SameButLabels.running (hframe.handle pc handled) hcallers
      cases handled with
      | raise v => exact ⟨⟨hstate.receiver, hstate.thread, (hnoted v).record⟩, hrunning⟩
      | _ => exact ⟨⟨hstate.receiver, hstate.thread, hstate.record⟩, hrunning⟩
  | pass passed =>
      cases passed with
      | raise v =>
          exact leaveFrame_sameButLabels hsetup hcallers (hnoted v) hframe (.error (.raise v))
      | _ => exact leaveFrame_sameButLabels hsetup hcallers hstate hframe (.error _)

theorem Machine.closeFrame_sameButLabels (hstate : m.SameState n) (hframe : f.SameButLabels g) :
    (m.closeFrame setup f cs).SameButLabels (n.closeFrame other g ds) := by
  have hclose : g.close n.thread = f.close m.thread := by
    rw [hstate.thread, hframe.close_eq]
  have horphaned : g.leavingReturn?.any (g.isOrphaned n.thread) =
      f.leavingReturn?.any (f.isOrphaned m.thread) := by
    rw [hframe.leavingReturn?_eq, hstate.thread]
    exact congrArg (Option.any · f.leavingReturn?) (funext (hframe.isOrphaned_eq m.thread))
  have hnoted :=
    hstate.noteIf (setup.settings.debug && f.leavingReturn?.any (f.isOrphaned m.thread))
      (.raisingUnexpectedReturn f.scope.name)
  simp only [closeFrame, hclose, horphaned, hsetup.settings, hframe.scope.name]
  exact leaveFrame_sameButLabels hsetup hcallers hnoted hframe (f.close m.thread)

/-- Instructions that are the same but for labels are executed alike, as long as they lead to the
same places. -/
theorem Machine.execute_sameButLabels (hstate : m.SameState n) (hframe : f.SameButLabels g)
    {i j : Instr} (hinstr : j.unlabelled = i.unlabelled) {place : Nat}
    (hi : f.scope.code.place? i.destination = some place)
    (hj : g.scope.code.place? j.destination = some place) :
    (m.execute setup f cs i).SameButLabels (n.execute other g ds j) := by
  have hperformed : (j.perform n.thread n.receiver g.activation).unlabelled =
      (i.perform m.thread m.receiver f.activation).unlabelled := by
    rw [i.perform_unlabelled, j.perform_unlabelled, hinstr, hstate.thread, hstate.receiver,
      hframe.activation]
  have hexecuted (t : Thread) : Machine.SameState
      { m with
        thread := t
        record := m.record.count.noteIf setup.settings.debug (.executing f.scope.name f.pc i) }
      { n with
        thread := t
        record := n.record.count.noteIf setup.settings.debug (.executing g.scope.name g.pc j) } := by
    refine ⟨hstate.receiver, rfl, ?_⟩
    simp only [Record.noteIf_unlabelled, LogEntry.unlabelled, hinstr, hframe.scope.name, hframe.pc]
    exact congrArg (fun r : Record => r.count.noteIf setup.settings.debug
      (.executing f.scope.name f.pc i.unlabelled)) hstate.record
  -- the frames after the instructions, still at their place
  have hafter (a : Activation) : Frame.SameButLabels { f with last := some i, activation := a }
      { g with last := some j, activation := a } :=
    { hframe with last := congrArg some hinstr, activation := rfl }
  have hto {l : Label} (hbranch : (i.perform m.thread m.receiver f.activation).effect = .branch l) :
      f.scope.code.place? l = some place := by
    rwa [Instr.eq_destination_of_perform hbranch]
  have hto' {l : Label} (hbranch : (j.perform n.thread n.receiver g.activation).effect = .branch l) :
      g.scope.code.place? l = some place := by
    rwa [Instr.eq_destination_of_perform hbranch]
  simp only [execute, hsetup.settings]
  generalize i.perform m.thread m.receiver f.activation = p at hperformed hto ⊢
  generalize j.perform n.thread n.receiver g.activation = q at hperformed hto' ⊢
  obtain ⟨thread, activation, effect⟩ := p
  obtain ⟨thread', activation', effect'⟩ := q
  obtain ⟨hthread, hactivation, heffect⟩ := Performed.mk.inj hperformed
  obtain rfl : thread' = thread := hthread
  obtain rfl : activation' = activation := hactivation
  have hgone {pc pc' : Nat} (hpc : pc' = pc) :=
    Control.SameButLabels.running ((hafter activation').goTo hpc) hcallers
  cases effect with
  | next =>
      cases effect' with
      | next =>
          have hnext : g.pc + 1 = f.pc + 1 := congrArg (· + 1) hframe.pc
          exact ⟨⟨hstate.receiver, rfl, (hexecuted thread').record⟩, hgone hnext⟩
      | _ => cases heffect
  | branch l =>
      cases effect' with
      | branch l' =>
          simp only [hto rfl, hto' rfl]
          exact ⟨⟨hstate.receiver, rfl, (hexecuted thread').record⟩, hgone rfl⟩
      | _ => cases heffect
  | signal s =>
      cases effect' with
      | signal s' =>
          obtain rfl := Effect.signal.inj heffect
          exact settle_sameButLabels hsetup hcallers (hexecuted thread') (hafter activation') s'
      | _ => cases heffect
  | call c =>
      cases effect' with
      | call c' =>
          obtain rfl := Effect.call.inj heffect
          exact enterCall_sameButLabels hsetup (.cons (hafter activation') hcallers)
            (hexecuted thread') c'
      | _ => cases heffect

end Operations

/-! ## Steps -/

section Runs

variable {setup other : Setup} (hsetup : setup.SameButLabels other) {m n : Machine}

include hsetup

theorem Machine.step_sameButLabels (hsame : m.SameButLabels n) :
    (m.step setup).SameButLabels (n.step other) := by
  obtain ⟨receiver, thread, record, control⟩ := m
  obtain ⟨receiver', thread', record', control'⟩ := n
  obtain ⟨hstate, hcontrol⟩ := hsame
  cases hcontrol with
  | @running f g cs ds hframe hcallers =>
      have hnext := hframe.next?_unlabelled
      simp only [step]
      cases hf : f.next? with
      | none =>
          rw [hf, Option.map_none, Option.map_eq_none_iff] at hnext
          rw [hnext]
          exact closeFrame_sameButLabels hsetup hcallers hstate hframe
      | some i =>
          rw [hf, Option.map_some, Option.map_eq_some_iff] at hnext
          obtain ⟨j, hg, hinstr⟩ := hnext
          have hj : g.scope.code.instr? f.pc = some j := hframe.pc ▸ hg
          obtain ⟨place, hi, hj⟩ := hframe.scope.code.places f.pc i j hf hj
          rw [hg]
          exact execute_sameButLabels hsetup hcallers hstate hframe hinstr hi hj
  | leaving r a hcallers =>
      cases hcallers with
      | nil => cases r <;> exact ⟨hstate, .leaving _ a .nil⟩
      | cons hframe hcallers =>
          cases r with
          | ok v =>
              exact ⟨⟨hstate.receiver, hstate.thread, hstate.record⟩,
                .running (hframe.resume v) hcallers⟩
          | error s => exact settle_sameButLabels hsetup hcallers hstate hframe s

/-- Machines that are the same but for labels stay so. -/
theorem Machine.advance_sameButLabels (hsame : m.SameButLabels n) (count : Nat) :
    (m.advance setup count).SameButLabels (n.advance other count) := by
  induction count with
  | zero => exact hsame
  | succ count ih =>
      rw [advance_succ, advance_succ]
      exact step_sameButLabels hsetup ih

theorem Setup.runRoot_sameButLabels (receiver : Value) (thread : Thread) (record : Record) :
    (setup.runRoot receiver thread record).SameButLabels
      (other.runRoot receiver thread record) := by
  simp only [runRoot, invoke, hsetup.program.root]
  exact Machine.enterMethod_sameButLabels hsetup .nil ⟨rfl, rfl, rfl⟩ _ _ _ _ _

end Runs

/-! ## Runs side by side -/

theorem Machine.SameButLabels.spot?_eq {m n : Machine} (hsame : m.SameButLabels n) :
    n.spot? = m.spot? := by
  obtain ⟨receiver, thread, record, control⟩ := m
  obtain ⟨receiver', thread', record', control'⟩ := n
  obtain ⟨-, hcontrol⟩ := hsame
  cases hcontrol with
  | leaving r a hcallers => rfl
  | @running f g cs ds hframe hcallers =>
      have hspot (h : Frame) : (h.next?.map fun i => (h.scope.id, h.pc)) =
          (h.next?.map Instr.unlabelled).map fun _ => (h.scope.id, h.pc) := by
        cases h.next? <;> rfl
      simp only [spot?, executing?, Option.map_map, Function.comp_def]
      rw [hspot g, hframe.next?_unlabelled, hframe.scope.id, hframe.pc, ← hspot f]

theorem Machine.SameButLabels.heard_eq {m n : Machine} (hsame : m.SameButLabels n) :
    n.record.heard = m.record.heard := by
  have hheard := congrArg Record.heard hsame.record
  exact hheard

/-- The outcomes differ at most in labels in the log. -/
structure Outcome.SameButLabels (o p : Outcome) : Prop where
  result : p.result = o.result
  activation : p.activation = o.activation
  thread : p.thread = o.thread
  record : p.record.unlabelled = o.record.unlabelled

theorem Machine.SameButLabels.outcome? {m n : Machine} (hsame : m.SameButLabels n) :
    Option.Rel Outcome.SameButLabels m.outcome? n.outcome? := by
  obtain ⟨receiver, thread, record, control⟩ := m
  obtain ⟨receiver', thread', record', control'⟩ := n
  obtain ⟨hstate, hcontrol⟩ := hsame
  cases hcontrol with
  | running hframe hcallers => exact .none
  | leaving r a hcallers =>
      cases hcallers with
      | nil => exact .some ⟨rfl, rfl, hstate.thread, hstate.record⟩
      | cons hframe hcallers => exact .none

theorem Outcome.SameButLabels.ofRoot {o p : Outcome} (hsame : o.SameButLabels p)
    {setup other : Setup} (hsetup : setup.SameButLabels other) :
    (o.ofRoot setup).SameButLabels (p.ofRoot other) := by
  have hexecuted : p.record.executed = o.record.executed := by
    have hcounts := congrArg Record.executed hsame.record
    exact hcounts
  refine ⟨?_, hsame.activation, hsame.thread, ?_⟩
  · simp only [Outcome.ofRoot, hsame.result, hsame.thread]
  · simp only [Outcome.ofRoot, Record.noteIf_unlabelled, hsame.record, hsetup.settings,
      hsetup.program.name, hexecuted]

/-- At every step the machines are at the same place, have the same thread and are heard alike.
They stop both or neither, and then with the same result. -/
structure Machine.RunAlike (setup other : Setup) (m n : Machine) : Prop where
  spot : ∀ count, (n.advance other count).spot? = (m.advance setup count).spot?
  thread : ∀ count, (n.advance other count).thread = (m.advance setup count).thread
  heard : ∀ count, (n.advance other count).record.heard = (m.advance setup count).record.heard
  stops : (∃ o, m.Stops setup o) ↔ ∃ o, n.Stops other o
  ends : ∀ o o', m.Stops setup o → n.Stops other o' →
    (o.ofRoot setup).SameButLabels (o'.ofRoot other)

theorem Machine.SameButLabels.runAlike {setup other : Setup} (hsetup : setup.SameButLabels other)
    {m n : Machine} (hsame : m.SameButLabels n) : Machine.RunAlike setup other m n := by
  have hmachines := advance_sameButLabels hsetup hsame
  have houtcomes (count : Nat) := (hmachines count).outcome?
  refine ⟨fun count => (hmachines count).spot?_eq, fun count => (hmachines count).thread,
    fun count => (hmachines count).heard_eq, ⟨?_, ?_⟩, ?_⟩
  · rintro ⟨o, count, ho⟩
    obtain ⟨o', ho', -⟩ := exists_of_rel_some (ho ▸ houtcomes count)
    exact ⟨o', count, ho'⟩
  · rintro ⟨o', count, ho'⟩
    obtain ⟨o, ho, -⟩ := exists_of_rel_some_right (ho' ▸ houtcomes count)
    exact ⟨o, count, ho⟩
  · rintro o o' ⟨count, ho⟩ hother
    obtain ⟨other', hother', hends⟩ := exists_of_rel_some (ho ▸ houtcomes count)
    obtain rfl := stops_unique hother ⟨count, hother'⟩
    exact hends.ofRoot hsetup

/-- All runs of the roots go alike, under whatever settings and observer, from equal threads and
records. -/
def Program.RunAlike (p q : Program) : Prop :=
  ∀ (settings : Settings) (observer : Option Observer) (receiver : Value) (thread : Thread)
    (record : Record),
    Machine.RunAlike ⟨p, settings, observer⟩ ⟨q, settings, observer⟩
      (Setup.runRoot ⟨p, settings, observer⟩ receiver thread record)
      (Setup.runRoot ⟨q, settings, observer⟩ receiver thread record)

theorem Program.SameButLabels.runAlike {p q : Program} (hsame : p.SameButLabels q) :
    p.RunAlike q := by
  intro settings observer receiver thread record
  have hsetup : Setup.SameButLabels ⟨p, settings, observer⟩ ⟨q, settings, observer⟩ :=
    ⟨hsame, rfl, rfl⟩
  exact (Setup.runRoot_sameButLabels hsetup receiver thread record).runAlike hsetup

end Unwind
