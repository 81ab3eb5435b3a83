import Unwind.Proofs.Hearing
import Unwind.Proofs.Perform

/-!
What one step of a machine can do.

`Machine.Turn` lists it by the fate of the innermost active frame: the frame goes on, calls a
scope or is refused one, takes the result of its call, enters its own handler, or is left.
Invariants of runs are proved by cases on it, without opening the step function again.
-/

namespace Unwind

/-- A frame after its next instruction was performed, still at its place. -/
def Frame.after (f : Frame) (i : Instr) (m : Machine) : Frame :=
  { f with
    last := some i
    activation := (i.perform m.thread m.receiver f.activation).activation }

/-- A frame that waits for the call that its instruction made. -/
def Frame.calling (f : Frame) (i : Instr) : Frame := { f with last := some i }

/-- The current instruction of a frame ends in a signal, while the frames `cs` wait for the
frame. -/
inductive Machine.EndsIn (m : Machine) : Frame → List Frame → Signal → Prop
  /-- The instruction itself ends in the signal. -/
  | own {f : Frame} {cs : List Frame} {i : Instr} {s : Signal}
      (hrunning : m.control = .running f cs) (hnext : f.next? = some i)
      (heffect : (i.perform m.thread m.receiver f.activation).effect = .signal s) :
      m.EndsIn (f.after i m) cs s
  /-- The instruction branches to a label that names no place. -/
  | unplaced {f : Frame} {cs : List Frame} {i : Instr} {l : Label}
      (hrunning : m.control = .running f cs) (hnext : f.next? = some i)
      (heffect : (i.perform m.thread m.receiver f.activation).effect = .branch l)
      (hplace : f.scope.code.place? l = none) :
      m.EndsIn (f.after i m) cs (.unplacedLabel l)
  /-- The call that the instruction made ended in the signal. -/
  | callee {f : Frame} {cs : List Frame} {a : Activation} {s : Signal}
      (hleaving : m.control = .leaving (.error s) a (f :: cs)) : m.EndsIn f cs s

/-- A running frame ends in a signal only by its own instruction. -/
theorem Machine.EndsIn.of_running {m : Machine} {f g : Frame} {cs ds : List Frame} {i : Instr}
    {s : Signal} (hends : m.EndsIn g ds s) (hrunning : m.control = .running f cs)
    (hnext : f.next? = some i) :
    g = f.after i m ∧ ds = cs ∧
      ((i.perform m.thread m.receiver f.activation).effect = .signal s ∨
        ∃ l, s = .unplacedLabel l ∧
          (i.perform m.thread m.receiver f.activation).effect = .branch l ∧
          f.scope.code.place? l = none) := by
  cases hends with
  | own hrunning' hnext' heffect =>
      obtain ⟨rfl, rfl⟩ := Control.running.inj (hrunning.symm.trans hrunning')
      obtain rfl := Option.some.inj (hnext.symm.trans hnext')
      exact ⟨rfl, rfl, Or.inl heffect⟩
  | unplaced hrunning' hnext' heffect hplace =>
      obtain ⟨rfl, rfl⟩ := Control.running.inj (hrunning.symm.trans hrunning')
      obtain rfl := Option.some.inj (hnext.symm.trans hnext')
      exact ⟨rfl, rfl, Or.inr ⟨_, rfl, heffect, hplace⟩⟩
  | callee hleaving => cases hrunning.symm.trans hleaving

/-- An instruction ends in one signal at most. -/
theorem Machine.EndsIn.unique {m : Machine} {f g : Frame} {cs ds : List Frame} {s t : Signal}
    (hf : m.EndsIn f cs s) (hg : m.EndsIn g ds t) : f = g ∧ cs = ds ∧ s = t := by
  cases hf with
  | own hrunning hnext heffect =>
      obtain ⟨rfl, rfl, hsignal | ⟨l, -, hbranch, -⟩⟩ := hg.of_running hrunning hnext
      · exact ⟨rfl, rfl, Effect.signal.inj (heffect.symm.trans hsignal)⟩
      · cases heffect.symm.trans hbranch
  | unplaced hrunning hnext heffect hplace =>
      obtain ⟨rfl, rfl, hsignal | ⟨l, rfl, hbranch, -⟩⟩ := hg.of_running hrunning hnext
      · cases heffect.symm.trans hsignal
      · obtain rfl := Effect.branch.inj (heffect.symm.trans hbranch)
        exact ⟨rfl, rfl, rfl⟩
  | callee hleaving =>
      cases hg with
      | own hrunning _ _ => cases hrunning.symm.trans hleaving
      | unplaced hrunning _ _ _ => cases hrunning.symm.trans hleaving
      | callee hleaving' =>
          obtain ⟨hr, -, hframes⟩ := Control.leaving.inj (hleaving.symm.trans hleaving')
          obtain ⟨rfl, rfl⟩ := List.cons.inj hframes
          exact ⟨rfl, rfl, Except.error.inj hr⟩

/-! ## Turns -/

/-- Why a frame is left, and with what, if observers are content. -/
inductive Machine.Leaves (m : Machine) : Frame → List Frame → Completion → Prop
  /-- The code is at its end. -/
  | close {f : Frame} {cs : List Frame} (hrunning : m.control = .running f cs)
      (hend : f.next? = none) : m.Leaves f cs (f.close m.thread)
  /-- A `return` arrived where it ends. -/
  | finish {f : Frame} {cs : List Frame} {s : Signal} {v : Value} (hends : m.EndsIn f cs s)
      (hverdict : f.verdict m.thread s = .finish v) : m.Leaves f cs (.ok v)
  /-- The frame lets a signal pass. -/
  | pass {f : Frame} {cs : List Frame} {s passed : Signal} (hends : m.EndsIn f cs s)
      (hverdict : f.verdict m.thread s = .pass passed) : m.Leaves f cs (.error passed)

/-- The current instruction of a frame is complete with a value: its call returned the value, or
the frame consumed a `break`. -/
inductive Machine.Resumes (m : Machine) : Frame → List Frame → Value → Prop
  | value {f : Frame} {cs : List Frame} {a : Activation} {v : Value}
      (hleaving : m.control = .leaving (.ok v) a (f :: cs)) : m.Resumes f cs v
  | consume {f : Frame} {cs : List Frame} {s : Signal} {v : Value} (hends : m.EndsIn f cs s)
      (hverdict : f.verdict m.thread s = .resume v) : m.Resumes f cs v

/-- One step, by what becomes of the innermost active frame. -/
inductive Machine.Turn (setup : Setup) (m m' : Machine) : Prop
  /-- An instruction is done, and the frame goes on. -/
  | proceed {f : Frame} {cs : List Frame} {i : Instr} {pc : Nat}
      (hrunning : m.control = .running f cs) (hnext : f.next? = some i)
      (heffect : (i.perform m.thread m.receiver f.activation).effect = .next ∧ pc = f.pc + 1 ∨
        ∃ l, (i.perform m.thread m.receiver f.activation).effect = .branch l ∧
          f.scope.code.place? l = some pc)
      (hcontrol : m'.control = .running ((f.after i m).goTo pc) cs)
      (hthread : m'.thread = (i.perform m.thread m.receiver f.activation).thread)
  /-- An instruction calls a scope, and the frame `g` of the scope begins. -/
  | enter {f g : Frame} {cs : List Frame} {i : Instr} {c : Call}
      (hrunning : m.control = .running f cs) (hnext : f.next? = some i)
      (heffect : (i.perform m.thread m.receiver f.activation).effect = .call c)
      (hcontrol : m'.control = .running g (f.calling i :: cs))
      (hentered : c.EnteredAs setup m.record.module g)
      (hover : g.Over setup.program m.thread m'.thread)
  /-- An instruction calls a scope and is refused. -/
  | refuse {f : Frame} {cs : List Frame} {i : Instr} {c : Call} {s : Signal} {a : Activation}
      (hrunning : m.control = .running f cs) (hnext : f.next? = some i)
      (heffect : (i.perform m.thread m.receiver f.activation).effect = .call c)
      (hrefuses : setup.Refuses s)
      (hcontrol : m'.control = .leaving (.error s) a (f.calling i :: cs))
      (hthread : m'.thread = m.thread)
  /-- An instruction that was waited for is complete with a value. -/
  | resume {f : Frame} {cs : List Frame} {v : Value} (hresumes : m.Resumes f cs v)
      (hcontrol : m'.control = .running (f.resume v) cs) (hthread : m'.thread = m.thread)
  /-- An instruction ends in a signal, and the frame enters a handler. -/
  | handle {f : Frame} {cs : List Frame} {s handled : Signal} {pc : Nat}
      (hends : m.EndsIn f cs s) (hverdict : f.verdict m.thread s = .handle pc handled)
      (hcontrol : m'.control = .running (f.handle pc handled) cs)
      (hthread : m'.thread = m.thread)
  /-- The frame is left. -/
  | leave {f : Frame} {cs : List Frame} {r result : Completion} (hleaves : m.Leaves f cs r)
      (hresult : setup.LeavesWith r result)
      (hcontrol : m'.control = .leaving result f.activation cs)
      (hthread : m'.thread = f.restore m.thread)
  /-- No frame is active any more. -/
  | stop {r : Completion} {a : Activation} (hleaving : m.control = .leaving r a [])
      (hsame : m' = m)

theorem Machine.leaveFrame_spec (m : Machine) (setup : Setup) (f : Frame) (cs : List Frame)
    (r : Completion) :
    ∃ result, setup.LeavesWith r result ∧
      (m.leaveFrame setup f cs r).control = .leaving result f.activation cs ∧
      (m.leaveFrame setup f cs r).thread = f.restore m.thread :=
  m.leave_spec setup f.nesting f.call f.activation cs r

/-- Settling does what the verdict says. -/
theorem Machine.settle_spec (m : Machine) (setup : Setup) (f : Frame) (cs : List Frame)
    (s : Signal) :
    match f.verdict m.thread s with
    | .finish v =>
        ∃ result, setup.LeavesWith (.ok v) result ∧
          (m.settle setup f cs s).control = .leaving result f.activation cs ∧
          (m.settle setup f cs s).thread = f.restore m.thread
    | .resume v =>
        (m.settle setup f cs s).control = .running (f.resume v) cs ∧
          (m.settle setup f cs s).thread = m.thread
    | .handle pc handled =>
        (m.settle setup f cs s).control = .running (f.handle pc handled) cs ∧
          (m.settle setup f cs s).thread = m.thread
    | .pass passed =>
        (m.settle setup f cs s).control = .leaving (.error passed) f.activation cs ∧
          (m.settle setup f cs s).thread = f.restore m.thread := by
  cases hverdict : f.verdict m.thread s with
  | finish v =>
      simp only [Machine.settle, hverdict]
      exact Machine.leaveFrame_spec _ setup f cs (.ok v)
  | resume v => simp [Machine.settle, hverdict]
  | handle pc handled => simp [Machine.settle, hverdict]
  | pass passed =>
      simp only [Machine.settle, hverdict]
      obtain ⟨result, hresult, hcontrol, hthread⟩ :=
        Machine.leaveFrame_spec { m with record := _ } setup f cs (.error passed)
      rw [hresult.eq_of_error] at hcontrol
      exact ⟨hcontrol, hthread⟩

/-- Executing an instruction is counted, and noted where settings ask for it; no observer hears
of it. -/
theorem Machine.executing_hears (m : Machine) (wanted : Bool) (entry : LogEntry) :
    m.record.Hears [] (m.record.count.noteIf wanted entry) :=
  m.record.count_hears.trans (m.record.count.noteIf_hears wanted entry)

/-- When an instruction has ended in a signal, the step settles it. -/
theorem Machine.EndsIn.step_eq_settle {m : Machine} {f : Frame} {cs : List Frame} {s : Signal}
    (hends : m.EndsIn f cs s) (setup : Setup) :
    ∃ before : Machine, before.thread = m.thread ∧ m.record.Hears [] before.record ∧
      m.step setup = before.settle setup f cs s := by
  cases hends with
  | own hrunning hnext heffect =>
      simp only [Machine.step, hrunning, hnext, Machine.execute, heffect]
      exact ⟨_, (Instr.perform_of_signal heffect).1, m.executing_hears _ _, rfl⟩
  | unplaced hrunning hnext heffect hplace =>
      simp only [Machine.step, hrunning, hnext, Machine.execute, heffect, hplace]
      exact ⟨_, (Instr.perform_of_branch heffect).1, m.executing_hears _ _, rfl⟩
  | callee hleaving =>
      simp only [Machine.step, hleaving]
      exact ⟨m, rfl, .refl m.record, rfl⟩

/-- A frame that is left is left in this step. -/
theorem Machine.Leaves.step_eq_leaveFrame {m : Machine} {f : Frame} {cs : List Frame}
    {r : Completion} (hleaves : m.Leaves f cs r) (setup : Setup) :
    ∃ before : Machine, before.thread = m.thread ∧ m.record.Hears [] before.record ∧
      m.step setup = before.leaveFrame setup f cs r := by
  cases hleaves with
  | close hrunning hend =>
      simp only [Machine.step, hrunning, hend, Machine.closeFrame]
      refine ⟨_, ?_, ?_, rfl⟩
      · rfl
      · exact m.record.noteIf_hears _ _
  | finish hends hverdict =>
      obtain ⟨before, hthread, hhears, hstep⟩ := hends.step_eq_settle setup
      rw [← hthread] at hverdict
      refine ⟨before, hthread, hhears, ?_⟩
      rw [hstep]
      simp only [Machine.settle, hverdict, Verdict.raised?]
  | pass hends hverdict =>
      obtain ⟨before, hthread, hhears, hstep⟩ := hends.step_eq_settle setup
      rw [← hthread] at hverdict
      simp only [Machine.settle, hverdict] at hstep
      refine ⟨_, ?_, ?_, hstep⟩
      · exact hthread
      · simp only
        split
        · exact hhears.trans (before.record.noteIf_hears _ _)
        · exact hhears

theorem Machine.EndsIn.step_spec {m : Machine} {f : Frame} {cs : List Frame} {s : Signal}
    (hends : m.EndsIn f cs s) (setup : Setup) :
    match f.verdict m.thread s with
    | .finish v =>
        ∃ result, setup.LeavesWith (.ok v) result ∧
          (m.step setup).control = .leaving result f.activation cs ∧
          (m.step setup).thread = f.restore m.thread
    | .resume v =>
        (m.step setup).control = .running (f.resume v) cs ∧ (m.step setup).thread = m.thread
    | .handle pc handled =>
        (m.step setup).control = .running (f.handle pc handled) cs ∧
          (m.step setup).thread = m.thread
    | .pass passed =>
        (m.step setup).control = .leaving (.error passed) f.activation cs ∧
          (m.step setup).thread = f.restore m.thread := by
  obtain ⟨before, hthread, -, hstep⟩ := hends.step_eq_settle setup
  rw [hstep, ← hthread]
  exact before.settle_spec setup f cs s

theorem Machine.EndsIn.turn {m : Machine} {f : Frame} {cs : List Frame} {s : Signal}
    (hends : m.EndsIn f cs s) (setup : Setup) : m.Turn setup (m.step setup) := by
  have hspec := hends.step_spec setup
  cases hverdict : f.verdict m.thread s with
  | finish v =>
      rw [hverdict] at hspec
      obtain ⟨result, hresult, hcontrol, hthread⟩ := hspec
      exact .leave (.finish hends hverdict) hresult hcontrol hthread
  | resume v =>
      rw [hverdict] at hspec
      exact .resume (.consume hends hverdict) hspec.1 hspec.2
  | handle pc handled =>
      rw [hverdict] at hspec
      exact .handle hends hverdict hspec.1 hspec.2
  | pass passed =>
      rw [hverdict] at hspec
      exact .leave (.pass hends hverdict) (Or.inl rfl) hspec.1 hspec.2

/-- A call enters its scope in front of the frame that calls. -/
theorem Machine.step_of_call {m : Machine} {f : Frame} {cs : List Frame} {i : Instr} {c : Call}
    (hrunning : m.control = .running f cs) (hnext : f.next? = some i)
    (heffect : (i.perform m.thread m.receiver f.activation).effect = .call c) (setup : Setup) :
    ∃ told, m.record.Hears [] told ∧
      m.step setup = Machine.enterCall { m with record := told } setup c (f.calling i :: cs) := by
  refine ⟨_, m.executing_hears setup.settings.debug (.executing f.scope.name f.pc i), ?_⟩
  have hthread := (Instr.perform_of_call heffect).1
  have hactivation := (Instr.perform_of_call heffect).2
  simp only [Machine.step, hrunning, hnext, Machine.execute, heffect, hthread, hactivation,
    Frame.calling]

theorem Machine.step_turn_of_next {setup : Setup} {m : Machine} {f : Frame} {cs : List Frame}
    {i : Instr} (hrunning : m.control = .running f cs) (hnext : f.next? = some i) :
    m.Turn setup (m.step setup) := by
  have hstep : m.step setup = m.execute setup f cs i := by
    simp only [Machine.step, hrunning, hnext]
  cases heffect : (i.perform m.thread m.receiver f.activation).effect with
  | next =>
      rw [hstep]
      refine .proceed hrunning hnext (Or.inl ⟨heffect, rfl⟩) ?_ ?_ <;>
        simp [Machine.execute, heffect, Frame.after, Frame.goTo]
  | branch l =>
      cases hplace : f.scope.code.place? l with
      | some pc =>
          rw [hstep]
          refine .proceed hrunning hnext (Or.inr ⟨l, heffect, hplace⟩) ?_ ?_ <;>
            simp [Machine.execute, heffect, hplace, Frame.after, Frame.goTo]
      | none => exact EndsIn.turn (.unplaced hrunning hnext heffect hplace) setup
  | signal s => exact EndsIn.turn (.own hrunning hnext heffect) setup
  | call c =>
      obtain ⟨told, hhears, hcalls⟩ := Machine.step_of_call hrunning hnext heffect setup
      rw [hcalls]
      rcases Machine.enterCall_cases { m with record := told } setup c (f.calling i :: cs) with
        ⟨s, a, hrefuses, hcontrol, hkept⟩ | ⟨g, hentered, hover, hcontrol⟩
      · exact .refuse hrunning hnext heffect hrefuses hcontrol hkept
      · rw [hhears.module_eq] at hentered
        exact .enter hrunning hnext heffect hcontrol hentered hover

/-- A frame at the end of its code is left with what it closes with. -/
theorem Machine.step_of_end {m : Machine} {f : Frame} {cs : List Frame}
    (hrunning : m.control = .running f cs) (hend : f.next? = none) (setup : Setup) :
    ∃ result, setup.LeavesWith (f.close m.thread) result ∧
      (m.step setup).control = .leaving result f.activation cs ∧
      (m.step setup).thread = f.restore m.thread := by
  simp only [Machine.step, hrunning, hend, Machine.closeFrame]
  exact Machine.leaveFrame_spec { m with record := _ } setup f cs (f.close m.thread)

/-- Every step is a turn. -/
theorem Machine.step_turn (setup : Setup) (m : Machine) : m.Turn setup (m.step setup) := by
  cases hcontrol : m.control with
  | running f cs =>
      cases hnext : f.next? with
      | some i => exact Machine.step_turn_of_next hcontrol hnext
      | none =>
          obtain ⟨result, hresult, hleft, hrestore⟩ := Machine.step_of_end hcontrol hnext setup
          exact .leave (.close hcontrol hnext) hresult hleft hrestore
  | leaving r a cs =>
      cases cs with
      | nil =>
          refine .stop hcontrol ?_
          cases r <;> simp [Machine.step, hcontrol]
      | cons f cs =>
          cases r with
          | ok v =>
              refine .resume (.value hcontrol) ?_ ?_ <;> simp [Machine.step, hcontrol]
          | error s => exact EndsIn.turn (.callee hcontrol) setup

end Unwind
