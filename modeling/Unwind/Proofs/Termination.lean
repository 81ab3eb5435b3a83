import Mathlib.Algebra.BigOperators.Ring.Finset
import Mathlib.Data.List.MinMax
import Unwind.Proofs.Counting
import Unwind.Proofs.StackMirror

/-!
Termination under the limit on depth.

A machine that executes nothing only comes down its stack, so a run that goes on executes one
instruction after the other.  If branches and handlers lead forward, each instruction of a frame
pays once for the frame of the scope that it may call, and the limit on depth bounds the sum.
-/

namespace Unwind

variable {p : Program} {setup : Setup} {limit : Nat}

/-! ## Programs that lead forward -/

/-- Branches lead forward, and the handlers of a region stand at its end or behind it. -/
structure Code.Forward (code : Code) : Prop where
  branches : ∀ pc < code.length, ∀ i ∈ code.instr? pc, ∀ l ∈ i.branchTarget?,
    ∀ target ∈ code.place? l, pc < target
  rescuers : ∀ r ∈ code.regions, ∀ pc ∈ r.rescuer, r.stop ≤ pc
  ensurers : ∀ r ∈ code.regions, ∀ pc ∈ r.ensurer, r.stop ≤ pc

instance (code : Code) : Decidable code.Forward :=
  decidable_of_iff
    ((∀ pc < code.length, ∀ i ∈ code.instr? pc, ∀ l ∈ i.branchTarget?,
        ∀ target ∈ code.place? l, pc < target) ∧
      (∀ r ∈ code.regions, ∀ pc ∈ r.rescuer, r.stop ≤ pc) ∧
      ∀ r ∈ code.regions, ∀ pc ∈ r.ensurer, r.stop ≤ pc)
    ⟨fun h => ⟨h.1, h.2.1, h.2.2⟩, fun h => ⟨h.branches, h.rescuers, h.ensurers⟩⟩

def Program.Forward (p : Program) : Prop := ∀ s ∈ p.scopes, s.code.Forward

instance (p : Program) : Decidable p.Forward :=
  inferInstanceAs (Decidable (∀ s ∈ p.scopes, s.code.Forward))

/-- The length of the longest scope. -/
def Program.longest (p : Program) : Nat :=
  (p.scopes.toList.map fun s => s.code.length).foldr max 0

theorem Program.length_le_longest {id : ScopeId} {s : Scope} (hscope : p.scope? id = some s) :
    s.code.length ≤ p.longest := by
  have hmem : s ∈ p.scopes.toList := (Array.mem_of_getElem? hscope).val
  exact List.le_max_of_le' 0 (List.mem_map_of_mem hmem) (Nat.le_refl _)

/-- An instruction leads behind its place. -/
theorem Code.Forward.lt_of_perform {code : Code} (hforward : code.Forward) {pc target : Nat}
    {i : Instr} {l : Label} {t : Thread} {receiver : Value} {a : Activation}
    (hinstr : code.instr? pc = some i) (heffect : (i.perform t receiver a).effect = .branch l)
    (hplace : code.place? l = some target) : pc < target := by
  obtain ⟨hlt, -⟩ := Array.getElem?_eq_some_iff.mp hinstr
  rcases Instr.branchTarget?_of_perform heffect with htarget | rfl
  · exact hforward.branches pc hlt i hinstr l htarget target hplace
  · obtain rfl := Option.some.inj (code.place?_exit.symm.trans hplace)
    exact hlt

/-- A handler is entered behind the place of the signal. -/
theorem Code.Forward.lt_of_verdict {f : Frame} (hforward : f.scope.code.Forward) {t : Thread}
    {s handled : Signal} {pc : Nat} (hverdict : f.verdict t s = .handle pc handled) :
    f.pc < pc := by
  have hregion {handler : Region → Option Nat}
      (hfound : (f.scope.code.regionAt? handler f.pc).bind handler = some pc)
      (hbehind : ∀ r ∈ f.scope.code.regions, ∀ pc ∈ handler r, r.stop ≤ pc) : f.pc < pc := by
    obtain ⟨r, hr, hcovers, hpc⟩ := Code.exists_region_of_handler hfound
    simp only [Region.covers, Bool.and_eq_true, decide_eq_true_eq] at hcovers
    exact Nat.lt_of_lt_of_le hcovers.2 (hbehind r hr pc hpc)
  have hfound := Frame.handlerFor?_of_verdict hverdict
  cases handled with
  | raise v => exact hregion hfound hforward.rescuers
  | _ => exact hregion hfound hforward.ensurers

/-! ## What there is left to execute -/

/-- A bound for the instructions of a scope under which at most so many levels are nested, itself
included. -/
def Program.workload (p : Program) (depth : Nat) : Nat :=
  ∑ i ∈ Finset.range depth, p.longest ^ (i + 1)

theorem Program.workload_succ (p : Program) (depth : Nat) :
    p.workload (depth + 1) = p.longest * (1 + p.workload depth) := by
  have hshift (i : Nat) : p.longest ^ (i + 1 + 1) = p.longest * p.longest ^ (i + 1) := pow_succ' _ _
  rw [workload, workload, Finset.sum_range_succ', Nat.mul_add, Finset.mul_sum, Nat.mul_one,
    Nat.zero_add, pow_one, Nat.add_comm]
  simp only [hshift]

/-- A bound for the instructions that one instruction of the frame at the given depth leads to: it
is one itself, and it may call a scope. -/
def Program.reach (p : Program) (limit depth : Nat) : Nat := 1 + p.workload (limit - depth)

theorem Program.reach_of_lt (p : Program) {depth : Nat} (hlt : depth < limit) :
    p.reach limit depth = 1 + p.longest * p.reach limit (depth + 1) := by
  have hsplit : limit - depth = limit - (depth + 1) + 1 := by omega
  rw [reach, reach, hsplit, workload_succ]

/-- The instructions from the place of a frame on. -/
def Frame.ahead (f : Frame) : Nat := f.scope.code.length - f.pc

/-- A bound for what waiting frames lead to once their calls have ended. -/
def Program.owed (p : Program) (limit : Nat) : List Frame → Nat
  | [] => 0
  | f :: cs => (f.ahead - 1) * p.reach limit (cs.length + 1) + p.owed limit cs

theorem Program.owed_after (f : Frame) (i : Instr) (m : Machine) (cs : List Frame) :
    p.owed limit (f.after i m :: cs) = p.owed limit (f :: cs) := rfl

theorem Program.owed_calling (f : Frame) (i : Instr) (cs : List Frame) :
    p.owed limit (f.calling i :: cs) = p.owed limit (f :: cs) := rfl

/-- A bound for the instructions that a machine is still to execute. -/
def Machine.potential (p : Program) (limit : Nat) (m : Machine) : Nat :=
  match m.control with
  | .running f cs => f.ahead * p.reach limit (cs.length + 1) + p.owed limit cs
  | .leaving _ _ cs => p.owed limit cs

theorem Machine.potential_of_running {m : Machine} {f : Frame} {cs : List Frame}
    (hcontrol : m.control = .running f cs) :
    m.potential p limit = f.ahead * p.reach limit (cs.length + 1) + p.owed limit cs := by
  rw [potential, hcontrol]

theorem Machine.potential_of_leaving {m : Machine} {r : Completion} {a : Activation}
    {cs : List Frame} (hcontrol : m.control = .leaving r a cs) :
    m.potential p limit = p.owed limit cs := by
  rw [potential, hcontrol]

/-- A frame pays for its next instruction. -/
theorem Machine.potential_of_next {m : Machine} {f : Frame} {cs : List Frame} {i : Instr}
    (hrunning : m.control = .running f cs) (hnext : f.next? = some i) :
    m.potential p limit = p.reach limit (cs.length + 1) + p.owed limit (f :: cs) := by
  have hahead : f.ahead = (f.ahead - 1) + 1 := by
    have hlt := Frame.pc_lt_of_next? hnext
    rw [Frame.ahead]
    omega
  rw [potential_of_running hrunning, Program.owed]
  generalize f.ahead - 1 = behind at hahead ⊢
  rw [hahead, Nat.succ_mul]
  omega

/-! ## Steps pay -/

theorem Machine.begins_pays {m : Machine} {f : Frame} {cs : List Frame} {i : Instr}
    (hrunning : m.control = .running f cs) (hnext : f.next? = some i) :
    m.begins?.toList.length + p.owed limit (f :: cs) ≤ m.potential p limit := by
  rw [begins?_of_running hrunning hnext, potential_of_next hrunning hnext, Program.reach]
  exact Nat.add_le_add_right (Nat.le_add_right 1 _) _

theorem Machine.EndsIn.pays {m : Machine} {f : Frame} {cs : List Frame} {s : Signal}
    (hends : m.EndsIn f cs s) :
    m.begins?.toList.length + p.owed limit (f :: cs) ≤ m.potential p limit := by
  cases hends with
  | own hrunning hnext heffect =>
      rw [Program.owed_after]
      exact begins_pays hrunning hnext
  | unplaced hrunning hnext heffect hplace =>
      rw [Program.owed_after]
      exact begins_pays hrunning hnext
  | callee hleaving =>
      rw [begins?_of_leaving hleaving, potential_of_leaving hleaving]
      simp

theorem Machine.Resumes.pays {m : Machine} {f : Frame} {cs : List Frame} {v : Value}
    (hresumes : m.Resumes f cs v) :
    m.begins?.toList.length + p.owed limit (f :: cs) ≤ m.potential p limit := by
  cases hresumes with
  | value hleaving =>
      rw [begins?_of_leaving hleaving, potential_of_leaving hleaving]
      simp
  | consume hends hverdict => exact hends.pays

theorem Machine.Leaves.pays {m : Machine} {f : Frame} {cs : List Frame} {r : Completion}
    (hleaves : m.Leaves f cs r) :
    m.begins?.toList.length + p.owed limit cs ≤ m.potential p limit := by
  have hsignal {s : Signal} (hends : m.EndsIn f cs s) :
      m.begins?.toList.length + p.owed limit cs ≤ m.potential p limit := by
    have hpays : m.begins?.toList.length + p.owed limit (f :: cs) ≤ m.potential p limit :=
      hends.pays
    rw [Program.owed] at hpays
    omega
  cases hleaves with
  | close hrunning hend =>
      rw [begins?_of_end hrunning hend, potential_of_running hrunning]
      simp
  | finish hends hverdict => exact hsignal hends
  | pass hends hverdict => exact hsignal hends

/-- A frame that gets behind its instruction goes on with what it owes. -/
theorem Machine.pays_of_running {m m' : Machine} {f g : Frame} {cs : List Frame} {count : Nat}
    (hpays : count + p.owed limit (f :: cs) ≤ m.potential p limit)
    (hcontrol : m'.control = .running g cs) (hscope : g.scope = f.scope) (hlt : f.pc < g.pc) :
    count + m'.potential p limit ≤ m.potential p limit := by
  have hahead : g.ahead ≤ f.ahead - 1 := by
    rw [Frame.ahead, Frame.ahead, hscope]
    omega
  have hleft : m'.potential p limit ≤ p.owed limit (f :: cs) := by
    rw [potential_of_running hcontrol, Program.owed]
    exact Nat.add_le_add_right (Nat.mul_le_mul_right _ hahead) _
  exact Nat.le_trans (Nat.add_le_add_left hleft count) hpays

/-- If active code leads forward, and frames are nested no deeper than the limit, a step pays for
the instruction that it executes. -/
theorem Machine.step_pays {m : Machine} (hforward : ∀ f ∈ m.active, f.scope.code.Forward)
    (hdepth : (m.step setup).active.length ≤ limit) :
    m.begins?.toList.length + (m.step setup).potential setup.program limit ≤
      m.potential setup.program limit := by
  cases m.step_turn setup with
  | @proceed f cs i pc hrunning hnext heffect hcontrol hthread =>
      have hlt : f.pc < pc := by
        rcases heffect with ⟨-, rfl⟩ | ⟨l, hbranch, hplace⟩
        · exact Nat.lt_succ_self f.pc
        · exact (hforward f (mem_active_of_running hrunning)).lt_of_perform hnext hbranch hplace
      exact pays_of_running (begins_pays hrunning hnext) hcontrol rfl hlt
  | @enter f g cs i c hrunning hnext heffect hcontrol hentered hover =>
      have hlt : cs.length + 1 < limit := by
        rw [active_of_running hcontrol] at hdepth
        exact hdepth
      have hlength : g.ahead ≤ setup.program.longest := by
        obtain ⟨id, hid⟩ := hover.scope_mem
        exact Nat.le_trans (Nat.sub_le _ _) (Program.length_le_longest hid)
      rw [begins?_of_running hrunning hnext, potential_of_next hrunning hnext,
        potential_of_running hcontrol, setup.program.reach_of_lt hlt, Program.owed_calling,
        ← Nat.add_assoc]
      -- the scope that is called is paid for by the instruction that calls it
      exact Nat.add_le_add_right (Nat.add_le_add_left (Nat.mul_le_mul_right _ hlength) 1) _
  | @refuse f cs i c s a hrunning hnext heffect hrefuses hcontrol hthread =>
      rw [potential_of_leaving hcontrol, Program.owed_calling]
      exact begins_pays hrunning hnext
  | @resume f cs v hresumes hcontrol hthread =>
      exact pays_of_running hresumes.pays hcontrol rfl (Nat.lt_succ_self f.pc)
  | @handle f cs s handled pc hends hverdict hcontrol hthread =>
      obtain ⟨f₀, hactive, hgoes⟩ := hends.active
      have hcode : f.scope.code.Forward := by
        rw [hgoes.scope]
        exact hforward f₀ (hactive ▸ List.mem_cons_self)
      exact pays_of_running hends.pays hcontrol rfl (hcode.lt_of_verdict hverdict)
  | leave hleaves hresult hcontrol hthread =>
      rw [potential_of_leaving hcontrol]
      exact hleaves.pays
  | stop hleaving hsame =>
      rw [hsame, begins?_of_leaving hleaving]
      simp

/-! ## Steps come down -/

/-- How far a machine is from having left all its frames. -/
def Machine.height (m : Machine) : Nat :=
  match m.control with
  | .running _ cs => 2 * (cs.length + 1)
  | .leaving _ _ cs => 2 * cs.length + 1

theorem Machine.height_of_running {m : Machine} {f : Frame} {cs : List Frame}
    (hcontrol : m.control = .running f cs) : m.height = 2 * (cs.length + 1) := by
  rw [height, hcontrol]

theorem Machine.height_of_leaving {m : Machine} {r : Completion} {a : Activation}
    {cs : List Frame} (hcontrol : m.control = .leaving r a cs) : m.height = 2 * cs.length + 1 := by
  rw [height, hcontrol]

theorem Machine.begins?_length_of_running {m : Machine} {f : Frame} {cs : List Frame} {i : Instr}
    (hrunning : m.control = .running f cs) (hnext : f.next? = some i) :
    m.begins?.toList.length = 1 := by
  rw [begins?_of_running hrunning hnext]
  rfl

theorem Machine.EndsIn.height_le {m : Machine} {f : Frame} {cs : List Frame} {s : Signal}
    (hends : m.EndsIn f cs s) :
    2 * (cs.length + 1) + 1 ≤ m.height + m.begins?.toList.length := by
  cases hends with
  | own hrunning hnext heffect =>
      rw [height_of_running hrunning, begins?_length_of_running hrunning hnext]
  | unplaced hrunning hnext heffect hplace =>
      rw [height_of_running hrunning, begins?_length_of_running hrunning hnext]
  | callee hleaving =>
      rw [height_of_leaving hleaving, List.length_cons]
      exact Nat.le_add_right _ _

theorem Machine.Resumes.height_le {m : Machine} {f : Frame} {cs : List Frame} {v : Value}
    (hresumes : m.Resumes f cs v) :
    2 * (cs.length + 1) + 1 ≤ m.height + m.begins?.toList.length := by
  cases hresumes with
  | value hleaving =>
      rw [height_of_leaving hleaving, List.length_cons]
      exact Nat.le_add_right _ _
  | consume hends hverdict => exact hends.height_le

theorem Machine.Leaves.height_le {m : Machine} {f : Frame} {cs : List Frame} {r : Completion}
    (hleaves : m.Leaves f cs r) : 2 * (cs.length + 1) ≤ m.height + m.begins?.toList.length := by
  cases hleaves with
  | close hrunning hend =>
      rw [height_of_running hrunning]
      exact Nat.le_add_right _ _
  | finish hends hverdict => exact Nat.le_of_succ_le hends.height_le
  | pass hends hverdict => exact Nat.le_of_succ_le hends.height_le

/-- Unless the machine has stopped, a step that executes nothing comes down; one that executes an
instruction goes up by one frame at most. -/
theorem Machine.step_height {m : Machine} (hgoes : m.outcome? = none) :
    (m.step setup).height + 1 ≤ m.height + 3 * m.begins?.toList.length := by
  cases m.step_turn setup with
  | proceed hrunning hnext heffect hcontrol hthread =>
      rw [height_of_running hcontrol, height_of_running hrunning,
        begins?_length_of_running hrunning hnext]
      omega
  | enter hrunning hnext heffect hcontrol hentered hover =>
      rw [height_of_running hcontrol, height_of_running hrunning,
        begins?_length_of_running hrunning hnext, List.length_cons]
      omega
  | refuse hrunning hnext heffect hrefuses hcontrol hthread =>
      rw [height_of_leaving hcontrol, height_of_running hrunning,
        begins?_length_of_running hrunning hnext, List.length_cons]
      omega
  | resume hresumes hcontrol hthread =>
      have hheight := hresumes.height_le
      rw [height_of_running hcontrol]
      omega
  | handle hends hverdict hcontrol hthread =>
      have hheight := hends.height_le
      rw [height_of_running hcontrol]
      omega
  | leave hleaves hresult hcontrol hthread =>
      have hheight := hleaves.height_le
      rw [height_of_leaving hcontrol]
      omega
  | stop hleaving hsame => cases (outcome?_of_leaving hleaving).symm.trans hgoes

/-! ## Runs -/

/-- A machine that executes only so many instructions, however long it runs, stops. -/
theorem Machine.exists_stops_of_executed_le {m : Machine} {count : Nat}
    (hbound : ∀ n, (m.advance setup n).record.executed ≤ count) : ∃ o, m.Stops setup o := by
  by_contra hruns
  have hgoes (n : Nat) : (m.advance setup n).outcome? = none := by
    cases hstopped : (m.advance setup n).outcome? with
    | none => rfl
    | some o => exact absurd ⟨o, n, hstopped⟩ hruns
  have hsteps (n : Nat) : (m.advance setup n).height + n ≤
      m.height + 3 * (m.advance setup n).record.executed := by
    induction n with
    | zero => exact Nat.le_add_right _ _
    | succ n ih =>
        have hstep := @step_height setup _ (hgoes n)
        rw [advance_succ, step_executed]
        omega
  have hlast := hsteps (m.height + 3 * count + 1)
  have hcount := hbound (m.height + 3 * count + 1)
  omega

/-- Along a run of a program that leads forward, what was executed and what there is left to
execute do not grow together. -/
theorem Machine.StackedOn.advance_pays {m : Machine} {base : Thread}
    (hstacked : m.StackedOn setup.program base []) (hforward : setup.program.Forward)
    (hdepth : ∀ n, (m.advance setup n).active.length ≤ limit) (n : Nat) :
    (m.advance setup n).record.executed +
        (m.advance setup n).potential setup.program limit ≤
      m.record.executed + m.potential setup.program limit := by
  induction n with
  | zero => exact Nat.le_refl _
  | succ n ih =>
      have hcode : ∀ f ∈ (m.advance setup n).active, f.scope.code.Forward := by
        intro f hf
        obtain ⟨inner, hinner, hstack⟩ := hstacked.advance n
        rw [List.append_nil] at hinner
        obtain ⟨id, hid⟩ := hstack.scope_mem (hinner ▸ hf)
        exact hforward f.scope (Array.mem_of_getElem? hid)
      have hnext := hdepth (n + 1)
      rw [advance_succ] at hnext ⊢
      have hpays := step_pays hcode hnext
      rw [step_executed]
      omega

/-- No more frames are active than scopes may be nested. -/
theorem Setup.runRoot_active_length_le (setup : Setup) (receiver : Value) (file : String)
    (record : Record) (n : Nat) :
    ((setup.runRoot receiver (.fresh file) record).advance setup n).active.length ≤
      setup.settings.maxCallDepth := by
  have htower := setup.runRoot_tower receiver (.fresh file) record n
  cases hactive : ((setup.runRoot receiver (.fresh file) record).advance setup n).active with
  | nil => exact Nat.zero_le _
  | cons f fs =>
      rw [hactive] at htower
      have hnesting := htower.nesting_eq.1
      rw [show (Thread.fresh file).nesting = 0 from rfl, Nat.zero_add] at hnesting
      exact hnesting ▸ htower.nesting_le

/-- A run begins with no more to execute than scopes nested as deeply as they may be. -/
theorem Setup.runRoot_potential_le (setup : Setup) (receiver : Value) (file : String)
    (record : Record) :
    (setup.runRoot receiver (.fresh file) record).potential setup.program
      setup.settings.maxCallDepth ≤ setup.program.workload setup.settings.maxCallDepth := by
  rcases setup.runRoot_cases receiver (.fresh file) record with
    ⟨s, a, -, hcontrol⟩ | ⟨scope, nesting, call, hscope, hcontrol⟩
  · rw [Machine.potential_of_leaving hcontrol]
    exact Nat.zero_le _
  · have hroot := setup.runRoot_active_length_le receiver file record 0
    rw [Machine.advance, Machine.active_of_running hcontrol] at hroot
    obtain ⟨depth, hdepth⟩ : ∃ depth, setup.settings.maxCallDepth = depth + 1 :=
      Nat.exists_eq_add_of_le' hroot
    have hlength := Program.length_le_longest hscope
    rw [Machine.potential_of_running hcontrol, hdepth, Program.workload_succ]
    exact Nat.mul_le_mul_right _ (Nat.le_trans (Nat.sub_le _ _) hlength)

/-- A run, on a fresh thread, of a program whose branches and handlers lead forward stops, however
the program calls its scopes: it executes no more instructions than the sum of the powers of the
length of the longest scope up to the limit on depth. -/
theorem forward_run_terminates (hforward : setup.program.Forward) (receiver : Value)
    (file : String) (record : Record) :
    ∃ o, (setup.runRoot receiver (.fresh file) record).Stops setup o ∧
      (o.ofRoot setup).record.executed ≤ record.executed +
        ∑ i ∈ Finset.range setup.settings.maxCallDepth, setup.program.longest ^ (i + 1) := by
  have hbound (n : Nat) :
      ((setup.runRoot receiver (.fresh file) record).advance setup n).record.executed ≤
        record.executed + setup.program.workload setup.settings.maxCallDepth := by
    have hpays := (setup.runRoot_stackedOn receiver (.fresh file) record).advance_pays hforward
      (setup.runRoot_active_length_le receiver file record) n
    have hstart := setup.runRoot_potential_le receiver file record
    rw [setup.runRoot_executed] at hpays
    omega
  obtain ⟨o, n, hstopped⟩ := Machine.exists_stops_of_executed_le hbound
  refine ⟨o, ⟨n, hstopped⟩, ?_⟩
  rw [o.ofRoot_executed, (Machine.control_of_outcome hstopped).2.2]
  exact hbound n

namespace TerminationWitness

/-- A script whose method calls itself under the protection of ensure code, and skips an
instruction. -/
def listing : Listing where
  name := "recursing"
  root := 0
  scopes := [
    ⟨"<main>", .script, none, [.instr (.callMethod ⟨1⟩ [] none)], []⟩,
    ⟨"work", .method, none,
      [.label ⟨0⟩, .instr (.callMethod ⟨1⟩ [] none), .label ⟨1⟩, .instr (.jump ⟨2⟩),
        .label ⟨2⟩, .instr .resumePending],
      [.ensuring ⟨0⟩ ⟨1⟩ ⟨2⟩]⟩]

def recursing : Setup where
  program :=
    { name := "recursing"
      root := ⟨0⟩
      scopes := #[
        ⟨⟨0⟩, "<main>", .script, none, ⟨#[.callMethod ⟨1⟩ [] none], [], []⟩⟩,
        ⟨⟨1⟩, "work", .method, none,
          ⟨#[.callMethod ⟨1⟩ [] none, .jump ⟨2⟩, .resumePending],
            [(⟨0⟩, 0), (⟨1⟩, 1), (⟨2⟩, 2)], [⟨0, 1, some 2, some 2⟩]⟩⟩] }
  settings := { maxCallDepth := 3 }

theorem recursing_listed : recursing.program.Listed := ⟨listing, rfl⟩

theorem recursing_forward : recursing.program.Forward := by decide

/-- Three levels of three instructions at most: the run stops after no more than 3 + 9 + 27. -/
theorem forward_run_terminates_recursing :
    recursing.program.Listed ∧ recursing.program.Forward ∧ recursing.program.longest = 3 ∧
    ∃ o, (recursing.runRoot .nil (.fresh "-") {}).Stops recursing o ∧
      (o.ofRoot recursing).record.executed ≤ 39 := by
  obtain ⟨o, hstops, hexecuted⟩ := forward_run_terminates recursing_forward .nil "-" {}
  exact ⟨recursing_listed, recursing_forward, rfl, o, hstops, hexecuted⟩

end TerminationWitness

end Unwind
