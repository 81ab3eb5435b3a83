import Unwind.Proofs.Validation

/-!
Register files are large enough.

The code of a scope says how many registers its frames need.  A frame begins with that many, or
with all its arguments if these are more, and keeps its number of registers.  No instruction and
no result of a call touches a register beyond those that the code needs.
-/

namespace Unwind

variable {setup : Setup}

/-! ## Registers beyond those in use -/

/-- The activation with more registers behind its own. -/
def Activation.extend (a : Activation) (more : Array Value) : Activation :=
  { a with registers := a.registers ++ more }

def Performed.extend (p : Performed) (more : Array Value) : Performed :=
  { p with activation := p.activation.extend more }

theorem size_padRegisters (registers : Array Value) (count : Nat) :
    (padRegisters registers count).size = max registers.size count := by
  rw [padRegisters, Array.size_append, Array.size_replicate]
  omega

theorem padRegisters_of_le {registers : Array Value} {count : Nat}
    (hcount : count ≤ registers.size) : padRegisters registers count = registers := by
  rw [padRegisters, Nat.sub_eq_zero_of_le hcount, Array.replicate_zero, Array.append_empty]

section Registers

variable {a : Activation} {r : Reg}

theorem Activation.set_of_lt (hr : r.toNat < a.registers.size) (v : Value) :
    a.set r v = { a with registers := a.registers.setIfInBounds r.toNat v } := by
  rw [set, padRegisters_of_le hr]

theorem Activation.size_set (hr : r.toNat < a.registers.size) (v : Value) :
    (a.set r v).registers.size = a.registers.size := by
  rw [set_of_lt hr, Array.size_setIfInBounds]

theorem Activation.size_store {slot : Option Reg}
    (hslot : ∀ r, slot = some r → r.toNat < a.registers.size) (v : Value) :
    (a.store slot v).registers.size = a.registers.size := by
  cases slot with
  | none => rfl
  | some r => exact size_set (hslot r rfl) v

theorem Activation.get_extend (hr : r.toNat < a.registers.size) (more : Array Value) :
    (a.extend more).get r = a.get r := by
  simp [get, extend, Array.getD_eq_getD_getElem?, Array.getElem?_append_left hr]

theorem Activation.set_extend (hr : r.toNat < a.registers.size) (v : Value)
    (more : Array Value) : (a.extend more).set r v = (a.set r v).extend more := by
  have hextended : r.toNat < (a.extend more).registers.size := by
    rw [extend, Array.size_append]
    omega
  rw [set_of_lt hextended, set_of_lt hr, extend, extend,
    Array.setIfInBounds_append_left hr]

theorem Activation.operand_extend {o : Operand}
    (ho : ∀ r, o.reg? = some r → r.toNat < a.registers.size) (receiver : Value)
    (more : Array Value) : (a.extend more).operand receiver o = a.operand receiver o := by
  cases o with
  | reg r => exact get_extend (ho r rfl) more
  | const v => rfl
  | receiver => rfl
  | nil => rfl

theorem Activation.size_receive (hr : r.toNat < a.registers.size) :
    (a.receive r).registers.size = a.registers.size := by
  rw [receive]
  split
  · exact size_set (a := a.takePending.2) hr _
  · exact size_set hr .nil

theorem Activation.receive_extend (hr : r.toNat < a.registers.size) (more : Array Value) :
    (a.extend more).receive r = (a.receive r).extend more := by
  have hpending : (a.extend more).pending = a.pending := rfl
  rw [receive, receive, hpending]
  split
  · exact set_extend (a := a.takePending.2) hr _ more
  · exact set_extend hr .nil more

end Registers

/-! ## Instructions -/

section Instr

variable {i : Instr} {count : Nat} {a : Activation}

theorem Instr.slot_lt (hregisters : ∀ r ∈ i.registers, r.toNat < count) {r : Reg}
    (hr : i.resultSlot? = some r) : r.toNat < count := by
  apply hregisters
  rw [registers, List.mem_append, hr]
  exact Or.inr List.mem_cons_self

theorem Instr.operand_lt (hregisters : ∀ r ∈ i.registers, r.toNat < count) {o : Operand}
    (ho : o ∈ i.operands) {r : Reg} (hr : o.reg? = some r) : r.toNat < count := by
  apply hregisters
  rw [registers, List.mem_append]
  exact Or.inl (List.mem_filterMap.mpr ⟨o, ho, hr⟩)

theorem Instr.size_perform (hregisters : ∀ r ∈ i.registers, r.toNat < a.registers.size)
    (t : Thread) (receiver : Value) :
    (i.perform t receiver a).activation.registers.size = a.registers.size := by
  have hacts := i.perform_acts t receiver a
  generalize i.perform t receiver a = performed at *
  cases hacts with
  | write hr => exact Activation.size_set (slot_lt hregisters hr) _
  | receive hi =>
      subst hi
      exact Activation.size_receive (slot_lt hregisters rfl)
  | _ => rfl

/-- Registers behind those that an instruction mentions are neither read nor changed by it. -/
theorem Instr.perform_extend (hregisters : ∀ r ∈ i.registers, r.toNat < a.registers.size)
    (t : Thread) (receiver : Value) (more : Array Value) :
    i.perform t receiver (a.extend more) = (i.perform t receiver a).extend more := by
  have hslot {r : Reg} := slot_lt hregisters (r := r)
  have hoperand {o : Operand} (ho : o ∈ i.operands) :
      (a.extend more).operand receiver o = a.operand receiver o :=
    Activation.operand_extend (fun r hr => operand_lt hregisters ho hr) receiver more
  have hargs : i.operands.map ((a.extend more).operand receiver) =
      i.operands.map (a.operand receiver) :=
    List.map_congr_left fun o ho => hoperand ho
  cases i with
  | loadConst value dst =>
      simp only [perform, Performed.extend, Activation.set_extend (hslot rfl)]
  | copy src dst =>
      simp only [perform, Performed.extend, Activation.set_extend (hslot rfl),
        hoperand (List.mem_singleton_self src)]
  | binary op lhs rhs dst =>
      simp only [perform, hoperand (o := lhs) (by simp [operands]),
        hoperand (o := rhs) (by simp [operands]), Activation.set_extend (hslot rfl)]
      split <;> rfl
  | jump target => rfl
  | branch truthy cond target =>
      simp only [perform, hoperand (List.mem_singleton_self cond)]
      split <;> rfl
  | ret value method =>
      simp only [perform, hoperand (List.mem_singleton_self value)]
      rfl
  | brk value target =>
      simp only [perform, hoperand (List.mem_singleton_self value)]
      rfl
  | raise value =>
      simp only [perform, hoperand (List.mem_singleton_self value)]
      rfl
  | fatal message => rfl
  | receiveException dst =>
      simp only [perform, Performed.extend, Activation.receive_extend (hslot rfl)]
  | resumePending =>
      have hpending : (a.extend more).pending = a.pending := rfl
      cases hsignal : a.pending <;>
        simp only [perform, Activation.takePending, hpending, hsignal] <;> rfl
  | clearPending => rfl
  | callMethod method args dst =>
      rw [operands] at hargs
      simp only [perform, hargs]
      rfl
  | callClosure closure mode args dst =>
      rw [operands] at hargs
      simp only [perform, hargs]
      rfl
  | line number => rfl

/-- A register file of `count` registers has all those that the instruction touches: it keeps its
size, and registers behind it are neither read nor changed. -/
structure Instr.RunsIn (i : Instr) (count : Nat) : Prop where
  size : ∀ t receiver a, a.registers.size = count →
    (i.perform t receiver a).activation.registers.size = count
  extend : ∀ t receiver a more, a.registers.size = count →
    i.perform t receiver (a.extend more) = (i.perform t receiver a).extend more

theorem Instr.runsIn (hregisters : ∀ r ∈ i.registers, r.toNat < count) : i.RunsIn count := by
  constructor
  case size =>
    rintro t receiver a rfl
    exact size_perform hregisters t receiver
  case extend =>
    rintro t receiver a more rfl
    exact perform_extend hregisters t receiver more

end Instr

/-! ## The registers that code needs -/

theorem foldl_max_le_iff (rs : List Reg) (least count : Nat) :
    rs.foldl (fun n r => max n (r.toNat + 1)) least ≤ count ↔
      least ≤ count ∧ ∀ r ∈ rs, r.toNat < count := by
  induction rs generalizing least with
  | nil => simp
  | cons r rs ih =>
      rw [List.foldl_cons, ih, List.forall_mem_cons, Nat.max_le, and_assoc, Nat.lt_iff_add_one_le]

/-- The number of registers that code needs bounds all that its instructions mention, and is the
least number that does. -/
theorem Code.registerCount_le_iff (code : Code) (count : Nat) :
    code.registerCount ≤ count ↔ ∀ i ∈ code.instrs, ∀ r ∈ i.registers, r.toNat < count := by
  rw [registerCount, foldl_max_le_iff]
  simp only [Nat.zero_le, true_and, List.mem_flatMap, Array.mem_toList_iff]
  constructor
  · intro hbound i hi r hr
    exact hbound r ⟨i, hi, hr⟩
  · rintro hbound r ⟨i, hi, hr⟩
    exact hbound i hi r hr

theorem Code.lt_registerCount {code : Code} {i : Instr} (hi : i ∈ code.instrs) :
    ∀ r ∈ i.registers, r.toNat < code.registerCount :=
  (code.registerCount_le_iff _).mp (Nat.le_refl _) i hi

theorem ScopeDraft.lt_registerLimit_of_checkInstr {d : ScopeDraft} {scope : String} {i : Instr}
    (hchecked : d.checkInstr scope i = .ok ()) : ∀ r ∈ i.registers, r.toNat < registerLimit := by
  unfold checkInstr at hchecked
  split at hchecked
  · cases hchecked
  · rename_i hnone
    intro r hr
    simpa using List.find?_eq_none.mp hnone r hr

theorem Program.Built.registerCount_le {p : Program} (hbuilt : p.Built) {id : ScopeId} {s : Scope}
    (hscope : p.scope? id = some s) : s.code.registerCount ≤ registerLimit := by
  obtain ⟨d, root, hdrafted, hfinish⟩ := hbuilt
  obtain ⟨declared, hdeclared, hfinished⟩ := (d.scope?_of_finish hfinish _).2 s hscope
  obtain ⟨code, hcode, -, rfl⟩ := ProgramDraft.finishScope_eq hfinished
  obtain ⟨body, -, hbuild⟩ :=
    hdrafted.codeFrom declared (Array.mem_of_getElem? hdeclared) code hcode
  simp only [ScopeDraft.build, Except.bind_eq_ok_iff] at hbuild
  obtain ⟨_, -, _, hchecked, regions, -, hbuilt⟩ := hbuild
  cases hbuilt
  rw [Code.registerCount_le_iff]
  intro i hi
  exact ScopeDraft.lt_registerLimit_of_checkInstr
    (ScopeDraft.checkInstr_of_checkInstrs hchecked (Array.mem_toList_iff.mpr hi))

/-! ## Frames -/

/-- What a frame that began with so many arguments keeps. -/
structure Frame.Fits (p : Program) (args : Nat) (f : Frame) : Prop where
  scope : ∃ id, p.scope? id = some f.scope
  size : f.activation.registers.size = max args f.scope.code.registerCount
  last : ∀ i, f.last = some i → i ∈ f.scope.code.instrs

section Fits

variable {p : Program} {args : Nat} {f : Frame} {i : Instr}

theorem Scope.entry_fits {id : ScopeId} {scope : Scope} (hscope : p.scope? id = some scope)
    (a : Activation) (nesting : Nat) (call : Option MethodCall) :
    (scope.entry a nesting call).Fits p a.registers.size where
  scope := ⟨id, hscope⟩
  size := size_padRegisters a.registers scope.code.registerCount
  last := nofun

theorem Scope.entry_fresh_fits {id : ScopeId} {scope : Scope} (hscope : p.scope? id = some scope)
    (invocation : Invocation) (vs : List Value) (nesting : Nat) (call : Option MethodCall) :
    (scope.entry (.fresh invocation vs) nesting call).Fits p vs.length :=
  entry_fits hscope (.fresh invocation vs) nesting call

theorem Frame.mem_instrs_of_next? (hnext : f.next? = some i) : i ∈ f.scope.code.instrs :=
  Array.mem_of_getElem? hnext

theorem Frame.Fits.registers_lt (hfits : f.Fits p args) (hi : i ∈ f.scope.code.instrs) :
    ∀ r ∈ i.registers, r.toNat < f.activation.registers.size := by
  intro r hr
  have hlt := Code.lt_registerCount hi r hr
  rw [hfits.size]
  omega

theorem Frame.Fits.calling (hfits : f.Fits p args) (hnext : f.next? = some i) :
    (f.calling i).Fits p args where
  scope := hfits.scope
  size := hfits.size
  last _ hj := Option.some.inj hj ▸ Frame.mem_instrs_of_next? hnext

theorem Frame.Fits.after (hfits : f.Fits p args) (hnext : f.next? = some i) (m : Machine) :
    (f.after i m).Fits p args where
  scope := hfits.scope
  size := by
    have hregisters := hfits.registers_lt (Frame.mem_instrs_of_next? hnext)
    exact (Instr.size_perform hregisters m.thread m.receiver).trans hfits.size
  last _ hj := Option.some.inj hj ▸ Frame.mem_instrs_of_next? hnext

theorem Frame.Fits.goTo (hfits : f.Fits p args) (pc : Nat) : (f.goTo pc).Fits p args :=
  ⟨hfits.scope, hfits.size, hfits.last⟩

theorem Frame.Fits.handle (hfits : f.Fits p args) (pc : Nat) (s : Signal) :
    (f.handle pc s).Fits p args :=
  ⟨hfits.scope, hfits.size, hfits.last⟩

/-- The register that a result goes to is one that the code needs. -/
theorem Frame.Fits.slot_lt (hfits : f.Fits p args) {r : Reg}
    (hr : f.last.bind Instr.resultSlot? = some r) : r.toNat < f.scope.code.registerCount := by
  obtain ⟨i, hi, hslot⟩ := Option.bind_eq_some_iff.mp hr
  exact Instr.slot_lt (Code.lt_registerCount (hfits.last i hi)) hslot

theorem Frame.Fits.resume (hfits : f.Fits p args) (v : Value) : (f.resume v).Fits p args where
  scope := hfits.scope
  size := by
    refine (Activation.size_store (fun r hr => ?_) v).trans hfits.size
    have hlt := hfits.slot_lt hr
    rw [hfits.size]
    omega
  last := hfits.last

end Fits

/-! ## Runs -/

def Call.args : Call → List Value
  | .method _ args => args
  | .closure _ _ args => args

theorem Call.length_args {i : Instr} {t : Thread} {receiver : Value} {a : Activation} {c : Call}
    (heffect : (i.perform t receiver a).effect = .call c) :
    c.args.length = i.operands.length := by
  have hacts := i.perform_acts t receiver a
  generalize i.perform t receiver a = performed at *
  cases hacts with
  | callMethod hi =>
      cases heffect
      rw [hi]
      exact List.length_map _
  | callClosure hi =>
      cases heffect
      rw [hi]
      exact List.length_map _
  | _ => cases heffect

theorem Call.EnteredAs.fits {module : Module} {c : Call} {g : Frame}
    (hentered : c.EnteredAs setup module g) : g.Fits setup.program c.args.length := by
  cases hentered with
  | method hscope hmethod hmodule htraceable => exact Scope.entry_fresh_fits hscope _ _ _ _
  | closure hscope => exact Scope.entry_fresh_fits hscope _ _ _ _

/-- Runs that begin with a number of arguments: of a scope or a method in an activation, of the
root of the program, or for the call of a single instruction. -/
inductive Setup.Begins (setup : Setup) : Nat → Machine → Prop
  | scope (receiver : Value) (thread : Thread) (record : Record) (id : ScopeId) (a : Activation) :
      setup.Begins a.registers.size (setup.interpret receiver thread record id a)
  | method (receiver : Value) (thread : Thread) (record : Record) (id : ScopeId) (a : Activation)
      (method : String) (module : Module) (traceable : Bool) :
      setup.Begins a.registers.size
        (setup.invoke receiver thread record id a method module traceable)
  | root (receiver : Value) (thread : Thread) (record : Record) :
      setup.Begins 0 (setup.runRoot receiver thread record)
  | instr {receiver : Value} {thread : Thread} {record : Record} {a b : Activation} {i : Instr}
      {m : Machine} (hcalls : setup.execute receiver thread record a i = .calling m b) :
      setup.Begins i.operands.length m

theorem Setup.Begins.entry {args : Nat} {m : Machine} (hbegins : setup.Begins args m) :
    m.active = [] ∨ ∃ f, m.active = [f] ∧ f.Fits setup.program args := by
  cases hbegins with
  | scope receiver thread record id a =>
      rcases (Machine.idle receiver thread record a).enterScope_cases setup id a none [] with
        ⟨s, -, hcontrol, -⟩ | ⟨scope, hscope, hcontrol, -⟩
      · exact Or.inl (Machine.active_of_leaving hcontrol)
      · exact Or.inr ⟨_, Machine.active_of_running hcontrol, Scope.entry_fits hscope _ _ _⟩
  | method receiver thread record id a method module traceable =>
      rcases (Machine.idle receiver thread record a).enterMethod_cases setup id a method module
          traceable [] with
        ⟨s, -, hcontrol, -⟩ | ⟨scope, hscope, hcontrol, -⟩
      · exact Or.inl (Machine.active_of_leaving hcontrol)
      · exact Or.inr ⟨_, Machine.active_of_running hcontrol, Scope.entry_fits hscope _ _ _⟩
  | root receiver thread record =>
      rcases setup.runRoot_cases receiver thread record with
        ⟨s, a, -, hcontrol⟩ | ⟨scope, nesting, call, hscope, hcontrol⟩
      · exact Or.inl (Machine.active_of_leaving hcontrol)
      · exact Or.inr ⟨_, Machine.active_of_running hcontrol,
          Scope.entry_fresh_fits hscope .method [] _ _⟩
  | @instr receiver thread record a b i m hcalls =>
      obtain ⟨c, heffect, -, rfl⟩ := setup.execute_eq_calling hcalls
      rw [← Call.length_args heffect]
      rcases (Machine.idle receiver thread record a).enterCall_cases setup c [] with
        ⟨s, b, -, hcontrol, -⟩ | ⟨g, hentered, -, hcontrol⟩
      · exact Or.inl (Machine.active_of_leaving hcontrol)
      · exact Or.inr ⟨g, Machine.active_of_running hcontrol, hentered.fits⟩

/-- The number of arguments with which a frame in front of the frames `rest` began, if the run
began with `args`. -/
def argCount (args : Nat) : List Frame → Nat
  | [] => args
  | g :: _ => (g.last.elim [] Instr.operands).length

theorem Machine.EndsIn.fits {p : Program} {m : Machine} {f : Frame} {cs : List Frame} {s : Signal}
    {args : Nat} (hends : m.EndsIn f cs s) (hfits : ∀ g, m.IsActive g cs → g.Fits p args) :
    f.Fits p args := by
  cases hends with
  | own hrunning hnext _ => exact (hfits _ ⟨[], active_of_running hrunning⟩).after hnext m
  | unplaced hrunning hnext _ _ => exact (hfits _ ⟨[], active_of_running hrunning⟩).after hnext m
  | callee hleaving => exact hfits f ⟨[], active_of_leaving hleaving⟩

theorem Machine.Resumes.fits {p : Program} {m : Machine} {f : Frame} {cs : List Frame} {v : Value}
    {args : Nat} (hresumes : m.Resumes f cs v) (hfits : ∀ g, m.IsActive g cs → g.Fits p args) :
    f.Fits p args := by
  cases hresumes with
  | value hleaving => exact hfits f ⟨[], active_of_leaving hleaving⟩
  | consume hends _ => exact hends.fits hfits

theorem Setup.Begins.fits {args : Nat} {m : Machine} (hbegins : setup.Begins args m) (n : Nat)
    {f : Frame} {rest : List Frame} (hactive : (m.advance setup n).IsActive f rest) :
    f.Fits setup.program (argCount args rest) := by
  induction n generalizing f rest with
  | zero =>
      obtain ⟨inner, hinner⟩ := hactive
      rcases hbegins.entry with hnone | ⟨g, hone, hfits⟩
      · simp [Machine.advance, hnone] at hinner
      · cases inner with
        | nil =>
            obtain ⟨rfl, rfl⟩ := List.cons.inj (hone.symm.trans hinner)
            exact hfits
        | cons top inner => simp [Machine.advance, hone] at hinner
  | succ n ih =>
      rw [Machine.advance_succ] at hactive
      cases hactive.origin with
      | @waited e inner hwaited => exact ih ⟨e :: inner, hwaited⟩
      | entered hrunning hnext heffect hcontrol hrest hentered =>
          -- the caller waits with the instruction that has passed the arguments
          subst hrest
          have hfits := hentered.fits
          rwa [Call.length_args heffect] at hfits
      | called hrunning hnext heffect hg =>
          subst hg
          exact (ih ⟨[], Machine.active_of_running hrunning⟩).calling hnext
      | proceeded hrunning hnext heffect hcontrol hg =>
          subst hg
          exact ((ih ⟨[], Machine.active_of_running hrunning⟩).after hnext _).goTo _
      | resumed hresumes hcontrol hg =>
          subst hg
          exact (hresumes.fits fun g hg => ih hg).resume _
      | handled hends hverdict hcontrol hg =>
          subst hg
          exact (hends.fits fun g hg => ih hg).handle _ _

/-- Every frame has as many registers as it has arguments, or as its code needs if that is more,
and these are no more than there may be.  What it executes runs in the registers that the code
needs, and so does what takes the result of a call or the value of a `break`. -/
theorem register_file_enough (hbuilt : setup.program.Built) {args : Nat} {m : Machine}
    (hbegins : setup.Begins args m) (n : Nat) :
    (∀ f rest, (m.advance setup n).IsActive f rest →
      f.activation.registers.size = max (argCount args rest) f.scope.code.registerCount ∧
        f.scope.code.registerCount ≤ registerLimit) ∧
    (∀ f i, (m.advance setup n).executing? = some (f, i) →
      (∀ r ∈ i.registers, r.toNat < f.scope.code.registerCount) ∧
        i.RunsIn f.scope.code.registerCount) ∧
    ∀ f cs v, (m.advance setup n).Resumes f cs v →
      (∀ r, f.last.bind Instr.resultSlot? = some r → r.toNat < f.scope.code.registerCount) ∧
        (f.resume v).activation.registers.size = f.activation.registers.size := by
  refine ⟨?_, ?_, ?_⟩
  · intro f rest hactive
    have hfits := hbegins.fits n hactive
    obtain ⟨id, hscope⟩ := hfits.scope
    exact ⟨hfits.size, hbuilt.registerCount_le hscope⟩
  · intro f i hexecuting
    obtain ⟨cs, hrunning, hnext⟩ := Machine.running_of_executing hexecuting
    have hregisters := Code.lt_registerCount (Frame.mem_instrs_of_next? hnext)
    exact ⟨hregisters, Instr.runsIn hregisters⟩
  · intro f cs v hresumes
    have hfits := hresumes.fits fun g hg => hbegins.fits n hg
    exact ⟨fun r hr => hfits.slot_lt hr, (hfits.resume v).size.trans hfits.size.symm⟩

namespace RegisterFileWitness

/-- A script that calls a method with more arguments than this has registers; the method takes
the value of a `break` out of its block. -/
def listing : Listing where
  name := "picking"
  root := 0
  scopes := [
    ⟨"<main>", .script, none,
      [.instr (.callMethod ⟨1⟩ [.const (.int 7), .receiver, .nil] (some ⟨4⟩)),
        .instr (.ret (.reg ⟨4⟩) none)], []⟩,
    ⟨"pick", .method, none,
      [.instr (.callClosure ⟨2⟩ .block [.reg ⟨0⟩] (some ⟨1⟩)), .instr (.ret (.reg ⟨1⟩) none)], []⟩,
    ⟨"block in pick", .closure, some ⟨1⟩, [.instr (.brk (.reg ⟨0⟩) ⟨1⟩)], []⟩]

def picking : Setup where
  program :=
    { name := "picking"
      root := ⟨0⟩
      scopes := #[
        ⟨⟨0⟩, "<main>", .script, none,
          ⟨#[.callMethod ⟨1⟩ [.const (.int 7), .receiver, .nil] (some ⟨4⟩), .ret (.reg ⟨4⟩) none],
            [], []⟩⟩,
        ⟨⟨1⟩, "pick", .method, none,
          ⟨#[.callClosure ⟨2⟩ .block [.reg ⟨0⟩] (some ⟨1⟩), .ret (.reg ⟨1⟩) none], [], []⟩⟩,
        ⟨⟨2⟩, "block in pick", .closure, some ⟨1⟩, ⟨#[.brk (.reg ⟨0⟩) ⟨1⟩], [], []⟩⟩] }

theorem picking_listed : picking.program.Listed := ⟨listing, rfl⟩

def run : Machine := picking.runRoot .nil (.fresh "-") {}

/-- The method keeps three registers, of which it needs two, also when its second one takes the
value of the `break`; the script keeps the five that it needs. -/
theorem register_file_enough_picking :
    picking.program.Listed ∧ picking.Begins 0 run ∧
      (∃ f g rest, (run.advance picking 3).active = f :: g :: rest ∧
        f.activation.registers.size = max 3 2 ∧ g.activation.registers.size = max 0 5) ∧
      (∃ f i, (run.advance picking 1).executing? = some (f, i) ∧ i.RunsIn 2) ∧
      ∃ f cs, (run.advance picking 3).Resumes f cs (.int 7) ∧
        f.last.bind Instr.resultSlot? = some ⟨1⟩ ∧ (Reg.mk 1).toNat < 2 ∧
        (f.resume (.int 7)).activation.registers.size = 3 := by
  have hbegins : picking.Begins 0 run := .root .nil (.fresh "-") {}
  have henough (n : Nat) := register_file_enough picking_listed.built hbegins n
  have hresumes : (run.advance picking 3).Resumes _ _ (.int 7) := .consume (.callee rfl) rfl
  obtain ⟨hslot, hsize⟩ := (henough 3).2.2 _ _ _ hresumes
  refine ⟨picking_listed, hbegins, ⟨_, _, _, rfl, ?_, ?_⟩, ⟨_, _, rfl, ?_⟩,
    _, _, hresumes, rfl, hslot _ rfl, hsize⟩
  · exact ((henough 3).1 _ _ ⟨[], rfl⟩).1
  · exact ((henough 3).1 _ _ ⟨[_], rfl⟩).1
  · exact ((henough 1).2.1 _ _ rfl).2

end RegisterFileWitness

end Unwind
