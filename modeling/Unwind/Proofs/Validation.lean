import Unwind.Proofs.NearestHandler
import Unwind.Proofs.Origin

/-!
Validation is enough.

What is checked when programs are drafted and finished carries over to everything that their runs
do.  Every branch has a place, every call a scope of the right sort, every handler an instruction,
and no place is beyond the end of the code, so that a run never meets the failures which stand for
a program that was not checked.
-/

namespace Unwind

variable {setup : Setup}

/-! ## Resolved code -/

/-- What building checks of code: branches have places, places are in the code or at its end, and
no region ends before it starts. -/
structure Code.Resolved (code : Code) : Prop where
  branches : ∀ i ∈ code.instrs, ∀ l, i.branchTarget? = some l → ∃ pc, code.place? l = some pc
  places : ∀ l pc, code.place? l = some pc → pc ≤ code.length
  regions : ∀ r ∈ code.regions, r.start ≤ r.stop

theorem ScopeDraft.Drafted.placed_le {d : ScopeDraft} (hd : d.Drafted) :
    ∀ entry ∈ d.placed, entry.2 ≤ d.instrs.size := by
  induction hd with
  | empty => exact nofun
  | newLabel _ ih => exact ih
  | region _ r ih => exact ih
  | @place d _ l ih =>
      intro entry hentry
      rcases List.mem_append.mp hentry with hbefore | hnew
      · exact ih entry hbefore
      · rw [List.mem_singleton.mp hnew]
        exact Nat.le_refl _
  | @emit d _ i ih =>
      intro entry hentry
      have hbefore : entry.2 ≤ d.instrs.size := ih entry hentry
      have hsize : (d.emit i).2.instrs.size = d.instrs.size + 1 := Array.size_push _
      omega

theorem ScopeDraft.checkInstr_of_checkInstrs {d : ScopeDraft} {scope : String} {is : List Instr}
    (hchecked : d.checkInstrs scope is = .ok ()) {i : Instr} (hi : i ∈ is) :
    d.checkInstr scope i = .ok () := by
  induction is with
  | nil => cases hi
  | cons head rest ih =>
      unfold checkInstrs at hchecked
      split at hchecked
      · cases hchecked
      · rename_i hhead
        rcases List.mem_cons.mp hi with rfl | hi
        · exact hhead
        · exact ih hchecked hi

/-- A branch that passes the check is to the exit or to a placed label. -/
theorem ScopeDraft.lookup_of_checkInstr {d : ScopeDraft} {scope : String} {i : Instr}
    (hchecked : d.checkInstr scope i = .ok ()) {l : Label} (htarget : i.branchTarget? = some l) :
    l = .exit ∨ ∃ pc, d.placed.lookup l = some pc := by
  unfold checkInstr at hchecked
  split at hchecked
  · cases hchecked
  · simp only [htarget] at hchecked
    by_cases hexit : l = .exit
    · exact Or.inl hexit
    · right
      simp only [hexit, ↓reduceIte, resolve] at hchecked
      split at hchecked
      · rename_i pc hpc
        exact ⟨pc, hpc⟩
      · cases hchecked

theorem ScopeDraft.build_resolved {d : ScopeDraft} (hd : d.Drafted) {scope : String} {code : Code}
    (hbuild : d.build scope = .ok code) : code.Resolved := by
  simp only [build, Except.bind_eq_ok_iff] at hbuild
  obtain ⟨_, -, _, hchecked, regions, hregions, hcode⟩ := hbuild
  cases hcode
  constructor
  · intro i hi l htarget
    have hinstr := checkInstr_of_checkInstrs hchecked (Array.mem_toList_iff.mpr hi)
    by_cases hexit : l = .exit
    · subst hexit
      exact ⟨_, Code.place?_exit _⟩
    · rcases lookup_of_checkInstr hinstr htarget with hsame | ⟨pc, hpc⟩
      · exact absurd hsame hexit
      · exact ⟨pc, by simpa [Code.place?, hexit] using hpc⟩
  · intro l pc hplace
    by_cases hexit : l = .exit
    · subst hexit
      rw [Code.place?_exit] at hplace
      exact Nat.le_of_eq (Option.some.inj hplace).symm
    · simp only [Code.place?, hexit, ↓reduceIte] at hplace
      obtain ⟨before, after, hplaced, -⟩ := List.lookup_eq_some_iff.mp hplace
      apply hd.placed_le (l, pc)
      rw [hplaced]
      simp
  · intro r hr
    obtain ⟨draft, -, hresolve⟩ := exists_of_mapM_eq_ok hregions hr
    exact (resolveRegion_eq hresolve).1

theorem Program.Built.resolved {p : Program} (hbuilt : p.Built) {id : ScopeId} {s : Scope}
    (hscope : p.scope? id = some s) : s.code.Resolved := by
  obtain ⟨d, root, hdrafted, hfinish⟩ := hbuilt
  obtain ⟨declared, hdeclared, hfinished⟩ := (d.scope?_of_finish hfinish _).2 s hscope
  obtain ⟨code, hcode, -, rfl⟩ := ProgramDraft.finishScope_eq hfinished
  have hmember := Array.mem_of_getElem? hdeclared
  obtain ⟨body, hbody, hbuild⟩ := hdrafted.codeFrom declared hmember code hcode
  exact ScopeDraft.build_resolved hbody hbuild

/-! ## Places in runs -/

theorem Frame.pc_lt_of_next? {f : Frame} {i : Instr} (hnext : f.next? = some i) :
    f.pc < f.scope.code.length := by
  obtain ⟨hlt, -⟩ := Array.getElem?_eq_some_iff.mp hnext
  exact hlt

/-- A branch of an instruction is to its target or, for a return, to the exit. -/
theorem Instr.branchTarget?_of_perform {i : Instr} {t : Thread} {receiver : Value}
    {a : Activation} {l : Label} (heffect : (i.perform t receiver a).effect = .branch l) :
    i.branchTarget? = some l ∨ l = .exit := by
  have hacts := i.perform_acts t receiver a
  generalize i.perform t receiver a = performed at *
  cases hacts with
  | branch htarget =>
      cases heffect
      exact Or.inl htarget
  | ret hi =>
      cases heffect
      exact Or.inr rfl
  | _ => cases heffect

/-- A frame whose instruction ends in a signal still has the instruction before it. -/
theorem Machine.EndsIn.next? {m : Machine} (hstart : m.waiting = []) {n : Nat} {f : Frame}
    {cs : List Frame} {s : Signal} (hends : (m.advance setup n).EndsIn f cs s) :
    ∃ i, f.next? = some i := by
  obtain ⟨k, g₀, i, hbegan, ⟨pending, rfl⟩, -⟩ := hends.began hstart (List.nil_append _).symm
  exact ⟨i, hbegan.next⟩

theorem Machine.Resumes.next? {m : Machine} (hstart : m.waiting = []) {n : Nat} {f : Frame}
    {cs : List Frame} {v : Value} (hresumes : (m.advance setup n).Resumes f cs v) :
    ∃ i, f.next? = some i := by
  cases hresumes with
  | value hleaving =>
      have hwaiting : (m.advance setup n).waiting = [] ++ f :: cs := waiting_of_leaving hleaving
      obtain ⟨k, g₀, i, rfl, hbegan, -⟩ := Machine.waiting_began hstart hwaiting
      exact ⟨i, hbegan.next⟩
  | consume hends _ => exact hends.next? hstart

/-- The scope of an active frame is the one that the program has for its identity. -/
theorem Setup.runRoot_scope? (hsound : setup.program.Sound) (receiver : Value) (thread : Thread)
    (record : Record) (n : Nat) {f : Frame}
    (hf : f ∈ ((setup.runRoot receiver thread record).advance setup n).active) :
    setup.program.scope? f.scope.id = some f.scope := by
  obtain ⟨inner, hinner, hstack⟩ := (setup.runRoot_stackedOn receiver thread record).advance n
  rw [List.append_nil] at hinner
  rw [hinner] at hf
  obtain ⟨id, hid⟩ := hstack.scope_mem hf
  rw [hsound.identity id _ hid]
  exact hid

/-- A handler that a frame enters is an instruction. -/
theorem Program.Sound.next?_of_verdict {p : Program} (hsound : p.Sound) {id : ScopeId} {f : Frame}
    (hscope : p.scope? id = some f.scope) {t : Thread} {s handled : Signal} {pc : Nat}
    (hverdict : f.verdict t s = .handle pc handled) :
    ∃ i, (f.handle pc handled).next? = some i :=
  hsound.next?_handle hscope (Frame.handlerFor?_of_verdict hverdict)

/-- No active frame is beyond the end of its code. -/
theorem Setup.runRoot_pc_le (hbuilt : setup.program.Built) (receiver : Value) (thread : Thread)
    (record : Record) (n : Nat) {f : Frame} {rest : List Frame}
    (hactive : ((setup.runRoot receiver thread record).advance setup n).IsActive f rest) :
    f.pc ≤ f.scope.code.length := by
  have hstart := setup.runRoot_waiting receiver thread record
  have hscope (n : Nat) {f : Frame} :=
    setup.runRoot_scope? hbuilt.sound receiver thread record n (f := f)
  induction n generalizing f rest with
  | zero =>
      obtain ⟨inner, hinner⟩ := hactive
      rcases setup.runRoot_cases receiver thread record with
        ⟨s, a, -, hcontrol⟩ | ⟨scope, nesting, call, -, hcontrol⟩
      · rw [Machine.advance, Machine.active_of_leaving hcontrol] at hinner
        simp at hinner
      · rw [Machine.advance, Machine.active_of_running hcontrol] at hinner
        have hf : f ∈ [scope.entry (.fresh .method []) nesting (some call)] := by
          rw [hinner]
          simp
        rw [List.mem_singleton.mp hf]
        exact Nat.zero_le _
  | succ n ih =>
      rw [Machine.advance_succ] at hactive
      cases hactive.origin with
      | @waited e inner hwaited => exact ih ⟨e :: inner, hwaited⟩
      | entered hrunning hnext heffect hcontrol hrest hentered =>
          cases hentered <;> exact Nat.zero_le _
      | @called f i c hrunning hnext heffect hg =>
          subst hg
          exact ih (f := f) ⟨[], Machine.active_of_running hrunning⟩
      | @proceeded f i pc hrunning hnext heffect hcontrol hg =>
          subst hg
          rcases heffect with ⟨-, rfl⟩ | ⟨l, -, hplace⟩
          · exact Frame.pc_lt_of_next? hnext
          · have hmember := Machine.mem_active_of_running hrunning
            exact (hbuilt.resolved (hscope n hmember)).places l pc hplace
      | resumed hresumes hcontrol hg =>
          subst hg
          obtain ⟨i, hnext⟩ := hresumes.next? hstart
          exact Frame.pc_lt_of_next? hnext
      | handled hends hverdict hcontrol hg =>
          subst hg
          obtain ⟨id, hid⟩ := hends.scope_mem
            ((setup.runRoot_stackedOn receiver thread record).advance n) List.mem_cons_self
          obtain ⟨i, hnext⟩ := hbuilt.sound.next?_of_verdict hid hverdict
          exact Nat.le_of_lt (Frame.pc_lt_of_next? hnext)

/-! ## Validated machines -/

/-- What a machine does with a program that was checked. -/
structure Machine.Validated (p : Program) (m : Machine) : Prop where
  /-- The scope of every active frame is found. -/
  scopes : ∀ f ∈ m.active, p.scope? f.scope.id = some f.scope
  /-- Every place is in the code or at its end. -/
  places : ∀ f ∈ m.active, f.pc ≤ f.scope.code.length
  /-- An instruction is executed at a place in the code. -/
  indices : ∀ f i, m.executing? = some (f, i) → f.pc < f.scope.code.length
  /-- The label of every branch has a place. -/
  branches : ∀ f i l, m.executing? = some (f, i) →
    (i.perform m.thread m.receiver f.activation).effect = .branch l →
    ∃ pc, f.scope.code.place? l = some pc
  /-- The scope of every method call is found, and is no closure. -/
  methods : ∀ f i id args, m.executing? = some (f, i) →
    (i.perform m.thread m.receiver f.activation).effect = .call (.method id args) →
    ∃ s, p.scope? id = some s ∧ s.isClosure = false
  /-- The scope of every closure call is found, and is a closure. -/
  closures : ∀ f i id mode args, m.executing? = some (f, i) →
    (i.perform m.thread m.receiver f.activation).effect = .call (.closure id mode args) →
    ∃ s, p.scope? id = some s ∧ s.isClosure = true
  /-- A frame that a method call has entered runs no closure, and one that a closure call has
  entered runs a closure. -/
  callees : ∀ f g rest, m.IsActive f (g :: rest) →
    (∃ id args dst, g.last = some (.callMethod id args dst) ∧
        p.scope? id = some f.scope ∧ f.scope.isClosure = false) ∨
      ∃ id mode args dst, g.last = some (.callClosure id mode args dst) ∧
        p.scope? id = some f.scope ∧ f.scope.isClosure = true
  /-- Every handler that is entered is an instruction. -/
  handlers : ∀ f cs s pc handled, m.EndsIn f cs s → f.verdict m.thread s = .handle pc handled →
    ∃ i, (f.handle pc handled).next? = some i
  /-- No region whose handlers are looked up ends before it starts. -/
  regions : ∀ f ∈ m.active, ∀ r ∈ f.scope.code.regions, r.start ≤ r.stop

theorem Machine.running_of_executing {m : Machine} {f : Frame} {i : Instr}
    (hexecuting : m.executing? = some (f, i)) :
    ∃ cs, m.control = .running f cs ∧ f.next? = some i := by
  cases hcontrol : m.control with
  | leaving r a cs =>
      rw [executing?_of_leaving hcontrol] at hexecuting
      cases hexecuting
  | running g cs =>
      simp only [executing?, hcontrol, Option.map_eq_some_iff, Prod.mk.injEq] at hexecuting
      obtain ⟨j, hnext, rfl, rfl⟩ := hexecuting
      exact ⟨cs, rfl, hnext⟩

/-- Of two active frames next to each other, the inner one has been entered as the call of the
outer one says. -/
theorem Setup.runRoot_callee (hsound : setup.program.Sound) (receiver : Value) (thread : Thread)
    (record : Record) (n : Nat) {f g : Frame} {rest : List Frame}
    (hactive : ((setup.runRoot receiver thread record).advance setup n).IsActive f (g :: rest)) :
    (∃ id args dst, g.last = some (.callMethod id args dst) ∧
        setup.program.scope? id = some f.scope ∧ f.scope.isClosure = false) ∨
      ∃ id mode args dst, g.last = some (.callClosure id mode args dst) ∧
        setup.program.scope? id = some f.scope ∧ f.scope.isClosure = true := by
  have hmember : g ∈ ((setup.runRoot receiver thread record).advance setup n).active := by
    obtain ⟨inner, hinner⟩ := hactive
    rw [hinner]
    simp
  have hscope := setup.runRoot_scope? hsound receiver thread record n hmember
  obtain ⟨id, hcallee, hid⟩ :=
    (setup.runRoot_called receiver thread record n).calledBy hactive
  obtain ⟨before, hwaiting⟩ := hactive.waiting
  obtain ⟨k, g₀, i, rfl, hbegan, -⟩ :=
    Machine.waiting_began (setup.runRoot_waiting receiver thread record) hwaiting
  have hinstr : i ∈ g₀.scope.code.instrs := Array.mem_of_getElem? hbegan.next
  cases i with
  | callMethod method args dst =>
      left
      obtain ⟨rfl, -⟩ := Prod.mk.inj (Option.some.inj hcallee)
      obtain ⟨t, ht, hkind⟩ := hsound.methods _ _ hscope method args dst hinstr
      rw [← Option.some.inj (hid.symm.trans ht)] at hkind
      exact ⟨method, args, dst, rfl, hid, hkind⟩
  | callClosure closure mode args dst =>
      right
      obtain ⟨rfl, -⟩ := Prod.mk.inj (Option.some.inj hcallee)
      obtain ⟨t, ht, hkind⟩ := hsound.closures _ _ hscope closure mode args dst hinstr
      rw [← Option.some.inj (hid.symm.trans ht)] at hkind
      exact ⟨closure, mode, args, dst, rfl, hid, hkind⟩
  | _ => cases hcallee

/-- The root of a program that was drafted and finished is a scope of it and no closure, and its
runs never meet a failure that the checks of drafting and finishing exclude. -/
theorem static_validation (hbuilt : setup.program.Built) (receiver : Value) (thread : Thread)
    (record : Record) (n : Nat) :
    (∃ s, setup.program.scope? setup.program.root = some s ∧ s.isClosure = false) ∧
      ((setup.runRoot receiver thread record).advance setup n).Validated setup.program := by
  have hsound := hbuilt.sound
  have hscope {f : Frame} := setup.runRoot_scope? hsound receiver thread record n (f := f)
  have hexecuted {f : Frame} {i : Instr}
      (hexecuting : ((setup.runRoot receiver thread record).advance setup n).executing? =
        some (f, i)) : f.next? = some i ∧ setup.program.scope? f.scope.id = some f.scope := by
    obtain ⟨cs, hrunning, hnext⟩ := Machine.running_of_executing hexecuting
    exact ⟨hnext, hscope (Machine.mem_active_of_running hrunning)⟩
  refine ⟨hsound.root, ?_⟩
  constructor
  case scopes =>
    intro f hf
    exact hscope hf
  case places =>
    intro f hf
    obtain ⟨inner, rest, hinner⟩ := List.append_of_mem hf
    exact setup.runRoot_pc_le hbuilt receiver thread record n ⟨inner, hinner⟩
  case indices =>
    intro f i hexecuting
    exact Frame.pc_lt_of_next? (hexecuted hexecuting).1
  case branches =>
    intro f i l hexecuting heffect
    obtain ⟨hnext, hfound⟩ := hexecuted hexecuting
    rcases Instr.branchTarget?_of_perform heffect with htarget | rfl
    · exact (hbuilt.resolved hfound).branches i (Array.mem_of_getElem? hnext) l htarget
    · exact ⟨_, Code.place?_exit _⟩
  case methods =>
    intro f i id args hexecuting heffect
    obtain ⟨hnext, hfound⟩ := hexecuted hexecuting
    rcases Instr.call_cases heffect with ⟨_, args', dst, _, rfl, hcall⟩ | ⟨_, _, _, _, _, -, hcall⟩
    · cases hcall
      exact hsound.methods _ _ hfound id args' dst (Array.mem_of_getElem? hnext)
    · cases hcall
  case closures =>
    intro f i id mode args hexecuting heffect
    obtain ⟨hnext, hfound⟩ := hexecuted hexecuting
    rcases Instr.call_cases heffect with ⟨_, _, _, _, -, hcall⟩ | ⟨_, _, args', dst, _, rfl, hcall⟩
    · cases hcall
    · cases hcall
      exact hsound.closures _ _ hfound id mode args' dst (Array.mem_of_getElem? hnext)
  case callees =>
    intro f g rest hactive
    exact setup.runRoot_callee hsound receiver thread record n hactive
  case handlers =>
    intro f cs s pc handled hends hverdict
    obtain ⟨id, hid⟩ := hends.scope_mem
      ((setup.runRoot_stackedOn receiver thread record).advance n) List.mem_cons_self
    exact hsound.next?_of_verdict hid hverdict
  case regions =>
    intro f hf r hr
    exact (hbuilt.resolved (hscope hf)).regions r hr

namespace ValidationWitness

/-- A script that calls a method, rescues what the block of this raises, and jumps back. -/
def listing : Listing where
  name := "checking"
  root := 0
  scopes := [
    ⟨"<main>", .script, none,
      [.label ⟨0⟩, .instr (.callMethod ⟨1⟩ [] none), .label ⟨1⟩, .instr (.ret .nil none),
        .label ⟨2⟩, .instr (.jump ⟨1⟩)],
      [.rescuing ⟨0⟩ ⟨1⟩ ⟨2⟩]⟩,
    ⟨"work", .method, none, [.instr (.callClosure ⟨2⟩ .block [] none)], []⟩,
    ⟨"block in work", .closure, some ⟨1⟩, [.instr (.raise (.const (.str "boom")))], []⟩]

def checking : Setup where
  program :=
    { name := "checking"
      root := ⟨0⟩
      scopes := #[
        ⟨⟨0⟩, "<main>", .script, none,
          ⟨#[.callMethod ⟨1⟩ [] none, .ret .nil none, .jump ⟨1⟩],
            [(⟨0⟩, 0), (⟨1⟩, 1), (⟨2⟩, 2)], [⟨0, 1, some 2, none⟩]⟩⟩,
        ⟨⟨1⟩, "work", .method, none, ⟨#[.callClosure ⟨2⟩ .block [] none], [], []⟩⟩,
        ⟨⟨2⟩, "block in work", .closure, some ⟨1⟩,
          ⟨#[.raise (.const (.str "boom"))], [], []⟩⟩] }

def run (n : Nat) : Machine := (checking.runRoot .nil (.fresh "-") {}).advance checking n

theorem checking_listed : checking.program.Listed := ⟨listing, rfl⟩

/-- The block and the method are entered as their sorts demand, the handler that the raise enters
is an instruction, and its jump has a place. -/
theorem static_validation_checking :
    checking.program.Listed ∧
    (∃ s, checking.program.scope? ⟨0⟩ = some s ∧ s.isClosure = false) ∧
    (∃ f g h, (run 2).active = [f, g, h] ∧ f.scope.isClosure = true ∧
      g.scope.isClosure = false) ∧
    (∃ f s i, (run 4).EndsIn f [] s ∧ f.verdict (run 4).thread s = .handle 2 s ∧
      (f.handle 2 s).next? = some i) ∧
    ∃ f pc, (run 5).executing? = some (f, .jump ⟨1⟩) ∧ f.scope.code.place? ⟨1⟩ = some pc := by
  have hvalid (n : Nat) := static_validation checking_listed.built .nil (.fresh "-") {} n
  refine ⟨checking_listed, (hvalid 0).1, ?_, ?_, ?_⟩
  · have hblock := (hvalid 2).2.callees _ _ _ ⟨[], rfl⟩
    have hmethod := (hvalid 2).2.callees _ _ _ ⟨[_], rfl⟩
    refine ⟨_, _, _, rfl, ?_, ?_⟩
    · rcases hblock with ⟨id, args, dst, hlast, -⟩ | ⟨id, mode, args, dst, -, -, hclosure⟩
      · cases hlast
      · exact hclosure
    · rcases hmethod with ⟨id, args, dst, -, -, hmethod⟩ | ⟨id, mode, args, dst, hlast, -⟩
      · exact hmethod
      · cases hlast
  · have hends : (run 4).EndsIn _ [] _ := .callee rfl
    obtain ⟨i, hi⟩ := (hvalid 4).2.handlers _ _ _ 2 _ hends rfl
    exact ⟨_, _, i, hends, rfl, hi⟩
  · have hexecuting : (run 5).executing? = some (_, .jump ⟨1⟩) := rfl
    obtain ⟨pc, hplace⟩ := (hvalid 5).2.branches _ _ ⟨1⟩ hexecuting rfl
    exact ⟨_, pc, rfl, hplace⟩

end ValidationWitness

end Unwind
