import Unwind.Proofs.Callers
import Unwind.Proofs.Landing
import Unwind.Proofs.StrayReturn

/-!
Where the `return` of a closure lands.

A `return` that a block executes goes outward to the first frame that is a lambda or runs the
method that the `return` names, and this frame ends with its value.  If the method is not active,
the block raises instead.  A `return` that a lambda executes ends the lambda alone.
-/

namespace Unwind

variable {setup : Setup}

/-! ## The end of a returning frame -/

/-- A frame that has executed a `return`, at the end of its code. -/
def Frame.returned (f : Frame) (value : Operand) (method : Option ScopeId) (v : Value) : Frame where
  scope := f.scope
  activation := f.activation.setReturn v
  pc := f.scope.code.length
  last := some (.ret value method)
  nesting := f.nesting
  call := f.call

theorem Machine.step_of_ret {m : Machine} {f : Frame} {cs : List Frame} {value : Operand}
    {method : Option ScopeId} (hrunning : m.control = .running f cs)
    (hnext : f.next? = some (.ret value method)) (setup : Setup) :
    (m.step setup).control =
        .running (f.returned value method (f.activation.operand m.receiver value)) cs ∧
      (m.step setup).thread = m.thread := by
  simp [Machine.step, hrunning, hnext, Machine.execute, Instr.perform, Code.place?_exit,
    Frame.goTo, Frame.returned]

theorem Frame.returned_next? (f : Frame) (value : Operand) (method : Option ScopeId)
    (v : Value) : (f.returned value method v).next? = none := by
  simp [Frame.next?, Frame.returned, Code.instr?, Code.length]

/-- How the frame of a closure closes after a `return`. -/
theorem Frame.close_returned {f : Frame} (hclosure : f.scope.isClosure = true)
    (value : Operand) (method : Option ScopeId) (v : Value) (t : Thread) :
    (f.returned value method v).close t =
      if f.activation.inLambda then .ok v
      else if method.any t.isActive then .error (.returnJump method v)
      else .error (.ofException (.unexpectedReturn v t.backtraceLines)) := by
  have hlambda : (f.returned value method v).activation.inLambda = f.activation.inLambda := rfl
  simp only [Frame.close, Frame.leavingReturn?, Frame.isOrphaned, hlambda]
  simp only [Frame.returned, hclosure, Activation.setReturn]
  cases f.activation.inLambda with
  | true => rfl
  | false => cases hactive : method.any t.isActive <;> simp [hactive]

/-- A frame that belongs to no method call is left with exactly what it closes with. -/
theorem Machine.step_of_end_of_bare {m : Machine} {f : Frame} {cs : List Frame}
    (hrunning : m.control = .running f cs) (hend : f.next? = none) (hcall : f.call = none)
    (setup : Setup) :
    (m.step setup).control = .leaving (f.close m.thread) f.activation cs := by
  simp [Machine.step, hrunning, hend, Machine.closeFrame, Machine.leaveFrame, Machine.leave,
    hcall]

/-- Two steps lead from a `return` out of the code of a closure. -/
theorem Machine.advance_of_closure_return {m : Machine} {n : Nat} {f : Frame} {cs : List Frame}
    {value : Operand} {method : Option ScopeId}
    (hrunning : (m.advance setup n).control = .running f cs)
    (hnext : f.next? = some (.ret value method)) (hclosure : f.scope.isClosure = true)
    (hcall : f.call = none) {v : Value}
    (hvalue : f.activation.operand (m.advance setup n).receiver value = v) :
    (m.advance setup (n + 2)).control =
      .leaving (if f.activation.inLambda then .ok v
        else if method.any (m.advance setup n).thread.isActive then .error (.returnJump method v)
        else .error (.ofException (.unexpectedReturn v
          (m.advance setup n).thread.backtraceLines))) (f.activation.setReturn v) cs := by
  obtain ⟨hreturned, hthread⟩ := Machine.step_of_ret hrunning hnext setup
  rw [← Machine.advance_succ] at hreturned hthread
  have hleft := Machine.step_of_end_of_bare hreturned (f.returned_next? value method _) hcall setup
  rwa [← Machine.advance_succ, hthread, Frame.close_returned hclosure, hvalue] at hleft

/-! ## The landing law -/

theorem Frame.stopsReturn_iff {f : Frame} {id : ScopeId} :
    f.stopsReturn (some id) = true ↔ f.activation.inLambda = true ∨ f.scope.id = id := by
  simp [Frame.stopsReturn, @eq_comm _ id]

/-- The first frame at which a `return` ends. -/
theorem exists_first_stopsReturn {cs : List Frame} {target : Option ScopeId}
    (hstops : ∃ g ∈ cs, g.stopsReturn target = true) :
    ∃ inner g outer, cs = inner ++ g :: outer ∧
      (∀ e ∈ inner, e.stopsReturn target = false) ∧ g.stopsReturn target = true := by
  obtain ⟨g, hfind⟩ := Option.isSome_iff_exists.mp (List.find?_isSome.mpr hstops)
  obtain ⟨hg, inner, outer, hsplit, hinner⟩ := List.find?_eq_some_iff_append.mp hfind
  exact ⟨inner, g, outer, hsplit, by simpa using hinner, hg⟩

/-- A `return` that the block of a closure executes, while the method that it names is active,
arrives at the first outer frame that is a lambda or runs the method, and this frame finishes with
the value; there is such a frame.  If the `return` names no method, or one that is not active, the
block is left with the raise.  In a lambda the `return` makes the call of the lambda complete with
the value. -/
theorem closure_return_lands (hbuilt : setup.program.Built) (receiver : Value) (file : String)
    (record : Record) {n : Nat} {f : Frame} {cs : List Frame} {value : Operand}
    {method : Option ScopeId} {v : Value}
    (hrunning : ((setup.runRoot receiver (.fresh file) record).advance setup n).control =
      .running f cs)
    (hnext : f.next? = some (.ret value method)) (hclosure : f.scope.isClosure = true)
    (hvalue : f.activation.operand receiver value = v) :
    (f.activation.inLambda = false →
      (∀ id, method = some id →
        ((setup.runRoot receiver (.fresh file) record).advance setup n).thread.isActive id = true →
        ∃ inner g outer l, cs = inner ++ g :: outer ∧
          (∀ e ∈ inner, e.activation.inLambda = false ∧ e.scope.id ≠ id) ∧
          (g.activation.inLambda = true ∨ g.scope.id = id) ∧
          (setup.runRoot receiver (.fresh file) record).Arrives setup (n + 1) l
            (.returnJump (some id) v) g outer ∧
          ((setup.runRoot receiver (.fresh file) record).advance setup l).FinishesWith setup g
            outer v) ∧
      ((∀ id, method = some id →
          ((setup.runRoot receiver (.fresh file) record).advance setup n).thread.isActive id =
            false) →
        ((setup.runRoot receiver (.fresh file) record).advance setup (n + 2)).control =
          .leaving (.error (.ofException (.unexpectedReturn v
            ((setup.runRoot receiver (.fresh file) record).advance setup
              n).thread.backtraceLines))) (f.activation.setReturn v) cs)) ∧
    (f.activation.inLambda = true →
      ∃ g outer, cs = g :: outer ∧
        ((setup.runRoot receiver (.fresh file) record).advance setup (n + 2)).control =
          .leaving (.ok v) (f.activation.setReturn v) (g :: outer) ∧
        ((setup.runRoot receiver (.fresh file) record).advance setup (n + 2)).CompletesCall setup
          g outer v) := by
  have hsound := hbuilt.sound
  have hstart := setup.runRoot_waiting receiver (.fresh file) record
  have hreceiver := setup.runRoot_receiver receiver (.fresh file) record n
  have hcalled := setup.runRoot_called receiver (.fresh file) record n
  have hstacked := (setup.runRoot_stackedOn receiver (.fresh file) record).advance n
  have hregular := setup.runRoot_regular hsound receiver (.fresh file) record n
  generalize setup.runRoot receiver (.fresh file) record = m at *
  have hf : f.Regular := (hregular.of_running hrunning).1
  have hcall : f.call = none := by
    have hkind := hf.kind
    rw [hclosure] at hkind
    simpa using hkind
  have hleft := Machine.advance_of_closure_return hrunning hnext hclosure hcall
    (hreceiver ▸ hvalue)
  constructor
  · intro hlambda
    simp only [hlambda, Bool.false_eq_true, ↓reduceIte] at hleft
    constructor
    · rintro id rfl hactive
      simp only [Option.any_some, hactive, ↓reduceIte] at hleft
      obtain ⟨e, he, -, hid⟩ :=
        (hstacked.isActive_iff hsound (Machine.active_of_running hrunning) hf hclosure).mp hactive
      obtain ⟨inner, g, outer, rfl, hpasses, hstops⟩ :=
        exists_first_stopsReturn ⟨e, he, Frame.stopsReturn_iff.mpr (Or.inr hid)⟩
      have harrives := Machine.exists_arrives hstart hleft fun e he t => by
        rw [Frame.verdict_returnJump, hpasses e he]
        rfl
      obtain ⟨a, hlast⟩ := harrives.leaving
      refine ⟨inner, g, outer, _, rfl, ?_, Frame.stopsReturn_iff.mp hstops, harrives, ?_⟩
      · intro e he
        have hpass := hpasses e he
        rw [← Bool.not_eq_true, Frame.stopsReturn_iff, not_or, Bool.not_eq_true] at hpass
        exact hpass
      · refine Machine.finishesWith_of_finish hlast ?_ setup
        rw [Frame.verdict_returnJump, hstops]
        rfl
    · intro hinactive
      have hlost : method.any (m.advance setup n).thread.isActive = false := by
        cases method with
        | none => rfl
        | some id => exact hinactive id rfl
      simpa only [hlost, Bool.false_eq_true, ↓reduceIte] using hleft
  · intro hlambda
    simp only [hlambda, ↓reduceIte] at hleft
    cases cs with
    | nil =>
        -- the outermost frame was entered as a method
        have hmethod : f.activation.invocation = .method :=
          (Machine.called_of_running hrunning).mp hcalled
        simp [Activation.inLambda, hmethod] at hlambda
    | cons g outer =>
        refine ⟨g, outer, rfl, hleft, ?_⟩
        simp [Machine.CompletesCall, Machine.step, hleft]

namespace ReturnLandingWitness

/-- A method that hands a block to another method; the block returns from the first one. -/
def listing : Listing where
  name := "returning"
  root := 0
  scopes := [
    ⟨"<main>", .script, none,
      [.instr (.callMethod ⟨1⟩ [] (some ⟨0⟩)), .instr (.ret (.reg ⟨0⟩) none)], []⟩,
    ⟨"find", .method, none,
      [.instr (.callMethod ⟨2⟩ [] (some ⟨3⟩)), .instr (.ret (.reg ⟨3⟩) none)], []⟩,
    ⟨"each", .method, none, [.instr (.callClosure ⟨3⟩ .block [] none)], []⟩,
    ⟨"block in find", .closure, some ⟨1⟩,
      [.instr (.ret (.const (.int 42)) (some ⟨1⟩))], []⟩]

/-- The script, while an observer fails at the end of every call. -/
def returning : Setup where
  program :=
    { name := "returning"
      root := ⟨0⟩
      scopes := #[
        ⟨⟨0⟩, "<main>", .script, none,
          ⟨#[.callMethod ⟨1⟩ [] (some ⟨0⟩), .ret (.reg ⟨0⟩) none], [], []⟩⟩,
        ⟨⟨1⟩, "find", .method, none,
          ⟨#[.callMethod ⟨2⟩ [] (some ⟨3⟩), .ret (.reg ⟨3⟩) none], [], []⟩⟩,
        ⟨⟨2⟩, "each", .method, none, ⟨#[.callClosure ⟨3⟩ .block [] none], [], []⟩⟩,
        ⟨⟨3⟩, "block in find", .closure, some ⟨1⟩,
          ⟨#[.ret (.const (.int 42)) (some ⟨1⟩)], [], []⟩⟩] }
  settings := { traceCalls := true }
  observer := some (.failing (fun e => e.kind == .ret) (.fatal "hook failed"))

def run (n : Nat) : Machine := (returning.runRoot .nil (.fresh "-") {}).advance returning n

theorem returning_listed : returning.program.Listed := ⟨listing, rfl⟩

theorem closure_return_lands_in_method :
    ∃ f cs inner g outer l, (run 3).control = .running f cs ∧
      f.next? = some (.ret (.const (.int 42)) (some ⟨1⟩)) ∧
      (run 3).thread.isActive ⟨1⟩ = true ∧ cs = inner ++ g :: outer ∧
      (g.activation.inLambda = true ∨ g.scope.id = ⟨1⟩) ∧
      (returning.runRoot .nil (.fresh "-") {}).Arrives returning 4 l
        (.returnJump (some ⟨1⟩) (.int 42)) g outer ∧
      (run l).FinishesWith returning g outer (.int 42) := by
  have hlands := closure_return_lands returning_listed.built .nil "-" {} (n := 3)
    (v := .int 42) rfl rfl rfl rfl
  obtain ⟨inner, g, outer, l, hsplit, -, hstops, harrives, hfinishes⟩ :=
    (hlands.1 rfl).1 ⟨1⟩ rfl rfl
  exact ⟨_, _, inner, g, outer, l, rfl, rfl, rfl, hsplit, hstops, harrives, hfinishes⟩

end ReturnLandingWitness

end Unwind
