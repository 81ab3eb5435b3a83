import Unwind.Proofs.Regions
import Unwind.Proofs.Restoration
import Unwind.Proofs.Suspension
import Unwind.Proofs.Unwinding

/-!
The nearest handler.

A raise or a fatal condition leaves frame after frame, and nothing is executed, until it comes to
a frame whose code handles it at its current place.  This frame goes on in the handler, as it was
before its current instruction, and so does the thread.
-/

namespace Unwind

variable {setup : Setup}

/-- A handler of a sound program has an instruction. -/
theorem Program.Sound.next?_handle {p : Program} (hsound : p.Sound) {id : ScopeId}
    {f : Frame} (hscope : p.scope? id = some f.scope) {s : Signal} {h : Nat}
    (hhandler : f.handlerFor? s = some h) : ∃ i, (f.handle h s).next? = some i := by
  have hfound : f.scope.code.rescuerAt? f.pc = some h ∨
      f.scope.code.ensurerAt? f.pc = some h := by
    cases s with
    | raise v => exact Or.inl hhandler
    | _ => exact Or.inr hhandler
  exact (hsound.handlers id _ hscope).instr?_isSome hfound

/-! ## The root -/

theorem Outcome.ofRoot_result_of_not_jump (setup : Setup) (o : Outcome) {s : Signal}
    (hresult : o.result = .error s) (hkind : s.isJump = false) :
    (o.ofRoot setup).result = .error s := by
  cases s with
  | raise v => simp [Outcome.ofRoot, hresult]
  | fatal message => simp [Outcome.ofRoot, hresult]
  | returnJump target v => cases hkind
  | breakJump target v claimed => cases hkind

/-- In a run, nothing is executed after step `n` before step `l`, which executes the instruction
at the place of the frame `f`, in front of the frames `outer`. -/
structure Machine.NextExecutes (setup : Setup) (m : Machine) (n l : Nat) (f : Frame)
    (outer : List Frame) : Prop where
  later : n < l
  quiet : ∀ j, n < j → j < l → (m.advance setup j).executing? = none
  running : (m.advance setup l).control = .running f outer
  executes : ∃ i, (m.advance setup l).executing? = some (f, i)

/-- A raise or a fatal condition that an instruction ends in, in any active frame, is handled by
the innermost active frame whose code has a handler for it at its place.  The first instruction
of the handler is the next one to be executed; the frame is as it was before its current
instruction but for the pending signal, and the thread as it was then but for the line.  If there
is no such frame, nothing is executed any more, and the run ends in the signal. -/
theorem nearest_handler (hbuilt : setup.program.Built) (receiver : Value) (thread : Thread)
    (record : Record) {n : Nat} {f : Frame} {cs : List Frame} {s : Signal}
    (hyields : ((setup.runRoot receiver thread record).advance setup n).Yields f cs s)
    (hkind : s.isJump = false) :
    (∀ inner g outer h, f :: cs = inner ++ g :: outer →
      (∀ e ∈ inner, e.handlerFor? s = none) → g.handlerFor? s = some h →
      ∃ k g₀ i l,
        (setup.runRoot receiver thread record).Began setup k n g₀ i outer ∧
        g₀.Performs i g ∧
        (setup.runRoot receiver thread record).NextExecutes setup n l
          ((g₀.calling i).handle h s) outer ∧
        ((setup.runRoot receiver thread record).advance setup l).thread.standing =
          ((setup.runRoot receiver thread record).advance setup k).thread.standing) ∧
    ((∀ g ∈ f :: cs, g.handlerFor? s = none) →
      (∀ j, n < j →
        ((setup.runRoot receiver thread record).advance setup j).executing? = none) ∧
      ∃ o, (setup.runRoot receiver thread record).Stops setup o ∧
        (o.ofRoot setup).result = .error s) := by
  have hstart := setup.runRoot_waiting receiver thread record
  have hroot := (setup.runRoot_stackedOn receiver thread record).advance n
  generalize setup.runRoot receiver thread record = m at *
  obtain ⟨made, hends, hregard⟩ := id hyields
  constructor
  · intro inner g outer h hsplit hnone hhandler
    obtain ⟨k, g₀, i, hbegan, hperforms, hunder⟩ := hends.began hstart hsplit
    obtain ⟨hreached, hquiet, hkept⟩ := hyields.reach hkind hsplit hnone setup
    obtain ⟨hcontrol, hthread⟩ := hreached.step_of_some hkind hhandler setup
    rw [← Machine.advance_succ, ← Machine.advance_add] at hcontrol hthread
    rw [hperforms.handle_eq] at hcontrol
    refine ⟨k, g₀, i, n + (inner.length + 1), hbegan, hperforms, ⟨by omega, ?_, hcontrol, ?_⟩, ?_⟩
    · intro j hnj hj
      obtain ⟨d, rfl⟩ := Nat.exists_eq_add_of_lt hnj
      rw [Nat.add_assoc, Machine.advance_add]
      exact hquiet (d + 1) (Nat.succ_pos d) (by omega)
    · obtain ⟨id, hscope⟩ := hends.scope_mem hroot (g := g) (by simp [hsplit])
      obtain ⟨j, hj⟩ := hbuilt.sound.next?_handle hscope hhandler
      rw [hperforms.handle_eq] at hj
      exact ⟨j, Machine.executing?_of_running hcontrol hj⟩
    · rw [hthread]
      rcases hunder with ⟨rfl, rfl⟩ | hstacked
      · rfl
      · obtain ⟨_, hreaches, -⟩ := hreached
        obtain ⟨g₁, hactive, -⟩ := hreaches.active
        exact (hkept _ hstacked).standing_eq (by rw [hactive]; rfl)
  · intro hnone
    obtain ⟨hquiet, o, hstops, hresult⟩ := hyields.escape hkind hnone setup
    refine ⟨?_, o, hstops.of_advance, ?_⟩
    · intro j hnj
      obtain ⟨d, rfl⟩ := Nat.exists_eq_add_of_lt hnj
      rw [Nat.add_assoc, Machine.advance_add]
      exact hquiet (d + 1) (Nat.succ_pos d)
    · exact o.ofRoot_result_of_not_jump setup hresult hkind

namespace NearestHandlerWitness

/-- A script that rescues what its method raises. -/
def listing : Listing where
  name := "rescuing"
  root := 0
  scopes := [
    ⟨"<main>", .script, none,
      [.label ⟨0⟩, .instr (.callMethod ⟨1⟩ [] none), .label ⟨1⟩, .instr (.ret .nil none),
        .label ⟨2⟩, .instr (.receiveException ⟨0⟩)],
      [.rescuing ⟨0⟩ ⟨1⟩ ⟨2⟩]⟩,
    ⟨"work", .method, none, [.instr (.line 9), .instr (.raise (.const (.str "boom")))], []⟩]

/-- The script, while an observer fails at the end of every call. -/
def rescuing : Setup where
  program :=
    { name := "rescuing"
      root := ⟨0⟩
      scopes := #[
        ⟨⟨0⟩, "<main>", .script, none,
          ⟨#[.callMethod ⟨1⟩ [] none, .ret .nil none, .receiveException ⟨0⟩],
            [(⟨0⟩, 0), (⟨1⟩, 1), (⟨2⟩, 2)], [⟨0, 1, some 2, none⟩]⟩⟩,
        ⟨⟨1⟩, "work", .method, none, ⟨#[.line 9, .raise (.const (.str "boom"))], [], []⟩⟩] }
  settings := { traceCalls := true }
  observer := some (.failing (fun e => e.kind == .ret) (.fatal "hook failed"))

def run (n : Nat) : Machine := (rescuing.runRoot .nil (.fresh "-") {}).advance rescuing n

theorem nearest_handler_rescuing :
    ∃ f g s k g₀ i l,
      (run 2).Yields f [g] s ∧ f.handlerFor? s = none ∧ g.handlerFor? s = some 2 ∧
      (rescuing.runRoot .nil (.fresh "-") {}).Began rescuing k 2 g₀ i [] ∧ g₀.Performs i g ∧
      (rescuing.runRoot .nil (.fresh "-") {}).NextExecutes rescuing 2 l
        ((g₀.calling i).handle 2 s) [] ∧
      (run l).thread.standing = (run k).thread.standing := by
  have hbuilt : rescuing.program.Built := Program.Listed.built ⟨listing, rfl⟩
  have hyields : (run 2).Yields _ [_] (raiseSignal (run 2).thread (.str "boom")) :=
    ⟨_, .own rfl rfl rfl, rfl⟩
  obtain ⟨k, g₀, i, l, hresult⟩ :=
    (nearest_handler hbuilt .nil (.fresh "-") {} hyields rfl).1 [_] _ [] 2 rfl (by simp; rfl) rfl
  exact ⟨_, _, _, k, g₀, i, l, hyields, rfl, rfl, hresult⟩

end NearestHandlerWitness

end Unwind
