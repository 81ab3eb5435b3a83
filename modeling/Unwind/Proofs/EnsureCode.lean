import Unwind.Proofs.Regions
import Unwind.Proofs.Restoration
import Unwind.Proofs.Verdict

/-!
When ensure code is entered.

In listed programs a frame whose instruction is covered by ensure code enters a handler for every
signal that would end the frame, with two exceptions: a `return` on its way is never brought
before a handler, nor is the `break` that a closure itself makes.
-/

namespace Unwind

variable {setup : Setup}

/-- Where listed programs have ensure code, they have a handler for every signal. -/
theorem Program.Listed.handlerFor?_isSome {p : Program} (hlisted : p.Listed) {id : ScopeId}
    {f : Frame} (hscope : p.scope? id = some f.scope) {h : Nat}
    (hensurer : f.scope.code.ensurerAt? f.pc = some h) (s : Signal) :
    (f.handlerFor? s).isSome := by
  cases s with
  | raise v => exact hlisted.rescuerAt?_isSome hscope hensurer
  | _ => exact Option.isSome_iff_exists.mpr ⟨h, hensurer⟩

/-- The next step goes on behind the current instruction of the frame. -/
def Machine.GoesOn (setup : Setup) (m : Machine) (f : Frame) (cs : List Frame) : Prop :=
  ∃ v, (m.step setup).control = .running (f.resume v) cs

/-- The next step enters the frame's handler for what the frame takes the signal for. -/
def Machine.EntersHandler (setup : Setup) (m : Machine) (f : Frame) (cs : List Frame)
    (s : Signal) : Prop :=
  ∃ h, f.handlerFor? (f.regard m.thread s) = some h ∧
    (m.step setup).control = .running (f.handle h (f.regard m.thread s)) cs

/-- The next step leaves the frame. -/
def Machine.LeavesFrame (setup : Setup) (m : Machine) (f : Frame) (cs : List Frame) : Prop :=
  ∃ r, (m.step setup).control = .leaving r f.activation cs

/-- Where there is a handler for every signal, a frame stays unless it bypasses its handlers. -/
theorem Machine.EndsIn.stays_or_leaves {m : Machine} {f : Frame} {cs : List Frame} {s : Signal}
    (hends : m.EndsIn f cs s) (hhandlers : ∀ t, (f.handlerFor? t).isSome) (setup : Setup) :
    f.bypassesHandlers s = false ∧ (m.GoesOn setup f cs ∨ m.EntersHandler setup f cs s) ∨
      f.bypassesHandlers s = true ∧ m.LeavesFrame setup f cs := by
  have hspec := hends.step_spec setup
  have hjudges := f.verdict_judges m.thread s
  generalize f.verdict m.thread s = verdict at hspec hjudges
  cases hjudges with
  | seek hseen hverdict =>
      obtain ⟨h, hh⟩ := Option.isSome_iff_exists.mp (hhandlers (f.regard m.thread s))
      rw [hverdict, Frame.seekHandler_of_some hh] at hspec
      exact Or.inl ⟨hseen, Or.inr ⟨h, hh, hspec.1⟩⟩
  | consume hbreaks hconsumed =>
      exact Or.inl ⟨by simp [Frame.bypassesHandlers, hbreaks], Or.inl ⟨_, hspec.1⟩⟩
  | finish hstops =>
      obtain ⟨result, -, hcontrol, -⟩ := hspec
      exact Or.inr ⟨rfl, result, hcontrol⟩
  | passReturn hpasses => exact Or.inr ⟨rfl, _, hspec.1⟩
  | passBreak hbreaks haccepted =>
      exact Or.inr ⟨by simp [Frame.bypassesHandlers, hbreaks, haccepted], _, hspec.1⟩

/-- Whenever an instruction that ensure code covers ends in a signal, of its own or from its
callee, the frame goes on or enters its handler if and only if it does not bypass its handlers;
otherwise it is left, and its ensure code does not run. -/
theorem ensure_code_entered_iff (hlisted : setup.program.Listed) (receiver : Value)
    (thread : Thread) (record : Record) {n : Nat} {f : Frame} {cs : List Frame} {s : Signal}
    (hends : ((setup.runRoot receiver thread record).advance setup n).EndsIn f cs s) {h : Nat}
    (hensurer : f.scope.code.ensurerAt? f.pc = some h) :
    (((setup.runRoot receiver thread record).advance setup n).GoesOn setup f cs ∨
        ((setup.runRoot receiver thread record).advance setup n).EntersHandler setup f cs s ↔
      f.bypassesHandlers s = false) ∧
    (((setup.runRoot receiver thread record).advance setup n).LeavesFrame setup f cs ↔
      f.bypassesHandlers s = true) := by
  have hroot := (setup.runRoot_stackedOn receiver thread record).advance n
  obtain ⟨id, hscope⟩ := hends.scope_mem hroot (g := f) List.mem_cons_self
  generalize (setup.runRoot receiver thread record).advance setup n = m at *
  have hexclusive (hstays : m.GoesOn setup f cs ∨ m.EntersHandler setup f cs s)
      (hleft : m.LeavesFrame setup f cs) : False := by
    obtain ⟨r, hleft⟩ := hleft
    rcases hstays with ⟨v, hstays⟩ | ⟨h, -, hstays⟩ <;> rw [hleft] at hstays <;> cases hstays
  rcases hends.stays_or_leaves (hlisted.handlerFor?_isSome hscope hensurer) setup with
    ⟨hseen, hstays⟩ | ⟨hbypassed, hleft⟩
  · exact ⟨iff_of_true hstays hseen, iff_of_false (hexclusive hstays) (by simp [hseen])⟩
  · exact ⟨iff_of_false (fun hstays => hexclusive hstays hleft) (by simp [hbypassed]),
      iff_of_true hleft hbypassed⟩

namespace EnsureCodeWitness

/-- A method with ensure code around a block that returns from the method; the block has ensure
code around a fatal condition. -/
def listing : Listing where
  name := "finding"
  root := 0
  scopes := [
    ⟨"<main>", .script, none,
      [.instr (.callMethod ⟨1⟩ [] (some ⟨0⟩)), .instr (.ret (.reg ⟨0⟩) none)], []⟩,
    ⟨"find", .method, none,
      [.label ⟨0⟩, .instr (.callClosure ⟨2⟩ .block [] none), .label ⟨1⟩, .instr (.ret .nil none),
        .label ⟨2⟩, .instr (.line 7), .instr .resumePending],
      [⟨⟨0⟩, ⟨1⟩, none, some ⟨2⟩⟩]⟩,
    ⟨"block in find", .closure, some ⟨1⟩,
      [.label ⟨0⟩, .instr (.fatal "broken"), .label ⟨1⟩, .instr .clearPending,
        .instr (.ret (.const (.int 42)) (some ⟨1⟩))],
      [⟨⟨0⟩, ⟨1⟩, none, some ⟨1⟩⟩]⟩]

def finding : Setup where
  program :=
    { name := "finding"
      root := ⟨0⟩
      scopes := #[
        ⟨⟨0⟩, "<main>", .script, none,
          ⟨#[.callMethod ⟨1⟩ [] (some ⟨0⟩), .ret (.reg ⟨0⟩) none], [], []⟩⟩,
        ⟨⟨1⟩, "find", .method, none,
          ⟨#[.callClosure ⟨2⟩ .block [] none, .ret .nil none, .line 7, .resumePending],
            [(⟨0⟩, 0), (⟨1⟩, 1), (⟨2⟩, 2)], [⟨0, 1, some 2, some 2⟩]⟩⟩,
        ⟨⟨2⟩, "block in find", .closure, some ⟨1⟩,
          ⟨#[.fatal "broken", .clearPending, .ret (.const (.int 42)) (some ⟨1⟩)],
            [(⟨0⟩, 0), (⟨1⟩, 1)], [⟨0, 1, some 1, some 1⟩]⟩⟩] }

def run (n : Nat) : Machine := (finding.runRoot .nil (.fresh "-") {}).advance finding n

theorem finding_listed : finding.program.Listed := ⟨listing, rfl⟩

/-- The fatal condition enters the ensure code of the block. -/
theorem ensure_code_entered_of_fatal :
    ∃ f cs, (run 2).EndsIn f cs (.fatal "broken") ∧ f.scope.code.ensurerAt? f.pc = some 1 ∧
      ((run 2).GoesOn finding f cs ∨ (run 2).EntersHandler finding f cs (.fatal "broken")) := by
  have hends : (run 2).EndsIn _ _ (.fatal "broken") := .own rfl rfl rfl
  exact ⟨_, _, hends, rfl,
    (ensure_code_entered_iff finding_listed .nil (.fresh "-") {} hends rfl).1.mpr rfl⟩

/-- The return leaves the method without entering its ensure code, which never runs. -/
theorem ensure_code_not_entered :
    finding.program.Listed ∧
      (∃ f cs s h, (run 6).EndsIn f cs s ∧ f.scope.code.ensurerAt? f.pc = some h ∧
        ¬((run 6).GoesOn finding f cs ∨ (run 6).EntersHandler finding f cs s)) ∧
      ∃ o, (finding.runRoot .nil (.fresh "-") {}).Stops finding o ∧
        o.result = .ok (.int 42) ∧ o.thread.line = 0 := by
  refine ⟨finding_listed, ⟨_, _, _, 2, .callee rfl, rfl, ?_⟩, _, ⟨10, rfl⟩, rfl, rfl⟩
  rintro (⟨v, hcontrol⟩ | ⟨h, -, hcontrol⟩) <;> cases hcontrol

end EnsureCodeWitness

end Unwind
