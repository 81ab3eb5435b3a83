import Unwind.Proofs.Origin
import Unwind.Proofs.Pending
import Unwind.Proofs.Verdict

/-!
Transparent ensure code.

A frame that has entered a handler may run any code there and call anything.  As long as it
enters no other handler and does not take the signal, a `resumePending` ends in the signal that
the frame has handled, unchanged.  The frame then looks for a handler of it at the new place, or
lets it pass, as it does for an instruction that ends in the signal itself.
-/

namespace Unwind

variable {setup : Setup}

/-! ## Signals that a frame looks for a handler of -/

/-- The frame looks for a handler of the signal whenever one of its instructions, other than a
`break`, ends in it. -/
def Frame.Seeks (f : Frame) : Signal → Prop
  | .raise _ => True
  | .fatal _ => True
  | .returnJump _ _ => False
  | .breakJump target _ claimed =>
      f.activation.inLambda = false ∧ (claimed || target == f.scope.id) = false

theorem Frame.Seeks.verdict {f : Frame} {s : Signal} (hseeks : f.Seeks s)
    (hbreaks : f.breaks = false) (t : Thread) : f.verdict t s = f.seekHandler s := by
  cases s with
  | raise v => rfl
  | fatal message => rfl
  | returnJump target v => exact hseeks.elim
  | breakJump target v claimed =>
      obtain ⟨hlambda, hpasses⟩ := hseeks
      have haccepted : f.refusesBreak = false := by
        simp [refusesBreak, hbreaks, hlambda]
      simp only [verdict_of_break haccepted, hbreaks, hpasses, Bool.false_eq_true, ↓reduceIte]

/-- A `break` that a frame has handled was on its way through the frame. -/
theorem Frame.seeks_of_handled {f : Frame} {t : Thread} {made s : Signal} {pc : Nat}
    (hverdict : f.verdict t made = .handle pc s) : f.Seeks s := by
  cases s with
  | raise v => trivial
  | fatal message => trivial
  | returnJump target v => exact absurd rfl (handled_ne_returnJump hverdict target v)
  | breakJump target v claimed =>
      have hjudges := f.verdict_judges t made
      rw [hverdict] at hjudges
      cases hjudges with
      | seek hseen hseeks =>
          -- the frame has not taken another signal for the `break`
          have hregard := seekHandler_handle hseeks.symm
          cases made with
          | raise w => cases hregard
          | fatal message => cases hregard
          | returnJump other w => cases hseen
          | breakJump other w taken =>
              cases hrefused : f.refusesBreak with
              | true => simp [regard, hrefused, Signal.ofException] at hregard
              | false =>
                  obtain ⟨rfl, rfl, rfl⟩ : other = target ∧ w = v ∧ taken = claimed := by
                    simpa [regard, hrefused] using hregard
                  have hbreaks : f.breaks = false := by
                    simpa [bypassesHandlers, hrefused] using hseen
                  refine ⟨by simpa [refusesBreak, hbreaks] using hrefused, ?_⟩
                  rw [verdict_of_break hrefused, hbreaks] at hverdict
                  cases hconsumed : taken || other == f.scope.id with
                  | true => simp [hconsumed] at hverdict
                  | false => rfl

theorem Frame.SameInvocation.seeks_iff {f g : Frame} (hsame : f.SameInvocation g) (s : Signal) :
    g.Seeks s ↔ f.Seeks s := by
  cases s <;> simp [Frame.Seeks, Activation.inLambda, hsame.scope, hsame.invocation]

/-! ## Runs of handler code -/

/-- One frame at most is active in front of given frames. -/
theorem Machine.IsActive.eq {m : Machine} {f g : Frame} {cs : List Frame}
    (hf : m.IsActive f cs) (hg : m.IsActive g cs) : f = g := by
  obtain ⟨inner, hinner⟩ := hf
  obtain ⟨other, hother⟩ := hg
  have hsplit := hinner.symm.trans hother
  exact (List.cons.inj (List.append_inj_right' hsplit rfl)).1

/-- A frame that was active before a step is the same invocation after it. -/
theorem Machine.IsActive.sameInvocation {m : Machine} {f g : Frame} {cs : List Frame}
    (hbefore : m.IsActive f cs) (hafter : (m.step setup).IsActive g cs) :
    f.SameInvocation g := by
  rcases hafter.origin.sameInvocation with
    ⟨e, ds, i, c, hrunning, -, -, rfl, -⟩ | ⟨e, hactive, hsame⟩
  · exact absurd hbefore (not_isActive_of_enter hrunning i f)
  · exact hbefore.eq hactive ▸ hsame

/-- A frame still seeks what it has routed. -/
theorem Machine.Outstanding.seeks {m : Machine} {n : Nat} {cs : List Frame} {s : Signal}
    (houtstanding : m.Outstanding setup n cs s) {g : Frame}
    (hactive : (m.advance setup n).IsActive g cs) : g.Seeks s := by
  induction n generalizing g with
  | zero => exact absurd houtstanding outstanding_zero
  | succ n ih =>
      rw [advance_succ] at hactive
      rcases outstanding_succ.mp houtstanding with
        ⟨f, made, pc, hends, hverdict⟩ | ⟨hbefore, ⟨f, hf⟩, -⟩
      · obtain ⟨f₀, hf₀, hsame⟩ := hends.sameInvocation
        have hkept : f₀.SameInvocation g := IsActive.sameInvocation ⟨[], hf₀⟩ hactive
        rw [hkept.seeks_iff, ← hsame.seeks_iff]
        exact Frame.seeks_of_handled hverdict
      · rw [(hf.sameInvocation hactive).seeks_iff]
        exact ih hbefore hf

/-- A signal is pending as long as it is outstanding. -/
theorem Machine.Outstanding.pending {m : Machine} {n : Nat} {cs : List Frame} {s : Signal}
    (houtstanding : m.Outstanding setup n cs s) {g : Frame}
    (hactive : (m.advance setup n).IsActive g cs) : g.activation.pending = some s := by
  induction n generalizing g with
  | zero => exact absurd houtstanding outstanding_zero
  | succ n ih =>
      rw [advance_succ] at hactive
      have hkeeps := step_keeps hactive
      rcases outstanding_succ.mp houtstanding with
        hroutes | ⟨hbefore, ⟨f, hf⟩, hquiet, hkept⟩
      · cases hkeeps with
        | fresh hnew hnone =>
            obtain ⟨f, hf⟩ := hroutes.isActive
            exact absurd hf (hnew f)
        | route hrouted hpending => rw [hpending, hroutes.unique hrouted]
        | keep hf hquiet hpending => exact absurd hroutes (hquiet s)
      · cases hkeeps with
        | fresh hnew hnone => exact absurd hf (hnew f)
        | route hrouted hpending => exact absurd hrouted (hquiet _)
        | keep hf' hquiet' hpending => exact (hpending s).mpr ⟨ih hbefore hf', hkept⟩

/-! ## Resuming -/

/-- A frame whose `resumePending` has taken the pending signal. -/
def Frame.resumed (g : Frame) : Frame :=
  { g with last := some .resumePending, activation := g.activation.takePending.2 }

/-- The machine that has counted and noted an instruction of the frame. -/
def Machine.noting (setup : Setup) (m : Machine) (g : Frame) (i : Instr) : Machine :=
  { m with
    record := m.record.count.noteIf setup.settings.debug (.executing g.scope.name g.pc i) }

/-- A `resumePending` is the settlement of the pending signal in the frame that has lost it. -/
theorem Machine.step_resumePending {m : Machine} {g : Frame} {cs : List Frame} {s : Signal}
    (hrunning : m.control = .running g cs) (hnext : g.next? = some .resumePending)
    (hpending : g.activation.pending = some s) (setup : Setup) :
    m.EndsIn g.resumed cs s ∧
      m.step setup = (m.noting setup g .resumePending).settle setup g.resumed cs s := by
  have hperform : Instr.resumePending.perform m.thread m.receiver g.activation =
      ⟨m.thread, g.activation.takePending.2, .signal s⟩ := by
    simp [Instr.perform, Activation.takePending, hpending]
  constructor
  · have hafter : g.after .resumePending m = g.resumed := by
      rw [Frame.after, hperform, Frame.resumed]
    exact hafter ▸ .own hrunning hnext (by rw [hperform])
  · simp only [Machine.step, hrunning, hnext, Machine.execute, hperform, Machine.noting,
      Frame.resumed]

/-- A frame in the state in which its `resumePending` leaves it takes the signal as that of any
instruction but a `break`. -/
theorem Frame.Seeks.verdict_resumed {g : Frame} {s : Signal} (hseeks : g.Seeks s) {i : Instr}
    (hbreak : i.isBreak = false) (t : Thread) :
    Frame.verdict { g.resumed with last := some i } t s = g.seekHandler s := by
  have hsame : g.SameInvocation { g.resumed with last := some i } := ⟨⟨rfl, rfl, rfl⟩, rfl⟩
  rw [((hsame.seeks_iff s).mpr hseeks).verdict hbreak]
  cases s <;> rfl

/-- After a frame has handled a signal, it may run any code and call anything.  Unless it has
entered another handler or taken the signal since then, its `resumePending` has the effect of any
instruction but a `break` that ends in the very same signal with nothing pending: the handler
around the place is entered if there is one, and otherwise the signal leaves the frame. -/
theorem ensure_code_transparent (setup : Setup) (m : Machine) (n : Nat) (cs : List Frame)
    (s : Signal) (houtstanding : m.Outstanding setup n cs s) {g : Frame}
    (hrunning : (m.advance setup n).control = .running g cs)
    (hnext : g.next? = some .resumePending) :
    g.activation.pending = some s ∧ g.resumed.activation.pending = none ∧
      (m.advance setup n).EndsIn g.resumed cs s ∧
      m.advance setup (n + 1) =
        ((m.advance setup n).noting setup g .resumePending).settle setup g.resumed cs s ∧
      (∀ i t, i.isBreak = false →
        Frame.verdict { g.resumed with last := some i } t s = g.seekHandler s) ∧
      match g.handlerFor? s with
      | some pc =>
          (m.advance setup (n + 1)).control = .running (g.resumed.handle pc s) cs ∧
            (m.advance setup (n + 1)).thread = (m.advance setup n).thread
      | none =>
          (m.advance setup (n + 1)).control = .leaving (.error s) g.resumed.activation cs ∧
            (m.advance setup (n + 1)).thread = g.restore (m.advance setup n).thread := by
  have hactive : (m.advance setup n).IsActive g cs := ⟨[], Machine.active_of_running hrunning⟩
  have hpending := houtstanding.pending hactive
  have hseeks := houtstanding.seeks hactive
  obtain ⟨hends, hstep⟩ := Machine.step_resumePending hrunning hnext hpending setup
  refine ⟨hpending, rfl, hends, (Machine.advance_succ setup n m).trans hstep,
    fun i t hbreak => hseeks.verdict_resumed hbreak t, ?_⟩
  have hverdict : g.resumed.verdict (m.advance setup n).thread s = g.seekHandler s :=
    hseeks.verdict_resumed (i := .resumePending) rfl _
  have hspec := hends.step_spec setup
  rw [hverdict] at hspec
  rw [Machine.advance_succ]
  cases hhandler : g.handlerFor? s with
  | some pc => rwa [Frame.seekHandler_of_some hhandler] at hspec
  | none => rwa [Frame.seekHandler_of_none hhandler] at hspec

namespace TransparencyWitness

/-- A script that calls a block, which calls another one, which breaks to the script.  The first
block has ensure code inside ensure code; the inner one calls a method that rescues what it raises
itself. -/
def listing : Listing where
  name := "closing"
  root := 0
  scopes := [
    ⟨"<main>", .script, none,
      [.instr (.callClosure ⟨1⟩ .block [] (some ⟨0⟩)), .instr (.ret (.reg ⟨0⟩) none)], []⟩,
    ⟨"outer block", .closure, some ⟨0⟩,
      [.label ⟨0⟩, .instr (.callClosure ⟨2⟩ .block [] none), .label ⟨1⟩, .instr (.ret .nil none),
        .label ⟨2⟩, .instr (.callMethod ⟨3⟩ [] none), .instr .resumePending,
        .label ⟨3⟩, .instr (.line 7), .instr .resumePending],
      [⟨⟨0⟩, ⟨1⟩, none, some ⟨2⟩⟩, ⟨⟨0⟩, ⟨3⟩, none, some ⟨3⟩⟩]⟩,
    ⟨"inner block", .closure, some ⟨1⟩, [.instr (.brk (.const (.int 5)) ⟨0⟩)], []⟩,
    ⟨"clean", .method, none,
      [.label ⟨0⟩, .instr (.raise (.const (.str "minor"))), .label ⟨1⟩, .instr (.ret .nil none),
        .label ⟨2⟩, .instr (.receiveException ⟨0⟩)],
      [.rescuing ⟨0⟩ ⟨1⟩ ⟨2⟩]⟩]

def closing : Setup where
  program :=
    { name := "closing"
      root := ⟨0⟩
      scopes := #[
        ⟨⟨0⟩, "<main>", .script, none,
          ⟨#[.callClosure ⟨1⟩ .block [] (some ⟨0⟩), .ret (.reg ⟨0⟩) none], [], []⟩⟩,
        ⟨⟨1⟩, "outer block", .closure, some ⟨0⟩,
          ⟨#[.callClosure ⟨2⟩ .block [] none, .ret .nil none, .callMethod ⟨3⟩ [] none,
              .resumePending, .line 7, .resumePending],
            [(⟨0⟩, 0), (⟨1⟩, 1), (⟨2⟩, 2), (⟨3⟩, 4)],
            [⟨0, 1, some 2, some 2⟩, ⟨0, 4, some 4, some 4⟩]⟩⟩,
        ⟨⟨2⟩, "inner block", .closure, some ⟨1⟩, ⟨#[.brk (.const (.int 5)) ⟨0⟩], [], []⟩⟩,
        ⟨⟨3⟩, "clean", .method, none,
          ⟨#[.raise (.const (.str "minor")), .ret .nil none, .receiveException ⟨0⟩],
            [(⟨0⟩, 0), (⟨1⟩, 1), (⟨2⟩, 2)], [⟨0, 1, some 2, none⟩]⟩⟩] }

theorem closing_listed : closing.program.Listed := ⟨listing, rfl⟩

def run : Machine := closing.runRoot .nil (.fresh "-") {}

/-- The `break` of the inner block. -/
def broken : Signal := .breakJump ⟨0⟩ (.int 5) false

/-- The inner ensure code gives the `break` to the outer one, and this lets it go on to the script,
which ends with its value. -/
theorem ensure_code_transparent_closing :
    closing.program.Listed ∧
      (∃ g cs, run.Outstanding closing 9 cs broken ∧
        (run.advance closing 9).control = .running g cs ∧ g.next? = some .resumePending ∧
        (run.advance closing 10).control = .running (g.resumed.handle 4 broken) cs) ∧
      (∃ g cs, run.Outstanding closing 11 cs broken ∧
        (run.advance closing 11).control = .running g cs ∧ g.next? = some .resumePending ∧
        (run.advance closing 12).control =
          .leaving (.error broken) g.resumed.activation cs) ∧
      ∃ o, run.Stops closing o ∧ o.result = .ok (.int 5) := by
  have hinner : (run.advance closing 9).control = .running _ _ := rfl
  have houter : (run.advance closing 11).control = .running _ _ := rfl
  have hfirst := (closing.runRoot_pending .nil (.fresh "-") {} 9
    ⟨[], Machine.active_of_running hinner⟩ broken).mp rfl
  have hsecond := (closing.runRoot_pending .nil (.fresh "-") {} 11
    ⟨[], Machine.active_of_running houter⟩ broken).mp rfl
  obtain ⟨-, -, -, -, -, hhandled⟩ :=
    ensure_code_transparent closing run 9 _ broken hfirst hinner rfl
  obtain ⟨-, -, -, -, -, hpassed⟩ :=
    ensure_code_transparent closing run 11 _ broken hsecond houter rfl
  exact ⟨closing_listed, ⟨_, _, hfirst, hinner, rfl, hhandled.1⟩,
    ⟨_, _, hsecond, houter, rfl, hpassed.1⟩, _, ⟨15, rfl⟩, rfl⟩

end TransparencyWitness

end Unwind
