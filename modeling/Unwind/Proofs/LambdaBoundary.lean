import Unwind.Proofs.BreakLanding
import Unwind.Proofs.Origin

/-!
What calls return.

A call returns what its own frame is left with.  A lambda is never left with a `return` on its
way, and with a `break` only if it has claimed it; a frame that was entered otherwise is never
left with a claimed `break`.  Where a claimed `break` arrives it ends, so that it crosses one
boundary between frames and no second one.
-/

namespace Unwind

variable {setup : Setup}

/-! ## Claimed breaks -/

/-- The signal is a `break` that a lambda has claimed. -/
def Signal.isClaimed : Signal → Bool
  | .breakJump _ _ claimed => claimed
  | _ => false

/-- A lambda lets no jump pass but a `break` that it claims. -/
theorem Frame.passed_of_lambda {f : Frame} {t : Thread} {s passed : Signal}
    (hlambda : f.activation.inLambda = true) (hverdict : f.verdict t s = .pass passed) :
    passed.isJump = false ∨ passed.isClaimed = true := by
  have hjudges := f.verdict_judges t s
  rw [hverdict] at hjudges
  cases hjudges with
  | passBreak hbreaks haccepted =>
      right
      simp [Signal.isClaimed, hlambda]
  | passReturn hpasses =>
      rw [stopsReturn, hlambda] at hpasses
      cases hpasses
  | seek hseen hseeks =>
      left
      rw [← seekHandler_pass hseeks.symm]
      cases s with
      | raise v => rfl
      | fatal message => rfl
      | returnJump target v => cases hseen
      | breakJump target v claimed =>
          have hrefused : f.refusesBreak = true := by
            by_cases hbreaks : f.breaks = true
            · simpa [bypassesHandlers, hbreaks] using hseen
            · simpa [refusesBreak, hbreaks] using hlambda
          rw [regard, hrefused]
          rfl

/-- A frame that is no lambda lets no claimed `break` pass; its own `break` is not claimed. -/
theorem Frame.passed_unclaimed {f : Frame} {t : Thread} {s passed : Signal}
    (hlambda : f.activation.inLambda = false) (hown : f.breaks = true → s.isClaimed = false)
    (hverdict : f.verdict t s = .pass passed) : passed.isClaimed = false := by
  have hjudges := f.verdict_judges t s
  rw [hverdict] at hjudges
  cases hjudges with
  | passBreak hbreaks haccepted =>
      have hunclaimed := hown hbreaks
      simpa [Signal.isClaimed, hlambda] using hunclaimed
  | passReturn hpasses => rfl
  | seek hseen hseeks =>
      rw [← seekHandler_pass hseeks.symm]
      cases s with
      | raise v => rfl
      | fatal message => rfl
      | returnJump target v => rfl
      | breakJump target v claimed =>
          by_cases hrefused : f.refusesBreak = true
          · rw [regard, hrefused]
            rfl
          · rw [Bool.not_eq_true] at hrefused
            have hbreaks : f.breaks = false := by
              simpa [bypassesHandlers, hrefused] using hseen
            -- a claimed break would be consumed
            rw [verdict_of_break hrefused, hbreaks] at hverdict
            cases claimed with
            | true => cases hverdict
            | false =>
                rw [regard, hrefused]
                rfl

/-! ## What a frame is left with -/

theorem Frame.close_of_lambda {f : Frame} (hlambda : f.activation.inLambda = true) (t : Thread) :
    f.close t = .ok f.activation.returnValue := by
  have hnone : f.leavingReturn? = none := by
    unfold leavingReturn?
    split
    · simp [hlambda]
    · rfl
  rw [close, hnone]

theorem Frame.close_unclaimed {f : Frame} {t : Thread} {s : Signal}
    (hclose : f.close t = .error s) : s.isClaimed = false := by
  unfold close at hclose
  split at hclose
  · cases hclose
  · split at hclose
    · cases hclose
      rfl
    · split at hclose
      · cases hclose
        rfl
      · cases hclose

theorem Machine.Leaves.of_lambda {m : Machine} {f : Frame} {cs : List Frame} {s : Signal}
    (hleaves : m.Leaves f cs (.error s)) (hlambda : f.activation.inLambda = true) :
    s.isJump = false ∨ s.isClaimed = true := by
  generalize hr : (Except.error s : Completion) = r at hleaves
  cases hleaves with
  | close hrunning hend =>
      rw [f.close_of_lambda hlambda] at hr
      cases hr
  | finish hends hverdict => cases hr
  | pass hends hverdict =>
      cases hr
      exact Frame.passed_of_lambda hlambda hverdict

/-- A `break` that is the frame's own is not claimed yet. -/
theorem Machine.EndsIn.unclaimed_of_breaks {m : Machine} {f : Frame} {cs : List Frame}
    {s : Signal} (hends : m.EndsIn f cs s) (hawaits : m.waiting = f :: cs → f.AwaitsCall)
    (hbreaks : f.breaks = true) : s.isClaimed = false := by
  cases hends with
  | @own f₀ cs i s hrunning hnext heffect =>
      cases i with
      | brk value target =>
          cases heffect
          rfl
      | _ => cases hbreaks
  | unplaced hrunning hnext heffect hplace => rfl
  | callee hleaving =>
      have hcall := (hawaits (waiting_of_leaving hleaving)).breaks
      rw [Frame.breaks, hcall] at hbreaks
      cases hbreaks

theorem Machine.Leaves.unclaimed {m : Machine} {f : Frame} {cs : List Frame} {s : Signal}
    (hleaves : m.Leaves f cs (.error s)) (hlambda : f.activation.inLambda = false)
    (hawaits : m.waiting = f :: cs → f.AwaitsCall) : s.isClaimed = false := by
  generalize hr : (Except.error s : Completion) = r at hleaves
  cases hleaves with
  | close hrunning hend => exact Frame.close_unclaimed hr.symm
  | finish hends hverdict => cases hr
  | pass hends hverdict =>
      cases hr
      exact Frame.passed_unclaimed hlambda (hends.unclaimed_of_breaks hawaits) hverdict

/-! ## Calls in front of other frames -/

/-- The machine returns `r` to the frames `outer`, which wait for the first time. -/
def Machine.ReturnsTo (setup : Setup) (m : Machine) (outer : List Frame) (r : Completion) :
    Prop :=
  ∃ n a, (m.advance setup n).control = .leaving r a outer ∧
    ∀ j, j < n → outer.length < (m.advance setup j).active.length

/-- What a run returns to no frame is what it stops with. -/
theorem Machine.returnsTo_nil_iff {m : Machine} {r : Completion} :
    m.ReturnsTo setup [] r ↔ ∃ o, m.Stops setup o ∧ o.result = r := by
  constructor
  · rintro ⟨n, a, hcontrol, -⟩
    exact ⟨_, ⟨n, outcome?_of_leaving hcontrol⟩, rfl⟩
  · rintro ⟨o, ⟨n, hstopped⟩, rfl⟩
    induction n generalizing m with
    | zero =>
        obtain ⟨⟨a, hcontrol⟩, -⟩ := control_of_outcome hstopped
        exact ⟨0, a, hcontrol, fun j hj => absurd hj (Nat.not_lt_zero j)⟩
    | succ n ih =>
        by_cases hnone : m.active = []
        · obtain ⟨r, a, hcontrol⟩ := control_of_inactive hnone
          have hnow := outcome?_of_leaving hcontrol
          rw [advance_of_outcome hnow, hnow] at hstopped
          obtain rfl := Option.some.inj hstopped
          exact ⟨0, a, hcontrol, fun j hj => absurd hj (Nat.not_lt_zero j)⟩
        · obtain ⟨k, a, hcontrol, hactive⟩ := ih (m := m.step setup) hstopped
          refine ⟨k + 1, a, hcontrol, ?_⟩
          intro j hj
          cases j with
          | zero => exact List.length_pos_iff.mpr hnone
          | succ j => exact hactive j (Nat.lt_of_succ_lt_succ hj)

/-- A machine that is leaving its last frame in front of `outer` returns just this result. -/
theorem Machine.ReturnsTo.eq_of_leaving {m : Machine} {outer : List Frame} {r result : Completion}
    {a : Activation} (hreturns : m.ReturnsTo setup outer r)
    (hleaving : m.control = .leaving result a outer) : r = result := by
  obtain ⟨n, b, hcontrol, hactive⟩ := hreturns
  cases n with
  | zero => exact (Control.leaving.inj (hcontrol.symm.trans hleaving)).1
  | succ n =>
      have hinside := hactive 0 (Nat.succ_pos n)
      rw [advance, active_of_leaving hleaving] at hinside
      exact absurd hinside (Nat.lt_irrefl _)

/-- The frames in front of `outer` are those of one call: the outermost of them was entered as
given, and those that wait wait for a call. -/
structure Machine.Inside (m : Machine) (outer : List Frame) (invocation : Invocation)
    (call : Option MethodCall) : Prop where
  outermost : ∀ f, m.IsActive f outer → f.activation.invocation = invocation ∧ f.call = call
  awaits : ∀ inner g rest, m.waiting = inner ++ g :: rest → outer.length ≤ rest.length →
    g.AwaitsCall

/-- A frame that waits after a step has waited for its call, or has just called. -/
theorem Machine.waiting_step_cases {m : Machine} {inner rest : List Frame} {g : Frame}
    (hwaiting : (m.step setup).waiting = inner ++ g :: rest) :
    (∃ before, m.waiting = before ++ g :: rest) ∨ g.AwaitsCall := by
  have hactive : (m.step setup).IsActive g rest := by
    cases hcontrol : (m.step setup).control with
    | running f cs =>
        rw [waiting_of_running hcontrol] at hwaiting
        exact ⟨f :: inner, by rw [active_of_running hcontrol, hwaiting, List.cons_append]⟩
    | leaving r a cs =>
        rw [waiting_of_leaving hcontrol] at hwaiting
        exact ⟨inner, by rw [active_of_leaving hcontrol, hwaiting]⟩
  cases hactive.origin with
  | @waited e before hbefore =>
      left
      rcases waiting_of_active hbefore with hwaits | hwaits
      · exact ⟨before, hwaits⟩
      · exact ⟨e :: before, hwaits⟩
  | called hrunning hnext heffect hg =>
      subst hg
      exact Or.inr (Instr.callee?_isSome_of_call heffect)
  | entered hrunning hnext heffect hcontrol hrest hentered =>
      exact absurd hwaiting (waiting_ne_of_running hcontrol)
  | proceeded hrunning hnext heffect hcontrol hg =>
      exact absurd hwaiting (waiting_ne_of_running hcontrol)
  | resumed hresumes hcontrol hg => exact absurd hwaiting (waiting_ne_of_running hcontrol)
  | handled hends hverdict hcontrol hg => exact absurd hwaiting (waiting_ne_of_running hcontrol)

namespace Machine.Inside

variable {m : Machine} {outer : List Frame} {invocation : Invocation} {call : Option MethodCall}

theorem of_running {f : Frame} (hrunning : m.control = .running f outer) :
    m.Inside outer f.activation.invocation f.call where
  outermost g hactive := by
    obtain ⟨inner, hinner⟩ := hactive
    rw [active_of_running hrunning] at hinner
    cases inner with
    | nil =>
        obtain ⟨rfl, -⟩ := List.cons.inj hinner
        exact ⟨rfl, rfl⟩
    | cons top rest =>
        have hlength := congrArg List.length hinner
        simp only [List.length_append, List.length_cons] at hlength
        omega
  awaits inner g rest hwaiting hinside := by
    rw [waiting_of_running hrunning] at hwaiting
    rw [hwaiting] at hinside
    simp only [List.length_append, List.length_cons] at hinside
    omega

/-- As long as the call has not returned, a step stays inside it. -/
theorem step (hinside : m.Inside outer invocation call)
    (hactive : outer.length < m.active.length) :
    (m.step setup).Inside outer invocation call where
  outermost g hg := by
    rcases hg.origin.sameInvocation with
      ⟨f, cs, i, c, hrunning, -, -, rfl, -⟩ | ⟨f, hf, hsame⟩
    · rw [active_of_running hrunning] at hactive
      simp at hactive
    · obtain ⟨hinvocation, hcall⟩ := hinside.outermost f hf
      exact ⟨hsame.invocation.trans hinvocation, hsame.call.trans hcall⟩
  awaits inner g rest hwaiting hdepth := by
    rcases waiting_step_cases hwaiting with ⟨before, hbefore⟩ | hawaits
    · exact hinside.awaits before g rest hbefore hdepth
    · exact hawaits

theorem advance (hinside : m.Inside outer invocation call) {n : Nat}
    (hactive : ∀ j, j < n → outer.length < (m.advance setup j).active.length) :
    (m.advance setup n).Inside outer invocation call := by
  induction n with
  | zero => exact hinside
  | succ n ih =>
      rw [advance_succ]
      apply (ih fun j hj => hactive j (Nat.lt_succ_of_lt hj)).step
      exact hactive n (Nat.lt_succ_self n)

end Machine.Inside

/-- The step that returns to `outer` leaves a frame in front of them.  Observers change the result
of method calls only. -/
theorem Machine.leaves_of_step {m : Machine} {outer : List Frame} {r : Completion}
    {a : Activation} (hcontrol : (m.step setup).control = .leaving r a outer)
    (hactive : outer.length < m.active.length) :
    ∃ f result, m.Leaves f outer result ∧ (f.call = none → r = result) := by
  cases m.step_turn setup with
  | leave hleaves hresult hleft hthread =>
      obtain ⟨rfl, -, rfl⟩ := Control.leaving.inj (hcontrol.symm.trans hleft)
      refine ⟨_, _, hleaves, ?_⟩
      intro hnone
      obtain ⟨before, -, -, hstep⟩ := hleaves.step_eq_leaveFrame setup
      rw [hstep, leaveFrame, hnone] at hcontrol
      exact (Control.leaving.inj hcontrol).1.symm
  | refuse hrunning hnext heffect hrefuses hrefused hthread =>
      obtain ⟨-, -, rfl⟩ := Control.leaving.inj (hcontrol.symm.trans hrefused)
      rw [active_of_running hrunning] at hactive
      simp at hactive
  | stop hleaving hsame =>
      rw [active_of_leaving hleaving] at hactive
      cases hactive
  | proceed hrunning hnext heffect hgoes hthread => cases hcontrol.symm.trans hgoes
  | enter hrunning hnext heffect hgoes hentered hover => cases hcontrol.symm.trans hgoes
  | resume hresumes hgoes hthread => cases hcontrol.symm.trans hgoes
  | handle hends hverdict hgoes hthread => cases hcontrol.symm.trans hgoes

/-- A scope that was entered, but not for a method call, returns what its own frame is left with,
or the fatal condition with which it was refused. -/
theorem Machine.ReturnsTo.cases_of_enterScope {m : Machine} {id : ScopeId} {a : Activation}
    {outer : List Frame} {r : Completion}
    (hreturns : (m.enterScope setup id a none outer).ReturnsTo setup outer r) :
    (∃ message, r = .error (.fatal message)) ∨
      ∃ (m' : Machine) (f : Frame), m'.Leaves f outer r ∧
        f.activation.invocation = a.invocation ∧ (m'.waiting = f :: outer → f.AwaitsCall) := by
  rcases m.enterScope_eq setup id a none outer with
    ⟨s, hs, henter⟩ | ⟨scope, hscope, hdepth, henter⟩
  · left
    have hleaving : (m.enterScope setup id a none outer).control = .leaving (.error s) a outer := by
      rw [henter]
      rfl
    obtain rfl := hreturns.eq_of_leaving hleaving
    rcases hs with rfl | rfl <;> exact ⟨_, rfl⟩
  · right
    have hrunning : (m.enterScope setup id a none outer).control =
        .running (scope.entry a m.thread.nesting none) outer := by
      rw [henter]
    have hstart := Inside.of_running hrunning
    obtain ⟨n, b, hcontrol, hactive⟩ := hreturns
    cases n with
    | zero => cases hcontrol.symm.trans hrunning
    | succ n =>
        have hinside := hstart.advance fun j hj => hactive j (Nat.lt_succ_of_lt hj)
        have hlast := hactive n (Nat.lt_succ_self n)
        rw [advance_succ] at hcontrol
        obtain ⟨f, result, hleaves, hresult⟩ := leaves_of_step hcontrol hlast
        obtain ⟨f₀, hf₀, hsame⟩ := hleaves.sameInvocation
        obtain ⟨hinvocation, hcall⟩ := hinside.outermost f₀ ⟨[], hf₀⟩
        obtain rfl := hresult (hsame.call.trans hcall)
        refine ⟨_, f, hleaves, hsame.invocation.trans hinvocation, ?_⟩
        intro hwaiting
        exact hinside.awaits [] f outer hwaiting (Nat.le_refl _)

/-- A frame inside an invocation waits for a call when a result arrives at it. -/
theorem Machine.awaitsCall_of_enterScope {m : Machine} {id : ScopeId} {a b : Activation}
    {call : Option MethodCall} {outer rest : List Frame} {n : Nat} {r : Completion} {g : Frame}
    (hactive : ∀ j, j < n →
      outer.length < ((m.enterScope setup id a call outer).advance setup j).active.length)
    (hleaving : ((m.enterScope setup id a call outer).advance setup n).control =
      .leaving r b (g :: rest))
    (hdepth : outer.length ≤ rest.length) : g.AwaitsCall := by
  rcases m.enterScope_cases setup id a call outer with
    ⟨s, -, hcontrol, -⟩ | ⟨scope, -, hcontrol, -⟩
  · -- a refused call has returned already
    exfalso
    cases n with
    | zero =>
        obtain ⟨-, -, rfl⟩ := Control.leaving.inj (hcontrol.symm.trans hleaving)
        exact absurd hdepth (Nat.not_succ_le_self _)
    | succ n =>
        have hstart := hactive 0 (Nat.succ_pos n)
        rw [advance, active_of_leaving hcontrol] at hstart
        exact Nat.lt_irrefl _ hstart
  · have hinside := (Inside.of_running hcontrol).advance hactive
    exact hinside.awaits [] g rest (waiting_of_leaving hleaving) hdepth

/-! ## The boundary of a lambda -/

/-- A lambda returns a value, a raise, a fatal condition or a claimed `break`.  A scope that is
entered otherwise never returns a claimed `break`.  A claimed `break` that arrives at a frame
inside an invocation does not leave this frame: it completes the frame's call, or, in a lambda,
is turned into a raise.  Observers may fail with any signals meanwhile. -/
theorem lambda_boundary (setup : Setup) (m : Machine) (outer : List Frame) (id : ScopeId) :
    (∀ args r, (m.enterCall setup (.closure id .lambda args) outer).ReturnsTo setup outer r →
      (∃ v, r = .ok v) ∨ (∃ v, r = .error (.raise v)) ∨ (∃ message, r = .error (.fatal message)) ∨
        ∃ target v, r = .error (.breakJump target v true)) ∧
    (∀ a r, a.invocation ≠ .lambda →
      (m.enterScope setup id a none outer).ReturnsTo setup outer r →
      ∀ target v, r ≠ .error (.breakJump target v true)) ∧
    (∀ a call n target v b g rest,
      (∀ j, j < n →
        outer.length < ((m.enterScope setup id a call outer).advance setup j).active.length) →
      ((m.enterScope setup id a call outer).advance setup n).control =
        .leaving (.error (.breakJump target v true)) b (g :: rest) →
      outer.length ≤ rest.length →
      if g.activation.inLambda then
        ((m.enterScope setup id a call outer).advance setup n).RaisesIn setup g rest
          (.unexpectedBreak v
            ((m.enterScope setup id a call outer).advance setup n).thread.backtraceLines)
      else
        ((m.enterScope setup id a call outer).advance setup n).CompletesCall setup g rest v) := by
  refine ⟨?_, ?_, ?_⟩
  · intro args r hreturns
    rcases hreturns.cases_of_enterScope with
      ⟨message, rfl⟩ | ⟨m', f, hleaves, hinvocation, -⟩
    · exact Or.inr (Or.inr (Or.inl ⟨message, rfl⟩))
    · have hlambda : f.activation.inLambda = true := by
        rw [Activation.inLambda, hinvocation]
        rfl
      cases r with
      | ok v => exact Or.inl ⟨v, rfl⟩
      | error s =>
          have hkind := hleaves.of_lambda hlambda
          cases s with
          | raise v => exact Or.inr (Or.inl ⟨v, rfl⟩)
          | fatal message => exact Or.inr (Or.inr (Or.inl ⟨message, rfl⟩))
          | returnJump target v => simp [Signal.isJump, Signal.isClaimed] at hkind
          | breakJump target v claimed =>
              have hclaimed : claimed = true := by
                simpa [Signal.isJump, Signal.isClaimed] using hkind
              exact Or.inr (Or.inr (Or.inr ⟨target, v, by rw [hclaimed]⟩))
  · rintro a r hother hreturns target v rfl
    rcases hreturns.cases_of_enterScope with
      ⟨message, hfatal⟩ | ⟨m', f, hleaves, hinvocation, hawaits⟩
    · cases hfatal
    · have hlambda : f.activation.inLambda = false := by
        rw [Activation.inLambda, hinvocation]
        exact beq_eq_false_iff_ne.mpr hother
      cases hleaves.unclaimed hlambda hawaits
  · intro a call n target v b g rest hactive hleaving hdepth
    have hawaits := Machine.awaitsCall_of_enterScope hactive hleaving hdepth
    split
    · rename_i hlambda
      exact hawaits.raisesIn_of_break hlambda (.callee hleaving) setup
    · rename_i hlambda
      rw [Bool.not_eq_true] at hlambda
      apply Machine.completesCall_of_resume hleaving
      rw [hawaits.verdict_break hlambda]
      rfl

namespace LambdaBoundaryWitness

/-- A script that calls a lambda; the lambda calls a method and, when this raises, breaks. -/
def listing : Listing where
  name := "guarding"
  root := 0
  scopes := [
    ⟨"<main>", .script, none,
      [.instr (.callClosure ⟨1⟩ .lambda [] (some ⟨0⟩)), .instr (.ret (.reg ⟨0⟩) none)], []⟩,
    ⟨"lambda", .closure, some ⟨0⟩,
      [.label ⟨0⟩, .instr (.callMethod ⟨2⟩ [] none), .label ⟨1⟩, .instr (.ret .nil none),
        .label ⟨2⟩, .instr (.brk (.const (.int 5)) ⟨0⟩)],
      [.rescuing ⟨0⟩ ⟨1⟩ ⟨2⟩]⟩,
    ⟨"work", .method, none, [.instr (.ret .nil none)], []⟩]

/-- The script, while an observer answers the end of every call with a claimed `break`. -/
def guarding : Setup where
  program :=
    { name := "guarding"
      root := ⟨0⟩
      scopes := #[
        ⟨⟨0⟩, "<main>", .script, none,
          ⟨#[.callClosure ⟨1⟩ .lambda [] (some ⟨0⟩), .ret (.reg ⟨0⟩) none], [], []⟩⟩,
        ⟨⟨1⟩, "lambda", .closure, some ⟨0⟩,
          ⟨#[.callMethod ⟨2⟩ [] none, .ret .nil none, .brk (.const (.int 5)) ⟨0⟩],
            [(⟨0⟩, 0), (⟨1⟩, 1), (⟨2⟩, 2)], [⟨0, 1, some 2, none⟩]⟩⟩,
        ⟨⟨2⟩, "work", .method, none, ⟨#[.ret .nil none], [], []⟩⟩] }
  settings := { traceCalls := true }
  observer := some (.failing (fun e => e.kind == .ret) (.breakJump ⟨0⟩ (.int 7) true))

def begin : Machine := .idle .nil (.fresh "-") {} (.fresh .method [])

theorem guarding_listed : guarding.program.Listed := ⟨listing, rfl⟩

/-- The lambda raises for the observer's `break`, rescues this, and claims its own; the script
takes the value of this one, and returns no `break`. -/
theorem lambda_boundary_guarding :
    guarding.program.Listed ∧
    (∃ r, (begin.enterCall guarding (.closure ⟨1⟩ .lambda []) []).ReturnsTo guarding [] r ∧
      r ≠ .ok (.int 5) ∧
      ((∃ v, r = .ok v) ∨ (∃ v, r = .error (.raise v)) ∨
        (∃ message, r = .error (.fatal message)) ∨
          ∃ target v, r = .error (.breakJump target v true))) ∧
    (∃ r, (begin.enterScope guarding ⟨0⟩ (.fresh .method []) none []).ReturnsTo guarding [] r ∧
      r = .ok (.int 5) ∧ ∀ target v, r ≠ .error (.breakJump target v true)) ∧
    ∃ b g rest,
      ((begin.enterScope guarding ⟨0⟩ (.fresh .method []) none []).advance guarding 4).control =
        .leaving (.error (.breakJump ⟨0⟩ (.int 7) true)) b (g :: rest) ∧
      ((begin.enterScope guarding ⟨0⟩ (.fresh .method []) none []).advance guarding 4).RaisesIn
        guarding g rest (.unexpectedBreak (.int 7) []) := by
  have hlambda : (begin.enterCall guarding (.closure ⟨1⟩ .lambda []) []).ReturnsTo guarding []
      (.error (.breakJump ⟨0⟩ (.int 5) true)) :=
    Machine.returnsTo_nil_iff.mpr ⟨_, ⟨5, rfl⟩, rfl⟩
  have hscript : (begin.enterScope guarding ⟨0⟩ (.fresh .method []) none []).ReturnsTo guarding []
      (.ok (.int 5)) :=
    Machine.returnsTo_nil_iff.mpr ⟨_, ⟨9, rfl⟩, rfl⟩
  have hinside : ∀ j, j < 4 → ([] : List Frame).length <
      ((begin.enterScope guarding ⟨0⟩ (.fresh .method []) none []).advance guarding
        j).active.length := by decide +kernel
  refine ⟨guarding_listed, ⟨_, hlambda, ?_, ?_⟩, ⟨_, hscript, rfl, ?_⟩, _, _, _, rfl, ?_⟩
  · exact nofun
  · exact (lambda_boundary guarding begin [] ⟨1⟩).1 [] _ hlambda
  · exact (lambda_boundary guarding begin [] ⟨0⟩).2.1 _ _ (by decide) hscript
  · exact (lambda_boundary guarding begin [] ⟨0⟩).2.2 _ _ 4 _ _ _ _ _ hinside rfl (by decide)

end LambdaBoundaryWitness

end Unwind
