import Unwind.Proofs.Turn

/-!
What a frame makes of the signal of its current instruction.

A `break` that the frame refuses is a raise to it.  A raise meets rescue code, and any other
signal meets ensure code, except that a `return` on its way and a `break` of the frame itself are
not brought before a handler.
-/

namespace Unwind

/-! ## Refused breaks -/

/-- The frame has executed a `break` last. -/
def Frame.breaks (f : Frame) : Bool := f.last.any Instr.isBreak

/-- Whether a frame refuses a `break`: its own one outside closures and in detached procedures,
and the one of a callee in a lambda. -/
def Frame.refusesBreak (f : Frame) : Bool :=
  if f.breaks then !f.scope.isClosure || f.activation.inProc else f.activation.inLambda

/-- What a frame takes the signal of its current instruction for. -/
def Frame.regard (f : Frame) (thread : Thread) : Signal → Signal
  | .breakJump target v claimed =>
      if f.refusesBreak then .ofException (.unexpectedBreak v thread.backtraceLines)
      else .breakJump target v claimed
  | s => s

theorem Frame.regard_of_not_jump {f : Frame} {thread : Thread} {s : Signal}
    (hkind : s.isJump = false) : f.regard thread s = s := by
  cases s with
  | raise v => rfl
  | fatal message => rfl
  | returnJump target v => cases hkind
  | breakJump target v claimed => cases hkind

/-! ## Handlers -/

/-- Where the frame's code handles a signal at its current place. -/
def Frame.handlerFor? (f : Frame) : Signal → Option Nat
  | .raise _ => f.scope.code.rescuerAt? f.pc
  | _ => f.scope.code.ensurerAt? f.pc

/-- Enters the handler for a signal, or else lets the signal pass. -/
def Frame.seekHandler (f : Frame) (s : Signal) : Verdict :=
  match f.handlerFor? s with
  | some pc => .handle pc s
  | none => .pass s

theorem Frame.seekHandler_of_some {f : Frame} {s : Signal} {pc : Nat}
    (hhandler : f.handlerFor? s = some pc) : f.seekHandler s = .handle pc s := by
  rw [seekHandler, hhandler]

theorem Frame.seekHandler_of_none {f : Frame} {s : Signal} (hnone : f.handlerFor? s = none) :
    f.seekHandler s = .pass s := by
  rw [seekHandler, hnone]

theorem Frame.seekHandler_pass {f : Frame} {s passed : Signal}
    (hseeks : f.seekHandler s = .pass passed) : s = passed := by
  rw [seekHandler] at hseeks
  split at hseeks
  · cases hseeks
  · exact Verdict.pass.inj hseeks

theorem Frame.seekHandler_handle {f : Frame} {s handled : Signal} {pc : Nat}
    (hseeks : f.seekHandler s = .handle pc handled) : s = handled := by
  rw [seekHandler] at hseeks
  split at hseeks
  · exact (Verdict.handle.inj hseeks).2
  · cases hseeks

/-- A frame looks for a handler of what it takes for a raise or a fatal condition. -/
theorem Frame.verdict_of_not_jump {f : Frame} {thread : Thread} {s : Signal}
    (hkind : (f.regard thread s).isJump = false) :
    f.verdict thread s = f.seekHandler (f.regard thread s) := by
  cases s with
  | raise v => rfl
  | fatal message => rfl
  | returnJump target v => cases hkind
  | breakJump target v claimed =>
      by_cases hrefused : f.refusesBreak = true
      · have hregard : f.regard thread (.breakJump target v claimed) =
            .ofException (.unexpectedBreak v thread.backtraceLines) := by
          simp [regard, hrefused]
        rw [hregard]
        by_cases hown : f.last.any Instr.isBreak = true
        · have houtside : (!f.scope.isClosure || f.activation.inProc) = true := by
            simpa [refusesBreak, breaks, hown] using hrefused
          simp only [verdict, onBreakJump, hown, houtside, ↓reduceIte]
          rfl
        · have hlambda : f.activation.inLambda = true := by
            simpa [refusesBreak, breaks, hown] using hrefused
          simp only [verdict, onBreakJump, hown, hlambda, ↓reduceIte]
          rfl
      · simp [regard, hrefused, Signal.isJump] at hkind

/-- A `break` that is not refused leaves its own frame, is consumed by a frame on its way, or
meets the ensure code of this frame. -/
theorem Frame.verdict_of_break {f : Frame} {thread : Thread} {target : ScopeId} {v : Value}
    {claimed : Bool} (haccepted : f.refusesBreak = false) :
    f.verdict thread (.breakJump target v claimed) =
      if f.breaks then .pass (.breakJump target v (claimed || f.activation.inLambda))
      else if claimed || target == f.scope.id then .resume v
      else f.seekHandler (.breakJump target v claimed) := by
  by_cases hown : f.last.any Instr.isBreak = true
  · have hinside : (!f.scope.isClosure || f.activation.inProc) = false := by
      simpa [refusesBreak, breaks, hown] using haccepted
    simp only [verdict, onBreakJump, breaks, hown, hinside, ↓reduceIte, Bool.false_eq_true]
  · have hlambda : f.activation.inLambda = false := by
      simpa [refusesBreak, breaks, hown] using haccepted
    simp only [verdict, onBreakJump, breaks, hown, hlambda, ↓reduceIte, Bool.false_eq_true]
    rfl

/-! ## All verdicts -/

/-- Whether a `return` on its way ends at the frame. -/
def Frame.stopsReturn (f : Frame) (target : Option ScopeId) : Bool :=
  f.activation.inLambda || target == some f.scope.id

theorem Frame.verdict_returnJump (f : Frame) (t : Thread) (target : Option ScopeId) (v : Value) :
    f.verdict t (.returnJump target v) =
      if f.stopsReturn target then .finish v else .pass (.returnJump target v) := by
  simp [verdict, onReturnJump, stopsReturn]

/-- Whether a frame is left without a look at its handlers: for any `return` on its way, and for
its own `break` unless it refuses it. -/
def Frame.bypassesHandlers (f : Frame) : Signal → Bool
  | .returnJump _ _ => true
  | .breakJump _ _ _ => f.breaks && !f.refusesBreak
  | _ => false

/-- What a frame can make of a signal. -/
inductive Frame.Judges (f : Frame) (thread : Thread) : Signal → Verdict → Prop
  /-- It looks for a handler of what it takes the signal for. -/
  | seek {s : Signal} {verdict : Verdict} (hseen : f.bypassesHandlers s = false)
      (hverdict : verdict = f.seekHandler (f.regard thread s)) : f.Judges thread s verdict
  /-- It takes the value of a `break` on its way. -/
  | consume {target : ScopeId} {v : Value} {claimed : Bool} (hbreaks : f.breaks = false)
      (hconsumed : (claimed || target == f.scope.id) = true) :
      f.Judges thread (.breakJump target v claimed) (.resume v)
  /-- It ends where a `return` on its way ends. -/
  | finish {target : Option ScopeId} {v : Value} (hstops : f.stopsReturn target = true) :
      f.Judges thread (.returnJump target v) (.finish v)
  | passReturn {target : Option ScopeId} {v : Value} (hpasses : f.stopsReturn target = false) :
      f.Judges thread (.returnJump target v) (.pass (.returnJump target v))
  /-- It is left by its own `break`, which a lambda claims. -/
  | passBreak {target : ScopeId} {v : Value} {claimed : Bool} (hbreaks : f.breaks = true)
      (haccepted : f.refusesBreak = false) :
      f.Judges thread (.breakJump target v claimed)
        (.pass (.breakJump target v (claimed || f.activation.inLambda)))

theorem Frame.verdict_judges (f : Frame) (thread : Thread) (s : Signal) :
    f.Judges thread s (f.verdict thread s) := by
  cases s with
  | raise v => exact .seek rfl rfl
  | fatal message => exact .seek rfl rfl
  | returnJump target v =>
      rw [verdict_returnJump]
      by_cases hstops : f.stopsReturn target = true
      · rw [hstops]
        exact .finish hstops
      · simp only [hstops]
        exact .passReturn (by simpa using hstops)
  | breakJump target v claimed =>
      cases hrefused : f.refusesBreak with
      | true =>
          exact .seek (by simp [bypassesHandlers, hrefused])
            (verdict_of_not_jump (by simp [regard, hrefused]; rfl))
      | false =>
          rw [verdict_of_break hrefused]
          cases hbreaks : f.breaks with
          | true => exact .passBreak hbreaks hrefused
          | false =>
              by_cases hconsumed : (claimed || target == f.scope.id) = true
              · simp only [hconsumed]
                exact .consume hbreaks hconsumed
              · refine .seek (by simp [bypassesHandlers, hbreaks]) ?_
                simp [hconsumed, regard, hrefused]

/-- A signal that is brought before a handler is not taken for a `return` on its way. -/
theorem Frame.regard_ne_returnJump {f : Frame} {s : Signal} (hseen : f.bypassesHandlers s = false)
    (thread : Thread) (target : Option ScopeId) (v : Value) :
    f.regard thread s ≠ .returnJump target v := by
  cases s with
  | returnJump target v => cases hseen
  | breakJump target v claimed =>
      rw [regard]
      split <;> exact nofun
  | raise v => exact nofun
  | fatal message => exact nofun

/-- The handler that a frame enters is that of the signal, as the frame takes it. -/
theorem Frame.handlerFor?_of_verdict {f : Frame} {t : Thread} {s handled : Signal} {pc : Nat}
    (hverdict : f.verdict t s = .handle pc handled) : f.handlerFor? handled = some pc := by
  have hjudges := f.verdict_judges t s
  rw [hverdict] at hjudges
  cases hjudges with
  | seek hseen hseeks =>
      rw [seekHandler] at hseeks
      split at hseeks
      · rename_i h hhandler
        obtain ⟨rfl, rfl⟩ := Verdict.handle.inj hseeks
        exact hhandler
      · cases hseeks

theorem Frame.handled_ne_returnJump {f : Frame} {thread : Thread} {s handled : Signal}
    {pc : Nat} (hverdict : f.verdict thread s = .handle pc handled) (target : Option ScopeId)
    (v : Value) : handled ≠ .returnJump target v := by
  have hjudges := f.verdict_judges thread s
  rw [hverdict] at hjudges
  cases hjudges with
  | seek hseen hseeks =>
      rw [← seekHandler_handle hseeks.symm]
      exact regard_ne_returnJump hseen thread target v

/-- A frame lets a `return` pass only if this has come to it, and the frame does not stop it. -/
theorem Frame.returnJump_of_pass {f : Frame} {thread : Thread} {s : Signal}
    {target : Option ScopeId} {v : Value}
    (hverdict : f.verdict thread s = .pass (.returnJump target v)) :
    s = .returnJump target v ∧ f.stopsReturn target = false := by
  have hjudges := f.verdict_judges thread s
  rw [hverdict] at hjudges
  cases hjudges with
  | passReturn hpasses => exact ⟨rfl, hpasses⟩
  | seek hseen hseeks =>
      exact absurd (seekHandler_pass hseeks.symm) (regard_ne_returnJump hseen thread target v)

/-! ## Yielding -/

/-- The current instruction of a frame ends in what the frame takes for the signal `s`, while the
frames `cs` wait for the frame. -/
def Machine.Yields (m : Machine) (f : Frame) (cs : List Frame) (s : Signal) : Prop :=
  ∃ made, m.EndsIn f cs made ∧ f.regard m.thread made = s

theorem Machine.yields_of_leaving {m : Machine} {f : Frame} {cs : List Frame} {s : Signal}
    {a : Activation} (hleaving : m.control = .leaving (.error s) a (f :: cs))
    (hkind : s.isJump = false) : m.Yields f cs s :=
  ⟨s, .callee hleaving, Frame.regard_of_not_jump hkind⟩

theorem Machine.Yields.step_of_some {m : Machine} {f : Frame} {cs : List Frame} {s : Signal}
    (hyields : m.Yields f cs s) (hkind : s.isJump = false) {pc : Nat}
    (hhandler : f.handlerFor? s = some pc) (setup : Setup) :
    (m.step setup).control = .running (f.handle pc s) cs ∧
      (m.step setup).thread = m.thread := by
  obtain ⟨made, hends, rfl⟩ := hyields
  have hspec := hends.step_spec setup
  rwa [Frame.verdict_of_not_jump hkind, Frame.seekHandler_of_some hhandler] at hspec

theorem Machine.Yields.step_of_none {m : Machine} {f : Frame} {cs : List Frame} {s : Signal}
    (hyields : m.Yields f cs s) (hkind : s.isJump = false) (hnone : f.handlerFor? s = none)
    (setup : Setup) :
    (m.step setup).control = .leaving (.error s) f.activation cs ∧
      (m.step setup).thread = f.restore m.thread := by
  obtain ⟨made, hends, rfl⟩ := hyields
  have hspec := hends.step_spec setup
  rwa [Frame.verdict_of_not_jump hkind, Frame.seekHandler_of_none hnone] at hspec

end Unwind
