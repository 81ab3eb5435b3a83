import Unwind.Proofs.Built
import Unwind.Proofs.Callers
import Unwind.Proofs.Landing

/-!
Where a `break` lands.

A `break` out of a block leaves its frame and goes outward to the first frame that is a lambda,
runs the target, or has ensure code around its call.  A lambda refuses it, the target takes its
value as that of the call, and ensure code is entered with the `break` pending.  A `break` out of
a lambda is claimed and ends at once in the caller, unless the caller is a lambda itself.
-/

namespace Unwind

variable {setup : Setup}

theorem Machine.endsIn_break {m : Machine} {f : Frame} {cs : List Frame} {value : Operand}
    {target : ScopeId} (hrunning : m.control = .running f cs)
    (hnext : f.next? = some (.brk value target)) :
    m.EndsIn (f.calling (.brk value target)) cs
      (.breakJump target (f.activation.operand m.receiver value) false) :=
  .own hrunning hnext rfl

/-! ## Breaks on their way -/

/-- Whether a `break` that is on its way to `target`, and that no lambda has claimed, ends at the
frame or meets ensure code of it. -/
def Frame.decidesBreak (f : Frame) (target : ScopeId) : Bool :=
  f.activation.inLambda || f.scope.id == target || (f.scope.code.ensurerAt? f.pc).isSome

theorem Frame.AwaitsCall.refusesBreak_eq {g : Frame} (hawaits : g.AwaitsCall) :
    g.refusesBreak = g.activation.inLambda := by
  simp [Frame.refusesBreak, Frame.breaks, hawaits.breaks]

/-- What a frame that waits for a call makes of a `break`, if it is not a lambda. -/
theorem Frame.AwaitsCall.verdict_break {g : Frame} (hawaits : g.AwaitsCall)
    (hlambda : g.activation.inLambda = false) (t : Thread) (target : ScopeId) (v : Value)
    (claimed : Bool) :
    g.verdict t (.breakJump target v claimed) =
      if claimed || target == g.scope.id then .resume v
      else g.seekHandler (.breakJump target v claimed) := by
  rw [Frame.verdict_of_break (by rw [hawaits.refusesBreak_eq, hlambda]), Frame.breaks,
    hawaits.breaks]
  rfl

theorem Frame.AwaitsCall.pass_break {g : Frame} (hawaits : g.AwaitsCall) {target : ScopeId}
    (hundecided : g.decidesBreak target = false) (t : Thread) (v : Value) :
    g.verdict t (.breakJump target v false) = .pass (.breakJump target v false) := by
  simp only [Frame.decidesBreak, Bool.or_eq_false_iff, beq_eq_false_iff_ne, ne_eq,
    Option.isSome_eq_false_iff, Option.isNone_iff_eq_none] at hundecided
  obtain ⟨⟨hlambda, htarget⟩, hensurer⟩ := hundecided
  have hnone : g.handlerFor? (.breakJump target v false) = none := hensurer
  rw [hawaits.verdict_break hlambda, Frame.seekHandler_of_none hnone]
  simp [Ne.symm htarget]

/-- The next step raises, in a lambda that waits for a call, the exception of a `break` that it
must not see. -/
theorem Frame.AwaitsCall.raisesIn_of_break {g : Frame} (hawaits : g.AwaitsCall)
    (hlambda : g.activation.inLambda = true) {m : Machine} {outer : List Frame}
    {target : ScopeId} {v : Value} {claimed : Bool}
    (hends : m.EndsIn g outer (.breakJump target v claimed)) (setup : Setup) :
    m.RaisesIn setup g outer (.unexpectedBreak v m.thread.backtraceLines) := by
  refine Machine.Yields.raisesIn ⟨_, hends, ?_⟩ setup
  rw [Frame.regard, hawaits.refusesBreak_eq, hlambda]
  rfl

/-- The next step ends the way of a `break` at the frame `g`: a lambda raises, the target goes on
behind its call with the value, and any other frame enters its ensure code. -/
def Machine.BreakLands (setup : Setup) (m : Machine) (g : Frame) (outer : List Frame)
    (target : ScopeId) (v : Value) : Prop :=
  if g.activation.inLambda then
    m.RaisesIn setup g outer (.unexpectedBreak v m.thread.backtraceLines)
  else if g.scope.id = target then m.CompletesCall setup g outer v
  else ∃ pc, g.scope.code.ensurerAt? g.pc = some pc ∧
    (m.step setup).control = .running (g.handle pc (.breakJump target v false)) outer

theorem Frame.AwaitsCall.breakLands {g : Frame} (hawaits : g.AwaitsCall) {target : ScopeId}
    (hdecides : g.decidesBreak target = true) {m : Machine} {outer : List Frame} {v : Value}
    {a : Activation}
    (hleaving : m.control = .leaving (.error (.breakJump target v false)) a (g :: outer))
    (setup : Setup) : m.BreakLands setup g outer target v := by
  have hends : m.EndsIn g outer (.breakJump target v false) := .callee hleaving
  cases hlambda : g.activation.inLambda with
  | true =>
      simp only [Machine.BreakLands, hlambda, ↓reduceIte]
      exact hawaits.raisesIn_of_break hlambda hends setup
  | false =>
      have hverdict := hawaits.verdict_break hlambda m.thread target v false
      simp only [Machine.BreakLands, hlambda, Bool.false_eq_true, ↓reduceIte]
      by_cases htarget : g.scope.id = target
      · simp only [htarget, Bool.false_or, beq_self_eq_true, ↓reduceIte] at hverdict ⊢
        exact Machine.completesCall_of_resume hleaving hverdict setup
      · simp only [Frame.decidesBreak, hlambda, Bool.false_or, Bool.or_eq_true, beq_iff_eq,
          htarget, false_or] at hdecides
        obtain ⟨pc, hensurer⟩ := Option.isSome_iff_exists.mp hdecides
        have hhandler : g.handlerFor? (.breakJump target v false) = some pc := hensurer
        have hother : (false || target == g.scope.id) = false := by simp [Ne.symm htarget]
        simp only [hother, Frame.seekHandler_of_some hhandler, Bool.false_eq_true,
          ↓reduceIte] at hverdict
        have hspec := hends.step_spec setup
        rw [hverdict] at hspec
        simp only [htarget, ↓reduceIte]
        exact ⟨pc, hensurer, hspec.1⟩

/-! ## The landing law -/

/-- A frame that executes a `break` and accepts it is left with the `break`, which it claims if it
is a lambda. -/
theorem Machine.step_of_accepted_break {m : Machine} {f : Frame} {cs : List Frame}
    {value : Operand} {target : ScopeId} (hrunning : m.control = .running f cs)
    (hnext : f.next? = some (.brk value target)) (hclosure : f.scope.isClosure = true)
    (hproc : f.activation.inProc = false) (setup : Setup) :
    (m.step setup).control = .leaving (.error (.breakJump target
      (f.activation.operand m.receiver value) f.activation.inLambda)) f.activation cs := by
  have haccepted : (f.calling (.brk value target)).refusesBreak = false := by
    simp [Frame.refusesBreak, Frame.breaks, Frame.calling, Instr.isBreak, hclosure, hproc]
  have hspec := (Machine.endsIn_break hrunning hnext).step_spec setup
  rw [Frame.verdict_of_break haccepted] at hspec
  exact hspec.1

/-- A frame that executes a `break` and refuses it raises at this place. -/
theorem Machine.raisesIn_of_refused_break {m : Machine} {f : Frame} {cs : List Frame}
    {value : Operand} {target : ScopeId} (hrunning : m.control = .running f cs)
    (hnext : f.next? = some (.brk value target))
    (hrefused : f.scope.isClosure = false ∨ f.activation.inProc = true) (setup : Setup) :
    m.RaisesIn setup (f.calling (.brk value target)) cs
      (.unexpectedBreak (f.activation.operand m.receiver value) m.thread.backtraceLines) := by
  have hrefuses : (f.calling (.brk value target)).refusesBreak = true := by
    rcases hrefused with hclosure | hproc
    · simp [Frame.refusesBreak, Frame.breaks, Frame.calling, Instr.isBreak, hclosure]
    · simp [Frame.refusesBreak, Frame.breaks, Frame.calling, Instr.isBreak, hproc]
  refine Machine.Yields.raisesIn ⟨_, Machine.endsIn_break hrunning hnext, ?_⟩ setup
  rw [Frame.regard, hrefuses]
  rfl

/-- The root turns a `break` that leaves it into a raise. -/
theorem Outcome.ofRoot_result_of_break {o : Outcome} {target : ScopeId} {v : Value}
    {claimed : Bool} (hresult : o.result = .error (.breakJump target v claimed))
    (setup : Setup) :
    (o.ofRoot setup).result =
      .error (.ofException (.unexpectedBreak v o.thread.backtraceLines)) := by
  simp [Outcome.ofRoot, hresult]

/-- A `break` that a frame executes, if this is not a lambda, raises in the frame itself unless it
runs a closure as a block.  Otherwise the `break` arrives at the first outer frame that is a
lambda, runs the target, or has ensure code around its call: a lambda raises, the target goes on
behind its call with the value, and ensure code is entered with this `break` pending.  If there
is no such frame, the run ends in the raise.  The value is the same in all cases, whatever
observers do. -/
theorem break_lands (setup : Setup) (receiver : Value) (thread : Thread) (record : Record)
    {n : Nat} {f : Frame} {cs : List Frame} {value : Operand} {target : ScopeId} {v : Value}
    (hrunning : ((setup.runRoot receiver thread record).advance setup n).control =
      .running f cs)
    (hnext : f.next? = some (.brk value target))
    (hvalue : f.activation.operand receiver value = v)
    (hlambda : f.activation.inLambda = false) :
    (f.scope.isClosure = false ∨ f.activation.inProc = true →
      ((setup.runRoot receiver thread record).advance setup n).RaisesIn setup
        (f.calling (.brk value target)) cs (.unexpectedBreak v
          ((setup.runRoot receiver thread record).advance setup n).thread.backtraceLines)) ∧
    (f.scope.isClosure = true → f.activation.inProc = false →
      (∀ inner g outer, cs = inner ++ g :: outer →
        (∀ e ∈ inner, e.decidesBreak target = false) → g.decidesBreak target = true →
        ∃ l, (setup.runRoot receiver thread record).Arrives setup n l
            (.breakJump target v false) g outer ∧
          ((setup.runRoot receiver thread record).advance setup l).BreakLands setup g outer
            target v) ∧
      ((∀ g ∈ cs, g.decidesBreak target = false) →
        (∀ j, n < j →
          ((setup.runRoot receiver thread record).advance setup j).executing? = none) ∧
        ∃ o, (setup.runRoot receiver thread record).Stops setup o ∧
          (o.ofRoot setup).result =
            .error (.ofException (.unexpectedBreak v thread.backtraceLines)))) := by
  have hstart := setup.runRoot_waiting receiver thread record
  have hreceiver := setup.runRoot_receiver receiver thread record n
  have hawaits := (setup.runRoot_called receiver thread record n).awaitsCall
  have hrestored {o : Outcome} (hstops : (setup.runRoot receiver thread record).Stops setup o) :=
    (setup.runRoot_stackedOn receiver thread record).thread_of_stops hstops
  generalize setup.runRoot receiver thread record = m at *
  rw [Machine.waiting_of_running hrunning] at hawaits
  constructor
  · intro hrefused
    have hraises := Machine.raisesIn_of_refused_break hrunning hnext hrefused setup
    rwa [hreceiver, hvalue] at hraises
  · intro hclosure hproc
    have hleaving := Machine.step_of_accepted_break hrunning hnext hclosure hproc setup
    rw [← Machine.advance_succ, hreceiver, hvalue, hlambda] at hleaving
    constructor
    · rintro inner g outer rfl hundecided hdecides
      have harrives := Machine.exists_arrives hstart hleaving fun e he t =>
        (hawaits e (List.mem_append_left _ he)).pass_break (hundecided e he) t v
      obtain ⟨a, hlast⟩ := harrives.leaving
      exact ⟨_, harrives, (hawaits g (by simp)).breakLands hdecides hlast setup⟩
    · intro hundecided
      have hpass : ∀ e ∈ cs, ∀ t,
          e.verdict t (.breakJump target v false) = .pass (.breakJump target v false) :=
        fun e he t => (hawaits e he).pass_break (hundecided e he) t v
      obtain ⟨hquiet, o, hstops, hresult⟩ := Machine.escape hleaving hpass setup
      refine ⟨?_, o, hstops.of_advance, ?_⟩
      · intro j hnj
        obtain ⟨d, rfl⟩ := Nat.exists_eq_add_of_le (Nat.succ_le_of_lt hnj)
        rw [Nat.succ_eq_add_one, Machine.advance_add]
        exact hquiet d
      · rw [Outcome.ofRoot_result_of_break hresult, hrestored hstops.of_advance]
        rfl

namespace BreakLandingWitness

/-- A method that hands a block to another method; the block breaks out of the call. -/
def listing : Listing where
  name := "breaking"
  root := 0
  scopes := [
    ⟨"<main>", .script, none,
      [.instr (.callMethod ⟨1⟩ [] (some ⟨0⟩)), .instr (.ret (.reg ⟨0⟩) none)], []⟩,
    ⟨"find", .method, none,
      [.instr (.callMethod ⟨2⟩ [] (some ⟨3⟩)), .instr (.ret (.reg ⟨3⟩) none)], []⟩,
    ⟨"each", .method, none, [.instr (.callClosure ⟨3⟩ .block [] none)], []⟩,
    ⟨"block in find", .closure, some ⟨1⟩, [.instr (.brk (.const (.int 42)) ⟨1⟩)], []⟩]

/-- The script, while an observer fails at the end of every call. -/
def breaking : Setup where
  program :=
    { name := "breaking"
      root := ⟨0⟩
      scopes := #[
        ⟨⟨0⟩, "<main>", .script, none,
          ⟨#[.callMethod ⟨1⟩ [] (some ⟨0⟩), .ret (.reg ⟨0⟩) none], [], []⟩⟩,
        ⟨⟨1⟩, "find", .method, none,
          ⟨#[.callMethod ⟨2⟩ [] (some ⟨3⟩), .ret (.reg ⟨3⟩) none], [], []⟩⟩,
        ⟨⟨2⟩, "each", .method, none, ⟨#[.callClosure ⟨3⟩ .block [] none], [], []⟩⟩,
        ⟨⟨3⟩, "block in find", .closure, some ⟨1⟩, ⟨#[.brk (.const (.int 42)) ⟨1⟩], [], []⟩⟩] }
  settings := { traceCalls := true }
  observer := some (.failing (fun e => e.kind == .ret) (.fatal "hook failed"))

def run (n : Nat) : Machine := (breaking.runRoot .nil (.fresh "-") {}).advance breaking n

theorem breaking_listed : breaking.program.Listed := ⟨listing, rfl⟩

/-- The break leaves the other method and completes the call that the block's method made. -/
theorem break_lands_in_target :
    breaking.program.Listed ∧
    ∃ f e g outer l, (run 3).control = .running f (e :: g :: outer) ∧
      f.next? = some (.brk (.const (.int 42)) ⟨1⟩) ∧
      (breaking.runRoot .nil (.fresh "-") {}).Arrives breaking 3 l
        (.breakJump ⟨1⟩ (.int 42) false) g outer ∧
      (run l).CompletesCall breaking g outer (.int 42) := by
  have hlands := break_lands breaking .nil (.fresh "-") {} (n := 3) (v := .int 42) rfl rfl rfl rfl
  obtain ⟨l, harrives, hlands⟩ := (hlands.2 rfl rfl).1 [_] _ _ rfl (by simp; rfl) rfl
  exact ⟨breaking_listed, _, _, _, _, l, rfl, rfl, harrives, hlands⟩

end BreakLandingWitness

/-! ## Breaks out of lambdas -/

/-- The frame that a lambda call entered runs a closure, as a lambda. -/
theorem Machine.lambda_of_running (hsound : setup.program.Sound) {m : Machine} {base : Thread}
    (hstacked : m.StackedOn setup.program base []) (hcalled : m.Called setup.program)
    {f g : Frame} {outer : List Frame} {id : ScopeId} {args : List Operand} {dst : Option Reg}
    (hnext : g.next? = some (.callClosure id .lambda args dst))
    (hrunning : m.control =
      .running f (g.calling (.callClosure id .lambda args dst) :: outer)) :
    f.scope.isClosure = true ∧ f.activation.invocation = .lambda := by
  have hmember : g.calling (.callClosure id .lambda args dst) ∈ m.active := by
    simp [active_of_running hrunning]
  obtain ⟨inner, hinner, hstack⟩ := hstacked
  rw [List.append_nil] at hinner
  subst hinner
  obtain ⟨gid, hgid⟩ := hstack.scope_mem hmember
  obtain ⟨⟨fid, hcallee, hfid⟩, -⟩ := (called_of_running hrunning).mp hcalled
  obtain ⟨rfl, hinvocation⟩ := Prod.mk.inj (Option.some.inj hcallee)
  obtain ⟨t, ht, hclosure⟩ :=
    hsound.closures gid _ hgid id .lambda args dst (Array.mem_of_getElem? hnext)
  rw [← Option.some.inj (hfid.symm.trans ht)] at hclosure
  exact ⟨hclosure, hinvocation.symm⟩

/-- A `break` of a lambda's own frame leaves this frame alone, whatever target it names.  In the
caller the call is complete with its value, unless the caller is a lambda itself: then the caller
raises. -/
theorem lambda_break_lands (hbuilt : setup.program.Built) (receiver : Value) (thread : Thread)
    (record : Record) {k n : Nat} {f g : Frame} {outer : List Frame} {id : ScopeId}
    {args : List Operand} {dst : Option Reg} {value : Operand} {target : ScopeId} {v : Value}
    (hbegan : (setup.runRoot receiver thread record).Began setup k n g
      (.callClosure id .lambda args dst) outer)
    (hrunning : ((setup.runRoot receiver thread record).advance setup n).control =
      .running f (g.calling (.callClosure id .lambda args dst) :: outer))
    (hnext : f.next? = some (.brk value target))
    (hvalue : f.activation.operand receiver value = v) :
    ((setup.runRoot receiver thread record).advance setup (n + 1)).control =
      .leaving (.error (.breakJump target v true)) f.activation
        (g.calling (.callClosure id .lambda args dst) :: outer) ∧
    (g.activation.inLambda = false →
      ((setup.runRoot receiver thread record).advance setup (n + 2)).control =
        .running { g with
          pc := g.pc + 1
          last := some (.callClosure id .lambda args dst)
          activation := g.activation.store dst v } outer ∧
      ((setup.runRoot receiver thread record).advance setup (n + 1)).CompletesCall setup
        (g.calling (.callClosure id .lambda args dst)) outer v) ∧
    (g.activation.inLambda = true →
      ((setup.runRoot receiver thread record).advance setup (n + 1)).RaisesIn setup
        (g.calling (.callClosure id .lambda args dst)) outer (.unexpectedBreak v
          ((setup.runRoot receiver thread record).advance setup
            (n + 1)).thread.backtraceLines)) := by
  have hreceiver := setup.runRoot_receiver receiver thread record n
  have hcalled := setup.runRoot_called receiver thread record n
  have hstacked := (setup.runRoot_stackedOn receiver thread record).advance n
  generalize setup.runRoot receiver thread record = m at *
  obtain ⟨hclosure, hlambda⟩ :=
    Machine.lambda_of_running hbuilt.sound hstacked hcalled hbegan.next hrunning
  have hawaits : (g.calling (.callClosure id .lambda args dst)).AwaitsCall := rfl
  have hleaving := Machine.step_of_accepted_break hrunning hnext hclosure
    (by rw [Activation.inProc, hlambda]; rfl) setup
  rw [← Machine.advance_succ, hreceiver, hvalue, Activation.inLambda, hlambda] at hleaving
  refine ⟨hleaving, ?_, ?_⟩
  · intro hcaller
    have hcompletes := Machine.completesCall_of_resume hleaving
      (hawaits.verdict_break hcaller _ target v true) setup
    refine ⟨?_, hcompletes⟩
    rw [Machine.advance_succ, hcompletes]
    rfl
  · intro hcaller
    exact hawaits.raisesIn_of_break hcaller (.callee hleaving) setup

namespace LambdaBreakWitness

/-- A script that calls a lambda with a block that calls a lambda; the last one breaks. -/
def listing : Listing where
  name := "stopping"
  root := 0
  scopes := [
    ⟨"<main>", .script, none,
      [.instr (.callClosure ⟨1⟩ .block [] (some ⟨0⟩)), .instr (.ret (.reg ⟨0⟩) none)], []⟩,
    ⟨"block", .closure, some ⟨0⟩,
      [.instr (.callClosure ⟨2⟩ .lambda [] (some ⟨4⟩))], []⟩,
    ⟨"lambda", .closure, some ⟨0⟩, [.instr (.brk (.const (.int 5)) ⟨0⟩)], []⟩]

def stopping : Setup where
  program :=
    { name := "stopping"
      root := ⟨0⟩
      scopes := #[
        ⟨⟨0⟩, "<main>", .script, none,
          ⟨#[.callClosure ⟨1⟩ .block [] (some ⟨0⟩), .ret (.reg ⟨0⟩) none], [], []⟩⟩,
        ⟨⟨1⟩, "block", .closure, some ⟨0⟩,
          ⟨#[.callClosure ⟨2⟩ .lambda [] (some ⟨4⟩)], [], []⟩⟩,
        ⟨⟨2⟩, "lambda", .closure, some ⟨0⟩, ⟨#[.brk (.const (.int 5)) ⟨0⟩], [], []⟩⟩] }

theorem stopping_listed : stopping.program.Listed := ⟨listing, rfl⟩

/-- The break does not reach the script that it names, but ends in the block. -/
theorem lambda_break_lands_in_block :
    ∃ f g outer,
      (stopping.runRoot .nil (.fresh "-") {}).Began stopping 1 2 g
        (.callClosure ⟨2⟩ .lambda [] (some ⟨4⟩)) outer ∧
      ((stopping.runRoot .nil (.fresh "-") {}).advance stopping 2).control =
        .running f (g.calling (.callClosure ⟨2⟩ .lambda [] (some ⟨4⟩)) :: outer) ∧
      f.next? = some (.brk (.const (.int 5)) ⟨0⟩) ∧
      ((stopping.runRoot .nil (.fresh "-") {}).advance stopping 4).control =
        .running { g with
          pc := g.pc + 1
          last := some (.callClosure ⟨2⟩ .lambda [] (some ⟨4⟩))
          activation := g.activation.store (some ⟨4⟩) (.int 5) } outer := by
  have hbegan : (stopping.runRoot .nil (.fresh "-") {}).Began stopping 1 2 _
      (.callClosure ⟨2⟩ .lambda [] (some ⟨4⟩)) _ :=
    (Machine.Began.now rfl rfl).succ (List.nil_append _).symm
  exact ⟨_, _, _, hbegan, rfl, rfl,
    ((lambda_break_lands stopping_listed.built .nil (.fresh "-") {} hbegan rfl rfl rfl).2.1
      rfl).1⟩

/-- A script that calls a lambda that calls a lambda; the last one breaks. -/
def nestingListing : Listing where
  name := "nesting"
  root := 0
  scopes := [
    ⟨"<main>", .script, none,
      [.instr (.callClosure ⟨1⟩ .lambda [] (some ⟨0⟩)), .instr (.ret (.reg ⟨0⟩) none)], []⟩,
    ⟨"outer lambda", .closure, some ⟨0⟩,
      [.instr (.callClosure ⟨2⟩ .lambda [] (some ⟨0⟩)),
        .instr (.binary .add (.reg ⟨0⟩) (.const (.int 1)) ⟨1⟩), .instr (.ret (.reg ⟨1⟩) none)],
      []⟩,
    ⟨"inner lambda", .closure, some ⟨0⟩, [.instr (.brk (.const (.int 5)) ⟨2⟩)], []⟩]

def nesting : Setup where
  program :=
    { name := "nesting"
      root := ⟨0⟩
      scopes := #[
        ⟨⟨0⟩, "<main>", .script, none,
          ⟨#[.callClosure ⟨1⟩ .lambda [] (some ⟨0⟩), .ret (.reg ⟨0⟩) none], [], []⟩⟩,
        ⟨⟨1⟩, "outer lambda", .closure, some ⟨0⟩,
          ⟨#[.callClosure ⟨2⟩ .lambda [] (some ⟨0⟩),
              .binary .add (.reg ⟨0⟩) (.const (.int 1)) ⟨1⟩, .ret (.reg ⟨1⟩) none], [], []⟩⟩,
        ⟨⟨2⟩, "inner lambda", .closure, some ⟨0⟩, ⟨#[.brk (.const (.int 5)) ⟨2⟩], [], []⟩⟩] }

theorem nesting_listed : nesting.program.Listed := ⟨nestingListing, rfl⟩

/-- The call of the inner lambda is not complete with the value: the outer lambda raises, and the
script ends in a local jump error. -/
theorem lambda_break_raises_in_lambda :
    nesting.program.Listed ∧
      (∃ f g outer,
        (nesting.runRoot .nil (.fresh "-") {}).Began nesting 1 2 g
          (.callClosure ⟨2⟩ .lambda [] (some ⟨0⟩)) outer ∧
        ((nesting.runRoot .nil (.fresh "-") {}).advance nesting 2).control =
          .running f (g.calling (.callClosure ⟨2⟩ .lambda [] (some ⟨0⟩)) :: outer) ∧
        f.next? = some (.brk (.const (.int 5)) ⟨2⟩) ∧
        ∀ h, ((nesting.runRoot .nil (.fresh "-") {}).advance nesting 4).control ≠
          .running h outer) ∧
      ∃ o, (nesting.runRoot .nil (.fresh "-") {}).Stops nesting o ∧
        (o.ofRoot nesting).result = .error (.ofException (.unexpectedBreak (.int 5) [])) := by
  have hbegan : (nesting.runRoot .nil (.fresh "-") {}).Began nesting 1 2 _
      (.callClosure ⟨2⟩ .lambda [] (some ⟨0⟩)) _ :=
    (Machine.Began.now rfl rfl).succ (List.nil_append _).symm
  have hleft : ((nesting.runRoot .nil (.fresh "-") {}).advance nesting 4).control =
      .leaving (.error (.ofException (.unexpectedBreak (.int 5) []))) _ _ := rfl
  refine ⟨nesting_listed, ⟨_, _, _, hbegan, rfl, rfl, fun h hrunning => ?_⟩, _, ⟨5, rfl⟩, rfl⟩
  cases hleft.symm.trans hrunning

end LambdaBreakWitness

end Unwind
