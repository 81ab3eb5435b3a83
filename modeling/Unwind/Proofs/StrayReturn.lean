import Unwind.Proofs.Regular
import Unwind.Proofs.Unwinding

/-!
Returns that no frame stops.

A `return` on its way always has a lambda, or the frame of its method, in front of it, because a
closure that has lost its method raises instead.  The exception is a `return` that names a
method outside closures: nothing asks whether the method is active, and if it is not, the
`return` leaves the root.
-/

namespace Unwind

variable {setup : Setup}

/-! ## Closing with a return -/

/-- How a frame closes whose last instruction is a `return` from a method that it names. -/
theorem Frame.close_of_leavingReturn {f : Frame} {target : ScopeId}
    (hnames : f.leavingReturn? = some (some target)) (t : Thread) :
    f.close t =
      if f.scope.isClosure && !t.isActive target then
        .error (.ofException (.unexpectedReturn f.activation.returnValue t.backtraceLines))
      else .error (.returnJump (some target) f.activation.returnValue) := by
  simp [close, hnames, isOrphaned]

/-- A frame that closes with a `return` on its way names a method, which is active if the frame
is of a closure. -/
theorem Frame.leavingReturn_of_close {f : Frame} {t : Thread} {target : Option ScopeId}
    {v : Value} (hclose : f.close t = .error (.returnJump target v)) :
    ∃ id, target = some id ∧ f.leavingReturn? = some (some id) ∧
      (f.scope.isClosure = true → t.isActive id = true) := by
  cases hnames : f.leavingReturn? with
  | none => simp [close, hnames] at hclose
  | some method =>
      cases method with
      | none =>
          cases hkind : f.scope.isClosure <;>
            simp [close, hnames, isOrphaned, hkind, Signal.ofException] at hclose
      | some id =>
          rw [Frame.close_of_leavingReturn hnames] at hclose
          split at hclose
          · cases hclose
          · rename_i hkept
            cases hclose
            exact ⟨id, rfl, rfl, fun hkind => by simpa [hkind] using hkept⟩

/-! ## Returns on their way -/

/-- The frame `f` is at its end, with a `return` from the method `target`, and none of the frames
outside it stops such a `return`. -/
structure Machine.ReturnsAstray (m : Machine) (f : Frame) (cs : List Frame) (target : ScopeId) :
    Prop where
  running : m.control = .running f cs
  atEnd : f.next? = none
  names : f.leavingReturn? = some (some target)
  unstopped : ∀ g ∈ cs, g.stopsReturn (some target) = false

/-- A `return` is about to leave a frame, not of a closure, that no outer frame stops. -/
def Machine.StrayReturn (m : Machine) : Prop :=
  ∃ f cs target, m.ReturnsAstray f cs target ∧ f.scope.isClosure = false

/-- A `return` on its way will be stopped. -/
def Machine.ReturnsStopped (m : Machine) : Prop :=
  ∀ target v a cs, m.control = .leaving (.error (.returnJump target v)) a cs →
    ∃ g ∈ cs, g.stopsReturn target = true

theorem Machine.returnsStopped_of_running {m : Machine} {f : Frame} {cs : List Frame}
    (hcontrol : m.control = .running f cs) : m.ReturnsStopped := by
  intro target v a ds hleaving
  rw [hcontrol] at hleaving
  cases hleaving

theorem Machine.ReturnsStopped.of_endsIn {m : Machine} (hm : m.ReturnsStopped)
    (hregular : m.Regular) {f : Frame} {cs : List Frame} {target : Option ScopeId} {v : Value}
    (hends : m.EndsIn f cs (.returnJump target v)) :
    ∃ g ∈ f :: cs, g.stopsReturn target = true := by
  cases hends with
  | @own f₀ _ i _ hrunning hnext heffect =>
      have hfirst := hregular f₀ (by simp [active_of_running hrunning])
      exact absurd (Instr.pending_of_returnJump heffect) (hfirst.pending target v)
  | callee hleaving => exact hm _ _ _ _ hleaving

/-- Scopes are not refused with a `return`, unless an observer does it. -/
theorem Setup.Refuses.not_returnJump {s : Signal} (hrefuses : setup.Refuses s)
    (hcontent : ∀ s, ¬setup.MayFail s) (target : Option ScopeId) (v : Value) :
    s ≠ .returnJump target v := by
  rcases hrefuses with rfl | ⟨id, rfl⟩ | hfails
  · exact nofun
  · exact nofun
  · exact absurd hfails (hcontent s)

theorem Setup.LeavesWith.eq_of_content {r result : Completion}
    (hleaves : setup.LeavesWith r result) (hcontent : ∀ s, ¬setup.MayFail s) : result = r := by
  rcases hleaves with hsame | ⟨v, s, -, -, hfails⟩
  · exact hsame
  · exact absurd hfails (hcontent s)

/-- A method that is active, seen from a closure, is that of an outer frame. -/
theorem Machine.StackedOn.isActive_iff (hsound : setup.program.Sound) {m : Machine}
    {file : String} (hstacked : m.StackedOn setup.program (.fresh file) []) {f : Frame}
    {cs : List Frame} (hactive : m.active = f :: cs) (hf : f.Regular)
    (hkind : f.scope.isClosure = true) {id : ScopeId} :
    m.thread.isActive id = true ↔ ∃ g ∈ cs, g.call.isSome = true ∧ g.scope.id = id := by
  obtain ⟨inner, hinner, hstack⟩ := hstacked
  rw [List.append_nil, hactive] at hinner
  subst hinner
  have hcalls := hstack.calls_eq hsound
  have hown : f.call.isSome = false := by rw [hf.kind, hkind]; rfl
  rw [Thread.isActive, List.contains_iff_mem, hcalls, Thread.fresh, List.append_nil,
    mem_methodScopes]
  simp [hown]

/-- A step keeps every `return` on its way stopped, unless a stray one leaves its frame. -/
theorem Machine.ReturnsStopped.step (hsound : setup.program.Sound)
    (hcontent : ∀ s, ¬setup.MayFail s) {m : Machine} {file : String}
    (hstacked : m.StackedOn setup.program (.fresh file) []) (hregular : m.Regular)
    (hm : m.ReturnsStopped) (hstray : ¬m.StrayReturn) : (m.step setup).ReturnsStopped := by
  cases m.step_turn setup with
  | proceed hrunning hnext heffect hcontrol hthread => exact returnsStopped_of_running hcontrol
  | enter hrunning hnext heffect hcontrol hentered hover =>
      exact returnsStopped_of_running hcontrol
  | resume hresumes hcontrol hthread => exact returnsStopped_of_running hcontrol
  | handle hends hverdict hcontrol hthread => exact returnsStopped_of_running hcontrol
  | stop hleaving hsame => rwa [hsame]
  | refuse hrunning hnext heffect hrefuses hcontrol hthread =>
      intro target v a cs hleaving
      rw [hcontrol] at hleaving
      cases hleaving
      exact absurd rfl (hrefuses.not_returnJump hcontent target v)
  | @leave f cs r result hleaves hresult hcontrol hthread =>
      intro target v a ds hleaving
      rw [hcontrol, hresult.eq_of_content hcontent] at hleaving
      obtain ⟨hr, -, rfl⟩ := Control.leaving.inj hleaving
      cases hleaves with
      | close hrunning hend =>
          obtain ⟨id, rfl, hnames, hactive⟩ := Frame.leavingReturn_of_close hr
          cases hstops : cs.any fun g => g.stopsReturn (some id) with
          | true => exact List.any_eq_true.mp hstops
          | false =>
              have hnone : ∀ g ∈ cs, g.stopsReturn (some id) = false := by simpa using hstops
              cases hkind : f.scope.isClosure with
              | false => exact absurd ⟨f, cs, id, ⟨hrunning, hend, hnames, hnone⟩, hkind⟩ hstray
              | true =>
                  have hfirst := hregular f (by simp [active_of_running hrunning])
                  obtain ⟨g, hg, -, rfl⟩ := (hstacked.isActive_iff hsound
                    (active_of_running hrunning) hfirst hkind).mp (hactive hkind)
                  simpa [Frame.stopsReturn] using hnone g hg
      | finish hends hverdict => cases hr
      | @pass s passed hends hverdict =>
          obtain rfl : passed = .returnJump target v := Except.error.inj hr
          obtain ⟨rfl, hpasses⟩ := Frame.returnJump_of_pass hverdict
          obtain ⟨g, hg, hstops⟩ := hm.of_endsIn hregular hends
          rcases List.mem_cons.mp hg with rfl | hg
          · rw [hpasses] at hstops
            cases hstops
          · exact ⟨g, hg, hstops⟩

theorem Setup.runRoot_returnsStopped (hsound : setup.program.Sound)
    (hcontent : ∀ s, ¬setup.MayFail s) (receiver : Value) (file : String) (record : Record)
    {n : Nat}
    (hstray : ∀ k, k < n →
      ¬((setup.runRoot receiver (.fresh file) record).advance setup k).StrayReturn) :
    ((setup.runRoot receiver (.fresh file) record).advance setup n).ReturnsStopped := by
  induction n with
  | zero =>
      rcases setup.runRoot_cases receiver (.fresh file) record with
        ⟨s, a, hrefuses, hcontrol⟩ | ⟨scope, nesting, call, -, hcontrol⟩
      · intro target v b cs hleaving
        rw [Machine.advance, hcontrol] at hleaving
        cases hleaving
        exact absurd rfl (hrefuses.not_returnJump hcontent target v)
      · exact Machine.returnsStopped_of_running hcontrol
  | succ n ih =>
      rw [Machine.advance_succ]
      exact (ih fun k hk => hstray k (Nat.lt_succ_of_lt hk)).step hsound hcontent
        ((setup.runRoot_stackedOn receiver (.fresh file) record).advance n)
        (setup.runRoot_regular hsound receiver (.fresh file) record n)
        (hstray n (Nat.lt_succ_self n))

/-! ## Where stray returns end -/

/-- A return that goes astray becomes a local jump error in a closure, and is on its way out of
any other frame. -/
theorem Machine.ReturnsAstray.step_control (hsound : setup.program.Sound) {m : Machine}
    {file : String} (hstacked : m.StackedOn setup.program (.fresh file) [])
    (hregular : m.Regular) {f : Frame} {cs : List Frame} {target : ScopeId}
    (hastray : m.ReturnsAstray f cs target) :
    (m.step setup).control =
      .leaving (.error (if f.scope.isClosure then
          .ofException (.unexpectedReturn f.activation.returnValue m.thread.backtraceLines)
        else .returnJump (some target) f.activation.returnValue)) f.activation cs := by
  obtain ⟨hrunning, hend, hnames, hunstopped⟩ := hastray
  obtain ⟨result, hresult, hcontrol, -⟩ := Machine.step_of_end hrunning hend setup
  rw [Frame.close_of_leavingReturn hnames] at hresult
  cases hkind : f.scope.isClosure with
  | false =>
      simp only [hkind, Bool.false_and, Bool.false_eq_true, ↓reduceIte] at hresult ⊢
      rw [hcontrol, hresult.eq_of_error]
  | true =>
      have hinactive : m.thread.isActive target = false := by
        have hfirst := hregular f (by simp [active_of_running hrunning])
        cases hactive : m.thread.isActive target with
        | false => rfl
        | true =>
            obtain ⟨g, hg, -, rfl⟩ := (hstacked.isActive_iff hsound
              (active_of_running hrunning) hfirst hkind).mp hactive
            simpa [Frame.stopsReturn] using hunstopped g hg
      simp only [hkind, hinactive, Bool.not_false, Bool.and_self, ↓reduceIte] at hresult ⊢
      rw [hcontrol, hresult.eq_of_error]

/-- A stray return ends the run. -/
theorem Machine.StrayReturn.stops (hsound : setup.program.Sound) {m : Machine} {file : String}
    (hstacked : m.StackedOn setup.program (.fresh file) []) (hregular : m.Regular)
    (hstray : m.StrayReturn) :
    ∃ o target v, m.Stops setup o ∧ o.result = .error (.returnJump target v) := by
  obtain ⟨f, cs, target, hastray, hkind⟩ := hstray
  have hcontrol := hastray.step_control hsound hstacked hregular
  simp only [hkind, Bool.false_eq_true, ↓reduceIte] at hcontrol
  have hpass (v : Value) : ∀ g ∈ cs, ∀ t,
      g.verdict t (.returnJump (some target) v) = .pass (.returnJump (some target) v) := by
    intro g hg t
    rw [Frame.verdict_returnJump, hastray.unstopped g hg]
    rfl
  obtain ⟨-, o, hstops, hresult⟩ := Machine.escape hcontrol (hpass _) setup
  exact ⟨o, _, _, Machine.Stops.of_advance (n := 1) hstops, hresult⟩

/-- The root turns a `break` that leaves it into a raise, and changes no other result. -/
theorem Outcome.ofRoot_result_isJump {o : Outcome} {s : Signal}
    (hresult : (o.ofRoot setup).result = .error s) (hkind : s.isJump = true) :
    ∃ target v, s = .returnJump target v ∧ o.result = .error s := by
  cases hinner : o.result with
  | ok v => simp [Outcome.ofRoot, hinner] at hresult
  | error inner =>
      cases inner with
      | breakJump target v claimed =>
          simp only [Outcome.ofRoot, hinner, Except.error.injEq] at hresult
          rw [← hresult] at hkind
          cases hkind
      | returnJump target v =>
          simp only [Outcome.ofRoot, hinner, Except.error.injEq] at hresult
          exact ⟨target, v, hresult.symm, by rw [hresult]⟩
      | raise v =>
          simp only [Outcome.ofRoot, hinner, Except.error.injEq] at hresult
          rw [← hresult] at hkind
          cases hkind
      | fatal message =>
          simp only [Outcome.ofRoot, hinner, Except.error.injEq] at hresult
          rw [← hresult] at hkind
          cases hkind

theorem Report.ofSignal_kind_eq_jump_iff (s : Signal) :
    (Report.ofSignal s).kind = .jump ↔ s.isJump = true := by
  cases s with
  | raise v =>
      cases v with
      | exception e =>
          simp only [Report.ofSignal, Signal.isJump]
          split <;> simp
      | _ => simp [Report.ofSignal, Signal.isJump]
  | fatal message => simp [Report.ofSignal, Signal.isJump]
  | returnJump target v => simp [Report.ofSignal, Report.ofSignal.jump, Signal.isJump]
  | breakJump target v claimed => simp [Report.ofSignal, Report.ofSignal.jump, Signal.isJump]

/-- A run on a fresh thread, whose observer never fails, ends in a jump, and is reported as an
unhandled one, if and only if a stray return leaves some frame of it.  A `return` that no outer
frame stops becomes a local jump error if and only if its frame is of a closure. -/
theorem unhandled_jump_iff_stray (hbuilt : setup.program.Built)
    (hcontent : ∀ s, ¬setup.MayFail s) (receiver : Value) (file : String) (record : Record) :
    (∀ o, (setup.runRoot receiver (.fresh file) record).Stops setup o →
      ((∃ s, (o.ofRoot setup).result = .error s ∧ s.isJump = true) ↔
        ∃ n, ((setup.runRoot receiver (.fresh file) record).advance setup n).StrayReturn) ∧
      ((∃ s, (o.ofRoot setup).result = .error s ∧ (Report.ofSignal s).kind = .jump) ↔
        ∃ n, ((setup.runRoot receiver (.fresh file) record).advance setup n).StrayReturn)) ∧
    ∀ n f cs target,
      ((setup.runRoot receiver (.fresh file) record).advance setup n).ReturnsAstray f cs target →
      (((setup.runRoot receiver (.fresh file) record).advance setup (n + 1)).control =
          .leaving (.error (.ofException (.unexpectedReturn f.activation.returnValue
            ((setup.runRoot receiver (.fresh file) record).advance setup
              n).thread.backtraceLines))) f.activation cs ↔
        f.scope.isClosure = true) := by
  have hsound := hbuilt.sound
  have hstacked := (setup.runRoot_stackedOn receiver (.fresh file) record).advance
  have hregular := setup.runRoot_regular hsound receiver (.fresh file) record
  have hstopped (n : Nat) := setup.runRoot_returnsStopped hsound hcontent receiver file record
    (n := n)
  generalize setup.runRoot receiver (.fresh file) record = m at *
  have hjump {o : Outcome} (hstops : m.Stops setup o) :
      (∃ s, (o.ofRoot setup).result = .error s ∧ s.isJump = true) ↔
        ∃ n, (m.advance setup n).StrayReturn := by
    constructor
    · rintro ⟨s, hresult, hkind⟩
      obtain ⟨target, v, rfl, hinner⟩ := Outcome.ofRoot_result_isJump hresult hkind
      obtain ⟨n, hn⟩ := hstops
      obtain ⟨⟨a, hcontrol⟩, -⟩ := Machine.control_of_outcome hn
      rw [hinner] at hcontrol
      by_cases hstray : ∃ n, (m.advance setup n).StrayReturn
      · exact hstray
      · -- otherwise the `return` would have been stopped, but no frame is left
        obtain ⟨g, hg, -⟩ :=
          hstopped n (fun k _ hk => hstray ⟨k, hk⟩) target v a [] hcontrol
        cases hg
    · rintro ⟨n, hstray⟩
      obtain ⟨other, target, v, hother, hresult⟩ :=
        hstray.stops hsound (hstacked n) (hregular n)
      rw [Machine.stops_unique hstops hother.of_advance]
      exact ⟨_, by rw [Outcome.ofRoot, hresult], rfl⟩
  refine ⟨fun o hstops => ⟨hjump hstops, ?_⟩, ?_⟩
  · simpa only [Report.ofSignal_kind_eq_jump_iff] using hjump hstops
  · intro n f cs target hastray
    rw [Machine.advance_succ, hastray.step_control hsound (hstacked n) (hregular n)]
    cases hkind : f.scope.isClosure with
    | true => simp
    | false => simp [Signal.ofException]

namespace StrayReturnWitness

/-- A script that returns from a method that nobody has called. -/
def listing : Listing where
  name := "straying"
  root := 0
  scopes := [
    ⟨"<main>", .script, none, [.instr (.ret (.const (.int 1)) (some ⟨1⟩))], []⟩,
    ⟨"make", .method, none, [], []⟩]

def straying : Setup where
  program :=
    { name := "straying"
      root := ⟨0⟩
      scopes := #[
        ⟨⟨0⟩, "<main>", .script, none, ⟨#[.ret (.const (.int 1)) (some ⟨1⟩)], [], []⟩⟩,
        ⟨⟨1⟩, "make", .method, none, ⟨#[], [], []⟩⟩] }

theorem straying_listed : straying.program.Listed := ⟨listing, rfl⟩

theorem straying_content (s : Signal) : ¬straying.MayFail s := by
  rintro ⟨observer, heard, e, hobserver, -⟩
  cases hobserver

theorem unhandled_jump_of_straying :
    straying.program.Built ∧ (∀ s, ¬straying.MayFail s) ∧
      ∃ o, (straying.runRoot .nil (.fresh "-") {}).Stops straying o ∧
        (∃ n, ((straying.runRoot .nil (.fresh "-") {}).advance straying n).StrayReturn) ∧
        ∃ s, (o.ofRoot straying).result = .error s ∧ s.isJump = true := by
  have hresult := unhandled_jump_iff_stray straying_listed.built straying_content .nil "-" {}
  have hstray : ((straying.runRoot .nil (.fresh "-") {}).advance straying 1).StrayReturn :=
    ⟨_, [], ⟨1⟩, ⟨rfl, rfl, rfl, List.forall_mem_nil _⟩, rfl⟩
  have hstops : (straying.runRoot .nil (.fresh "-") {}).Stops straying _ := ⟨2, rfl⟩
  exact ⟨straying_listed.built, straying_content, _, hstops, ⟨1, hstray⟩,
    (hresult.1 _ hstops).1.mpr ⟨1, hstray⟩⟩

/-- The return is not a local jump error, and leaves the root. -/
theorem unhandled_jump_escapes :
    straying.program.Listed ∧ (∀ s, ¬straying.MayFail s) ∧
      ∃ o, (straying.runRoot .nil (.fresh "-") {}).Stops straying o ∧
        (o.ofRoot straying).result = .error (.returnJump (some ⟨1⟩) (.int 1)) ∧
        (Report.ofSignal (.returnJump (some ⟨1⟩) (.int 1))).kind = .jump :=
  ⟨straying_listed, straying_content, _, ⟨2, rfl⟩, rfl, rfl⟩

end StrayReturnWitness

end Unwind
