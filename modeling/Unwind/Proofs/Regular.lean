import Unwind.Proofs.Built
import Unwind.Proofs.Restoration
import Unwind.Proofs.Verdict

/-!
The frames that runs of built programs are made of.

A frame belongs to a method call unless its scope is a closure, so the call stack of the thread
lists the methods that the active frames run.  No frame ever waits to resume a `return`.
-/

namespace Unwind

variable {p : Program} {setup : Setup}

/-! ## The call stack -/

/-- The methods that the frames run, innermost first. -/
def methodScopes (fs : List Frame) : List ScopeId :=
  (fs.filter fun f => f.call.isSome).map fun f => f.scope.id

theorem mem_methodScopes {fs : List Frame} {id : ScopeId} :
    id ∈ methodScopes fs ↔ ∃ f ∈ fs, f.call.isSome = true ∧ f.scope.id = id := by
  simp [methodScopes, and_assoc]

theorem Thread.calls_eq_of_standing {t u : Thread} (hsame : t.standing = u.standing) :
    t.calls = u.calls := by
  rw [Thread.standing_eq_iff.mp hsame]
  rfl

theorem Thread.pushMethod_calls (t : Thread) (id : ScopeId) (c : MethodCall) :
    (t.pushMethod id c).calls = id :: t.calls := by
  rw [Thread.pushMethod]
  split <;> rfl

/-- The call stack lists the methods of the frames that were entered on top of a thread. -/
theorem Stacked.calls_eq (hsound : p.Sound) {base t : Thread} {fs : List Frame}
    (hstacked : Stacked p base fs t) : t.calls = methodScopes fs ++ base.calls := by
  induction hstacked with
  | nil hsame => exact Thread.calls_eq_of_standing hsame
  | @cons f fs outer inner t hbelow hover hsame ih =>
      rw [Thread.calls_eq_of_standing hsame]
      cases hover with
      | bare hscope hcall hnesting => simpa [methodScopes, hcall] using ih
      | method hscope hcall hnesting hdepth htrace =>
          have hid := hsound.identity _ _ hscope
          simp [methodScopes, hcall, hid, Thread.pushMethod_calls, ih]

/-! ## Regular frames -/

/-- A frame belongs to a method call unless its scope is a closure, and has no `return`
pending. -/
structure Frame.Regular (f : Frame) : Prop where
  kind : f.call.isSome = !f.scope.isClosure
  pending : ∀ target v, f.activation.pending ≠ some (.returnJump target v)

theorem Frame.Regular.goesTo {f g : Frame} (hf : f.Regular) (hgoes : f.GoesTo g) : g.Regular where
  kind := by rw [hgoes.call, hgoes.scope, hf.kind]
  pending target v := by
    rcases hgoes.pending with hkept | hdropped
    · rw [hkept]
      exact hf.pending target v
    · rw [hdropped]
      exact nofun

theorem Frame.Regular.handle {f : Frame} (hf : f.Regular) {t : Thread} {s handled : Signal}
    {pc : Nat} (hverdict : f.verdict t s = .handle pc handled) :
    (f.handle pc handled).Regular where
  kind := hf.kind
  pending target v hpending :=
    Frame.handled_ne_returnJump hverdict target v (Option.some.inj hpending)

/-- All active frames are regular. -/
def Machine.Regular (m : Machine) : Prop := ∀ f ∈ m.active, f.Regular

theorem Machine.regular_of_running {m : Machine} {f : Frame} {cs : List Frame}
    (hcontrol : m.control = .running f cs) (hf : f.Regular) (hcs : ∀ g ∈ cs, g.Regular) :
    m.Regular := by
  rw [Machine.Regular, active_of_running hcontrol]
  exact List.forall_mem_cons.mpr ⟨hf, hcs⟩

theorem Machine.regular_of_leaving {m : Machine} {r : Completion} {a : Activation}
    {cs : List Frame} (hcontrol : m.control = .leaving r a cs) (hcs : ∀ g ∈ cs, g.Regular) :
    m.Regular := by
  rwa [Machine.Regular, active_of_leaving hcontrol]

theorem Machine.Regular.of_active {m : Machine} (hm : m.Regular) {f : Frame} {cs : List Frame}
    (hactive : ∃ f₀, m.active = f₀ :: cs ∧ f₀.GoesTo f) : f.Regular ∧ ∀ g ∈ cs, g.Regular := by
  obtain ⟨f₀, hactive, hgoes⟩ := hactive
  rw [Machine.Regular, hactive] at hm
  exact ⟨(hm f₀ List.mem_cons_self).goesTo hgoes, fun g hg => hm g (List.mem_cons_of_mem f₀ hg)⟩

theorem Machine.Regular.of_running {m : Machine} (hm : m.Regular) {f : Frame} {cs : List Frame}
    (hrunning : m.control = .running f cs) : f.Regular ∧ ∀ g ∈ cs, g.Regular :=
  hm.of_active ⟨f, active_of_running hrunning, .refl f⟩

theorem Scope.entry_regular {scope : Scope} {call : Option MethodCall}
    (hkind : call.isSome = !scope.isClosure) (invocation : Invocation) (args : List Value)
    (nesting : Nat) : (scope.entry (.fresh invocation args) nesting call).Regular where
  kind := hkind
  pending _ _ hpending := by cases hpending

/-- A scope of a sound program that is called is entered as its kind demands. -/
theorem Call.EnteredAs.regular (hsound : setup.program.Sound) {f g : Frame} {id : ScopeId}
    (hscope : setup.program.scope? id = some f.scope) {i : Instr} (hnext : f.next? = some i)
    {m : Machine} {c : Call}
    (heffect : (i.perform m.thread m.receiver f.activation).effect = .call c)
    {module : Module} (hentered : c.EnteredAs setup module g) : g.Regular := by
  have hmem : i ∈ f.scope.code.instrs := Array.mem_of_getElem? hnext
  cases hentered with
  | @method callee args scope nesting c hcallee hmethod hmodule htraceable =>
      have hkind : scope.isClosure = false := by
        obtain ⟨args, dst, rfl⟩ := Instr.eq_callMethod_of_call heffect
        obtain ⟨t, ht, hkind⟩ := hsound.methods id _ hscope _ _ _ hmem
        rwa [← Option.some.inj (hcallee.symm.trans ht)] at hkind
      exact Scope.entry_regular (by simp [hkind]) _ _ _
  | @closure callee mode args scope nesting hcallee =>
      have hkind : scope.isClosure = true := by
        obtain ⟨args, dst, rfl⟩ := Instr.eq_callClosure_of_call heffect
        obtain ⟨t, ht, hkind⟩ := hsound.closures id _ hscope _ _ _ _ hmem
        rwa [← Option.some.inj (hcallee.symm.trans ht)] at hkind
      exact Scope.entry_regular (by simp [hkind]) _ _ _

theorem Machine.Regular.step (hsound : setup.program.Sound) {m : Machine} {base : Thread}
    (hstacked : m.StackedOn setup.program base []) (hm : m.Regular) : (m.step setup).Regular := by
  cases m.step_turn setup with
  | @proceed f cs i pc hrunning hnext heffect hcontrol hthread =>
      obtain ⟨hf, hcs⟩ := hm.of_running hrunning
      have hafter : (f.after i m).Regular := hf.goesTo (f.goesTo_after i m)
      exact regular_of_running hcontrol ⟨hafter.kind, hafter.pending⟩ hcs
  | @enter f g cs i c hrunning hnext heffect hcontrol hentered hover =>
      obtain ⟨inner, hinner, hstack⟩ := hstacked
      rw [active_of_running hrunning, List.append_nil] at hinner
      subst hinner
      obtain ⟨id, hscope⟩ := hstack.scope_mem List.mem_cons_self
      obtain ⟨hf, hcs⟩ := hm.of_running hrunning
      exact regular_of_running hcontrol (hentered.regular hsound hscope hnext heffect)
        (List.forall_mem_cons.mpr ⟨hf.goesTo (f.goesTo_calling i), hcs⟩)
  | refuse hrunning hnext heffect hrefuses hcontrol hthread =>
      obtain ⟨hf, hcs⟩ := hm.of_running hrunning
      exact regular_of_leaving hcontrol
        (List.forall_mem_cons.mpr ⟨hf.goesTo (Frame.goesTo_calling _ _), hcs⟩)
  | @resume f cs v hresumes hcontrol hthread =>
      obtain ⟨hf, hcs⟩ := hm.of_active hresumes.active
      have hresumed : f.GoesTo (f.resume v) :=
        ⟨⟨rfl, rfl, rfl⟩, Or.inl (f.activation.store_pending _ v)⟩
      exact regular_of_running hcontrol (hf.goesTo hresumed) hcs
  | handle hends hverdict hcontrol hthread =>
      obtain ⟨hf, hcs⟩ := hm.of_active hends.active
      exact regular_of_running hcontrol (hf.handle hverdict) hcs
  | leave hleaves hresult hcontrol hthread =>
      exact regular_of_leaving hcontrol (hm.of_active hleaves.active).2
  | stop hleaving hsame => rwa [hsame]

/-- Runs of sound programs consist of regular frames. -/
theorem Setup.runRoot_regular (hsound : setup.program.Sound) (receiver : Value)
    (thread : Thread) (record : Record) (n : Nat) :
    ((setup.runRoot receiver thread record).advance setup n).Regular := by
  induction n with
  | zero =>
      rcases setup.runRoot_cases receiver thread record with
        ⟨s, a, -, hcontrol⟩ | ⟨scope, nesting, call, hscope, hcontrol⟩
      · exact Machine.regular_of_leaving hcontrol (List.forall_mem_nil _)
      · obtain ⟨t, ht, hkind⟩ := hsound.root
        rw [← Option.some.inj (hscope.symm.trans ht)] at hkind
        exact Machine.regular_of_running hcontrol (Scope.entry_regular (by simp [hkind]) _ _ _)
          (List.forall_mem_nil _)
  | succ n ih =>
      rw [Machine.advance_succ]
      exact ih.step hsound ((setup.runRoot_stackedOn receiver thread record).advance n)

end Unwind
