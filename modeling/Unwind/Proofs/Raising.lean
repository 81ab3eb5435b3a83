import Unwind.Proofs.RegisterFile
import Unwind.Proofs.StrayReturn

/-!
What is raised is an exception object.

Values of every kind can be named by a raise, but what leaves the instruction is the raise of an
exception: of the value itself, or of one that is made for it.  Frames make exceptions of the
jumps that they refuse.  So no other raise is on its way or pending at any time of a run.
-/

namespace Unwind

variable {setup : Setup}

/-- Whatever the signal raises is an exception object. -/
def Signal.Proper (s : Signal) : Prop := ∀ v, s = .raise v → ∃ e, v = .exception e

theorem Signal.proper_ofException (e : Exception) : (Signal.ofException e).Proper := by
  intro v hraise
  exact ⟨e, (Signal.raise.inj hraise).symm⟩

theorem Signal.proper_fatal (message : String) : (Signal.fatal message).Proper := by
  intro v hraise
  cases hraise

theorem Signal.proper_returnJump (target : Option ScopeId) (v : Value) :
    (Signal.returnJump target v).Proper := by
  intro raised hraise
  cases hraise

theorem Signal.proper_breakJump (target : ScopeId) (v : Value) (claimed : Bool) :
    (Signal.breakJump target v claimed).Proper := by
  intro raised hraise
  cases hraise

theorem Signal.Proper.exception? {v : Value} (hproper : (Signal.raise v).Proper) :
    ∃ e, (Signal.raise v).exception? = some e := by
  obtain ⟨e, rfl⟩ := hproper v rfl
  exact ⟨e, rfl⟩

/-! ## Where signals come from -/

theorem raiseSignal_proper (t : Thread) (v : Value) : (raiseSignal t v).Proper := by
  cases v <;> exact Signal.proper_ofException _

/-- A signal that an instruction ends in is proper, unless it was pending already. -/
theorem Instr.proper_of_signal {i : Instr} {t : Thread} {receiver : Value} {a : Activation}
    {s : Signal} (heffect : (i.perform t receiver a).effect = .signal s) :
    s.Proper ∨ a.pending = some s := by
  cases i with
  | binary op lhs rhs dst =>
      simp only [perform] at heffect
      split at heffect
      · cases heffect
      · exact Or.inl (Effect.signal.inj heffect ▸ Signal.proper_ofException _)
  | branch truthy cond target =>
      simp only [perform] at heffect
      split at heffect <;> cases heffect
  | brk value target =>
      exact Or.inl (Effect.signal.inj heffect ▸ Signal.proper_breakJump _ _ _)
  | raise value => exact Or.inl (Effect.signal.inj heffect ▸ raiseSignal_proper _ _)
  | fatal message => exact Or.inl (Effect.signal.inj heffect ▸ Signal.proper_fatal _)
  | resumePending =>
      cases hpending : a.pending with
      | none =>
          simp only [perform, Activation.takePending, hpending] at heffect
          cases heffect
      | some pending =>
          simp only [perform, Activation.takePending, hpending] at heffect
          exact Or.inr (congrArg some (Effect.signal.inj heffect))
  | _ => cases heffect

/-- A frame takes a `break` that it refuses for the raise of an exception. -/
theorem Signal.Proper.regard {s : Signal} (hs : s.Proper) (f : Frame) (t : Thread) :
    (f.regard t s).Proper := by
  cases s with
  | breakJump target v claimed =>
      rw [Frame.regard]
      split
      · exact proper_ofException _
      · exact hs
  | _ => exact hs

theorem Signal.Proper.handled {s handled : Signal} (hs : s.Proper) {f : Frame} {t : Thread}
    {pc : Nat} (hverdict : f.verdict t s = .handle pc handled) : handled.Proper := by
  have hjudges := f.verdict_judges t s
  rw [hverdict] at hjudges
  cases hjudges with
  | seek hseen hseeks =>
      rw [← Frame.seekHandler_handle hseeks.symm]
      exact hs.regard f t

theorem Signal.Proper.passed {s passed : Signal} (hs : s.Proper) {f : Frame} {t : Thread}
    (hverdict : f.verdict t s = .pass passed) : passed.Proper := by
  have hjudges := f.verdict_judges t s
  rw [hverdict] at hjudges
  cases hjudges with
  | seek hseen hseeks =>
      rw [← Frame.seekHandler_pass hseeks.symm]
      exact hs.regard f t
  | passReturn hpasses => exact hs
  | passBreak hbreaks haccepted => exact proper_breakJump _ _ _

/-- A frame that has come to its end raises at most the refusal of a return. -/
theorem Frame.close_proper {f : Frame} {t : Thread} {s : Signal} (hclose : f.close t = .error s) :
    s.Proper := by
  simp only [close] at hclose
  split at hclose
  · cases hclose
  · split at hclose
    · exact Except.error.inj hclose ▸ Signal.proper_ofException _
    · split at hclose
      · exact Except.error.inj hclose ▸ Signal.proper_returnJump _ _
      · cases hclose

/-- Scopes are refused with a fatal condition, unless an observer fails. -/
theorem Setup.Refuses.proper {s : Signal} (hrefuses : setup.Refuses s)
    (hfailures : ∀ s, setup.MayFail s → s.Proper) : s.Proper := by
  rcases hrefuses with rfl | ⟨id, rfl⟩ | hfails
  · exact Signal.proper_fatal _
  · exact Signal.proper_fatal _
  · exact hfailures s hfails

/-! ## Machines -/

/-- The signal that is pending in the frame, if any, is proper. -/
def Frame.Proper (f : Frame) : Prop := ∀ s, f.activation.pending = some s → s.Proper

theorem Frame.Proper.goesTo {f g : Frame} (hf : f.Proper) (hgoes : f.GoesTo g) : g.Proper := by
  intro s hpending
  rcases hgoes.pending with hkept | hdropped
  · exact hf s (hkept ▸ hpending)
  · rw [hdropped] at hpending
    cases hpending

theorem Signal.Proper.handle {s : Signal} (hs : s.Proper) (f : Frame) (pc : Nat) :
    (f.handle pc s).Proper := by
  intro pending hpending
  obtain rfl : s = pending := Option.some.inj hpending
  exact hs

/-- Every signal that is on its way to a caller, or pending in an active frame, is proper. -/
structure Machine.Proper (m : Machine) : Prop where
  leaving : ∀ s a cs, m.control = .leaving (.error s) a cs → s.Proper
  pending : ∀ f ∈ m.active, f.Proper

namespace Machine

variable {m : Machine} {f : Frame} {cs : List Frame} {s : Signal}

theorem proper_of_running (hcontrol : m.control = .running f cs) (hf : f.Proper)
    (hcs : ∀ g ∈ cs, g.Proper) : m.Proper where
  leaving s a ds hleaving := by cases hcontrol.symm.trans hleaving
  pending := by
    rw [active_of_running hcontrol]
    exact List.forall_mem_cons.mpr ⟨hf, hcs⟩

theorem proper_of_leaving {r : Completion} {a : Activation}
    (hcontrol : m.control = .leaving r a cs) (hr : ∀ s, r = .error s → s.Proper)
    (hcs : ∀ g ∈ cs, g.Proper) : m.Proper where
  leaving s b ds hleaving := hr s (Control.leaving.inj (hcontrol.symm.trans hleaving)).1
  pending := by rwa [active_of_leaving hcontrol]

theorem Proper.of_active (hm : m.Proper) (hactive : ∃ f₀, m.active = f₀ :: cs ∧ f₀.GoesTo f) :
    f.Proper ∧ ∀ g ∈ cs, g.Proper := by
  obtain ⟨f₀, hactive, hgoes⟩ := hactive
  have hpending := hm.pending
  rw [hactive] at hpending
  obtain ⟨hf₀, hcs⟩ := List.forall_mem_cons.mp hpending
  exact ⟨hf₀.goesTo hgoes, hcs⟩

theorem Proper.of_running (hm : m.Proper) (hrunning : m.control = .running f cs) :
    f.Proper ∧ ∀ g ∈ cs, g.Proper :=
  hm.of_active ⟨f, active_of_running hrunning, .refl f⟩

/-- An instruction ends in a proper signal. -/
theorem Proper.endsIn (hm : m.Proper) (hends : m.EndsIn f cs s) : s.Proper := by
  cases hends with
  | own hrunning hnext heffect =>
      rcases Instr.proper_of_signal heffect with hs | hpending
      · exact hs
      · exact (hm.of_running hrunning).1 s hpending
  | unplaced hrunning hnext heffect hplace => exact Signal.proper_fatal _
  | callee hleaving => exact hm.leaving _ _ _ hleaving

/-- A frame is left with a proper signal, if with a signal. -/
theorem Proper.leaves (hm : m.Proper) (hleaves : m.Leaves f cs (.error s)) : s.Proper := by
  generalize hr : (Except.error s : Completion) = r at hleaves
  cases hleaves with
  | close hrunning hend => exact Frame.close_proper hr.symm
  | finish hends hverdict => cases hr
  | pass hends hverdict =>
      obtain rfl := Except.error.inj hr
      exact (hm.endsIn hends).passed hverdict

theorem Proper.step (hfailures : ∀ s, setup.MayFail s → s.Proper) (hm : m.Proper) :
    (m.step setup).Proper := by
  cases m.step_turn setup with
  | @proceed f cs i pc hrunning hnext heffect hcontrol hthread =>
      obtain ⟨hf, hcs⟩ := hm.of_running hrunning
      have hafter : (f.after i m).Proper := hf.goesTo (f.goesTo_after i m)
      exact proper_of_running hcontrol hafter hcs
  | @enter f g cs i c hrunning hnext heffect hcontrol hentered hover =>
      obtain ⟨hf, hcs⟩ := hm.of_running hrunning
      have hg : g.Proper := by
        intro s hpending
        cases hentered <;> cases hpending
      exact proper_of_running hcontrol hg
        (List.forall_mem_cons.mpr ⟨hf.goesTo (f.goesTo_calling i), hcs⟩)
  | refuse hrunning hnext heffect hrefuses hcontrol hthread =>
      obtain ⟨hf, hcs⟩ := hm.of_running hrunning
      refine proper_of_leaving hcontrol ?_
        (List.forall_mem_cons.mpr ⟨hf.goesTo (Frame.goesTo_calling _ _), hcs⟩)
      intro s hs
      exact Except.error.inj hs ▸ hrefuses.proper hfailures
  | @resume f cs v hresumes hcontrol hthread =>
      obtain ⟨hf, hcs⟩ := hm.of_active hresumes.active
      have hresumed : f.GoesTo (f.resume v) :=
        ⟨⟨rfl, rfl, rfl⟩, Or.inl (f.activation.store_pending _ v)⟩
      exact proper_of_running hcontrol (hf.goesTo hresumed) hcs
  | handle hends hverdict hcontrol hthread =>
      obtain ⟨-, hcs⟩ := hm.of_active hends.active
      have hhandled := (hm.endsIn hends).handled hverdict
      exact proper_of_running hcontrol (hhandled.handle _ _) hcs
  | leave hleaves hresult hcontrol hthread =>
      refine proper_of_leaving hcontrol ?_ (hm.of_active hleaves.active).2
      rintro s rfl
      rcases hresult with hsame | ⟨v, failure, -, hfailure, hfails⟩
      · subst hsame
        exact hm.leaves hleaves
      · obtain rfl := Except.error.inj hfailure
        exact hfailures _ hfails
  | stop hleaving hsame => rwa [hsame]

end Machine

/-- Runs of the root are proper throughout, if the failures of observers are. -/
theorem Setup.runRoot_proper (hfailures : ∀ s, setup.MayFail s → s.Proper) (receiver : Value)
    (thread : Thread) (record : Record) (n : Nat) :
    ((setup.runRoot receiver thread record).advance setup n).Proper := by
  induction n with
  | zero =>
      rcases setup.runRoot_cases receiver thread record with
        ⟨s, a, hrefuses, hcontrol⟩ | ⟨scope, nesting, call, -, hcontrol⟩
      · refine Machine.proper_of_leaving hcontrol ?_ (List.forall_mem_nil _)
        intro t ht
        exact Except.error.inj ht ▸ hrefuses.proper hfailures
      · refine Machine.proper_of_running hcontrol ?_ (List.forall_mem_nil _)
        intro s hpending
        cases hpending
  | succ n ih =>
      rw [Machine.advance_succ]
      exact ih.step hfailures

/-! ## Receiving -/

theorem padRegisters_getD (registers : Array Value) (count k : Nat) :
    (padRegisters registers count).getD k .nil = registers.getD k .nil := by
  simp only [padRegisters, Array.getD_eq_getD_getElem?, Array.getElem?_append,
    Array.getElem?_replicate]
  split
  · rfl
  · rename_i hbeyond
    rw [Array.getElem?_eq_none (Nat.le_of_not_lt hbeyond)]
    split <;> rfl

theorem Activation.get_set_self (a : Activation) (r : Reg) (v : Value) :
    (a.set r v).get r = v := by
  have hroom : r.toNat < (padRegisters a.registers (r.toNat + 1)).size := by
    rw [size_padRegisters]
    omega
  simp [get, set, hroom]

theorem Activation.get_set_of_ne (a : Activation) {r other : Reg} (hne : other ≠ r) (v : Value) :
    (a.set r v).get other = a.get other := by
  have hindex : r.toNat ≠ other.toNat := by
    intro hsame
    exact hne (congrArg Reg.mk (UInt32.toNat_inj.mp hsame)).symm
  rw [get, get, ← padRegisters_getD a.registers (r.toNat + 1)]
  simp [set, Array.getD_eq_getD_getElem?, Array.getElem?_setIfInBounds_ne hindex]

/-- The register gets the exception that was raised, or nil, and no other register changes. -/
theorem Activation.receive_spec {a : Activation}
    (hpending : ∀ s, a.pending = some s → s.Proper) (dst : Reg) :
    ((∃ e, a.pending = some (.ofException e) ∧ (a.receive dst).get dst = .exception e) ∨
      (a.receive dst).get dst = .nil) ∧
    ∀ r, r ≠ dst → (a.receive dst).get r = a.get r := by
  rw [receive]
  split
  · rename_i v hraise
    obtain ⟨e, rfl⟩ := hpending _ hraise v rfl
    exact ⟨Or.inl ⟨e, hraise, get_set_self _ dst _⟩, fun r hne => get_set_of_ne _ hne _⟩
  · exact ⟨Or.inr (get_set_self a dst .nil), fun r hne => get_set_of_ne a hne .nil⟩

theorem Machine.step_of_receive {m : Machine} {f : Frame} {cs : List Frame} {dst : Reg}
    (hrunning : m.control = .running f cs) (hnext : f.next? = some (.receiveException dst))
    (setup : Setup) :
    ∃ g, (m.step setup).control = .running g cs ∧
      g.activation = f.activation.receive dst := by
  simp only [Machine.step, hrunning, hnext, Machine.execute, Instr.perform]
  exact ⟨_, rfl, rfl⟩

/-! ## Results of runs -/

/-- A `break` that leaves the root becomes the raise of an exception. -/
theorem Signal.Proper.ofRoot {o : Outcome} (hproper : ∀ s, o.result = .error s → s.Proper)
    {s : Signal} (hresult : (o.ofRoot setup).result = .error s) : s.Proper := by
  rw [Outcome.ofRoot] at hresult
  dsimp only at hresult
  split at hresult
  · exact Except.error.inj hresult ▸ proper_ofException _
  · exact hproper s hresult

/-- Nothing but exception objects is raised in a run, whatever values its instructions name, as
long as observers that fail raise no other value, and so if observers never fail.  This holds of
the signals that instructions end in, of what frames take them for and let pass, of signals on
their way to a caller and of those that are pending in an active frame.  So receiving gives an
exception or nil, and the raise that a run ends with has an exception. -/
theorem raises_exceptions (hfailures : ∀ s, setup.MayFail s → s.Proper) (receiver : Value)
    (thread : Thread) (record : Record) :
    let m := setup.runRoot receiver thread record
    (∀ n f cs s, (m.advance setup n).EndsIn f cs s → s.Proper) ∧
    (∀ n f cs s, (m.advance setup n).Yields f cs s → s.Proper) ∧
    (∀ n f cs s, (m.advance setup n).Leaves f cs (.error s) → s.Proper) ∧
    (∀ n s a cs, (m.advance setup n).control = .leaving (.error s) a cs → s.Proper) ∧
    (∀ n, ∀ f ∈ (m.advance setup n).active, ∀ s, f.activation.pending = some s → s.Proper) ∧
    (∀ n f cs dst, (m.advance setup n).control = .running f cs →
      f.next? = some (.receiveException dst) →
      ∃ g, (m.advance setup (n + 1)).control = .running g cs ∧
        ((∃ e, f.activation.pending = some (.ofException e) ∧
          g.activation.get dst = .exception e) ∨ g.activation.get dst = .nil) ∧
        ∀ r, r ≠ dst → g.activation.get r = f.activation.get r) ∧
    ∀ o, m.Stops setup o → ∀ v, (o.ofRoot setup).result = .error (.raise v) →
      ∃ e, (Signal.raise v).exception? = some e := by
  intro m
  have hproper : ∀ n, (m.advance setup n).Proper :=
    setup.runRoot_proper hfailures receiver thread record
  refine ⟨?_, ?_, ?_, ?_, ?_, ?_, ?_⟩
  · intro n f cs s hends
    exact (hproper n).endsIn hends
  · rintro n f cs s ⟨made, hends, rfl⟩
    exact ((hproper n).endsIn hends).regard f _
  · intro n f cs s hleaves
    exact (hproper n).leaves hleaves
  · intro n
    exact (hproper n).leaving
  · intro n
    exact (hproper n).pending
  · intro n f cs dst hrunning hnext
    obtain ⟨g, hg, hactivation⟩ := Machine.step_of_receive hrunning hnext setup
    have hf : f.Proper := ((hproper n).of_running hrunning).1
    refine ⟨g, ?_, ?_⟩
    · rwa [Machine.advance_succ]
    · rw [hactivation]
      exact Activation.receive_spec hf dst
  · rintro o ⟨n, hstopped⟩ v hresult
    obtain ⟨⟨a, hcontrol⟩, -⟩ := Machine.control_of_outcome hstopped
    have hleft : ∀ s, o.result = .error s → s.Proper := by
      intro s hs
      rw [hs] at hcontrol
      exact (hproper n).leaving s a [] hcontrol
    exact (Signal.Proper.ofRoot hleft hresult).exception?

namespace RaisingWitness

/-- A script that raises a number, receives the exception that this became, and raises it
again. -/
def listing : Listing where
  name := "raising"
  root := 0
  scopes := [
    ⟨"<main>", .script, none,
      [.label ⟨0⟩, .instr (.raise (.const (.int 5))), .label ⟨1⟩,
        .instr (.receiveException ⟨0⟩), .instr (.raise (.reg ⟨0⟩))],
      [.rescuing ⟨0⟩ ⟨1⟩ ⟨1⟩]⟩]

def raising : Setup where
  program :=
    { name := "raising"
      root := ⟨0⟩
      scopes := #[
        ⟨⟨0⟩, "<main>", .script, none,
          ⟨#[.raise (.const (.int 5)), .receiveException ⟨0⟩, .raise (.reg ⟨0⟩)],
            [(⟨0⟩, 0), (⟨1⟩, 1)], [⟨0, 1, some 1, none⟩]⟩⟩] }
  settings := { traceCalls := true }
  observer := some .recorder

theorem raising_listed : raising.program.Listed := ⟨listing, rfl⟩

theorem raising_content (s : Signal) : ¬raising.MayFail s := by
  rintro ⟨observer, heard, e, hobserver, -, hfails⟩
  obtain rfl := Option.some.inj hobserver
  cases hfails

theorem raises_exceptions_raising :
    raising.program.Listed ∧ (∀ s, ¬raising.MayFail s) ∧
      (∃ f, ((raising.runRoot .nil (.fresh "-") {}).advance raising 1).control =
          .running f [] ∧ f.next? = some (.receiveException ⟨0⟩) ∧
        ∃ g, ((raising.runRoot .nil (.fresh "-") {}).advance raising 2).control =
            .running g [] ∧
          ((∃ e, f.activation.pending = some (.ofException e) ∧
            g.activation.get ⟨0⟩ = .exception e) ∨ g.activation.get ⟨0⟩ = .nil)) ∧
      ∃ o v, (raising.runRoot .nil (.fresh "-") {}).Stops raising o ∧
        (o.ofRoot raising).result = .error (.raise v) ∧
        ∃ e, (Signal.raise v).exception? = some e := by
  obtain ⟨-, -, -, -, -, hreceives, hresults⟩ := raises_exceptions
    (fun s hfails => absurd hfails (raising_content s)) .nil (.fresh "-") {}
  refine ⟨raising_listed, raising_content, ?_, ?_⟩
  · obtain ⟨g, hg, hregister, -⟩ := hreceives 1 _ [] ⟨0⟩ rfl rfl
    exact ⟨_, rfl, rfl, g, hg, hregister⟩
  · exact ⟨_, _, ⟨3, rfl⟩, rfl, hresults _ ⟨3, rfl⟩ _ rfl⟩

end RaisingWitness

end Unwind
