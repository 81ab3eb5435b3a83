import Unwind.Machine.Entry
import Unwind.Proofs.Turn

/-!
The stack discipline of runs.

The active frames of a machine are stacked on a thread: each was entered on top of the thread
of the one outside it.  Every step keeps this, so a frame that is left gives back the thread on
top of which it was entered, in everything but the line.
-/

namespace Unwind

variable {p : Program} {setup : Setup}

/-! ## Frames on a thread -/

/-- Two states of one frame: it is the same entry into the same scope. -/
structure Frame.SameEntry (f g : Frame) : Prop where
  scope : g.scope = f.scope
  nesting : g.nesting = f.nesting
  call : g.call = f.call

theorem Frame.SameEntry.refl (f : Frame) : f.SameEntry f := ⟨rfl, rfl, rfl⟩

theorem Frame.SameEntry.over {f g : Frame} {outer inner : Thread} (hsame : f.SameEntry g)
    (hover : f.Over p outer inner) : g.Over p outer inner := by
  obtain ⟨hscope, hnesting, hcall⟩ := hsame
  cases hover with
  | bare hid hnone hdepth =>
      exact .bare (hscope ▸ hid) (hcall.trans hnone) (hnesting.trans hdepth)
  | method hid hsome hdepth hcalls htrace =>
      exact .method (hscope ▸ hid) (hcall.trans hsome) (hnesting.trans hdepth) hcalls htrace

theorem Frame.SameEntry.restore_eq {f g : Frame} (hsame : f.SameEntry g) (t : Thread) :
    g.restore t = f.restore t := by
  rw [Frame.restore, Frame.restore, hsame.nesting, hsame.call]

/-- Two states of one frame, between which nothing became pending. -/
structure Frame.GoesTo (f g : Frame) : Prop extends f.SameEntry g where
  pending : g.activation.pending = f.activation.pending ∨ g.activation.pending = none

theorem Frame.GoesTo.refl (f : Frame) : f.GoesTo f := ⟨.refl f, Or.inl rfl⟩

theorem Frame.goesTo_after (f : Frame) (i : Instr) (m : Machine) : f.GoesTo (f.after i m) :=
  ⟨⟨rfl, rfl, rfl⟩, i.perform_pending m.thread m.receiver f.activation⟩

theorem Frame.goesTo_calling (f : Frame) (i : Instr) : f.GoesTo (f.calling i) :=
  ⟨⟨rfl, rfl, rfl⟩, Or.inl rfl⟩

/-- Leaving a frame undoes entering it. -/
theorem Frame.Over.restore_eq {f : Frame} {outer inner : Thread} (hover : f.Over p outer inner) :
    f.restore inner = outer := by
  cases hover with
  | bare hid hcall hnesting => simp [Frame.restore, Thread.restore, hcall, hnesting]
  | method hid hcall hnesting hcalls htrace =>
      rw [Frame.restore, hcall, hnesting]
      exact outer.restore_pushMethod _ _ hcalls htrace _

theorem Frame.Over.scope_mem {f : Frame} {outer inner : Thread} (hover : f.Over p outer inner) :
    ∃ id, p.scope? id = some f.scope := by
  cases hover with
  | bare hscope _ _ => exact ⟨_, hscope⟩
  | method hscope _ _ _ _ => exact ⟨_, hscope⟩

theorem Thread.restore_standing {t u : Thread} (hsame : t.standing = u.standing)
    (nesting : Nat) (call : Option MethodCall) :
    (t.restore nesting call).standing = (u.restore nesting call).standing := by
  rw [Thread.standing_eq_iff] at hsame
  rw [hsame]
  cases call <;> rfl

/-- The frames, innermost first, were entered one inside the other on top of the thread `base`;
since then it has come to the given state, whatever the lines. -/
inductive Stacked (p : Program) (base : Thread) : List Frame → Thread → Prop
  | nil {t : Thread} (hsame : t.standing = base.standing) : Stacked p base [] t
  | cons {f : Frame} {fs : List Frame} {outer inner t : Thread}
      (hbelow : Stacked p base fs outer) (hover : f.Over p outer inner)
      (hsame : t.standing = inner.standing) : Stacked p base (f :: fs) t

namespace Stacked

variable {base t u : Thread} {f g : Frame} {fs : List Frame}

theorem congr (hstacked : Stacked p base fs t) (hsame : u.standing = t.standing) :
    Stacked p base fs u := by
  cases hstacked with
  | nil hbase => exact .nil (hsame.trans hbase)
  | cons hbelow hover hinner => exact .cons hbelow hover (hsame.trans hinner)

theorem enter (hstacked : Stacked p base fs t) (hover : f.Over p t u) :
    Stacked p base (f :: fs) u := .cons hstacked hover rfl

theorem leave (hstacked : Stacked p base (f :: fs) t) : Stacked p base fs (f.restore t) := by
  cases hstacked with
  | cons hbelow hover hsame =>
      refine hbelow.congr ?_
      rw [← hover.restore_eq]
      exact Thread.restore_standing hsame _ _

theorem replace (hstacked : Stacked p base (f :: fs) t) (hsame : f.SameEntry g) :
    Stacked p base (g :: fs) t := by
  cases hstacked with
  | cons hbelow hover hstanding => exact .cons hbelow (hsame.over hover) hstanding

theorem scope_mem (hstacked : Stacked p base fs t) (hf : f ∈ fs) :
    ∃ id, p.scope? id = some f.scope := by
  induction hstacked with
  | nil _ => cases hf
  | cons hbelow hover _ ih =>
      rcases List.mem_cons.mp hf with rfl | hf
      · exact hover.scope_mem
      · exact ih hf

end Stacked

/-! ## Steps on the stack -/

theorem Machine.EndsIn.active {m : Machine} {f : Frame} {cs : List Frame} {s : Signal}
    (hends : m.EndsIn f cs s) : ∃ f₀, m.active = f₀ :: cs ∧ f₀.GoesTo f := by
  cases hends with
  | own hrunning _ _ => exact ⟨_, active_of_running hrunning, Frame.goesTo_after _ _ _⟩
  | unplaced hrunning _ _ _ => exact ⟨_, active_of_running hrunning, Frame.goesTo_after _ _ _⟩
  | callee hleaving => exact ⟨_, active_of_leaving hleaving, .refl _⟩

theorem Machine.Leaves.active {m : Machine} {f : Frame} {cs : List Frame} {r : Completion}
    (hleaves : m.Leaves f cs r) : ∃ f₀, m.active = f₀ :: cs ∧ f₀.GoesTo f := by
  cases hleaves with
  | close hrunning _ => exact ⟨_, active_of_running hrunning, .refl _⟩
  | finish hends _ => exact hends.active
  | pass hends _ => exact hends.active

theorem Machine.Resumes.active {m : Machine} {f : Frame} {cs : List Frame} {v : Value}
    (hresumes : m.Resumes f cs v) : ∃ f₀, m.active = f₀ :: cs ∧ f₀.GoesTo f := by
  cases hresumes with
  | value hleaving => exact ⟨_, active_of_leaving hleaving, .refl _⟩
  | consume hends _ => exact hends.active

/-- What one step does to the list of active frames and to the thread under them. -/
inductive Machine.Shift (setup : Setup) (m m' : Machine) : Prop
  /-- The innermost frame goes on. -/
  | goOn {f g : Frame} {cs : List Frame} (hactive : m.active = f :: cs)
      (hcontrol : m'.control = .running g cs) (hsame : f.SameEntry g)
      (hthread : m'.thread.standing = m.thread.standing)
  /-- The innermost frame waits for a new one. -/
  | enter {f g : Frame} {cs : List Frame} {i : Instr} (hrunning : m.control = .running f cs)
      (hnext : f.next? = some i)
      (hcontrol : m'.control = .running g (f.calling i :: cs))
      (hover : g.Over setup.program m.thread m'.thread)
  /-- The innermost frame waits for a frame that has been refused. -/
  | refuse {f : Frame} {cs : List Frame} {i : Instr} {r : Completion} {a : Activation}
      (hrunning : m.control = .running f cs) (hnext : f.next? = some i)
      (hcontrol : m'.control = .leaving r a (f.calling i :: cs))
      (hthread : m'.thread = m.thread)
  /-- The innermost frame is left. -/
  | leave {f : Frame} {cs : List Frame} {r : Completion} {a : Activation}
      (hactive : m.active = f :: cs) (hcontrol : m'.control = .leaving r a cs)
      (hthread : m'.thread = f.restore m.thread)
  | stop (hactive : m.active = []) (hsame : m' = m)

theorem Machine.Turn.shift {m m' : Machine} (hturn : m.Turn setup m') : m.Shift setup m' := by
  cases hturn with
  | @proceed f cs i pc hrunning hnext heffect hcontrol hthread =>
      refine .goOn (active_of_running hrunning) hcontrol ⟨rfl, rfl, rfl⟩ ?_
      rw [hthread]
      exact i.perform_thread_standing m.thread m.receiver f.activation
  | enter hrunning hnext heffect hcontrol hentered hover =>
      exact .enter hrunning hnext hcontrol hover
  | refuse hrunning hnext heffect hrefuses hcontrol hthread =>
      exact .refuse hrunning hnext hcontrol hthread
  | resume hresumes hcontrol hthread =>
      obtain ⟨f₀, hactive, hgoes⟩ := hresumes.active
      exact .goOn hactive hcontrol ⟨hgoes.scope, hgoes.nesting, hgoes.call⟩
        (congrArg Thread.standing hthread)
  | handle hends hverdict hcontrol hthread =>
      obtain ⟨f₀, hactive, hgoes⟩ := hends.active
      exact .goOn hactive hcontrol ⟨hgoes.scope, hgoes.nesting, hgoes.call⟩
        (congrArg Thread.standing hthread)
  | leave hleaves hresult hcontrol hthread =>
      obtain ⟨f₀, hactive, hgoes⟩ := hleaves.active
      exact .leave hactive hcontrol (hthread.trans (hgoes.restore_eq _))
  | stop hleaving hsame => exact .stop (active_of_leaving hleaving) hsame

theorem Machine.step_shift (setup : Setup) (m : Machine) : m.Shift setup (m.step setup) :=
  (m.step_turn setup).shift

/-- The innermost active frames of the machine, down to the frames `outer`, are stacked on the
thread `base`. -/
def Machine.StackedOn (p : Program) (base : Thread) (outer : List Frame) (m : Machine) : Prop :=
  ∃ inner, m.active = inner ++ outer ∧ Stacked p base inner m.thread

/-- As long as a frame is active on top of the frames `outer`, a step leaves these alone, and
gives back the thread under it when it leaves the last such frame. -/
theorem Machine.StackedOn.step {m : Machine} {base : Thread} {outer : List Frame} {f : Frame}
    {cs : List Frame} (hstacked : m.StackedOn setup.program base outer)
    (hactive : m.active = f :: cs) (houter : outer.length ≤ cs.length) :
    (m.step setup).StackedOn setup.program base outer := by
  obtain ⟨inner, hinner, hstack⟩ := hstacked
  cases inner with
  | nil =>
      -- the innermost frame would be one of `outer`
      rw [hinner] at hactive
      simp only [List.nil_append] at hactive
      simp only [hactive, List.length_cons] at houter
      omega
  | cons top rest =>
      have hsplit : f = top ∧ cs = rest ++ outer := by
        rw [hactive] at hinner
        exact List.cons.inj hinner
      obtain ⟨rfl, rfl⟩ := hsplit
      cases m.step_shift setup with
      | goOn hbefore hcontrol hsame hthread =>
          obtain ⟨rfl, rfl⟩ := List.cons.inj (hbefore.symm.trans hactive)
          exact ⟨_ :: rest, active_of_running hcontrol, (hstack.replace hsame).congr hthread⟩
      | enter hrunning hnext hcontrol hover =>
          obtain ⟨rfl, rfl⟩ :=
            List.cons.inj ((active_of_running hrunning).symm.trans hactive)
          refine ⟨_ :: _ :: rest, active_of_running hcontrol, ?_⟩
          exact (hstack.replace (Frame.goesTo_calling _ _).toSameEntry).enter hover
      | refuse hrunning hnext hcontrol hthread =>
          obtain ⟨rfl, rfl⟩ :=
            List.cons.inj ((active_of_running hrunning).symm.trans hactive)
          refine ⟨_ :: rest, active_of_leaving hcontrol, ?_⟩
          exact (hstack.replace (Frame.goesTo_calling _ _).toSameEntry).congr
            (congrArg Thread.standing hthread)
      | leave hbefore hcontrol hthread =>
          obtain ⟨rfl, rfl⟩ := List.cons.inj (hbefore.symm.trans hactive)
          exact ⟨rest, active_of_leaving hcontrol, hthread ▸ hstack.leave⟩
      | stop hnone _ => rw [hnone] at hactive; cases hactive

/-- When only the frames `outer` are active, the thread stands as it did. -/
theorem Machine.StackedOn.standing_eq {m : Machine} {base : Thread} {outer : List Frame}
    (hstacked : m.StackedOn p base outer) (hlength : m.active.length = outer.length) :
    m.thread.standing = base.standing := by
  obtain ⟨inner, hinner, hstack⟩ := hstacked
  have hempty : inner = [] := by
    rw [hinner, List.length_append] at hlength
    exact List.eq_nil_of_length_eq_zero (by omega)
  subst hempty
  cases hstack with
  | nil hsame => exact hsame

/-- A frame that a signal reaches, and those that wait for it, have their scopes from the
program. -/
theorem Machine.EndsIn.scope_mem {m : Machine} {base : Thread} {f g : Frame} {cs : List Frame}
    {s : Signal} (hends : m.EndsIn f cs s) (hstacked : m.StackedOn p base [])
    (hg : g ∈ f :: cs) : ∃ id, p.scope? id = some g.scope := by
  obtain ⟨inner, hinner, hstack⟩ := hstacked
  obtain ⟨f₀, hactive, hgoes⟩ := hends.active
  rw [List.append_nil, hactive] at hinner
  subst hinner
  exact (hstack.replace hgoes.toSameEntry).scope_mem hg

theorem Machine.advance_succ (setup : Setup) (n : Nat) (m : Machine) :
    m.advance setup (n + 1) = (m.advance setup n).step setup := by
  rw [Machine.advance_add, Machine.advance, Machine.advance]

/-- What holds until a machine has stopped holds ever after. -/
theorem Machine.forall_advance {m : Machine} {o : Outcome} {last : Nat}
    (hstopped : (m.advance setup last).outcome? = some o) (property : Machine → Prop)
    (huntil : ∀ n ≤ last, property (m.advance setup n)) (n : Nat) :
    property (m.advance setup n) := by
  rcases Nat.le_total n last with hearly | hlate
  · exact huntil n hearly
  · obtain ⟨k, rfl⟩ := Nat.exists_eq_add_of_le hlate
    rw [Machine.advance_add, Machine.advance_of_outcome hstopped]
    exact huntil last (Nat.le_refl last)

/-- All active frames of a run stay stacked on the thread on which the first ones were. -/
theorem Machine.StackedOn.advance {m : Machine} {base : Thread}
    (hstacked : m.StackedOn setup.program base []) (n : Nat) :
    (m.advance setup n).StackedOn setup.program base [] := by
  induction n with
  | zero => exact hstacked
  | succ n ih =>
      rw [Machine.advance_succ]
      cases hactive : (m.advance setup n).active with
      | cons f cs => exact ih.step hactive (Nat.zero_le _)
      | nil =>
          cases (m.advance setup n).step_shift setup with
          | stop _ hsame => rw [hsame]; exact ih
          | goOn hsome _ _ _ => rw [hsome] at hactive; cases hactive
          | enter hrunning _ _ _ =>
              rw [active_of_running hrunning] at hactive
              cases hactive
          | refuse hrunning _ _ _ =>
              rw [active_of_running hrunning] at hactive
              cases hactive
          | leave hsome _ _ => rw [hsome] at hactive; cases hactive

end Unwind
