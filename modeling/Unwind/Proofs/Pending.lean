import Unwind.Proofs.Built
import Unwind.Proofs.Restoration

/-!
How long a handled signal can be resumed.

A frame keeps one signal for its handler code.  The signal that a frame has handled last is
kept, through everything that the frame executes and calls, until an instruction takes it or the
frame handles another signal.  The new signal takes the place of the old one for good: nothing
brings the old one back, even if the new one is taken at once.
-/

namespace Unwind

variable {setup : Setup}

/-! ## Taking what is pending -/

/-- Whether the instruction takes the signal, if this is pending. -/
def Instr.takes : Instr → Signal → Bool
  | .receiveException _, .raise _ => true
  | .resumePending, _ => true
  | .clearPending, _ => true
  | _, _ => false

/-- An instruction leaves pending what it does not take, and makes nothing else pending. -/
theorem Instr.perform_pending_iff (i : Instr) (t : Thread) (receiver : Value) (a : Activation)
    (s : Signal) : (i.perform t receiver a).activation.pending = some s ↔
      a.pending = some s ∧ i.takes s = false := by
  cases i with
  | receiveException dst =>
      cases hpending : a.pending with
      | none => simp [perform, Activation.receive, hpending, Activation.set]
      | some t =>
          cases t <;> cases s <;> simp [perform, Activation.receive, hpending, Activation.set,
            takes, Activation.takePending]
  | resumePending =>
      cases hpending : a.pending <;> simp [perform, hpending, Activation.takePending, takes]
  | clearPending => simp [perform, Activation.takePending, takes]
  | binary op lhs rhs dst =>
      simp only [perform]
      split <;> simp [takes, Activation.set]
  | branch truthy cond target =>
      simp only [perform]
      split <;> simp [takes]
  | _ => simp [perform, takes, Activation.set, Activation.setReturn]

theorem Instr.takes_eq_false_of_call {i : Instr} {t : Thread} {receiver : Value}
    {a : Activation} {c : Call} (heffect : (i.perform t receiver a).effect = .call c)
    (s : Signal) : i.takes s = false := by
  rcases Instr.call_cases heffect with ⟨_, _, _, _, rfl, -⟩ | ⟨_, _, _, _, _, rfl, -⟩ <;> rfl

/-! ## The frame in front of its callers -/

/-- The frame in front of the frames `cs` enters a handler for the signal. -/
def Machine.Routes (m : Machine) (cs : List Frame) (s : Signal) : Prop :=
  ∃ f made pc, m.EndsIn f cs made ∧ f.verdict m.thread made = .handle pc s

/-- The frame in front of the frames `cs` executes an instruction that takes its pending
signal. -/
def Machine.Takes (m : Machine) (cs : List Frame) (s : Signal) : Prop :=
  ∃ f i, m.control = .running f cs ∧ f.next? = some i ∧ f.activation.pending = some s ∧
    i.takes s = true

theorem Machine.Routes.active {m : Machine} {cs : List Frame} {s : Signal}
    (hroutes : m.Routes cs s) : ∃ f, m.active = f :: cs := by
  obtain ⟨f, made, pc, hends, -⟩ := hroutes
  obtain ⟨f₀, hactive, -⟩ := hends.active
  exact ⟨f₀, hactive⟩

theorem Machine.Takes.active {m : Machine} {cs : List Frame} {s : Signal}
    (htakes : m.Takes cs s) : ∃ f, m.active = f :: cs := by
  obtain ⟨f, i, hrunning, -⟩ := htakes
  exact ⟨f, active_of_running hrunning⟩

theorem Machine.Routes.isActive {m : Machine} {cs : List Frame} {s : Signal}
    (hroutes : m.Routes cs s) : ∃ f, m.IsActive f cs := by
  obtain ⟨f, hactive⟩ := hroutes.active
  exact ⟨f, [], hactive⟩

theorem Machine.Routes.unique {m : Machine} {cs : List Frame} {s t : Signal}
    (hs : m.Routes cs s) (ht : m.Routes cs t) : s = t := by
  obtain ⟨f, made, pc, hf, hverdict⟩ := hs
  obtain ⟨g, other, pd, hg, hother⟩ := ht
  obtain ⟨rfl, -, rfl⟩ := hf.unique hg
  exact (Verdict.handle.inj (hverdict.symm.trans hother)).2

/-! ## Steps -/

/-- What a step from `m` makes of what is pending in the frame in front of the frames `cs`, which
is `g` after the step. -/
inductive Machine.Keeps (m : Machine) (g : Frame) (cs : List Frame) : Prop
  /-- The frame has just been entered. -/
  | fresh (hnew : ∀ f, ¬m.IsActive f cs) (hnone : g.activation.pending = none)
  /-- The frame has entered a handler. -/
  | route {s : Signal} (hroutes : m.Routes cs s) (hpending : g.activation.pending = some s)
  /-- The frame, which was `f`, has kept its signal or taken it. -/
  | keep {f : Frame} (hactive : m.IsActive f cs) (hquiet : ∀ s, ¬m.Routes cs s)
      (hpending : ∀ s, g.activation.pending = some s ↔
        f.activation.pending = some s ∧ ¬m.Takes cs s)

/-- A frame that waits before the step keeps its signal. -/
theorem Machine.keeps_of_waiting {m : Machine} {f g : Frame} {rest cs : List Frame}
    (hactive : m.active = f :: (rest ++ g :: cs)) : m.Keeps g cs := by
  -- handlers and takers are the innermost frames, and `g` is not
  have hinside {e : Frame} (hinnermost : m.active = e :: cs) : False := by
    have hlength := congrArg List.length (hactive.symm.trans hinnermost)
    simp only [List.length_cons, List.length_append] at hlength
    omega
  refine .keep (f := g) ⟨f :: rest, by rw [hactive, List.cons_append]⟩ ?_ ?_
  · intro s hroutes
    obtain ⟨e, he⟩ := hroutes.active
    exact hinside he
  · intro s
    refine (and_iff_left ?_).symm
    intro htakes
    obtain ⟨e, he⟩ := htakes.active
    exact hinside he

/-- If a step changes nothing but the innermost frame, the others keep their signals. -/
theorem Machine.keeps_of_innermost {m : Machine} {f f' g : Frame} {ds inner cs : List Frame}
    (hactive : m.active = f :: ds) (hafter : f' :: ds = inner ++ g :: cs)
    (hinnermost : m.Keeps f' ds) : m.Keeps g cs := by
  cases inner with
  | nil =>
      obtain ⟨rfl, rfl⟩ := List.cons.inj hafter
      exact hinnermost
  | cons top rest =>
      obtain ⟨-, rfl⟩ := List.cons.inj hafter
      exact keeps_of_waiting hactive

/-- An instruction that goes on, branches to a place or calls enters no handler. -/
theorem Machine.not_routes_of_running {m : Machine} {f : Frame} {ds : List Frame} {i : Instr}
    (hrunning : m.control = .running f ds) (hnext : f.next? = some i)
    (hsilent : ∀ s, (i.perform m.thread m.receiver f.activation).effect ≠ .signal s)
    (hplaced : ∀ l, (i.perform m.thread m.receiver f.activation).effect = .branch l →
      f.scope.code.place? l ≠ none) (cs : List Frame) (s : Signal) : ¬m.Routes cs s := by
  rintro ⟨e, made, pc, hends, -⟩
  rcases (hends.of_running hrunning hnext).2.2 with hsignal | ⟨l, -, hbranch, hplace⟩
  · exact hsilent made hsignal
  · exact hplaced l hbranch hplace

theorem Machine.takes_iff_of_running {m : Machine} {f : Frame} {cs : List Frame} {i : Instr}
    (hrunning : m.control = .running f cs) (hnext : f.next? = some i) (s : Signal) :
    m.Takes cs s ↔ f.activation.pending = some s ∧ i.takes s = true := by
  constructor
  · rintro ⟨e, j, he, hj, hpending, htakes⟩
    obtain ⟨rfl, -⟩ := Control.running.inj (hrunning.symm.trans he)
    obtain rfl : i = j := Option.some.inj (hnext.symm.trans hj)
    exact ⟨hpending, htakes⟩
  · rintro ⟨hpending, htakes⟩
    exact ⟨f, i, hrunning, hnext, hpending, htakes⟩

theorem Machine.not_takes_of_leaving {m : Machine} {r : Completion} {a : Activation}
    {ds : List Frame} (hleaving : m.control = .leaving r a ds) (cs : List Frame) (s : Signal) :
    ¬m.Takes cs s := by
  rintro ⟨e, i, hrunning, -⟩
  cases hrunning.symm.trans hleaving

/-- What is pending after an instruction was pending before it and was not taken. -/
theorem Frame.after_pending_iff {m : Machine} {f : Frame} {cs : List Frame} {i : Instr}
    (hrunning : m.control = .running f cs) (hnext : f.next? = some i) (s : Signal) :
    (f.after i m).activation.pending = some s ↔
      f.activation.pending = some s ∧ ¬m.Takes cs s := by
  rw [Machine.takes_iff_of_running hrunning hnext, Frame.after, Instr.perform_pending_iff]
  refine and_congr_right fun hpending => ?_
  simp [hpending]

/-- A call keeps what is pending in the frame that makes it. -/
theorem Machine.keeps_calling {m : Machine} {f : Frame} {ds : List Frame} {i : Instr} {c : Call}
    (hrunning : m.control = .running f ds) (hnext : f.next? = some i)
    (heffect : (i.perform m.thread m.receiver f.activation).effect = .call c) :
    m.Keeps (f.calling i) ds := by
  refine .keep ⟨[], active_of_running hrunning⟩ (not_routes_of_running hrunning hnext ?_ ?_ ds) ?_
  · intro s hsignal
    cases heffect.symm.trans hsignal
  · intro l hbranch
    cases heffect.symm.trans hbranch
  · intro s
    rw [takes_iff_of_running hrunning hnext, Instr.takes_eq_false_of_call heffect]
    simp [Frame.calling]

theorem Machine.EndsIn.pending_iff {m : Machine} {f : Frame} {cs : List Frame} {made : Signal}
    (hends : m.EndsIn f cs made) :
    ∃ f₀, m.active = f₀ :: cs ∧ ∀ s, f.activation.pending = some s ↔
      f₀.activation.pending = some s ∧ ¬m.Takes cs s := by
  cases hends with
  | own hrunning hnext heffect =>
      exact ⟨_, active_of_running hrunning, Frame.after_pending_iff hrunning hnext⟩
  | unplaced hrunning hnext heffect hplace =>
      exact ⟨_, active_of_running hrunning, Frame.after_pending_iff hrunning hnext⟩
  | callee hleaving =>
      exact ⟨f, active_of_leaving hleaving,
        fun s => (and_iff_left (not_takes_of_leaving hleaving cs s)).symm⟩

theorem Machine.Resumes.pending_iff {m : Machine} {f : Frame} {cs : List Frame} {v : Value}
    (hresumes : m.Resumes f cs v) :
    ∃ f₀, m.active = f₀ :: cs ∧ ∀ s, f.activation.pending = some s ↔
      f₀.activation.pending = some s ∧ ¬m.Takes cs s := by
  cases hresumes with
  | value hleaving =>
      exact ⟨f, active_of_leaving hleaving,
        fun s => (and_iff_left (not_takes_of_leaving hleaving cs s)).symm⟩
  | consume hends _ => exact hends.pending_iff

theorem Machine.Resumes.not_routes {m : Machine} {f : Frame} {cs : List Frame} {v : Value}
    (hresumes : m.Resumes f cs v) (s : Signal) : ¬m.Routes cs s := by
  rintro ⟨g, made, pc, hends, hverdict⟩
  cases hresumes with
  | value hleaving =>
      cases hends with
      | own hrunning _ _ => cases hrunning.symm.trans hleaving
      | unplaced hrunning _ _ _ => cases hrunning.symm.trans hleaving
      | callee hleaving' => cases hleaving.symm.trans hleaving'
  | consume hends' hverdict' =>
      obtain ⟨rfl, -, rfl⟩ := hends.unique hends'
      cases hverdict.symm.trans hverdict'

/-- A frame that is entered was not active before. -/
theorem Machine.not_isActive_of_enter {m : Machine} {f : Frame} {ds : List Frame}
    (hrunning : m.control = .running f ds) (i : Instr) (e : Frame) :
    ¬m.IsActive e (f.calling i :: ds) := by
  rintro ⟨before, hbefore⟩
  have hlength := congrArg List.length ((active_of_running hrunning).symm.trans hbefore)
  simp only [List.length_cons, List.length_append] at hlength
  omega

theorem Machine.step_keeps {m : Machine} {g : Frame} {cs : List Frame}
    (hactive : (m.step setup).IsActive g cs) : m.Keeps g cs := by
  obtain ⟨inner, hinner⟩ := hactive
  cases m.step_turn setup with
  | @proceed f ds i pc hrunning hnext heffect hcontrol hthread =>
      rw [active_of_running hcontrol] at hinner
      refine keeps_of_innermost (active_of_running hrunning) hinner ?_
      refine .keep ⟨[], active_of_running hrunning⟩
        (not_routes_of_running hrunning hnext ?_ ?_ ds) (Frame.after_pending_iff hrunning hnext)
      · intro s hsignal
        rcases heffect with ⟨hgo, -⟩ | ⟨l, hbranch, -⟩
        · cases hsignal.symm.trans hgo
        · cases hsignal.symm.trans hbranch
      · intro l hbranch hplace
        rcases heffect with ⟨hgo, -⟩ | ⟨l', hbranch', hplace'⟩
        · cases hbranch.symm.trans hgo
        · obtain rfl := Effect.branch.inj (hbranch.symm.trans hbranch')
          cases hplace.symm.trans hplace'
  | @enter f entered ds i c hrunning hnext heffect hcontrol hentered hover =>
      rw [active_of_running hcontrol] at hinner
      cases inner with
      | nil =>
          obtain ⟨rfl, rfl⟩ := List.cons.inj hinner
          refine .fresh (not_isActive_of_enter hrunning i) ?_
          cases hentered <;> rfl
      | cons top rest =>
          obtain ⟨rfl, hrest⟩ := List.cons.inj hinner
          exact keeps_of_innermost (active_of_running hrunning) hrest
            (keeps_calling hrunning hnext heffect)
  | @refuse f ds i c s a hrunning hnext heffect hrefuses hcontrol hthread =>
      rw [active_of_leaving hcontrol] at hinner
      exact keeps_of_innermost (active_of_running hrunning) hinner
        (keeps_calling hrunning hnext heffect)
  | @resume f ds v hresumes hcontrol hthread =>
      obtain ⟨f₀, hactive, hpending⟩ := hresumes.pending_iff
      rw [active_of_running hcontrol] at hinner
      refine keeps_of_innermost hactive hinner (.keep ⟨[], hactive⟩ hresumes.not_routes ?_)
      intro s
      rw [← hpending s, Frame.resume, Activation.store_pending]
  | @handle f ds s handled pc hends hverdict hcontrol hthread =>
      obtain ⟨f₀, hactive, -⟩ := hends.active
      rw [active_of_running hcontrol] at hinner
      exact keeps_of_innermost hactive hinner (.route ⟨f, s, pc, hends, hverdict⟩ rfl)
  | @leave f ds r result hleaves hresult hcontrol hthread =>
      obtain ⟨f₀, hactive, -⟩ := hleaves.active
      rw [active_of_leaving hcontrol] at hinner
      exact keeps_of_waiting (hinner ▸ hactive)
  | stop hleaving hsame =>
      rw [hsame, active_of_leaving hleaving] at hinner
      simp at hinner

/-! ## Runs -/

/-- In a run, before step `n`, the frame in front of the frames `cs` has entered a handler for
the signal.  Since then it has stayed active, has entered no other handler, and has not taken
the signal. -/
def Machine.Outstanding (setup : Setup) (m : Machine) (n : Nat) (cs : List Frame) (s : Signal) :
    Prop :=
  ∃ k, k < n ∧ (m.advance setup k).Routes cs s ∧ ∀ j, k < j → j < n →
    (∃ f, (m.advance setup j).IsActive f cs) ∧
      (∀ t, ¬(m.advance setup j).Routes cs t) ∧ ¬(m.advance setup j).Takes cs s

theorem Machine.outstanding_zero {m : Machine} {cs : List Frame} {s : Signal} :
    ¬m.Outstanding setup 0 cs s := by
  rintro ⟨k, hk, -⟩
  exact absurd hk (Nat.not_lt_zero k)

theorem Machine.outstanding_succ {m : Machine} {n : Nat} {cs : List Frame} {s : Signal} :
    m.Outstanding setup (n + 1) cs s ↔
      (m.advance setup n).Routes cs s ∨
        m.Outstanding setup n cs s ∧ (∃ f, (m.advance setup n).IsActive f cs) ∧
          (∀ t, ¬(m.advance setup n).Routes cs t) ∧ ¬(m.advance setup n).Takes cs s := by
  constructor
  · rintro ⟨k, hk, hroutes, hsince⟩
    rcases Nat.lt_or_eq_of_le (Nat.le_of_lt_succ hk) with hlt | rfl
    · exact Or.inr ⟨⟨k, hlt, hroutes, fun j hkj hj => hsince j hkj (Nat.lt_succ_of_lt hj)⟩,
        hsince n hlt (Nat.lt_succ_self n)⟩
    · exact Or.inl hroutes
  · rintro (hroutes | ⟨⟨k, hk, hroutes, hsince⟩, hlast⟩)
    · exact ⟨n, Nat.lt_succ_self n, hroutes,
        fun j hnj hj => absurd hnj (Nat.not_lt_of_le (Nat.le_of_lt_succ hj))⟩
    · refine ⟨k, Nat.lt_succ_of_lt hk, hroutes, fun j hkj hj => ?_⟩
      rcases Nat.lt_or_eq_of_le (Nat.le_of_lt_succ hj) with hlt | rfl
      · exact hsince j hkj hlt
      · exact hlast

/-- One step keeps what is pending in a frame to be what is outstanding for it. -/
theorem Machine.Keeps.pending_iff {m : Machine} {n : Nat} {g : Frame} {cs : List Frame}
    (hkeeps : (m.advance setup n).Keeps g cs)
    (hbefore : ∀ f, (m.advance setup n).IsActive f cs → ∀ s,
      f.activation.pending = some s ↔ m.Outstanding setup n cs s) (s : Signal) :
    g.activation.pending = some s ↔ m.Outstanding setup (n + 1) cs s := by
  rw [Machine.outstanding_succ]
  cases hkeeps with
  | fresh hnew hnone =>
      refine iff_of_false (by simp [hnone]) ?_
      rintro (hroutes | ⟨-, ⟨f, hf⟩, -⟩)
      · obtain ⟨f, hf⟩ := hroutes.isActive
        exact hnew f hf
      · exact hnew f hf
  | @route t hroutes hpending =>
      rw [hpending]
      constructor
      · intro hsame
        exact Or.inl (Option.some.inj hsame ▸ hroutes)
      · rintro (hother | ⟨-, -, hquiet, -⟩)
        · rw [hroutes.unique hother]
        · exact absurd hroutes (hquiet t)
  | @keep f hactive hquiet hpending =>
      rw [hpending s, hbefore f hactive s]
      constructor
      · rintro ⟨houtstanding, hkept⟩
        exact Or.inr ⟨houtstanding, ⟨f, hactive⟩, hquiet, hkept⟩
      · rintro (hroutes | ⟨houtstanding, -, -, hkept⟩)
        · exact absurd hroutes (hquiet s)
        · exact ⟨houtstanding, hkept⟩

/-- To resume is to end in what is pending. -/
theorem Machine.endsIn_resumePending_iff {m : Machine} {f : Frame} {cs : List Frame}
    (hrunning : m.control = .running f cs) (hnext : f.next? = some .resumePending) (s : Signal) :
    (∃ g, m.EndsIn g cs s) ↔ f.activation.pending = some s := by
  have heffect : (Instr.resumePending.perform m.thread m.receiver f.activation).effect =
      f.activation.pending.elim .next .signal := by
    cases hpending : f.activation.pending <;>
      simp [Instr.perform, Activation.takePending, hpending]
  constructor
  · rintro ⟨g, hends⟩
    rcases (hends.of_running hrunning hnext).2.2 with hsignal | ⟨l, -, hbranch, -⟩
    · rw [heffect] at hsignal
      cases hpending : f.activation.pending with
      | none => rw [hpending] at hsignal; cases hsignal
      | some t => rw [hpending] at hsignal; exact congrArg some (Effect.signal.inj hsignal)
    · rw [heffect] at hbranch
      cases hpending : f.activation.pending <;> rw [hpending] at hbranch <;> cases hbranch
  · intro hpending
    rw [hpending] at heffect
    exact ⟨_, .own hrunning hnext heffect⟩

theorem Setup.runRoot_pending (setup : Setup) (receiver : Value) (thread : Thread)
    (record : Record) (n : Nat) {f : Frame} {cs : List Frame}
    (hactive : ((setup.runRoot receiver thread record).advance setup n).IsActive f cs)
    (s : Signal) :
    f.activation.pending = some s ↔
      (setup.runRoot receiver thread record).Outstanding setup n cs s := by
  induction n generalizing f s with
  | zero =>
      refine iff_of_false ?_ Machine.outstanding_zero
      obtain ⟨inner, hinner⟩ := hactive
      rcases setup.runRoot_cases receiver thread record with
        ⟨refusal, a, -, hcontrol⟩ | ⟨scope, nesting, call, -, hcontrol⟩
      · rw [Machine.advance, Machine.active_of_leaving hcontrol] at hinner
        simp at hinner
      · rw [Machine.advance, Machine.active_of_running hcontrol] at hinner
        obtain ⟨-, rfl, -⟩ : inner = [] ∧ f = _ ∧ cs = [] := by
          cases inner with
          | nil => exact ⟨rfl, (List.cons.inj hinner).1.symm, (List.cons.inj hinner).2.symm⟩
          | cons top rest => simp at hinner
        intro hpending
        cases hpending
  | succ n ih =>
      rw [Machine.advance_succ] at hactive
      exact (Machine.step_keeps hactive).pending_iff (fun f hf s => ih hf s) s

/-- Whatever a run executes and calls, a signal is pending in an active frame, and a
`resumePending` of this frame ends in the signal, if and only if the frame has entered a handler
for it and since then has neither taken it nor entered another handler. -/
theorem resumes_iff_outstanding (setup : Setup) (receiver : Value) (thread : Thread)
    (record : Record) (n : Nat) (cs : List Frame) (s : Signal) :
    (∀ f, ((setup.runRoot receiver thread record).advance setup n).IsActive f cs →
      (f.activation.pending = some s ↔
        (setup.runRoot receiver thread record).Outstanding setup n cs s)) ∧
    ∀ f, ((setup.runRoot receiver thread record).advance setup n).control = .running f cs →
      f.next? = some .resumePending →
      ((∃ g, ((setup.runRoot receiver thread record).advance setup n).EndsIn g cs s) ↔
        (setup.runRoot receiver thread record).Outstanding setup n cs s) := by
  refine ⟨fun f hactive => setup.runRoot_pending receiver thread record n hactive s, ?_⟩
  intro f hrunning hnext
  have hactive : ((setup.runRoot receiver thread record).advance setup n).IsActive f cs :=
    ⟨[], Machine.active_of_running hrunning⟩
  rw [← setup.runRoot_pending receiver thread record n hactive s]
  exact Machine.endsIn_resumePending_iff hrunning hnext s

namespace PendingWitness

/-- A script with ensure code around a fatal condition, which calls a method that rescues what it
raises itself. -/
def cleaningListing : Listing where
  name := "cleaning"
  root := 0
  scopes := [
    ⟨"<main>", .script, none,
      [.label ⟨0⟩, .instr (.fatal "broken"), .label ⟨1⟩, .instr (.ret .nil none),
        .label ⟨2⟩, .instr (.callMethod ⟨1⟩ [] none), .instr .resumePending],
      [⟨⟨0⟩, ⟨1⟩, none, some ⟨2⟩⟩]⟩,
    ⟨"clean", .method, none,
      [.label ⟨0⟩, .instr (.raise (.const (.str "minor"))), .label ⟨1⟩, .instr (.ret .nil none),
        .label ⟨2⟩, .instr (.receiveException ⟨0⟩)],
      [.rescuing ⟨0⟩ ⟨1⟩ ⟨2⟩]⟩]

def cleaning : Setup where
  program :=
    { name := "cleaning"
      root := ⟨0⟩
      scopes := #[
        ⟨⟨0⟩, "<main>", .script, none,
          ⟨#[.fatal "broken", .ret .nil none, .callMethod ⟨1⟩ [] none, .resumePending],
            [(⟨0⟩, 0), (⟨1⟩, 1), (⟨2⟩, 2)], [⟨0, 1, some 2, some 2⟩]⟩⟩,
        ⟨⟨1⟩, "clean", .method, none,
          ⟨#[.raise (.const (.str "minor")), .ret .nil none, .receiveException ⟨0⟩],
            [(⟨0⟩, 0), (⟨1⟩, 1), (⟨2⟩, 2)], [⟨0, 1, some 2, none⟩]⟩⟩] }

theorem cleaning_listed : cleaning.program.Listed := ⟨cleaningListing, rfl⟩

theorem resumes_after_clean :
    cleaning.program.Listed ∧
    ∃ f g, ((cleaning.runRoot .nil (.fresh "-") {}).advance cleaning 6).control =
        .running f [] ∧ f.next? = some .resumePending ∧
      f.activation.pending = some (.fatal "broken") ∧
      (cleaning.runRoot .nil (.fresh "-") {}).Outstanding cleaning 6 [] (.fatal "broken") ∧
      ((cleaning.runRoot .nil (.fresh "-") {}).advance cleaning 6).EndsIn g []
        (.fatal "broken") := by
  have hresult := resumes_iff_outstanding cleaning .nil (.fresh "-") {} 6 [] (.fatal "broken")
  have houtstanding := (hresult.1 _ ⟨[], rfl⟩).mp rfl
  obtain ⟨g, hends⟩ := (hresult.2 _ rfl rfl).mpr houtstanding
  exact ⟨cleaning_listed, _, g, rfl, rfl, rfl, houtstanding, hends⟩

/-- A script with ensure code around a fatal condition, which rescues what it raises itself. -/
def listing : Listing where
  name := "swallowing"
  root := 0
  scopes := [
    ⟨"<main>", .script, none,
      [.label ⟨0⟩, .instr (.fatal "broken"), .label ⟨1⟩, .instr (.ret (.const (.int 0)) none),
        .label ⟨2⟩, .instr (.raise (.const (.str "cleanup"))),
        .label ⟨3⟩, .instr .resumePending, .instr (.ret (.const (.int 1)) none),
        .label ⟨4⟩, .instr (.receiveException ⟨0⟩), .instr (.jump ⟨3⟩)],
      [⟨⟨0⟩, ⟨1⟩, none, some ⟨2⟩⟩, .rescuing ⟨2⟩ ⟨3⟩ ⟨4⟩]⟩]

def swallowing : Setup where
  program :=
    { name := "swallowing"
      root := ⟨0⟩
      scopes := #[
        ⟨⟨0⟩, "<main>", .script, none,
          ⟨#[.fatal "broken", .ret (.const (.int 0)) none, .raise (.const (.str "cleanup")),
              .resumePending, .ret (.const (.int 1)) none, .receiveException ⟨0⟩, .jump ⟨3⟩],
            [(⟨0⟩, 0), (⟨1⟩, 1), (⟨2⟩, 2), (⟨3⟩, 3), (⟨4⟩, 5)],
            [⟨0, 1, some 2, some 2⟩, ⟨2, 3, some 5, none⟩]⟩⟩] }

def run (n : Nat) : Machine := (swallowing.runRoot .nil (.fresh "-") {}).advance swallowing n

theorem swallowing_listed : swallowing.program.Listed := ⟨listing, rfl⟩

/-- The fatal condition is lost: the frame that handles it neither ends nor takes it, but when the
frame has received its own raise, there is nothing to resume, and the script ends with a value. -/
theorem fatal_lost_after_raise :
    swallowing.program.Listed ∧ (run 0).Routes [] (.fatal "broken") ∧
      (∃ v, (run 1).Routes [] (.raise v) ∧ (run 2).Takes [] (.raise v)) ∧
      (∀ j, 0 < j → j ≤ 4 →
        (∃ f, (run j).control = .running f []) ∧ ¬(run j).Takes [] (.fatal "broken")) ∧
      (∃ f, (run 4).executing? = some (f, .resumePending)) ∧
      (∀ g s, ¬(run 4).EndsIn g [] s) ∧
      ∃ o, (swallowing.runRoot .nil (.fresh "-") {}).Stops swallowing o ∧
        (o.ofRoot swallowing).result = .ok (.int 1) := by
  refine ⟨swallowing_listed, ⟨_, _, 2, .own rfl rfl rfl, rfl⟩,
    ⟨_, ⟨_, _, 5, .own rfl rfl rfl, rfl⟩, ⟨_, _, rfl, rfl, rfl, rfl⟩⟩, ?_, ⟨_, rfl⟩, ?_,
    _, ⟨7, rfl⟩, rfl⟩
  · intro j hpos hj
    have hcases : j = 1 ∨ j = 2 ∨ j = 3 ∨ j = 4 := by omega
    rcases hcases with rfl | rfl | rfl | rfl
    · refine ⟨⟨_, rfl⟩, fun htakes => ?_⟩
      cases ((Machine.takes_iff_of_running (i := .raise (.const (.str "cleanup"))) rfl rfl
        _).mp htakes).2
    all_goals
      -- the fatal condition is not pending any more
      refine ⟨⟨_, rfl⟩, fun htakes => ?_⟩
      cases ((Machine.takes_iff_of_running rfl rfl _).mp htakes).1
  · intro g s hends
    rcases (hends.of_running rfl rfl).2.2 with hsignal | ⟨l, -, hbranch, -⟩
    · cases hsignal
    · cases hbranch

end PendingWitness

end Unwind
