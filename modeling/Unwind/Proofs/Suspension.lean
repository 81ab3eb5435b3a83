import Unwind.Proofs.Stack

/-!
The past of a waiting frame.

A frame that waits in a run began to wait at some earlier step, when it was running and executed
a call.  Since then it has not changed, and the frames inside it are stacked on the thread of
that step.
-/

namespace Unwind

variable {setup : Setup}

/-- In a run, the frame `f` begins the instruction `i` at step `k`, in front of the frames
`outer`, and at step `n` it still waits for what the instruction called. -/
structure Machine.Began (setup : Setup) (m : Machine) (k n : Nat) (f : Frame) (i : Instr)
    (outer : List Frame) : Prop where
  order : k ≤ n
  running : (m.advance setup k).control = .running f outer
  next : f.next? = some i
  waits : ∀ j, k < j → j ≤ n → ∃ inner, (m.advance setup j).waiting = inner ++ f.calling i :: outer

theorem Machine.Began.now {m : Machine} {n : Nat} {f : Frame} {i : Instr} {outer : List Frame}
    (hrunning : (m.advance setup n).control = .running f outer) (hnext : f.next? = some i) :
    m.Began setup n n f i outer where
  order := Nat.le_refl n
  running := hrunning
  next := hnext
  waits _ hnj hj := absurd hj (Nat.not_le_of_lt hnj)

theorem Machine.Began.succ {m : Machine} {k n : Nat} {f : Frame} {i : Instr}
    {outer inner : List Frame} (hbegan : m.Began setup k n f i outer)
    (hwaiting : (m.advance setup (n + 1)).waiting = inner ++ f.calling i :: outer) :
    m.Began setup k (n + 1) f i outer where
  order := Nat.le_succ_of_le hbegan.order
  running := hbegan.running
  next := hbegan.next
  waits j hkj hj := by
    rcases Nat.lt_or_eq_of_le hj with hlt | rfl
    · exact hbegan.waits j hkj (Nat.le_of_lt_succ hlt)
    · exact ⟨inner, hwaiting⟩

/-- A running frame is not among those that wait. -/
theorem Machine.waiting_ne_of_running {m : Machine} {f g : Frame} {rest inner : List Frame}
    (hrunning : m.control = .running f rest) : m.waiting ≠ inner ++ g :: rest := by
  rw [waiting_of_running hrunning]
  intro hwaiting
  have hlength := congrArg List.length hwaiting
  simp only [List.length_append, List.length_cons] at hlength
  omega

/-- An instruction that is still waited for was begun at one step only. -/
theorem Machine.Began.start_unique {m : Machine} {k l n : Nat} {f g : Frame} {i j : Instr}
    {outer : List Frame} (hf : m.Began setup k n f i outer) (hg : m.Began setup l n g j outer) :
    k = l := by
  rcases Nat.lt_trichotomy k l with hlt | heq | hgt
  · obtain ⟨inner, hwaiting⟩ := hf.waits l hlt hg.order
    exact absurd hwaiting (waiting_ne_of_running hg.running)
  · exact heq
  · obtain ⟨inner, hwaiting⟩ := hg.waits k hgt hf.order
    exact absurd hwaiting (waiting_ne_of_running hf.running)

theorem Machine.waiting_of_active {m : Machine} {f : Frame} {cs : List Frame}
    (hactive : m.active = f :: cs) : m.waiting = cs ∨ m.waiting = f :: cs := by
  cases hcontrol : m.control with
  | running g ds =>
      rw [active_of_running hcontrol] at hactive
      rw [waiting_of_running hcontrol]
      exact Or.inl (List.cons.inj hactive).2
  | leaving r a ds =>
      rw [active_of_leaving hcontrol] at hactive
      rw [waiting_of_leaving hcontrol]
      exact Or.inr hactive

/-- A frame that has called another active frame waits. -/
theorem Machine.IsActive.waiting {m : Machine} {f g : Frame} {rest : List Frame}
    (hactive : m.IsActive f (g :: rest)) : ∃ inner, m.waiting = inner ++ g :: rest := by
  obtain ⟨inner, hinner⟩ := hactive
  cases inner with
  | nil =>
      rcases waiting_of_active hinner with hwaits | hwaits
      · exact ⟨[], hwaits⟩
      · exact ⟨[f], hwaits⟩
  | cons e inner =>
      rcases waiting_of_active hinner with hwaits | hwaits
      · exact ⟨inner ++ [f], hwaits.trans (by simp)⟩
      · exact ⟨e :: inner ++ [f], hwaits.trans (by simp)⟩

/-- A frame that waits after a step waited before it inside the innermost active frame, or was
the running frame and has just called. -/
theorem Machine.waiting_step {m : Machine} {inner outer : List Frame} {g : Frame}
    (hwaiting : (m.step setup).waiting = inner ++ g :: outer) :
    (∃ f earlier, m.active = f :: (earlier ++ g :: outer)) ∨
      ∃ f i, m.control = .running f outer ∧ f.next? = some i ∧ g = f.calling i ∧
        (m.step setup).StackedOn setup.program m.thread (g :: outer) := by
  cases m.step_shift setup with
  | goOn hactive hcontrol hsame hthread =>
      rw [waiting_of_running hcontrol] at hwaiting
      exact Or.inl ⟨_, inner, hwaiting ▸ hactive⟩
  | leave hactive hcontrol hthread =>
      rw [waiting_of_leaving hcontrol] at hwaiting
      exact Or.inl ⟨_, inner, hwaiting ▸ hactive⟩
  | enter hrunning hnext hcontrol hover =>
      rw [waiting_of_running hcontrol] at hwaiting
      cases inner with
      | nil =>
          obtain ⟨rfl, rfl⟩ := List.cons.inj hwaiting
          exact Or.inr ⟨_, _, hrunning, hnext, rfl, [_], active_of_running hcontrol,
            .cons (.nil rfl) hover rfl⟩
      | cons top rest =>
          obtain ⟨rfl, rfl⟩ := List.cons.inj hwaiting
          exact Or.inl ⟨_, rest, active_of_running hrunning⟩
  | refuse hrunning hnext hcontrol hthread =>
      rw [waiting_of_leaving hcontrol] at hwaiting
      cases inner with
      | nil =>
          obtain ⟨rfl, rfl⟩ := List.cons.inj hwaiting
          exact Or.inr ⟨_, _, hrunning, hnext, rfl, [], active_of_leaving hcontrol,
            .nil (congrArg Thread.standing hthread)⟩
      | cons top rest =>
          obtain ⟨rfl, rfl⟩ := List.cons.inj hwaiting
          exact Or.inl ⟨_, rest, active_of_running hrunning⟩
  | stop hnone hsame =>
      rw [hsame] at hwaiting
      cases hcontrol : m.control with
      | running f cs => rw [active_of_running hcontrol] at hnone; cases hnone
      | leaving r a cs =>
          rw [active_of_leaving hcontrol] at hnone
          rw [waiting_of_leaving hcontrol, hnone] at hwaiting
          simp at hwaiting

/-- A waiting frame began to wait when it called, and the frames inside it are stacked on the
thread of that moment. -/
theorem Machine.waiting_began {m : Machine} (hstart : m.waiting = []) {n : Nat}
    {inner outer : List Frame} {g : Frame}
    (hwaiting : (m.advance setup n).waiting = inner ++ g :: outer) :
    ∃ k f i, g = f.calling i ∧ m.Began setup k n f i outer ∧
      (m.advance setup n).StackedOn setup.program (m.advance setup k).thread (g :: outer) := by
  induction n generalizing inner with
  | zero =>
      rw [Machine.advance, hstart] at hwaiting
      simp at hwaiting
  | succ n ih =>
      rw [Machine.advance_succ] at hwaiting
      rcases Machine.waiting_step hwaiting with
        ⟨f, earlier, hactive⟩ | ⟨f, i, hrunning, hnext, rfl, hstacked⟩
      · have hbefore : ∃ before, (m.advance setup n).waiting = before ++ g :: outer := by
          rcases Machine.waiting_of_active hactive with hw | hw
          · exact ⟨earlier, hw⟩
          · exact ⟨f :: earlier, by rw [hw, List.cons_append]⟩
        obtain ⟨before, hbefore⟩ := hbefore
        obtain ⟨k, began, i, rfl, hbegan, hstacked⟩ := ih hbefore
        rw [← Machine.advance_succ] at hwaiting
        refine ⟨k, began, i, rfl, hbegan.succ hwaiting, ?_⟩
        rw [Machine.advance_succ]
        exact hstacked.step hactive (by simp)
      · rw [← Machine.advance_succ] at hwaiting hstacked
        exact ⟨n, f, i, rfl, (Machine.Began.now hrunning hnext).succ hwaiting, hstacked⟩

/-! ## Performing an instruction -/

/-- The frame `g` is in the middle of the instruction `i`, which it began as `f`: nothing of it
has changed since but what is pending. -/
def Frame.Performs (f : Frame) (i : Instr) (g : Frame) : Prop :=
  ∃ pending, g = { f.calling i with activation := { f.activation with pending := pending } }

theorem Frame.performs_calling (f : Frame) (i : Instr) : f.Performs i (f.calling i) :=
  ⟨f.activation.pending, rfl⟩

/-- A handler is entered as if the instruction had never begun. -/
theorem Frame.Performs.handle_eq {f g : Frame} {i : Instr} (hperforms : f.Performs i g)
    (pc : Nat) (s : Signal) : g.handle pc s = (f.calling i).handle pc s := by
  obtain ⟨pending, rfl⟩ := hperforms
  rfl

theorem Code.place?_exit (code : Code) : code.place? .exit = some code.length := by
  simp [Code.place?]

/-- A frame whose instruction ends in a signal has begun it in this step, or waits for it. -/
theorem Machine.EndsIn.performs_or_waits {m : Machine} {f : Frame} {cs : List Frame}
    {s : Signal} (hends : m.EndsIn f cs s) :
    (∃ f₀ i, m.control = .running f₀ cs ∧ f₀.next? = some i ∧ f₀.Performs i f) ∨
      m.waiting = f :: cs := by
  cases hends with
  | @own f₀ _ i s hrunning hnext heffect =>
      obtain ⟨-, pending, hactivation⟩ := Instr.perform_of_signal heffect
      refine Or.inl ⟨f₀, i, hrunning, hnext, pending, ?_⟩
      rw [Frame.after, hactivation, Frame.calling]
  | @unplaced f₀ _ i l hrunning hnext heffect hplace =>
      refine Or.inl ⟨f₀, i, hrunning, hnext, f₀.activation.pending, ?_⟩
      rcases (Instr.perform_of_branch heffect).2 with hsame | ⟨rfl, -⟩
      · rw [Frame.after, hsame, Frame.calling]
      · rw [Code.place?_exit] at hplace
        cases hplace
  | callee hleaving => exact Or.inr (waiting_of_leaving hleaving)

/-- Every frame that a signal may reach began its current instruction at some step.  The frames
inside it are stacked on the thread of that step, unless it has begun the instruction just now. -/
theorem Machine.EndsIn.began {m : Machine} (hstart : m.waiting = []) {n : Nat} {f g : Frame}
    {cs inner outer : List Frame} {s : Signal} (hends : (m.advance setup n).EndsIn f cs s)
    (hsplit : f :: cs = inner ++ g :: outer) :
    ∃ k g₀ i, m.Began setup k n g₀ i outer ∧ g₀.Performs i g ∧
      (inner = [] ∧ k = n ∨
        (m.advance setup n).StackedOn setup.program (m.advance setup k).thread (g :: outer)) := by
  have hpast {before : List Frame} (hwaiting : (m.advance setup n).waiting = before ++ g :: outer) :
      ∃ k g₀ i, m.Began setup k n g₀ i outer ∧ g₀.Performs i g ∧
        (m.advance setup n).StackedOn setup.program (m.advance setup k).thread (g :: outer) := by
    obtain ⟨k, g₀, i, rfl, hbegan, hstacked⟩ := Machine.waiting_began hstart hwaiting
    exact ⟨k, g₀, i, hbegan, g₀.performs_calling i, hstacked⟩
  rcases hends.performs_or_waits with ⟨f₀, i, hrunning, hnext, hperforms⟩ | hwaits
  · cases inner with
    | nil =>
        obtain ⟨rfl, rfl⟩ := List.cons.inj hsplit
        exact ⟨n, f₀, i, .now hrunning hnext, hperforms, Or.inl ⟨rfl, rfl⟩⟩
    | cons e rest =>
        obtain ⟨rfl, rfl⟩ := List.cons.inj hsplit
        obtain ⟨k, g₀, i, hbegan, hg, hstacked⟩ := hpast (waiting_of_running hrunning)
        exact ⟨k, g₀, i, hbegan, hg, Or.inr hstacked⟩
  · obtain ⟨k, g₀, i, hbegan, hg, hstacked⟩ := hpast (hwaits.trans hsplit)
    exact ⟨k, g₀, i, hbegan, hg, Or.inr hstacked⟩

end Unwind
