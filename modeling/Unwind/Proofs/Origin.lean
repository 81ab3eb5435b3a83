import Unwind.Proofs.Callers

/-!
Where active frames come from.

A frame that is active after a step has waited through the step, has just been entered, or is
what the step has made of the innermost frame.  In all cases but the second it was active before
the step, in front of the same frames, so that what holds of single frames is carried through a
run by cases on `Machine.Origin`.
-/

namespace Unwind

variable {setup : Setup}

/-- What the frame `g`, active in front of the frames `rest` after a step, was before it. -/
inductive Machine.Origin (setup : Setup) (m : Machine) (g : Frame) (rest : List Frame) : Prop
  /-- It was itself, behind the innermost frame. -/
  | waited {e : Frame} {inner : List Frame} (hactive : m.active = e :: (inner ++ g :: rest))
  /-- It was not there, and has been entered for a call of the innermost frame. -/
  | entered {f : Frame} {cs : List Frame} {i : Instr} {c : Call}
      (hrunning : m.control = .running f cs) (hnext : f.next? = some i)
      (heffect : (i.perform m.thread m.receiver f.activation).effect = .call c)
      (hcontrol : (m.step setup).control = .running g rest) (hrest : rest = f.calling i :: cs)
      (hentered : c.EnteredAs setup m.record.module g)
  /-- It was the innermost frame, and has called. -/
  | called {f : Frame} {i : Instr} {c : Call} (hrunning : m.control = .running f rest)
      (hnext : f.next? = some i)
      (heffect : (i.perform m.thread m.receiver f.activation).effect = .call c)
      (hg : g = f.calling i)
  /-- It was the innermost frame, and has executed an instruction. -/
  | proceeded {f : Frame} {i : Instr} {pc : Nat} (hrunning : m.control = .running f rest)
      (hnext : f.next? = some i)
      (heffect : (i.perform m.thread m.receiver f.activation).effect = .next ∧ pc = f.pc + 1 ∨
        ∃ l, (i.perform m.thread m.receiver f.activation).effect = .branch l ∧
          f.scope.code.place? l = some pc)
      (hcontrol : (m.step setup).control = .running g rest) (hg : g = (f.after i m).goTo pc)
  /-- It was the innermost frame, and its instruction is complete with a value. -/
  | resumed {f : Frame} {v : Value} (hresumes : m.Resumes f rest v)
      (hcontrol : (m.step setup).control = .running g rest) (hg : g = f.resume v)
  /-- It was the innermost frame, and has entered a handler. -/
  | handled {f : Frame} {s handled : Signal} {pc : Nat} (hends : m.EndsIn f rest s)
      (hverdict : f.verdict m.thread s = .handle pc handled)
      (hcontrol : (m.step setup).control = .running g rest) (hg : g = f.handle pc handled)

/-- If a step leaves the innermost frame running as `e` in front of the frames `ds`, the others
have waited. -/
theorem Machine.origin_of_running {m : Machine} {f e g : Frame} {ds inner rest : List Frame}
    (hactive : m.active = f :: ds) (hafter : e :: ds = inner ++ g :: rest)
    (hinnermost : m.Origin setup e ds) : m.Origin setup g rest := by
  cases inner with
  | nil =>
      obtain ⟨rfl, rfl⟩ := List.cons.inj hafter
      exact hinnermost
  | cons top inner =>
      obtain ⟨-, rfl⟩ := List.cons.inj hafter
      exact .waited hactive

/-- Every active frame has one of these origins. -/
theorem Machine.IsActive.origin {m : Machine} {g : Frame} {rest : List Frame}
    (hactive : (m.step setup).IsActive g rest) : m.Origin setup g rest := by
  obtain ⟨inner, hinner⟩ := hactive
  cases m.step_turn setup with
  | proceed hrunning hnext heffect hcontrol hthread =>
      rw [active_of_running hcontrol] at hinner
      exact origin_of_running (active_of_running hrunning) hinner
        (.proceeded hrunning hnext heffect hcontrol rfl)
  | @enter f entered cs i c hrunning hnext heffect hcontrol hentered hover =>
      rw [active_of_running hcontrol] at hinner
      cases inner with
      | nil =>
          obtain ⟨rfl, rfl⟩ := List.cons.inj hinner
          exact .entered hrunning hnext heffect hcontrol rfl hentered
      | cons top inner =>
          obtain ⟨-, hinner⟩ := List.cons.inj hinner
          exact origin_of_running (active_of_running hrunning) hinner
            (.called hrunning hnext heffect rfl)
  | refuse hrunning hnext heffect hrefuses hcontrol hthread =>
      rw [active_of_leaving hcontrol] at hinner
      exact origin_of_running (active_of_running hrunning) hinner
        (.called hrunning hnext heffect rfl)
  | resume hresumes hcontrol hthread =>
      obtain ⟨f₀, hactive, -⟩ := hresumes.active
      rw [active_of_running hcontrol] at hinner
      exact origin_of_running hactive hinner (.resumed hresumes hcontrol rfl)
  | handle hends hverdict hcontrol hthread =>
      obtain ⟨f₀, hactive, -⟩ := hends.active
      rw [active_of_running hcontrol] at hinner
      exact origin_of_running hactive hinner (.handled hends hverdict hcontrol rfl)
  | leave hleaves hresult hcontrol hthread =>
      obtain ⟨f₀, hactive, -⟩ := hleaves.active
      rw [active_of_leaving hcontrol] at hinner
      exact .waited (hinner ▸ hactive)
  | stop hleaving hsame =>
      rw [hsame, active_of_leaving hleaving] at hinner
      simp at hinner

/-! ## What a frame keeps -/

/-- Two states of one invocation: besides its scope and its call, it keeps how it was entered. -/
structure Frame.SameInvocation (f g : Frame) : Prop extends f.SameEntry g where
  invocation : g.activation.invocation = f.activation.invocation

theorem Frame.SameInvocation.refl (f : Frame) : f.SameInvocation f := ⟨.refl f, rfl⟩

theorem Frame.sameInvocation_after (f : Frame) (i : Instr) (m : Machine) :
    f.SameInvocation (f.after i m) :=
  ⟨⟨rfl, rfl, rfl⟩, i.perform_invocation m.thread m.receiver f.activation⟩

theorem Machine.EndsIn.sameInvocation {m : Machine} {f : Frame} {cs : List Frame} {s : Signal}
    (hends : m.EndsIn f cs s) : ∃ f₀, m.active = f₀ :: cs ∧ f₀.SameInvocation f := by
  cases hends with
  | own hrunning _ _ =>
      exact ⟨_, active_of_running hrunning, Frame.sameInvocation_after _ _ _⟩
  | unplaced hrunning _ _ _ =>
      exact ⟨_, active_of_running hrunning, Frame.sameInvocation_after _ _ _⟩
  | callee hleaving => exact ⟨_, active_of_leaving hleaving, .refl _⟩

theorem Machine.Resumes.sameInvocation {m : Machine} {f : Frame} {cs : List Frame} {v : Value}
    (hresumes : m.Resumes f cs v) : ∃ f₀, m.active = f₀ :: cs ∧ f₀.SameInvocation f := by
  cases hresumes with
  | value hleaving => exact ⟨_, active_of_leaving hleaving, .refl _⟩
  | consume hends _ => exact hends.sameInvocation

theorem Machine.Leaves.sameInvocation {m : Machine} {f : Frame} {cs : List Frame}
    {r : Completion} (hleaves : m.Leaves f cs r) :
    ∃ f₀, m.active = f₀ :: cs ∧ f₀.SameInvocation f := by
  cases hleaves with
  | close hrunning _ => exact ⟨_, active_of_running hrunning, .refl _⟩
  | finish hends _ => exact hends.sameInvocation
  | pass hends _ => exact hends.sameInvocation

/-- A frame that has not just been entered is a later state of the one that was in its place. -/
theorem Machine.Origin.sameInvocation {m : Machine} {g : Frame} {rest : List Frame}
    (horigin : m.Origin setup g rest) :
    (∃ f cs i c, m.control = .running f cs ∧ f.next? = some i ∧
        (i.perform m.thread m.receiver f.activation).effect = .call c ∧
        rest = f.calling i :: cs ∧ c.EnteredAs setup m.record.module g) ∨
      ∃ f, m.IsActive f rest ∧ f.SameInvocation g := by
  cases horigin with
  | @waited e inner hactive => exact Or.inr ⟨g, ⟨e :: inner, hactive⟩, .refl g⟩
  | entered hrunning hnext heffect hcontrol hrest hentered =>
      exact Or.inl ⟨_, _, _, _, hrunning, hnext, heffect, hrest, hentered⟩
  | called hrunning hnext heffect hg =>
      subst hg
      exact Or.inr ⟨_, ⟨[], active_of_running hrunning⟩, ⟨rfl, rfl, rfl⟩, rfl⟩
  | @proceeded f i pc hrunning hnext heffect hcontrol hg =>
      subst hg
      have hafter := f.sameInvocation_after i m
      exact Or.inr ⟨f, ⟨[], active_of_running hrunning⟩, ⟨rfl, rfl, rfl⟩, hafter.invocation⟩
  | @resumed f v hresumes hcontrol hg =>
      subst hg
      obtain ⟨f₀, hactive, hsame⟩ := hresumes.sameInvocation
      have hkept := f.activation.store_invocation (f.last.bind Instr.resultSlot?) v
      exact Or.inr ⟨f₀, ⟨[], hactive⟩, ⟨hsame.scope, hsame.nesting, hsame.call⟩,
        hkept.trans hsame.invocation⟩
  | handled hends hverdict hcontrol hg =>
      subst hg
      obtain ⟨f₀, hactive, hsame⟩ := hends.sameInvocation
      exact Or.inr ⟨f₀, ⟨[], hactive⟩, ⟨hsame.scope, hsame.nesting, hsame.call⟩,
        hsame.invocation⟩

end Unwind
