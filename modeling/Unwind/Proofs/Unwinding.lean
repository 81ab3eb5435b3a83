import Unwind.Proofs.Stack
import Unwind.Proofs.Verdict

/-!
Unwinding.

A signal that frames let pass leaves one of them with every step.  Nothing is executed on the
way, and the thread becomes what it was under these frames.
-/

namespace Unwind

variable {setup : Setup}

/-- A signal leaves all frames that let it pass. -/
theorem Machine.unwind {m : Machine} {s : Signal} {a : Activation} {inner rest : List Frame}
    (hleaving : m.control = .leaving (.error s) a (inner ++ rest))
    (hpass : ∀ f ∈ inner, ∀ t, f.verdict t s = .pass s) (setup : Setup) :
    (∃ a, (m.advance setup inner.length).control = .leaving (.error s) a rest) ∧
      (∀ j, j ≤ inner.length → (m.advance setup j).executing? = none) ∧
      ∀ base, m.StackedOn setup.program base rest →
        (m.advance setup inner.length).StackedOn setup.program base rest := by
  induction inner generalizing m a with
  | nil =>
      refine ⟨⟨a, hleaving⟩, ?_, fun base hstacked => hstacked⟩
      intro j hj
      obtain rfl : j = 0 := Nat.le_zero.mp hj
      exact executing?_of_leaving hleaving
  | cons f inner ih =>
      have hends : m.EndsIn f (inner ++ rest) s := .callee hleaving
      have hspec := hends.step_spec setup
      rw [hpass f List.mem_cons_self] at hspec
      obtain ⟨hleft, hquiet, hkept⟩ :=
        ih hspec.1 fun e he => hpass e (List.mem_cons_of_mem f he)
      refine ⟨hleft, ?_, ?_⟩
      · intro j hj
        cases j with
        | zero => exact executing?_of_leaving hleaving
        | succ j => exact hquiet j (Nat.le_of_succ_le_succ hj)
      · intro base hstacked
        have hactive : m.active = f :: (inner ++ rest) := active_of_leaving hleaving
        exact hkept base (hstacked.step hactive (by simp))

theorem Machine.Stops.of_advance {m : Machine} {n : Nat} {o : Outcome}
    (hstops : (m.advance setup n).Stops setup o) : m.Stops setup o := by
  obtain ⟨k, hk⟩ := hstops
  exact ⟨n + k, by rw [Machine.advance_add, hk]⟩

/-- A signal that all frames let pass is what the run ends in. -/
theorem Machine.escape {m : Machine} {s : Signal} {a : Activation} {cs : List Frame}
    (hleaving : m.control = .leaving (.error s) a cs)
    (hpass : ∀ f ∈ cs, ∀ t, f.verdict t s = .pass s) (setup : Setup) :
    (∀ j, (m.advance setup j).executing? = none) ∧
      ∃ o, m.Stops setup o ∧ o.result = .error s := by
  rw [← List.append_nil cs] at hleaving
  obtain ⟨⟨b, hleft⟩, hquiet, -⟩ := Machine.unwind hleaving hpass setup
  have hstopped := Machine.outcome?_of_leaving hleft
  refine ⟨?_, _, ⟨_, hstopped⟩, rfl⟩
  intro j
  rcases Nat.le_total j cs.length with hbefore | hafter
  · exact hquiet j hbefore
  · obtain ⟨d, rfl⟩ := Nat.exists_eq_add_of_le hafter
    rw [Machine.advance_add, Machine.advance_of_outcome hstopped]
    exact executing?_of_leaving hleft

/-! ## Frames without handlers -/

/-- A frame without a handler for a raise or a fatal condition lets it pass. -/
theorem Frame.verdict_of_none {f : Frame} {t : Thread} {s : Signal} (hkind : s.isJump = false)
    (hnone : f.handlerFor? s = none) : f.verdict t s = .pass s := by
  have hregard : f.regard t s = s := Frame.regard_of_not_jump hkind
  rw [Frame.verdict_of_not_jump (by rw [hregard, hkind]), hregard,
    Frame.seekHandler_of_none hnone]

theorem Machine.Yields.unwind {m : Machine} {f : Frame} {inner rest : List Frame} {s : Signal}
    (hyields : m.Yields f (inner ++ rest) s) (hkind : s.isJump = false)
    (hnone : ∀ e ∈ f :: inner, e.handlerFor? s = none) (setup : Setup) :
    (∃ a, (m.advance setup (inner.length + 1)).control = .leaving (.error s) a rest) ∧
      (∀ j, 0 < j → j ≤ inner.length + 1 → (m.advance setup j).executing? = none) ∧
      ∀ base, m.StackedOn setup.program base rest →
        (m.advance setup (inner.length + 1)).StackedOn setup.program base rest := by
  obtain ⟨hcontrol, -⟩ := hyields.step_of_none hkind (hnone f List.mem_cons_self) setup
  have hpass : ∀ e ∈ inner, ∀ t, e.verdict t s = .pass s := fun e he t =>
    Frame.verdict_of_none hkind (hnone e (List.mem_cons_of_mem f he))
  obtain ⟨hleft, hquiet, hkept⟩ := Machine.unwind hcontrol hpass setup
  obtain ⟨made, hends, -⟩ := hyields
  obtain ⟨f₀, hactive, -⟩ := hends.active
  refine ⟨hleft, ?_, fun base hstacked => hkept base (hstacked.step hactive (by simp))⟩
  intro j hpos hj
  cases j with
  | zero => cases hpos
  | succ j => exact hquiet j (Nat.le_of_succ_le_succ hj)

/-- The signal comes before the innermost frame that has a handler for it. -/
theorem Machine.Yields.reach {m : Machine} {f g : Frame} {cs inner outer : List Frame}
    {s : Signal} (hyields : m.Yields f cs s) (hkind : s.isJump = false)
    (hsplit : f :: cs = inner ++ g :: outer) (hnone : ∀ e ∈ inner, e.handlerFor? s = none)
    (setup : Setup) :
    (m.advance setup inner.length).Yields g outer s ∧
      (∀ j, 0 < j → j ≤ inner.length → (m.advance setup j).executing? = none) ∧
      ∀ base, m.StackedOn setup.program base (g :: outer) →
        (m.advance setup inner.length).StackedOn setup.program base (g :: outer) := by
  cases inner with
  | nil =>
      obtain ⟨rfl, rfl⟩ := List.cons.inj hsplit
      exact ⟨hyields, fun j hpos hj => absurd hj (Nat.not_le_of_lt hpos), fun base h => h⟩
  | cons e rest =>
      obtain ⟨rfl, rfl⟩ := List.cons.inj hsplit
      obtain ⟨⟨a, hleft⟩, hquiet, hkept⟩ := hyields.unwind hkind hnone setup
      exact ⟨Machine.yields_of_leaving hleft hkind, hquiet, hkept⟩

/-- A signal for which no active frame has a handler is what the run ends in. -/
theorem Machine.Yields.escape {m : Machine} {f : Frame} {cs : List Frame} {s : Signal}
    (hyields : m.Yields f cs s) (hkind : s.isJump = false)
    (hnone : ∀ g ∈ f :: cs, g.handlerFor? s = none) (setup : Setup) :
    (∀ j, 0 < j → (m.advance setup j).executing? = none) ∧
      ∃ o, m.Stops setup o ∧ o.result = .error s := by
  obtain ⟨hcontrol, -⟩ := hyields.step_of_none hkind (hnone f List.mem_cons_self) setup
  have hpass : ∀ e ∈ cs, ∀ t, e.verdict t s = .pass s := fun e he t =>
    Frame.verdict_of_none hkind (hnone e (List.mem_cons_of_mem f he))
  obtain ⟨hquiet, o, hstops, hresult⟩ := Machine.escape hcontrol hpass setup
  refine ⟨?_, o, Machine.Stops.of_advance (n := 1) hstops, hresult⟩
  intro j hpos
  cases j with
  | zero => cases hpos
  | succ j => exact hquiet j

end Unwind
