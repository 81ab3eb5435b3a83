import Unwind.Proofs.Suspension
import Unwind.Proofs.Unwinding

/-!
Where signals land.

A signal that has left its frame goes through the frames that let it pass and arrives, with
nothing executed on the way, at the first one that does not.  This one has waited for its call
ever since it made it, and gets the thread back as it was then.  A signal that every frame lets
pass is what the run ends in.
-/

namespace Unwind

variable {setup : Setup}

/-- In a run, a signal that leaves a frame after step `n` arrives at step `l` at the frame `g`, in
front of the frames `outer`. -/
structure Machine.Arrives (setup : Setup) (m : Machine) (n l : Nat) (s : Signal) (g : Frame)
    (outer : List Frame) : Prop where
  later : n < l
  quiet : ∀ j, n < j → j ≤ l → (m.advance setup j).executing? = none
  leaving : ∃ a, (m.advance setup l).control = .leaving (.error s) a (g :: outer)
  /-- The frame waits, and the thread stands, as when the frame began its call. -/
  waits : ∃ k g₀ i, m.Began setup k l g₀ i outer ∧ g = g₀.calling i ∧
    (m.advance setup l).thread.standing = (m.advance setup k).thread.standing

/-- A signal arrives at the first frame that does not let it pass. -/
theorem Machine.exists_arrives {m : Machine} (hstart : m.waiting = []) {n : Nat} {s : Signal}
    {a : Activation} {inner outer : List Frame} {g : Frame}
    (hleaving : (m.advance setup (n + 1)).control = .leaving (.error s) a (inner ++ g :: outer))
    (hpass : ∀ f ∈ inner, ∀ t, f.verdict t s = .pass s) :
    m.Arrives setup n (n + 1 + inner.length) s g outer := by
  obtain ⟨⟨b, hleft⟩, hquiet, -⟩ := Machine.unwind hleaving hpass setup
  rw [← Machine.advance_add] at hleft
  refine ⟨by omega, ?_, ⟨b, hleft⟩, ?_⟩
  · intro j hnj hj
    obtain ⟨d, rfl⟩ := Nat.exists_eq_add_of_le (Nat.succ_le_of_lt hnj)
    rw [Nat.succ_eq_add_one, Machine.advance_add]
    exact hquiet d (by omega)
  · have hwaiting : (m.advance setup (n + 1 + inner.length)).waiting = [] ++ g :: outer :=
      waiting_of_leaving hleft
    obtain ⟨k, g₀, i, hg, hbegan, hstacked⟩ := Machine.waiting_began hstart hwaiting
    exact ⟨k, g₀, i, hbegan, hg, hstacked.standing_eq (by rw [active_of_leaving hleft])⟩

/-! ## Landing -/

/-- The next step raises the exception in the frame at its place: it enters the rescue code
there, or leaves the frame with the raise. -/
def Machine.RaisesIn (setup : Setup) (m : Machine) (f : Frame) (cs : List Frame)
    (e : Exception) : Prop :=
  match f.scope.code.rescuerAt? f.pc with
  | some pc => (m.step setup).control = .running (f.handle pc (.ofException e)) cs
  | none => (m.step setup).control = .leaving (.error (.ofException e)) f.activation cs

theorem Machine.Yields.raisesIn {m : Machine} {f : Frame} {cs : List Frame} {e : Exception}
    (hyields : m.Yields f cs (.ofException e)) (setup : Setup) : m.RaisesIn setup f cs e := by
  cases hrescuer : f.scope.code.rescuerAt? f.pc with
  | some pc =>
      simp only [Machine.RaisesIn, hrescuer]
      exact (hyields.step_of_some rfl hrescuer setup).1
  | none =>
      simp only [Machine.RaisesIn, hrescuer]
      exact (hyields.step_of_none rfl hrescuer setup).1

/-- The next step goes on in the frame behind its call, as if the call had returned the value,
and nothing else changes. -/
def Machine.CompletesCall (setup : Setup) (m : Machine) (g : Frame) (outer : List Frame)
    (v : Value) : Prop :=
  m.step setup = { m with control := .running (g.resume v) outer }

theorem Machine.completesCall_of_resume {m : Machine} {g : Frame} {outer : List Frame}
    {s : Signal} {a : Activation} {v : Value}
    (hleaving : m.control = .leaving (.error s) a (g :: outer))
    (hverdict : g.verdict m.thread s = .resume v) (setup : Setup) :
    m.CompletesCall setup g outer v := by
  simp [Machine.CompletesCall, Machine.step, hleaving, Machine.settle, hverdict, Verdict.raised?]

/-- The next step ends the frame with the value, as if its code had ended with it. -/
def Machine.FinishesWith (setup : Setup) (m : Machine) (g : Frame) (outer : List Frame)
    (v : Value) : Prop :=
  m.step setup = m.leaveFrame setup g outer (.ok v)

theorem Machine.finishesWith_of_finish {m : Machine} {g : Frame} {outer : List Frame}
    {s : Signal} {a : Activation} {v : Value}
    (hleaving : m.control = .leaving (.error s) a (g :: outer))
    (hverdict : g.verdict m.thread s = .finish v) (setup : Setup) :
    m.FinishesWith setup g outer v := by
  simp only [Machine.FinishesWith, Machine.step, hleaving, Machine.settle, hverdict,
    Verdict.raised?, Machine.leaveFrame, Machine.leave]

end Unwind
