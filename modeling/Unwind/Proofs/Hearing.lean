import Unwind.Proofs.Frames

/-!
What observers hear.

Observers hear of a method call when it begins and when it ends, provided that the call is traced
and that they listen.  Nothing else that a machine does is heard, and nothing gives the program
another module.
-/

namespace Unwind

/-- Between two states of the record, observers have heard the events, latest first, and the
program has kept its module. -/
structure Record.Hears (before : Record) (es : List Event) (after : Record) : Prop where
  heard : after.heard = es ++ before.heard
  rootModule : after.rootModule = before.rootModule

namespace Record.Hears

theorem refl (r : Record) : r.Hears [] r := ⟨rfl, rfl⟩

theorem trans {before middle after : Record} {es fs : List Event} (first : before.Hears es middle)
    (second : middle.Hears fs after) : before.Hears (fs ++ es) after where
  heard := by rw [second.heard, first.heard, List.append_assoc]
  rootModule := second.rootModule.trans first.rootModule

theorem module_eq {before after : Record} {es : List Event} (hhears : before.Hears es after) :
    after.module = before.module := by
  rw [Record.module, Record.module, hhears.rootModule]

end Record.Hears

theorem Record.count_hears (r : Record) : r.Hears [] r.count := ⟨rfl, rfl⟩

theorem Record.noteIf_hears (r : Record) (wanted : Bool) (entry : LogEntry) :
    r.Hears [] (r.noteIf wanted entry) := by
  unfold Record.noteIf
  split <;> exact ⟨rfl, rfl⟩

/-! ## Method calls -/

/-- Whether there is an observer that listens. -/
def Setup.listens (setup : Setup) : Bool := setup.observer.any Observer.listens

/-- What observers hear of an invocation when it begins or ends; one that belongs to no method
call is not heard. -/
def Setup.events (setup : Setup) (kind : EventKind) : Option MethodCall → List Event
  | none => []
  | some c => if c.traceable && setup.listens then [⟨kind, c.method, c.module⟩] else []

theorem Setup.events_of_untraced {setup : Setup} {kind : EventKind} {c : MethodCall}
    (huntraced : c.traceable = false) : setup.events kind (some c) = [] := by
  simp [Setup.events, huntraced]

theorem Setup.fire_hears (setup : Setup) (c : MethodCall) (record : Record) (kind : EventKind) :
    record.Hears (setup.events kind (some c))
      (setup.fire c.traceable record ⟨kind, c.method, c.module⟩).1 := by
  unfold Setup.fire Setup.events Setup.listens
  cases setup.observer with
  | none => simpa using Record.Hears.refl record
  | some observer =>
      by_cases htraceable : c.traceable = true
      · by_cases hlistens : observer.listens = true
        · simp only [htraceable, Record.tell, hlistens, Option.any_some, Bool.and_self,
            ↓reduceIte]
          have hadds : record.Hears [⟨kind, c.method, c.module⟩]
              { record with heard := ⟨kind, c.method, c.module⟩ :: record.heard } := ⟨rfl, rfl⟩
          exact hadds.trans (Record.noteIf_hears _ _ _)
        · simpa [htraceable, Record.tell, hlistens] using Record.Hears.refl record
      · simpa [htraceable] using Record.Hears.refl record

theorem MethodCall.finish_hears (c : MethodCall) (setup : Setup) (thread : Thread)
    (record : Record) (r : Completion) :
    record.Hears (setup.events .ret (some c)) (c.finish setup thread record r).2.2 := by
  have hfire := setup.fire_hears c record .ret
  cases hend : setup.fire c.traceable record ⟨.ret, c.method, c.module⟩ with
  | mk told failure =>
      rw [hend] at hfire
      cases failure with
      | none => simpa [MethodCall.finish, hend] using hfire
      | some s =>
          cases r with
          | ok v => simpa [MethodCall.finish, hend] using hfire
          | error raised =>
              simp only [MethodCall.finish, hend]
              exact ⟨hfire.heard, hfire.rootModule⟩

/-! ## Frames -/

theorem Machine.leave_hears (m : Machine) (setup : Setup) (nesting : Nat)
    (call : Option MethodCall) (a : Activation) (cs : List Frame) (r : Completion) :
    m.record.Hears (setup.events .ret call) (m.leave setup nesting call a cs r).record := by
  cases call with
  | none => exact .refl m.record
  | some c => exact c.finish_hears setup _ m.record r

theorem Machine.leaveFrame_hears (m : Machine) (setup : Setup) (f : Frame) (cs : List Frame)
    (r : Completion) :
    m.record.Hears (setup.events .ret f.call) (m.leaveFrame setup f cs r).record :=
  m.leave_hears setup f.nesting f.call f.activation cs r

theorem Machine.settle_hears (m : Machine) (setup : Setup) (f : Frame) (cs : List Frame)
    (s : Signal) :
    match f.verdict m.thread s with
    | .resume _ => m.record.Hears [] (m.settle setup f cs s).record
    | .handle _ _ => m.record.Hears [] (m.settle setup f cs s).record
    | _ => m.record.Hears (setup.events .ret f.call) (m.settle setup f cs s).record := by
  have hleaves {noted : Record} (hnoted : m.record.Hears [] noted) (r : Completion) :
      m.record.Hears (setup.events .ret f.call)
        (Machine.leaveFrame { m with record := noted } setup f cs r).record := by
    simpa using hnoted.trans (Machine.leaveFrame_hears { m with record := noted } setup f cs r)
  cases hverdict : f.verdict m.thread s with
  | resume v =>
      simp only [Machine.settle, hverdict]
      exact .refl m.record
  | finish v =>
      simp only [Machine.settle, hverdict]
      exact hleaves (.refl m.record) (.ok v)
  | handle pc handled =>
      simp only [Machine.settle, hverdict]
      split
      · exact m.record.noteIf_hears _ _
      · exact .refl m.record
  | pass passed =>
      simp only [Machine.settle, hverdict]
      split
      · exact hleaves (m.record.noteIf_hears _ _) (.error passed)
      · exact hleaves (.refl m.record) (.error passed)

theorem Machine.calls_hears (m : Machine) (setup : Setup) (id : ScopeId) (c : MethodCall) :
    m.record.Hears (setup.events .call (some c)) (m.calls setup id c).record :=
  setup.fire_hears c m.record .call

end Unwind
