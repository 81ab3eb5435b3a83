import Mathlib.Data.List.Forall2
import Unwind.Frame
import Unwind.Proofs.Perform

/-!
Code that is the same but for its labels.

A label is a name for a place.  Two codes are the same but for labels if their instructions differ
at most in the labels that they branch to, and these name the same places.  Then frames that run
them make the same of every signal and end alike.
-/

namespace Unwind

/-! ## Instructions -/

/-- The instruction with a renaming applied to the label that it branches to. -/
def Instr.relabel (ρ : Label → Label) : Instr → Instr
  | .jump target => .jump (ρ target)
  | .branch truthy cond target => .branch truthy cond (ρ target)
  | i => i

/-- The instruction without the name of the label that it branches to. -/
def Instr.unlabelled (i : Instr) : Instr := i.relabel fun _ => .exit

/-- Where an instruction goes if it branches, by its label or, for a return, by the exit. -/
def Instr.destination (i : Instr) : Label := i.branchTarget?.getD .exit

section Instr

variable (i : Instr)

@[simp]
theorem Instr.relabel_unlabelled (ρ : Label → Label) : (i.relabel ρ).unlabelled = i.unlabelled := by
  cases i <;> rfl

@[simp]
theorem Instr.registers_relabel (ρ : Label → Label) : (i.relabel ρ).registers = i.registers := by
  cases i <;> rfl

@[simp]
theorem Instr.branchTarget?_relabel (ρ : Label → Label) :
    (i.relabel ρ).branchTarget? = i.branchTarget?.map ρ := by
  cases i <;> rfl

@[simp]
theorem Instr.registers_unlabelled : i.unlabelled.registers = i.registers :=
  i.registers_relabel _

@[simp]
theorem Instr.isBreak_unlabelled : i.unlabelled.isBreak = i.isBreak := by
  cases i <;> rfl

@[simp]
theorem Instr.resultSlot?_unlabelled : i.unlabelled.resultSlot? = i.resultSlot? := by
  cases i <;> rfl

def Effect.unlabelled : Effect → Effect
  | .branch _ => .branch .exit
  | e => e

def Performed.unlabelled (p : Performed) : Performed := { p with effect := p.effect.unlabelled }

/-- An instruction does the same without its label, but for the label. -/
theorem Instr.perform_unlabelled (t : Thread) (receiver : Value) (a : Activation) :
    (i.perform t receiver a).unlabelled = i.unlabelled.perform t receiver a := by
  cases i with
  | binary op lhs rhs dst =>
      simp only [unlabelled, relabel, perform]
      split <;> rfl
  | branch truthy cond target =>
      simp only [unlabelled, relabel, perform]
      split <;> rfl
  | resumePending =>
      obtain ⟨invocation, registers, pending, returnValue⟩ := a
      cases pending <;> rfl
  | _ => rfl

theorem Instr.eq_destination_of_perform {i : Instr} {t : Thread} {receiver : Value}
    {a : Activation} {l : Label} (heffect : (i.perform t receiver a).effect = .branch l) :
    l = i.destination := by
  have hacts := i.perform_acts t receiver a
  generalize i.perform t receiver a = performed at *
  cases hacts with
  | branch htarget =>
      obtain rfl := Effect.branch.inj heffect
      rw [destination, htarget, Option.getD_some]
  | ret hi =>
      obtain rfl := Effect.branch.inj heffect
      rw [destination, hi]
      rfl
  | _ => cases heffect

end Instr

/-! ## Code -/

theorem exists_of_rel_some {α β : Type} {r : α → β → Prop} {a : α} {y : Option β}
    (hrel : Option.Rel r (some a) y) : ∃ b, y = some b ∧ r a b := by
  cases hrel with
  | some hab => exact ⟨_, rfl, hab⟩

theorem isSome_eq_of_rel {α β : Type} {r : α → β → Prop} {x : Option α} {y : Option β}
    (hrel : Option.Rel r x y) : y.isSome = x.isSome := by
  cases hrel <;> rfl

theorem exists_of_rel_some_right {α β : Type} {r : α → β → Prop} {x : Option α} {b : β}
    (hrel : Option.Rel r x (some b)) : ∃ a, x = some a ∧ r a b := by
  cases hrel with
  | some hab => exact ⟨_, rfl, hab⟩

/-- The codes are the same but for labels, and all their branches have a place. -/
structure Code.SameButLabels (c d : Code) : Prop where
  instrs : d.instrs.map Instr.unlabelled = c.instrs.map Instr.unlabelled
  regions : d.regions = c.regions
  places : ∀ pc i j, c.instr? pc = some i → d.instr? pc = some j →
    ∃ place, c.place? i.destination = some place ∧ d.place? j.destination = some place

structure Scope.SameButLabels (s t : Scope) : Prop where
  id : t.id = s.id
  name : t.name = s.name
  kind : t.kind = s.kind
  lexicalMethod : t.lexicalMethod = s.lexicalMethod
  code : s.code.SameButLabels t.code

structure Program.SameButLabels (p q : Program) : Prop where
  name : q.name = p.name
  root : q.root = p.root
  scopes : ∀ id, Option.Rel Scope.SameButLabels (p.scope? id) (q.scope? id)

namespace Code.SameButLabels

variable {c d : Code}

theorem instr?_unlabelled (hsame : c.SameButLabels d) (pc : Nat) :
    (d.instr? pc).map Instr.unlabelled = (c.instr? pc).map Instr.unlabelled := by
  have hinstrs := congrArg (fun is : Array Instr => is[pc]?) hsame.instrs
  simpa only [instr?, Array.getElem?_map] using hinstrs

theorem exists_unlabelled_iff (hsame : c.SameButLabels d) (k : Instr) :
    (∃ j ∈ d.instrs, j.unlabelled = k) ↔ ∃ i ∈ c.instrs, i.unlabelled = k := by
  rw [← Array.mem_map, ← Array.mem_map, hsame.instrs]

theorem registerCount_eq (hsame : c.SameButLabels d) : d.registerCount = c.registerCount := by
  have hregisters (code : Code) : code.instrs.toList.flatMap Instr.registers =
      (code.instrs.map Instr.unlabelled).toList.flatMap Instr.registers := by
    simp [List.flatMap_map]
  rw [registerCount, registerCount, hregisters d, hregisters c, hsame.instrs]

theorem rescuerAt?_eq (hsame : c.SameButLabels d) (pc : Nat) :
    d.rescuerAt? pc = c.rescuerAt? pc := by
  rw [rescuerAt?, rescuerAt?, regionAt?, regionAt?, hsame.regions]

theorem ensurerAt?_eq (hsame : c.SameButLabels d) (pc : Nat) :
    d.ensurerAt? pc = c.ensurerAt? pc := by
  rw [ensurerAt?, ensurerAt?, regionAt?, regionAt?, hsame.regions]

end Code.SameButLabels

theorem Scope.SameButLabels.isClosure_eq {s t : Scope} (hsame : s.SameButLabels t) :
    t.isClosure = s.isClosure := by
  rw [Scope.isClosure, Scope.isClosure, hsame.kind]

/-! ## Frames -/

/-- The frames are at the same place of scopes that are the same but for labels. -/
structure Frame.SameButLabels (f g : Frame) : Prop where
  scope : f.scope.SameButLabels g.scope
  activation : g.activation = f.activation
  pc : g.pc = f.pc
  last : g.last.map Instr.unlabelled = f.last.map Instr.unlabelled
  nesting : g.nesting = f.nesting
  call : g.call = f.call

namespace Frame.SameButLabels

variable {f g : Frame}

theorem next?_unlabelled (hsame : f.SameButLabels g) :
    g.next?.map Instr.unlabelled = f.next?.map Instr.unlabelled := by
  rw [next?, next?, hsame.pc]
  exact hsame.scope.code.instr?_unlabelled f.pc

theorem goTo (hsame : f.SameButLabels g) {pc pc' : Nat} (hpc : pc' = pc) :
    (f.goTo pc).SameButLabels (g.goTo pc') :=
  { hsame with pc := hpc }

theorem resume (hsame : f.SameButLabels g) (v : Value) :
    (f.resume v).SameButLabels (g.resume v) := by
  have hslot (o : Option Instr) :
      o.bind Instr.resultSlot? = (o.map Instr.unlabelled).bind Instr.resultSlot? := by
    cases o <;> simp
  refine { hsame with activation := ?_, pc := congrArg (· + 1) hsame.pc }
  rw [Frame.resume, Frame.resume, hsame.activation, hslot g.last, hsame.last, ← hslot f.last]

theorem handle (hsame : f.SameButLabels g) (pc : Nat) (s : Signal) :
    (f.handle pc s).SameButLabels (g.handle pc s) :=
  { hsame with pc := rfl, activation := congrArg (Activation.setPending · s) hsame.activation }

theorem last_isBreak (hsame : f.SameButLabels g) :
    g.last.any Instr.isBreak = f.last.any Instr.isBreak := by
  have hany (o : Option Instr) :
      o.any Instr.isBreak = (o.map Instr.unlabelled).any Instr.isBreak := by
    cases o <;> simp
  rw [hany g.last, hsame.last, ← hany f.last]

theorem onRaise_eq (hsame : f.SameButLabels g) (v : Value) : g.onRaise v = f.onRaise v := by
  rw [Frame.onRaise, Frame.onRaise, hsame.pc, hsame.scope.code.rescuerAt?_eq]

theorem onUnrescued_eq (hsame : f.SameButLabels g) (s : Signal) :
    g.onUnrescued s = f.onUnrescued s := by
  rw [Frame.onUnrescued, Frame.onUnrescued, hsame.pc, hsame.scope.code.ensurerAt?_eq]

/-- The frames make the same of every signal. -/
theorem verdict_eq (hsame : f.SameButLabels g) (t : Thread) (s : Signal) :
    g.verdict t s = f.verdict t s := by
  cases s with
  | raise v => exact hsame.onRaise_eq v
  | fatal message => exact hsame.onUnrescued_eq (.fatal message)
  | returnJump target v =>
      simp only [verdict, onReturnJump, hsame.activation, hsame.scope.id]
  | breakJump target v claimed =>
      simp only [verdict, onBreakJump, onUnexpectedBreak, hsame.last_isBreak, hsame.activation,
        hsame.scope.isClosure_eq, hsame.scope.id, hsame.onRaise_eq, hsame.onUnrescued_eq]

theorem leavingReturn?_eq (hsame : f.SameButLabels g) : g.leavingReturn? = f.leavingReturn? := by
  have hreturn (h : Frame) : h.leavingReturn? =
      ({ h with last := h.last.map Instr.unlabelled } : Frame).leavingReturn? := by
    simp only [leavingReturn?]
    cases h.last with
    | none => rfl
    | some i => cases i <;> rfl
  rw [hreturn f, hreturn g]
  simp only [leavingReturn?, hsame.last, hsame.activation]

theorem isOrphaned_eq (hsame : f.SameButLabels g) (t : Thread) (method : Option ScopeId) :
    g.isOrphaned t method = f.isOrphaned t method := by
  rw [isOrphaned, isOrphaned, hsame.scope.isClosure_eq]

/-- The frames end alike. -/
theorem close_eq (hsame : f.SameButLabels g) (t : Thread) : g.close t = f.close t := by
  simp only [close, hsame.leavingReturn?_eq, hsame.activation, hsame.isOrphaned_eq,
    hsame.scope.isClosure_eq]

end Frame.SameButLabels

end Unwind
