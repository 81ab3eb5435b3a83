import Unwind.Proofs.LabelNames
import Unwind.Proofs.Loading
import Unwind.Proofs.Relabelling

/-!
Programs whose labels are renamed.

Whether a program is drafted step by step or listed, renaming the labels of its scopes changes
neither whether it is built nor what its runs do.
-/

namespace Unwind

open ScopeStep

/-! ## Renamed drafts -/

structure Declaration.SameButLabels (declared other : Declaration) : Prop where
  name : other.name = declared.name
  kind : other.kind = declared.kind
  lexicalMethod : other.lexicalMethod = declared.lexicalMethod
  code : Option.Rel Code.SameButLabels declared.code other.code

theorem Declaration.SameButLabels.scope {declared other : Declaration}
    (hsame : declared.SameButLabels other) {d e : ProgramDraft} {n : Nat} {s t : Scope}
    (hs : d.finishScope declared n = .ok s) (ht : e.finishScope other n = .ok t) :
    s.SameButLabels t := by
  obtain ⟨code, hcode, -, rfl⟩ := ProgramDraft.finishScope_eq hs
  obtain ⟨code', hcode', -, rfl⟩ := ProgramDraft.finishScope_eq ht
  have hcodes := hsame.code
  rw [hcode, hcode'] at hcodes
  cases hcodes with
  | some hcode => exact ⟨rfl, hsame.name, hsame.kind, hsame.lexicalMethod, hcode⟩

structure ProgramDraft.SameButLabels (d e : ProgramDraft) : Prop where
  name : e.name = d.name
  scopes : ∀ n : Nat, Option.Rel Declaration.SameButLabels d.scopes[n]? e.scopes[n]?

/-- The steps are the same, but for a renaming of the labels in what they define. -/
inductive DraftStep.Renamed : DraftStep → DraftStep → Prop
  | declare (name : String) (kind : ScopeKind) : Renamed (.declare name kind) (.declare name kind)
  | declareClosure (name : String) (method : ScopeId) :
      Renamed (.declareClosure name method) (.declareClosure name method)
  | define (id : ScopeId) {steps : List ScopeStep} {ρ : Label → Label} (hρ : Renaming ρ steps) :
      Renamed (.define id (.ofSteps steps)) (.define id (.ofSteps (steps.map (relabel ρ))))

namespace ProgramDraft

theorem name_of_finish {d : ProgramDraft} {root : ScopeId} {p : Program}
    (hfinish : d.finish root = .ok p) : p.name = d.name := by
  simp only [finish, Except.bind_eq_ok_iff] at hfinish
  obtain ⟨_, -, scopes, -, hp⟩ := hfinish
  cases hp
  rfl

/-- Every declared scope is finished, and no other. -/
theorem rel_scope?_of_finish (d : ProgramDraft) {root : ScopeId} {p : Program}
    (hfinish : d.finish root = .ok p) (id : ScopeId) :
    Option.Rel (fun declared s => d.finishScope declared id.toNat = .ok s) d.scopes[id.toNat]?
      (p.scope? id) := by
  obtain ⟨hnone, hsome⟩ := d.scope?_of_finish hfinish id
  cases hs : p.scope? id with
  | none =>
      rw [hnone.mp hs]
      exact .none
  | some s =>
      obtain ⟨declared, hdeclared, hfinished⟩ := hsome s hs
      rw [hdeclared]
      exact .some hfinished

theorem SameButLabels.empty (name : String) :
    SameButLabels { name := name } { name := name } where
  name := rfl
  scopes _ := .none

variable {d e : ProgramDraft} (hsame : d.SameButLabels e)

include hsame

theorem SameButLabels.size_eq : e.scopes.size = d.scopes.size := by
  have hbeyond (n : Nat) : e.scopes.size ≤ n ↔ d.scopes.size ≤ n := by
    rw [← Array.getElem?_eq_none_iff, ← Array.getElem?_eq_none_iff,
      ← Option.not_isSome_iff_eq_none, ← Option.not_isSome_iff_eq_none,
      isSome_eq_of_rel (hsame.scopes n)]
  exact Nat.le_antisymm ((hbeyond _).mpr (Nat.le_refl _)) ((hbeyond _).mp (Nat.le_refl _))

theorem SameButLabels.add (declared : Declaration) (hcode : declared.code = none) :
    (d.add declared).2.SameButLabels (e.add declared).2 where
  name := hsame.name
  scopes n := by
    simp only [ProgramDraft.add, Array.getElem?_push, hsame.size_eq]
    split
    · exact .some ⟨rfl, rfl, rfl, hcode ▸ .none⟩
    · exact hsame.scopes n

theorem SameButLabels.define (id : ScopeId) {body other : ScopeDraft}
    (hbuild : ∀ scope, Alike Code.SameButLabels (body.build scope) (other.build scope)) :
    Alike SameButLabels (d.define id body) (e.define id other) := by
  have hdeclared := hsame.scopes id.toNat
  unfold ProgramDraft.define
  generalize d.scopes[id.toNat]? = found at hdeclared ⊢
  generalize e.scopes[id.toNat]? = found' at hdeclared ⊢
  cases hdeclared with
  | none => exact .error _ _
  | @some declared declared' hheader =>
      have hbuilt := hbuild declared.name
      simp only [isSome_eq_of_rel hheader.code, hheader.name]
      split
      · exact .error _ _
      · generalize body.build declared.name = built at hbuilt ⊢
        generalize other.build declared.name = built' at hbuilt ⊢
        cases hbuilt with
        | error _ _ => exact .error _ _
        | ok hcode =>
            refine .ok ⟨hsame.name, fun n => ?_⟩
            simp only [Array.getElem?_setIfInBounds, hsame.size_eq]
            split
            · split
              · exact .some ⟨rfl, hheader.kind, hheader.lexicalMethod, .some hcode⟩
              · exact .none
            · exact hsame.scopes n

/-- Renamed steps succeed alike, and leave drafts behind that are the same but for labels. -/
theorem SameButLabels.perform {step other : DraftStep} (hstep : step.Renamed other) :
    (∃ next next', step.perform.run d = .ok () next ∧ other.perform.run e = .ok () next' ∧
        next.SameButLabels next') ∨
      ∃ f f', step.perform.run d = .error f d ∧ other.perform.run e = .error f' e := by
  cases hstep with
  | declare name kind => exact Or.inl ⟨_, _, rfl, rfl, hsame.add ⟨name, kind, none, none⟩ rfl⟩
  | declareClosure name method =>
      exact Or.inl ⟨_, _, rfl, rfl, hsame.add ⟨name, .closure, some method, none⟩ rfl⟩
  | @define id steps ρ hρ =>
      have hdefine := hsame.define id hρ.build_alike
      simp only [DraftStep.perform, defineHere_run]
      generalize d.define id _ = defined at hdefine ⊢
      generalize e.define id _ = defined' at hdefine ⊢
      cases hdefine with
      | ok hnext => exact Or.inl ⟨_, _, rfl, rfl, hnext⟩
      | error f f' => exact Or.inr ⟨f, f', rfl, rfl⟩

theorem SameButLabels.foldl_after {steps others : List DraftStep}
    (hsteps : List.Forall₂ DraftStep.Renamed steps others) :
    (steps.foldl after d).SameButLabels (others.foldl after e) := by
  induction hsteps generalizing d e with
  | nil => exact hsame
  | @cons step other _ _ hstep _ ih =>
      apply ih
      rcases hsame.perform hstep with ⟨next, next', hd, he, hnext⟩ | ⟨f, f', hd, he⟩
      · simpa only [after, hd, he] using hnext
      · simpa only [after, hd, he] using hsame

theorem SameButLabels.performAll {steps others : List DraftStep}
    (hsteps : List.Forall₂ DraftStep.Renamed steps others) :
    Alike SameButLabels (d.perform steps) (e.perform others) := by
  induction hsteps generalizing d e with
  | nil => exact .ok hsame
  | @cons step other _ _ hstep _ ih =>
      simp only [perform_cons]
      rcases hsame.perform hstep with ⟨next, next', hd, he, hnext⟩ | ⟨f, f', hd, he⟩
      · simpa only [hd, he] using ih hnext
      · simpa only [hd, he] using .error f f'

theorem SameButLabels.kindOf_eq (scope : String) (target : ScopeId) :
    e.kindOf scope target = d.kindOf scope target := by
  have hdeclared := hsame.scopes target.toNat
  unfold ProgramDraft.kindOf
  generalize d.scopes[target.toNat]? = found at hdeclared ⊢
  generalize e.scopes[target.toNat]? = found' at hdeclared ⊢
  cases hdeclared with
  | none => rfl
  | some hheader => exact congrArg Except.ok hheader.kind

theorem SameButLabels.checkReference_eq (scope : String) {i j : Instr}
    (hinstr : j.unlabelled = i.unlabelled) :
    e.checkReference scope j = d.checkReference scope i := by
  have hunlabelled (draft : ProgramDraft) (k : Instr) :
      draft.checkReference scope k = draft.checkReference scope k.unlabelled := by
    cases k <;> rfl
  rw [hunlabelled e, hunlabelled d, hinstr]
  unfold checkReference
  split <;> simp only [checkCallee, hsame.kindOf_eq]

theorem SameButLabels.finishScope_isOk_iff {declared other : Declaration}
    (hdeclared : declared.SameButLabels other) (n : Nat) :
    (∃ s, d.finishScope declared n = .ok s) ↔ ∃ s, e.finishScope other n = .ok s := by
  have hmethods (method : ScopeId) :
      method.toNat < e.scopes.size ↔ method.toNat < d.scopes.size := by rw [hsame.size_eq]
  obtain ⟨hname, -, hlexical, hcode⟩ := hdeclared
  rw [ProgramDraft.finishScope_isOk_iff, ProgramDraft.finishScope_isOk_iff]
  generalize declared.code = code at hcode ⊢
  generalize other.code = code' at hcode ⊢
  cases hcode with
  | none => simp
  | @some code code' hcode =>
      have hreferences : (∀ i ∈ code.instrs, d.checkReference declared.name i = .ok ()) ↔
          ∀ j ∈ code'.instrs, e.checkReference other.name j = .ok () := by
        constructor
        · intro hchecked j hj
          obtain ⟨i, hi, hinstr⟩ := (hcode.exists_unlabelled_iff _).mp ⟨j, hj, rfl⟩
          rw [hname, hsame.checkReference_eq _ hinstr.symm]
          exact hchecked i hi
        · intro hchecked i hi
          obtain ⟨j, hj, hinstr⟩ := (hcode.exists_unlabelled_iff _).mpr ⟨i, hi, rfl⟩
          rw [← hsame.checkReference_eq _ hinstr, ← hname]
          exact hchecked j hj
      simp only [Option.some.injEq, exists_eq_left', hlexical, hmethods, hreferences]

/-- Drafts that are the same but for labels are finished alike, into such programs. -/
theorem SameButLabels.finish (root : ScopeId) :
    Alike Program.SameButLabels (d.finish root) (e.finish root) := by
  apply alike_of_iff
  · have hroot : e.checkCallee programScope root .method =
        d.checkCallee programScope root .method := by
      rw [checkCallee, checkCallee, hsame.kindOf_eq]
    rw [finish_isOk_iff, finish_isOk_iff, hroot]
    refine and_congr_right fun _ => forall_congr' fun n => ?_
    have hdeclared := hsame.scopes n
    generalize d.scopes[n]? = found at hdeclared ⊢
    generalize e.scopes[n]? = found' at hdeclared ⊢
    cases hdeclared with
    | none => simp
    | some hheader => simpa using hsame.finishScope_isOk_iff hheader n
  · intro p q hp hq
    refine ⟨?_, ?_, fun id => ?_⟩
    · rw [name_of_finish hp, name_of_finish hq, hsame.name]
    · rw [(finish_eq hp).2.1, (finish_eq hq).2.1]
    · have hdeclared := hsame.scopes id.toNat
      have hs := d.rel_scope?_of_finish hp id
      have ht := e.rel_scope?_of_finish hq id
      generalize d.scopes[id.toNat]? = found at hdeclared hs
      generalize e.scopes[id.toNat]? = found' at hdeclared ht
      generalize p.scope? id = scope at hs ⊢
      generalize q.scope? id = scope' at ht ⊢
      cases hdeclared with
      | none =>
          cases hs
          cases ht
          exact .none
      | some hheader =>
          cases hs with
          | some hs =>
              cases ht with
              | some ht => exact .some (hheader.scope hs ht)

end ProgramDraft

/-! ## Renamed listings -/

def CodeItem.relabel (ρ : Label → Label) : CodeItem → CodeItem
  | .label l => .label (ρ l)
  | .instr i => .instr (i.relabel ρ)

def ScopeEntry.relabel (ρ : Label → Label) (s : ScopeEntry) : ScopeEntry :=
  { s with code := s.code.map (CodeItem.relabel ρ), regions := s.regions.map (.relabel ρ) }

/-- The listed scopes are the same, but for a renaming of the labels. -/
def ScopeEntry.Renamed (s t : ScopeEntry) : Prop :=
  ∃ ρ, Renaming ρ s.steps ∧ t = s.relabel ρ

/-- The listings are the same, but for a renaming of the labels of each scope. -/
structure Listing.Renamed (l other : Listing) : Prop where
  name : other.name = l.name
  root : other.root = l.root
  scopes : List.Forall₂ ScopeEntry.Renamed l.scopes other.scopes

theorem RegionDraft.withRescue_relabel (r : RegionDraft) (ρ : Label → Label) :
    (r.relabel ρ).withRescue = r.withRescue.relabel ρ := by
  obtain ⟨start, stop, rescue, ensure⟩ := r
  cases rescue <;> rfl

theorem ScopeEntry.steps_relabel (s : ScopeEntry) (ρ : Label → Label) :
    (s.relabel ρ).steps = s.steps.map (ScopeStep.relabel ρ) := by
  have hitem (item : CodeItem) : (item.relabel ρ).step = item.step.relabel ρ := by
    cases item <;> rfl
  simp [steps, relabel, Function.comp_def, hitem, RegionDraft.withRescue_relabel,
    ScopeStep.relabel]

theorem ScopeEntry.Renamed.declaration {s t : ScopeEntry} (hrenamed : s.Renamed t) :
    s.declaration.Renamed t.declaration := by
  obtain ⟨ρ, -, rfl⟩ := hrenamed
  obtain ⟨name, kind, method, code, regions⟩ := s
  cases kind with
  | closure =>
      cases method with
      | none => exact .declare name .closure
      | some method => exact .declareClosure name method
  | _ => exact .declare name _

theorem ScopeEntry.Renamed.definition {s t : ScopeEntry} (hrenamed : s.Renamed t) (n : Nat) :
    (s.definition n).Renamed (t.definition n) := by
  obtain ⟨ρ, hρ, rfl⟩ := hrenamed
  rw [ScopeEntry.definition, ScopeEntry.definition, s.steps_relabel]
  exact .define (.ofNat n) hρ

theorem forall₂_zipIdx {α β : Type} {r : α → β → Prop} {xs : List α} {ys : List β}
    (hxys : List.Forall₂ r xs ys) (n : Nat) :
    List.Forall₂ (fun x y => r x.1 y.1 ∧ y.2 = x.2) (xs.zipIdx n) (ys.zipIdx n) := by
  induction hxys generalizing n with
  | nil => exact .nil
  | cons hxy _ ih => exact .cons ⟨hxy, rfl⟩ (ih (n + 1))

theorem Listing.Renamed.steps {l other : Listing} (hrenamed : l.Renamed other) :
    List.Forall₂ DraftStep.Renamed l.steps other.steps := by
  have hscopes := hrenamed.scopes
  refine List.rel_append ?_ ?_
  · exact List.rel_map (fun _ _ hentry => hentry.declaration) hscopes
  · refine List.rel_map ?_ (forall₂_zipIdx hscopes 0)
    rintro ⟨s, n⟩ ⟨t, m⟩ ⟨hentry, rfl⟩
    exact hentry.definition m

theorem Listing.Renamed.assemble {l other : Listing} (hrenamed : l.Renamed other) :
    Alike Program.SameButLabels l.assemble other.assemble := by
  have hperformed :=
    (ProgramDraft.SameButLabels.empty l.name).performAll hrenamed.steps
  rw [l.assemble_eq_built, other.assemble_eq_built, Listing.built, Listing.built, hrenamed.name,
    hrenamed.root]
  exact hperformed.bind fun _ _ hdraft => hdraft.finish ⟨l.root⟩

/-- Renaming the labels of listed scopes, with the exit kept and none confused with another, makes
no difference: both listings describe programs or neither does, and these run alike.  The same holds
for programs that are drafted step by step. -/
theorem labels_are_names :
    (∀ l other : Listing, l.Renamed other →
      Alike Program.RunAlike l.assemble other.assemble) ∧
    ∀ name root steps others, List.Forall₂ DraftStep.Renamed steps others →
      Alike Program.RunAlike ((ProgramDraft.ofSteps name steps).finish root)
        ((ProgramDraft.ofSteps name others).finish root) := by
  constructor
  · intro l other hrenamed
    exact hrenamed.assemble.imp fun _ _ hsame => hsame.runAlike
  · intro name root steps others hsteps
    have hdraft := (ProgramDraft.SameButLabels.empty name).foldl_after hsteps
    exact (hdraft.finish root).imp fun _ _ hsame => hsame.runAlike

namespace RenamedProgramsWitness

/-- A script that raises; the handler goes back to the end of the region. -/
def listing (start stop handler : Label) : Listing where
  name := "labels"
  root := 0
  scopes := [
    ⟨"<main>", .script, none,
      [.label start, .instr (.raise (.const (.str "boom"))), .label stop,
        .instr (.ret (.const (.str "rescued")) none), .label handler, .instr .clearPending,
        .instr (.jump stop)],
      [.rescuing start stop handler]⟩]

def program (start stop handler : Label) : Program where
  name := "labels"
  root := ⟨0⟩
  scopes := #[
    ⟨⟨0⟩, "<main>", .script, none,
      ⟨#[.raise (.const (.str "boom")), .ret (.const (.str "rescued")) none, .clearPending,
          .jump stop],
        [(start, 0), (stop, 1), (handler, 2)], [⟨0, 1, some 2, none⟩]⟩⟩]

def setup (start stop handler : Label) : Setup := ⟨program start stop handler, {}, none⟩

def script (start stop handler : Label) : Machine :=
  (setup start stop handler).runRoot .nil (.fresh "-") {}

/-- The labels go round. -/
def turn (l : Label) : Label :=
  if l = ⟨0⟩ then ⟨1⟩ else if l = ⟨1⟩ then ⟨2⟩ else if l = ⟨2⟩ then ⟨0⟩ else l

theorem listing_renamed : (listing ⟨0⟩ ⟨1⟩ ⟨2⟩).Renamed (listing ⟨1⟩ ⟨2⟩ ⟨0⟩) where
  name := rfl
  root := rfl
  scopes := by
    have hinjective : Function.Injective turn := by
      intro l m hsame
      unfold turn at hsame
      split_ifs at hsame <;> simp_all
    exact .cons ⟨turn, ⟨by decide, hinjective.injOn⟩, by decide⟩ .nil

/-- The renamed script is built, is another program, and ends with what its handler goes to, as the
script does. -/
theorem labels_are_names_turned :
    (listing ⟨0⟩ ⟨1⟩ ⟨2⟩).Renamed (listing ⟨1⟩ ⟨2⟩ ⟨0⟩) ∧
    (listing ⟨0⟩ ⟨1⟩ ⟨2⟩).assemble = .ok (program ⟨0⟩ ⟨1⟩ ⟨2⟩) ∧
    (listing ⟨1⟩ ⟨2⟩ ⟨0⟩).assemble = .ok (program ⟨1⟩ ⟨2⟩ ⟨0⟩) ∧
    program ⟨1⟩ ⟨2⟩ ⟨0⟩ ≠ program ⟨0⟩ ⟨1⟩ ⟨2⟩ ∧
    ∃ o o', (script ⟨0⟩ ⟨1⟩ ⟨2⟩).Stops (setup ⟨0⟩ ⟨1⟩ ⟨2⟩) o ∧
      (script ⟨1⟩ ⟨2⟩ ⟨0⟩).Stops (setup ⟨1⟩ ⟨2⟩ ⟨0⟩) o' ∧
      (o.ofRoot (setup ⟨0⟩ ⟨1⟩ ⟨2⟩)).result = .ok (.str "rescued") ∧
      (o'.ofRoot (setup ⟨1⟩ ⟨2⟩ ⟨0⟩)).result = .ok (.str "rescued") := by
  have hassembled : (listing ⟨0⟩ ⟨1⟩ ⟨2⟩).assemble = .ok (program ⟨0⟩ ⟨1⟩ ⟨2⟩) := rfl
  have hassembled' : (listing ⟨1⟩ ⟨2⟩ ⟨0⟩).assemble = .ok (program ⟨1⟩ ⟨2⟩ ⟨0⟩) := rfl
  have halike := labels_are_names.1 _ _ listing_renamed
  rw [hassembled, hassembled'] at halike
  refine ⟨listing_renamed, hassembled, hassembled', by decide, ?_⟩
  cases halike with
  | ok halike =>
      have hruns := halike {} none .nil (.fresh "-") {}
      have hstops : (script ⟨0⟩ ⟨1⟩ ⟨2⟩).Stops (setup ⟨0⟩ ⟨1⟩ ⟨2⟩) _ := ⟨6, rfl⟩
      obtain ⟨o', hstops'⟩ := hruns.stops.mp ⟨_, hstops⟩
      exact ⟨_, o', hstops, hstops', rfl, (hruns.ends _ _ hstops hstops').result⟩

end RenamedProgramsWitness

end Unwind
