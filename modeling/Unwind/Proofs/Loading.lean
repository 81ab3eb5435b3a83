import Unwind.Proofs.Encoding
import Unwind.Proofs.ProgramBuilding
import Unwind.Proofs.WrittenListing

/-!
Loading agrees with building step by step.

A listing is recovered from its JSON, and assembling it performs the steps that it lists: its scopes
are declared in order, then each is defined by the steps of its code and its regions, and at last
the program is finished.  So every element of code is found where it was listed.
-/

namespace Unwind

/-! ## Reading listings -/

/-- Reading gives the value, whatever is left out of the JSON. -/
def Json.Reads {α : Type} (read : Json → Reading α) (j : Json) (a : α) : Prop :=
  ∀ k, Abridged j k → read k = .ok a

namespace Json

theorem reads_text (s : String) : Reads readText (.text s) s := by
  intro k hk
  rw [hk.eq_text]
  rfl

theorem reads_word (n : UInt32) : Reads readWord (.ofWord n) n := by
  intro k hk
  have hbounds : (0 : Int) ≤ n.toNat ∧ (n.toNat : Int) < 0x100000000 := by
    have hlt := n.toNat_lt
    omega
  rw [hk.eq_number, readWord, if_pos hbounds]
  simp

theorem reads_label (l : Label) : Reads readLabel l.toJson l := by
  intro k hk
  rw [readLabel, reads_word l.number k hk]
  rfl

theorem reads_scopeId (id : ScopeId) : Reads readScopeId id.toJson id := by
  intro k hk
  rw [readScopeId, reads_word id.index k hk]
  rfl

theorem reads_optional {α : Type} {read : Json → Reading α} {write : α → Json}
    (hnull : ∀ a, write a ≠ .null) (hread : ∀ a, Reads read (write a) a) (o : Option α) :
    Reads (readOptional read) (.ofOption write o) o := by
  intro k hk
  cases o with
  | none =>
      cases hk
      rfl
  | some a =>
      have hgiven := hread a k hk
      have hsome := hk.ne_null (hnull a)
      cases k with
      | null => exact absurd rfl hsome
      | _ => simp [readOptional, hgiven, Except.map]

theorem reads_list {α : Type} {read : Json → Reading α} {write : α → Json} (xs : List α)
    (hread : ∀ a ∈ xs, Reads read (write a) a) :
    Reads (readList read) (.list (xs.map write)) xs := by
  intro k hk
  cases hk with
  | list hitems => exact hitems.mapM_eq hread

end Json

theorem ScopeKind.reads (kind : ScopeKind) :
    Json.Reads ScopeKind.ofJson (.text kind.word) kind := by
  intro k hk
  rw [hk.eq_text]
  cases kind <;> rfl

/-- No instruction can be taken for a label marker. -/
theorem Instr.toJson_unmarked (i : Instr) :
    ∃ members, i.toJson = .record members ∧ "label" ∉ members.map Prod.fst := by
  cases i with
  | branch truthy cond target => cases truthy <;> exact ⟨_, rfl, by simp⟩
  | _ => exact ⟨_, rfl, by simp⟩

theorem CodeItem.reads (item : CodeItem) : Json.Reads CodeItem.ofJson item.toJson item := by
  intro k hk
  rw [CodeItem.ofJson, if_pos hk.usable]
  cases item with
  | label l =>
      obtain ⟨short, rfl, hl⟩ := hk.eq_single (Json.not_default_of_name (by decide))
      simp [Label.ofMarker?, Json.member?, l.decodes short hl]
  | instr i =>
      obtain ⟨members, hi, hlabel⟩ := i.toJson_unmarked
      have hmarker : Label.ofMarker? k = none := by
        have hk : Json.Abridged (.record members) k := hi ▸ hk
        cases hk with
        | @record _ short hmembers =>
            have hnone : short.countP (fun m => m.1 == "label") = 0 := by
              rw [List.countP_eq_zero]
              intro m hm hname
              rw [← eq_of_beq hname] at hlabel
              exact hlabel (hmembers.names.subset (List.mem_map_of_mem hm))
            simp [Label.ofMarker?, hnone]
      simp [hmarker, i.decodes true k hk]

theorem Label.toJson_ne_null (l : Label) : l.toJson ≠ .null := nofun

theorem ScopeId.toJson_ne_null (id : ScopeId) : id.toJson ≠ .null := nofun

theorem Json.reads_optionalLabel (o : Option Label) :
    Reads (readOptional readLabel) (.ofOption Label.toJson o) o :=
  reads_optional Label.toJson_ne_null reads_label o

/-- A member that may be null is left out for none only. -/
theorem Json.eq_none_of_default {α : Type} {write : α → Json} {name : String} {o : Option α}
    (hkept : ∀ a, ¬ Default name (write a)) (hdefault : Default name (.ofOption write o)) :
    o = none := by
  cases o with
  | none => rfl
  | some a => exact absurd hdefault (hkept a)

/-! ### Slots -/

section Slots

variable {σ : Type} (add : σ → String × Json → Reading σ) {name : String} {j : Json}
  {members short : List (String × Json)}

/-- The first member is read, as it cannot be left out. -/
theorem Json.MembersAbridged.foldlM_required
    (hmembers : MembersAbridged ((name, j) :: members) short) (hkept : ¬ Default name j)
    (slots next : σ) (hadd : ∀ k, Abridged j k → add slots (name, k) = .ok next) :
    ∃ rest, MembersAbridged members rest ∧ short.foldlM add slots = rest.foldlM add next := by
  cases hmembers with
  | drop hdefault => exact absurd hdefault hkept
  | keep hmember hrest =>
      refine ⟨_, hrest, ?_⟩
      rw [List.foldlM_cons, hadd _ hmember]
      rfl

/-- The first member is read into its slot, or left out for the default of the slot. -/
theorem Json.MembersAbridged.foldlM_default {β : Type}
    (hmembers : MembersAbridged ((name, j) :: members) short) (slot : Option β → σ) (b absent : β)
    (hadd : ∀ k, Abridged j k → add (slot none) (name, k) = .ok (slot (some b)))
    (hdrop : Default name j → absent = b) :
    ∃ rest found, MembersAbridged members rest ∧ found.getD absent = b ∧
      short.foldlM add (slot none) = rest.foldlM add (slot found) := by
  cases hmembers with
  | drop hdefault hrest => exact ⟨short, none, hrest, hdrop hdefault, rfl⟩
  | keep hmember hrest =>
      refine ⟨_, some b, hrest, rfl, ?_⟩
      rw [List.foldlM_cons, hadd _ hmember]
      rfl

end Slots

@[simp]
theorem Except.ok_bind {α β ε : Type} (a : α) (f : α → Except ε β) :
    Except.ok a >>= f = f a := rfl

@[simp]
theorem Except.map_ok {α β ε : Type} (a : α) (f : α → β) :
    f <$> (Except.ok a : Except ε α) = .ok (f a) := rfl

@[simp]
theorem Reading.fill_ok {α : Type} (name : String) (a : α) :
    Reading.fill name none (.ok a) = .ok (some a) := rfl

@[simp]
theorem Reading.required_some {α : Type} (name : String) (a : α) :
    Reading.required name (some a) = .ok a := rfl

theorem join_eq_getD {α : Type} (o : Option (Option α)) : o.join = o.getD none := by
  cases o <;> rfl

/-! ### Structures -/

theorem RegionDraft.reads (r : RegionDraft) : Json.Reads RegionDraft.ofJson r.toJson r := by
  intro k hk
  obtain ⟨start, stop, rescue, ensure⟩ := r
  have hnone {name : String} (hname : name ≠ "root") {o : Option Label}
      (hdefault : Json.Default name (.ofOption Label.toJson o)) : none = o :=
    (Json.eq_none_of_default (fun l => l.not_default_toJson hname) hdefault).symm
  cases hk with
  | @record _ short hmembers =>
      obtain ⟨_, hmembers, hstart⟩ := hmembers.foldlM_required RegionSlots.add
        (start.not_default_toJson (by decide)) {} { start := some start }
        (fun k hk => by simp [RegionSlots.add, Json.reads_label start k hk])
      obtain ⟨_, hmembers, hstop⟩ := hmembers.foldlM_required RegionSlots.add
        (stop.not_default_toJson (by decide)) { start := some start }
        { start := some start, stop := some stop }
        (fun k hk => by simp [RegionSlots.add, Json.reads_label stop k hk])
      obtain ⟨_, rescued, hmembers, hrescued, hrescue⟩ := hmembers.foldlM_default RegionSlots.add
        (fun found => { start := some start, stop := some stop, rescue := found }) rescue none
        (fun k hk => by simp [RegionSlots.add, Json.reads_optionalLabel rescue k hk])
        (hnone (by decide))
      obtain ⟨_, ensured, hmembers, hensured, hensure⟩ := hmembers.foldlM_default RegionSlots.add
        (fun found =>
          { start := some start, stop := some stop, rescue := rescued, ensure := found }) ensure
        none (fun k hk => by simp [RegionSlots.add, Json.reads_optionalLabel ensure k hk])
        (hnone (by decide))
      cases hmembers
      have hslots := hstart.trans (hstop.trans (hrescue.trans hensure))
      simp [RegionDraft.ofJson, hslots, join_eq_getD, hrescued, hensured, pure, Except.pure]

/-- Only no regions at all are left out. -/
theorem RegionDraft.eq_nil_of_default {name : String} {rs : List RegionDraft}
    (hdefault : Json.Default name (.list (rs.map RegionDraft.toJson))) : [] = rs := by
  cases rs with
  | nil => rfl
  | cons r rs => cases hdefault

theorem ScopeEntry.reads (s : ScopeEntry) : Json.Reads ScopeEntry.ofJson s.toJson s := by
  intro k hk
  obtain ⟨name, kind, method, code, regions⟩ := s
  have hmethodReads := Json.reads_optional ScopeId.toJson_ne_null Json.reads_scopeId method
  have hcodeReads := Json.reads_list code fun item _ => item.reads
  have hregionsReads := Json.reads_list regions fun r _ => r.reads
  have hmethodNone (hdefault : Json.Default "lexical_method" (.ofOption ScopeId.toJson method)) :
      none = method :=
    (Json.eq_none_of_default (fun id => id.not_default_toJson (by decide)) hdefault).symm
  cases hk with
  | @record _ short hmembers =>
      obtain ⟨_, hmembers, hname⟩ := hmembers.foldlM_required ScopeSlots.add
        Json.not_default_text {} { name := some name }
        (fun k hk => by simp [ScopeSlots.add, Json.reads_text name k hk])
      obtain ⟨_, hmembers, hkind⟩ := hmembers.foldlM_required ScopeSlots.add
        Json.not_default_text { name := some name } { name := some name, kind := some kind }
        (fun k hk => by simp [ScopeSlots.add, kind.reads k hk])
      obtain ⟨_, stood, hmembers, hstood, hmethod⟩ := hmembers.foldlM_default ScopeSlots.add
        (fun found => { name := some name, kind := some kind, lexicalMethod := found }) method
        none (fun k hk => by simp [ScopeSlots.add, hmethodReads k hk]) hmethodNone
      obtain ⟨_, hmembers, hcode⟩ := hmembers.foldlM_required ScopeSlots.add
        (Json.not_default_of_name (by decide))
        { name := some name, kind := some kind, lexicalMethod := stood }
        { name := some name, kind := some kind, lexicalMethod := stood, code := some code }
        (fun k hk => by simp [ScopeSlots.add, hcodeReads k hk])
      obtain ⟨_, added, hmembers, hadded, hregions⟩ := hmembers.foldlM_default ScopeSlots.add
        (fun found => {
          name := some name, kind := some kind, lexicalMethod := stood, code := some code,
          regions := found }) regions []
        (fun k hk => by simp [ScopeSlots.add, hregionsReads k hk]) RegionDraft.eq_nil_of_default
      cases hmembers
      have hslots := hname.trans (hkind.trans (hmethod.trans (hcode.trans hregions)))
      simp [ScopeEntry.ofJson, hslots, join_eq_getD, hstood, hadded, pure, Except.pure]

theorem Json.Default.eq_of_root {j : Json} (hdefault : Default "root" j) : j = .ofWord 0 := by
  cases hdefault with
  | null hname => exact absurd hname (by decide)
  | empty hname => exact absurd hname (by decide)
  | zero => rfl

/-- Only a root of zero is left out. -/
theorem Json.eq_zero_of_default {n : UInt32} (hdefault : Default "root" (.ofWord n)) : 0 = n := by
  have hword := congrArg word? hdefault.eq_of_root
  rw [word?_ofWord, word?_ofWord] at hword
  exact (Option.some.inj hword).symm

/-- A listing is what is read from its JSON. -/
theorem Listing.reads (l : Listing) : Json.Reads Listing.ofJson l.toJson l := by
  intro k hk
  obtain ⟨name, root, scopes⟩ := l
  have hscopesReads := Json.reads_list scopes fun s _ => s.reads
  cases hk with
  | @record _ short hmembers =>
      obtain ⟨_, hmembers, hname⟩ := hmembers.foldlM_required ListingSlots.add
        Json.not_default_text {} { name := some name }
        (fun k hk => by simp [ListingSlots.add, Json.reads_text name k hk])
      obtain ⟨_, rooted, hmembers, hrooted, hroot⟩ := hmembers.foldlM_default ListingSlots.add
        (fun found => { name := some name, root := found }) root 0
        (fun k hk => by simp [ListingSlots.add, Json.reads_word root k hk])
        Json.eq_zero_of_default
      obtain ⟨_, hmembers, hscopes⟩ := hmembers.foldlM_required ListingSlots.add
        (Json.not_default_of_name (by decide)) { name := some name, root := rooted }
        { name := some name, root := rooted, scopes := some scopes }
        (fun k hk => by simp [ListingSlots.add, hscopesReads k hk])
      cases hmembers
      have hslots := hname.trans (hroot.trans hscopes)
      simp [Listing.ofJson, hslots, hrooted, pure, Except.pure]

/-! ## Listed steps -/

def CodeItem.step : CodeItem → ScopeStep
  | .label l => .place l
  | .instr i => .emit i

/-- The code of a listed scope step by step, and then its regions. -/
def ScopeEntry.steps (s : ScopeEntry) : List ScopeStep :=
  s.code.map CodeItem.step ++ s.regions.map fun r => .region r.withRescue

/-- A closure stands in the method that is listed with it, and no other scope stands in one. -/
def ScopeEntry.declaration (s : ScopeEntry) : DraftStep :=
  match s.kind, s.lexicalMethod with
  | .closure, some method => .declareClosure s.name method
  | kind, _ => .declare s.name kind

def ScopeEntry.definition (s : ScopeEntry) (n : Nat) : DraftStep :=
  .define (.ofNat n) (ScopeDraft.ofSteps s.steps)

/-- All scopes are declared in order, and then each is defined. -/
def Listing.steps (l : Listing) : List DraftStep :=
  l.scopes.map ScopeEntry.declaration ++ l.scopes.zipIdx.map fun (s, n) => s.definition n

/-- Performs steps in order, up to the first one that fails. -/
def ProgramDraft.perform (d : ProgramDraft) (steps : List DraftStep) :
    Except BuildError ProgramDraft :=
  match (steps.forM DraftStep.perform).run d with
  | .ok _ next => .ok next
  | .error e _ => .error e

/-- The program that the steps of a listing build. -/
def Listing.built (l : Listing) : Except BuildError Program := do
  let draft ← ({ name := l.name } : ProgramDraft).perform l.steps
  draft.finish ⟨l.root⟩

theorem ScopeEntry.draft_eq (s : ScopeEntry) : s.draft = ScopeDraft.ofSteps s.steps := by
  have hitem : ScopeDraft.addItem = fun d item => d.step item.step := by
    funext d item
    cases item <;> rfl
  rw [draft, hitem, steps, ScopeDraft.ofSteps, List.foldl_append, List.foldl_map, List.foldl_map,
    List.foldl_map]
  rfl

namespace ProgramDraft

theorem perform_cons (d : ProgramDraft) (step : DraftStep) (rest : List DraftStep) :
    d.perform (step :: rest) =
      match step.perform.run d with
      | .ok _ next => next.perform rest
      | .error e _ => .error e := by
  simp only [perform, List.forM_eq_forM, List.forM_cons, EStateM.run_bind]
  cases step.perform.run d <;> rfl

theorem perform_append (d : ProgramDraft) (steps others : List DraftStep) :
    d.perform (steps ++ others) = d.perform steps >>= fun next => next.perform others := by
  induction steps generalizing d with
  | nil => rfl
  | cons step rest ih =>
      simp only [List.cons_append, perform_cons]
      cases step.perform.run d with
      | ok _ next => exact ih next
      | error e left => rfl

theorem perform_declaration (d : ProgramDraft) (s : ScopeEntry) (rest : List DraftStep) :
    d.perform (s.declaration :: rest) = (d.declareEntry s).2.perform rest := by
  rw [perform_cons]
  obtain ⟨name, kind, method, code, regions⟩ := s
  cases kind <;> cases method <;> rfl

theorem perform_definition (d : ProgramDraft) (s : ScopeEntry) (n : Nat) (rest : List DraftStep) :
    d.perform (s.definition n :: rest) =
      match d.define (.ofNat n) s.draft with
      | .ok next => next.perform rest
      | .error e => .error e := by
  rw [perform_cons, ScopeEntry.definition, DraftStep.perform, defineHere_run, s.draft_eq]
  cases d.define (.ofNat n) (ScopeDraft.ofSteps s.steps) <;> rfl

theorem declareEntry_id (d : ProgramDraft) (s : ScopeEntry) :
    (d.declareEntry s).1 = .ofNat d.scopes.size := by
  unfold declareEntry
  split <;> rfl

theorem declareEntry_size (d : ProgramDraft) (s : ScopeEntry) :
    (d.declareEntry s).2.scopes.size = d.scopes.size + 1 := by
  unfold declareEntry
  split <;> exact Array.size_push _

/-- Declared scopes are numbered on from those that are there. -/
theorem declareAll_ids (d : ProgramDraft) (entries : List ScopeEntry) :
    (d.declareAll entries).1.zip entries =
      (entries.zipIdx d.scopes.size).map fun (s, n) => (.ofNat n, s) := by
  induction entries generalizing d with
  | nil => rfl
  | cons s rest ih => simp [declareAll, declareEntry_id, declareEntry_size, ih]

theorem declareAll_eq (d : ProgramDraft) (entries : List ScopeEntry) :
    d.perform (entries.map ScopeEntry.declaration) = .ok (d.declareAll entries).2 := by
  induction entries generalizing d with
  | nil => rfl
  | cons s rest ih =>
      rw [List.map_cons, perform_declaration, ih]
      rfl

theorem defineAll_eq (d : ProgramDraft) (entries : List (ScopeEntry × Nat)) :
    d.perform (entries.map fun (s, n) => s.definition n) =
      d.defineAll (entries.map fun (s, n) => (.ofNat n, s)) := by
  induction entries generalizing d with
  | nil => rfl
  | cons entry rest ih =>
      simp only [List.map_cons, perform_definition, defineAll]
      cases d.define (.ofNat entry.2) entry.1.draft with
      | error e => rfl
      | ok next => exact ih next

end ProgramDraft

/-- Assembling a listing performs its steps. -/
theorem Listing.assemble_eq_built (l : Listing) : l.assemble = l.built := by
  have hids := ({ name := l.name } : ProgramDraft).declareAll_ids l.scopes
  rw [built, steps, ProgramDraft.perform_append, ProgramDraft.declareAll_eq, Except.ok_bind,
    ProgramDraft.defineAll_eq]
  simp only [assemble, hids]
  rfl

/-! ## Where listed elements are found -/

def CodeItem.instr? : CodeItem → Option Instr
  | .label _ => none
  | .instr i => some i

/-- The instructions among elements of code, in order. -/
def CodeItem.instrs (code : List CodeItem) : List Instr := code.filterMap CodeItem.instr?

/-- What is declared of a listed scope. -/
def ScopeEntry.header (s : ScopeEntry) : Declaration :=
  ⟨s.name, s.kind, if s.kind = .closure then s.lexicalMethod else none, none⟩

/-- The scope is the listed one: an element of its code is found at the number of instructions that
are listed before it. -/
structure ScopeEntry.Loaded (entry : ScopeEntry) (n : Nat) (s : Scope) : Prop where
  identity : s.id.toNat = n
  name : s.name = entry.name
  kind : s.kind = entry.kind
  lexicalMethod : s.lexicalMethod = if entry.kind = .closure then entry.lexicalMethod else none
  count : s.code.instrs.size = (CodeItem.instrs entry.code).length
  instr : ∀ before i after, entry.code = before ++ .instr i :: after →
    s.code.instrs[(CodeItem.instrs before).length]? = some i
  label : ∀ before l after, entry.code = before ++ .label l :: after →
    s.code.place? l = some (CodeItem.instrs before).length
  realized : ScopeStep.Realized entry.steps s.code

theorem CodeItem.emitted_steps (code : List CodeItem) :
    ScopeStep.emitted (code.map CodeItem.step) = instrs code := by
  have hstep : ScopeStep.emitted? ∘ CodeItem.step = CodeItem.instr? := by
    funext item
    cases item <;> rfl
  rw [ScopeStep.emitted, List.filterMap_map, hstep, instrs]

theorem ScopeEntry.emitted_steps (s : ScopeEntry) :
    ScopeStep.emitted s.steps = CodeItem.instrs s.code := by
  have hregions : ScopeStep.emitted (s.regions.map fun r => .region r.withRescue) = [] := by
    simp [ScopeStep.emitted, ScopeStep.emitted?]
  have hcode := CodeItem.emitted_steps s.code
  rw [ScopeStep.emitted] at hregions hcode ⊢
  rw [steps, List.filterMap_append, hregions, hcode, List.append_nil]

theorem ScopeEntry.placedAt_steps {s : ScopeEntry} {before after : List CodeItem} {l : Label}
    (hcode : s.code = before ++ .label l :: after) :
    ScopeStep.PlacedAt s.steps l (CodeItem.instrs before).length := by
  refine ⟨before.map CodeItem.step, after.map CodeItem.step ++ s.regions.map fun r =>
    .region r.withRescue, ?_, by rw [CodeItem.emitted_steps]⟩
  simp [steps, hcode, CodeItem.step]

theorem ScopeEntry.declaration?_eq (s : ScopeEntry) :
    s.declaration.declaration? = some s.header := by
  obtain ⟨name, kind, method, code, regions⟩ := s
  cases kind <;> cases method <;> rfl

namespace ProgramDraft

theorem after_of_perform {d next : ProgramDraft} {steps : List DraftStep}
    (hperform : d.perform steps = .ok next) : steps.foldl after d = next := by
  induction steps generalizing d with
  | nil => exact Except.ok.inj hperform
  | cons step rest ih =>
      rw [perform_cons] at hperform
      cases hrun : step.perform.run d with
      | error e left =>
          rw [hrun] at hperform
          cases hperform
      | ok _ middle =>
          rw [hrun] at hperform
          have hafter : d.after step = middle := by rw [after, hrun]
          rw [List.foldl_cons, hafter]
          exact ih hperform

/-- Only what a step asks for is defined. -/
theorem define_mem_of_definitions {d : ProgramDraft} {steps : List DraftStep} {id : ScopeId}
    {body : ScopeDraft} (hdefined : (id, body) ∈ d.definitions steps) :
    .define id body ∈ steps := by
  induction steps generalizing d with
  | nil => cases hdefined
  | cons step rest ih =>
      rcases List.mem_append.mp hdefined with hfirst | hrest
      · rw [Option.mem_toList] at hfirst
        cases step with
        | define other code =>
            rcases d.after_define other code with ⟨_, -, -, hsome⟩ | ⟨_, -, -, hnone⟩
            · rw [hsome] at hfirst
              cases hfirst
              exact List.mem_cons_self
            · rw [hnone] at hfirst
              cases hfirst
        | _ => cases hfirst
      · exact List.mem_cons_of_mem _ (ih hrest)

end ProgramDraft

namespace Listing

variable {l : Listing}

theorem declarations_steps (l : Listing) :
    ProgramDraft.declarations l.steps = l.scopes.map ScopeEntry.header := by
  have hdefinition : (l.scopes.zipIdx.map fun (s, n) => s.definition n).filterMap
      DraftStep.declaration? = [] := by
    simp [ScopeEntry.definition, DraftStep.declaration?]
  rw [ProgramDraft.declarations, steps, List.filterMap_append, hdefinition, List.append_nil,
    List.filterMap_map]
  simp [ScopeEntry.declaration?_eq]

/-- A listed scope is defined as it is listed, under the number of its place. -/
theorem exists_of_define_mem {id : ScopeId} {body : ScopeDraft}
    (hdefine : .define id body ∈ l.steps) : ∃ n entry, l.scopes[n]? = some entry ∧
      id = .ofNat n ∧ body = ScopeDraft.ofSteps entry.steps := by
  rcases List.mem_append.mp hdefine with hdeclared | hdefined
  · obtain ⟨entry, -, hentry⟩ := List.mem_map.mp hdeclared
    obtain ⟨name, kind, method, code, regions⟩ := entry
    cases kind <;> cases method <;> cases hentry
  · obtain ⟨⟨entry, n⟩, hentry, hstep⟩ := List.mem_map.mp hdefined
    cases hstep
    exact ⟨n, entry, List.mem_zipIdx_iff_getElem?.mp hentry, rfl, rfl⟩

theorem loaded_of_describes {n : Nat} {entry : ScopeEntry} {s : Scope}
    (hshort : l.scopes.length ≤ UInt32.size) (hentry : l.scopes[n]? = some entry)
    (hdescribes : ProgramDraft.Describes (ProgramDraft.declarations l.steps)
      (ProgramDraft.definitions { name := l.name } l.steps) n s) : entry.Loaded n s := by
  obtain ⟨hid, hdeclared, body, hdefined, hbuild⟩ := hdescribes
  rw [declarations_steps, List.getElem?_map, hentry] at hdeclared
  have hheader := Option.some.inj hdeclared
  simp only [ScopeEntry.header, Declaration.mk.injEq] at hheader
  obtain ⟨hname, hkind, hmethod, -⟩ := hheader
  -- the identity of a definition is its place, as long as places can be told apart
  obtain ⟨m, listed, hlisted, hplace, rfl⟩ :=
    exists_of_define_mem (ProgramDraft.define_mem_of_definitions hdefined)
  have hm : m < UInt32.size := by
    obtain ⟨hlt, -⟩ := List.getElem?_eq_some_iff.mp hlisted
    omega
  obtain rfl : m = n := by
    rw [← hid, hplace, ScopeId.ofNat, ScopeId.toNat, UInt32.toNat_ofNat_of_lt' hm]
  obtain rfl : entry = listed := Option.some.inj (hentry.symm.trans hlisted)
  have hrealized := (ScopeDraft.build_ofSteps_eq_ok hbuild).2
  have hinstrs := hrealized.instrs
  rw [entry.emitted_steps] at hinstrs
  refine ⟨hid, hname.symm, hkind.symm, hmethod.symm, ?_, ?_, ?_, hrealized⟩
  · rw [← Array.length_toList, hinstrs]
  · intro before i after hcode
    rw [← Array.getElem?_toList, hinstrs, hcode]
    simp [CodeItem.instrs, CodeItem.instr?]
  · intro before label after hcode
    exact (hrealized.places label _).mpr (Or.inl (ScopeEntry.placedAt_steps hcode))

theorem length_le_of_complete {defined : List (ScopeId × ScopeDraft)}
    (hcomplete : ∀ n < l.scopes.length, ∃ id body, (id, body) ∈ defined ∧ id.toNat = n) :
    l.scopes.length ≤ UInt32.size := by
  by_contra hlong
  obtain ⟨id, body, -, hid⟩ := hcomplete (UInt32.size) (by omega)
  have hlt : id.toNat < UInt32.size := id.index.toNat_lt
  omega

/-- A listing that is built has its scopes where they are listed, with what is listed of them. -/
theorem built_eq_ok {p : Program} (hbuilt : l.built = .ok p) :
    p.name = l.name ∧ p.root = ⟨l.root⟩ ∧ p.scopes.size = l.scopes.length ∧
      ∀ (n : Nat) entry s, l.scopes[n]? = some entry → p.scopes[n]? = some s →
        entry.Loaded n s := by
  obtain ⟨d, hperform, hfinish⟩ := Except.bind_eq_ok_iff.mp hbuilt
  obtain rfl := ProgramDraft.after_of_perform hperform
  have haccounts := ProgramDraft.ofSteps_accounts l.name l.steps
  have hcomplete := ((haccounts.finish_iff _).mp ⟨p, hfinish⟩).complete
  obtain ⟨hname, hroot, hsize, hscopes⟩ := haccounts.finished hfinish
  rw [declarations_steps, List.length_map] at hcomplete hsize
  refine ⟨hname, hroot, hsize, ?_⟩
  intro n entry s hentry hs
  exact loaded_of_describes (length_le_of_complete hcomplete) hentry (hscopes n s hs)

end Listing

/-- The text holds the JSON of the listing, perhaps without what may be left out of it. -/
def Listing.EncodedBy (l : Listing) (source : String) : Prop :=
  ∃ j, Json.read? nestingLimit source = some j ∧ Json.Abridged l.toJson j

/-- A listing without floats is encoded by its own text, unless it is nested too deep. -/
theorem Listing.encodedBy_write {l : Listing} (hwhole : l.toJson.all Numeral.isWhole = true)
    (hdepth : l.toJson.depth ≤ nestingLimit) : l.EncodedBy l.toJson.write :=
  ⟨l.toJson, read?_write hwhole hdepth, .refl l.toJson (Json.usable_of_all l.toJson hwhole)⟩

theorem Listing.EncodedBy.load_eq {l : Listing} {source : String} (hencoded : l.EncodedBy source) :
    Program.load source = l.built.mapError .build := by
  obtain ⟨j, hread, hj⟩ := hencoded
  rw [Program.load, hread]
  simp only [Program.ofJson, l.reads j hj, Except.ok_bind, l.assemble_eq_built]
  cases l.built <;> rfl

/-- A listing without floats that is not nested too deep is encoded by its text.  Loading any text
that encodes a listing gives the program that the steps of the listing build, or a report about the
error that stops them.  Then every scope stands where it is listed, and every element of its code
where as many instructions are listed before it. -/
theorem loading_agrees_with_building (l : Listing) :
    (l.toJson.all Numeral.isWhole = true → l.toJson.depth ≤ nestingLimit →
      l.EncodedBy l.toJson.write) ∧
    ∀ source, l.EncodedBy source →
      Program.load source = l.built.mapError .build ∧
      (Program.load source).mapError LoadError.report =
        l.built.mapError (fun e => { kind := .build, message := e.message }) ∧
      ∀ p, Program.load source = .ok p →
        p.name = l.name ∧ p.root = ⟨l.root⟩ ∧ p.scopes.size = l.scopes.length ∧
          ∀ (n : Nat) entry s, l.scopes[n]? = some entry → p.scopes[n]? = some s →
            entry.Loaded n s := by
  refine ⟨Listing.encodedBy_write, ?_⟩
  intro source hencoded
  have hload := hencoded.load_eq
  refine ⟨hload, ?_, ?_⟩
  · rw [hload]
    cases l.built <;> rfl
  · intro p hp
    rw [hload] at hp
    cases hbuilt : l.built with
    | ok q =>
        rw [hbuilt] at hp
        cases hp
        exact Listing.built_eq_ok hbuilt
    | error e =>
        rw [hbuilt] at hp
        cases hp

namespace LoadingWitness

/-- A method whose ensure code is all but its first instruction. -/
def entry : ScopeEntry :=
  ⟨"m", .method, none, [.instr .clearPending, .label ⟨3⟩, .instr .resumePending],
    [⟨⟨3⟩, ⟨3⟩, none, some ⟨3⟩⟩]⟩

def listing : Listing := ⟨"unit", 0, [entry]⟩

/-- The listing without what may be left out of it. -/
def json : Json := .record [
  ("name", .text "unit"),
  ("scopes", .list [.record [
    ("name", .text "m"), ("kind", .text "method"),
    ("code", .list [
      .record [("op", .text "clear_pending")], .record [("label", .ofWord 3)],
      .record [("op", .text "resume_pending")]]),
    ("regions", .list [
      .record [("start", .ofWord 3), ("end", .ofWord 3), ("ensure", .ofWord 3)]])]])]

theorem listing_abridged : Json.Abridged listing.toJson json := by
  have hname : "lexical_method" ∈ Json.nullNames ∧ "rescue" ∈ Json.nullNames := by decide
  have hcode : Json.ItemsAbridged (entry.code.map CodeItem.toJson) _ :=
    .cons (.record (.keep (.text _) .nil)) (.cons (.record (.keep (.number _) .nil))
      (.cons (.record (.keep (.text _) .nil)) .nil))
  have hregions : Json.ItemsAbridged (entry.regions.map RegionDraft.toJson) _ :=
    .cons (.record (.keep (.number _) (.keep (.number _) (.drop (.null hname.2)
      (.keep (.number _) .nil))))) .nil
  have hentry : Json.Abridged entry.toJson _ :=
    .record (.keep (.text _) (.keep (.text _) (.drop (.null hname.1) (.keep (.list hcode)
      (.keep (.list hregions) .nil)))))
  exact .record (.keep (.text _) (.drop .zero (.keep (.list (.cons hentry .nil)) .nil)))

def program : Program where
  name := "unit"
  root := ⟨0⟩
  scopes := #[⟨⟨0⟩, "m", .method, none,
    ⟨#[.clearPending, .resumePending], [(⟨3⟩, 1)], [⟨1, 1, some 1, some 1⟩]⟩⟩]

theorem listing_encoded : listing.EncodedBy json.write :=
  ⟨json, Json.read?_write (by decide) (by decide), listing_abridged⟩

/-- The region of ensure code receives raises as well, and its label is found behind the first
instruction. -/
theorem loading_agrees_with_building_ensure :
    listing.EncodedBy listing.toJson.write ∧ listing.EncodedBy json.write ∧
    Program.load json.write = .ok program ∧
    ∀ s, program.scopes[0]? = some s → entry.Loaded 0 s := by
  obtain ⟨hwritten, hencoded⟩ := loading_agrees_with_building listing
  obtain ⟨hload, -, hloaded⟩ := hencoded json.write listing_encoded
  have hprogram : Program.load json.write = .ok program := hload.trans rfl
  obtain ⟨-, -, -, hscopes⟩ := hloaded program hprogram
  exact ⟨hwritten (by decide) (by decide), listing_encoded, hprogram,
    fun s hs => hscopes 0 entry s rfl hs⟩

end LoadingWitness

end Unwind
