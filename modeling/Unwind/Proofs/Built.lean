import Unwind.Listing.Codec

/-!
Programs that were drafted and finished.

`Program.Built` is what drafting operations and a successful finish make; listings describe only
such programs.  Their scopes are identified by position, their handlers are instructions, and
every call names a scope of the right sort.
-/

namespace Unwind

/-! ## Drafts -/

/-- Scope drafts that the operations make from the empty one. -/
inductive ScopeDraft.Drafted : ScopeDraft → Prop
  | empty : Drafted .empty
  | newLabel {d : ScopeDraft} (hd : Drafted d) : Drafted d.newLabel.2
  | place {d : ScopeDraft} (hd : Drafted d) (l : Label) : Drafted (d.place l)
  | emit {d : ScopeDraft} (hd : Drafted d) (i : Instr) : Drafted (d.emit i).2
  | region {d : ScopeDraft} (hd : Drafted d) (r : RegionDraft) : Drafted (d.region r)

/-- Program drafts that the operations make; a definition that fails changes nothing. -/
inductive ProgramDraft.Drafted : ProgramDraft → Prop
  | empty (name : String) : Drafted { name := name }
  | declare {d : ProgramDraft} (hd : Drafted d) (name : String) (kind : ScopeKind) :
      Drafted (d.declare name kind).2
  | declareClosure {d : ProgramDraft} (hd : Drafted d) (name : String) (method : ScopeId) :
      Drafted (d.declareClosure name method).2
  | define {d defined : ProgramDraft} {id : ScopeId} {body : ScopeDraft} (hd : Drafted d)
      (hbody : body.Drafted) (hdefine : d.define id body = .ok defined) : Drafted defined

/-- A program that was drafted and finished. -/
def Program.Built (p : Program) : Prop :=
  ∃ d root, ProgramDraft.Drafted d ∧ d.finish root = .ok p

/-- A program that a listing describes. -/
def Program.Listed (p : Program) : Prop := ∃ l : Listing, l.assemble = .ok p

/-! ## Checks that succeed -/

theorem Except.bind_eq_ok_iff {α β ε : Type} {x : Except ε α} {f : α → Except ε β} {b : β} :
    x >>= f = .ok b ↔ ∃ a, x = .ok a ∧ f a = .ok b := by
  cases x <;> simp [bind, Except.bind]

theorem mapM_eq_ok_iff {α β ε : Type} {f : α → Except ε β} {xs : List α} {ys : List β} :
    xs.mapM f = .ok ys ↔ xs.map f = ys.map .ok := by
  induction xs generalizing ys with
  | nil => cases ys <;> simp [pure, Except.pure]
  | cons x xs ih =>
      rw [List.mapM_cons]
      cases hx : f x with
      | error e => cases ys <;> simp [bind, Except.bind, hx]
      | ok y =>
          cases hxs : xs.mapM f with
          | error e =>
              cases ys with
              | nil => simp [bind, Except.bind]
              | cons z zs =>
                  have hne : xs.map f ≠ zs.map .ok := by
                    rw [Ne, ← ih, hxs]
                    exact nofun
                  simp [bind, Except.bind, hx, hne]
          | ok rest =>
              cases ys with
              | nil => simp [bind, Except.bind, pure, Except.pure]
              | cons z zs =>
                  simp [bind, Except.bind, pure, Except.pure, hx, ← ih, hxs]

theorem exists_of_mapM_eq_ok {α β ε : Type} {f : α → Except ε β} {xs : List α} {ys : List β}
    (hmap : xs.mapM f = .ok ys) {y : β} (hy : y ∈ ys) : ∃ x ∈ xs, f x = .ok y := by
  rw [mapM_eq_ok_iff] at hmap
  have hmem : Except.ok y ∈ xs.map f := by
    rw [hmap]
    exact List.mem_map_of_mem hy
  exact List.mem_map.mp hmem

theorem getElem?_of_mapM_eq_ok {α β ε : Type} {f : α → Except ε β} {xs : List α} {ys : List β}
    (hmap : xs.mapM f = .ok ys) (n : Nat) :
    (xs[n]?).map f = (ys[n]?).map .ok := by
  rw [mapM_eq_ok_iff] at hmap
  rw [← List.getElem?_map, ← List.getElem?_map, hmap]

/-! ## Code -/

theorem ScopeDraft.build_eq {d : ScopeDraft} {scope : String} {code : Code}
    (hbuild : d.build scope = .ok code) :
    ∃ regions, d.regions.mapM (d.resolveRegion scope) = .ok regions ∧
      code = ⟨d.instrs, d.placed, regions⟩ := by
  simp only [ScopeDraft.build, Except.bind_eq_ok_iff] at hbuild
  obtain ⟨_, -, _, -, regions, hregions, hcode⟩ := hbuild
  exact ⟨regions, hregions, (Except.ok.inj hcode).symm⟩

/-- A handler is resolved if it is given, to an instruction. -/
theorem ScopeDraft.resolveHandler_eq {d : ScopeDraft} {scope : String} {label : Option Label}
    {handler : Option Nat} (hresolve : d.resolveHandler scope label = .ok handler) :
    handler.isSome = label.isSome ∧ ∀ pc, handler = some pc → pc < d.instrs.size := by
  unfold ScopeDraft.resolveHandler at hresolve
  split at hresolve
  · cases hresolve
    exact ⟨rfl, nofun⟩
  · split at hresolve
    · cases hresolve
    · split at hresolve
      · rename_i pc _ hpc
        cases hresolve
        exact ⟨rfl, fun _ hsome => Option.some.inj hsome ▸ hpc⟩
      · cases hresolve

theorem ScopeDraft.resolveRegion_eq {d : ScopeDraft} {scope : String} {r : RegionDraft}
    {region : Region} (hresolve : d.resolveRegion scope r = .ok region) :
    region.start ≤ region.stop ∧
      d.resolveHandler scope r.rescue = .ok region.rescuer ∧
      d.resolveHandler scope r.ensure = .ok region.ensurer := by
  simp only [ScopeDraft.resolveRegion, Except.bind_eq_ok_iff] at hresolve
  obtain ⟨start, -, stop, -, hrest⟩ := hresolve
  by_cases horder : stop < start
  · simp [horder, bind, Except.bind, throw, throwThe, MonadExceptOf.throw] at hrest
  · simp only [horder, ↓reduceIte, Except.bind_eq_ok_iff] at hrest
    obtain ⟨rescuer, hrescuer, ensurer, hensurer, hregion⟩ := hrest
    cases hregion
    exact ⟨Nat.le_of_not_lt horder, hrescuer, hensurer⟩

/-- Handlers are instructions of the code. -/
def Code.HandlersPlaced (code : Code) : Prop :=
  ∀ r ∈ code.regions, ∀ pc, r.rescuer = some pc ∨ r.ensurer = some pc → pc < code.length

theorem ScopeDraft.build_handlersPlaced {d : ScopeDraft} {scope : String} {code : Code}
    (hbuild : d.build scope = .ok code) : code.HandlersPlaced := by
  obtain ⟨regions, hregions, rfl⟩ := ScopeDraft.build_eq hbuild
  intro region hregion pc hpc
  obtain ⟨r, -, hresolve⟩ := exists_of_mapM_eq_ok hregions hregion
  obtain ⟨-, hrescuer, hensurer⟩ := ScopeDraft.resolveRegion_eq hresolve
  rcases hpc with hpc | hpc
  · exact (ScopeDraft.resolveHandler_eq hrescuer).2 pc hpc
  · exact (ScopeDraft.resolveHandler_eq hensurer).2 pc hpc

/-! ## Declarations -/

/-- The code of every defined scope was built from a draft of the given sort. -/
def ProgramDraft.CodeFrom (P : ScopeDraft → Prop) (d : ProgramDraft) : Prop :=
  ∀ declared ∈ d.scopes, ∀ code, declared.code = some code →
    ∃ body, P body ∧ body.build declared.name = .ok code

namespace ProgramDraft.CodeFrom

variable {P : ScopeDraft → Prop}

theorem add {d : ProgramDraft} (hd : d.CodeFrom P) {declared : Declaration}
    (hdeclared : declared.code = none) : (d.add declared).2.CodeFrom P := by
  intro other hother code hcode
  rcases Array.mem_push.mp hother with hother | rfl
  · exact hd other hother code hcode
  · rw [hdeclared] at hcode
    cases hcode

theorem define {d defined : ProgramDraft} {id : ScopeId} {body : ScopeDraft}
    (hd : d.CodeFrom P) (hbody : P body) (hdefine : d.define id body = .ok defined) :
    defined.CodeFrom P := by
  unfold ProgramDraft.define at hdefine
  split at hdefine
  · cases hdefine
  · rename_i declared hdeclared
    split at hdefine
    · cases hdefine
    · split at hdefine
      · cases hdefine
      · rename_i built hbuilt
        cases hdefine
        intro other hother code hcode
        rcases Array.mem_or_eq_of_mem_setIfInBounds hother with hother | rfl
        · exact hd other hother code hcode
        · cases hcode
          exact ⟨body, hbody, hbuilt⟩

end ProgramDraft.CodeFrom

theorem ProgramDraft.Drafted.codeFrom {d : ProgramDraft} (hd : d.Drafted) :
    d.CodeFrom ScopeDraft.Drafted := by
  induction hd with
  | empty name => simp [ProgramDraft.CodeFrom]
  | declare _ name kind ih => exact ih.add rfl
  | declareClosure _ name method ih => exact ih.add rfl
  | define _ hbody hdefine ih => exact ih.define hbody hdefine

/-! ## Finished programs -/

theorem ProgramDraft.finish_eq {d : ProgramDraft} {root : ScopeId} {p : Program}
    (hfinish : d.finish root = .ok p) :
    d.checkCallee programScope root .method = .ok () ∧ p.root = root ∧
      d.scopes.toList.zipIdx.mapM (fun entry => d.finishScope entry.1 entry.2) =
        .ok p.scopes.toList := by
  simp only [ProgramDraft.finish, Except.bind_eq_ok_iff] at hfinish
  obtain ⟨_, hroot, scopes, hscopes, hp⟩ := hfinish
  cases hp
  exact ⟨hroot, rfl, hscopes⟩

theorem ProgramDraft.finishScope_eq {d : ProgramDraft} {declared : Declaration} {n : Nat}
    {s : Scope} (hscope : d.finishScope declared n = .ok s) :
    ∃ code, declared.code = some code ∧
      d.checkReferences declared.name code.instrs.toList = .ok () ∧
      s = ⟨.ofNat n, declared.name, declared.kind, declared.lexicalMethod, code⟩ := by
  unfold ProgramDraft.finishScope at hscope
  split at hscope
  · cases hscope
  · rename_i code hcode
    refine ⟨code, hcode, ?_⟩
    cases hmethod : declared.lexicalMethod with
    | none =>
        simp only [hmethod, Except.bind_eq_ok_iff] at hscope
        obtain ⟨_, hchecked, hs⟩ := hscope
        exact ⟨hchecked, (Except.ok.inj hs).symm⟩
    | some method =>
        simp only [hmethod, Except.bind_eq_ok_iff] at hscope
        obtain ⟨_, -, _, hchecked, hs⟩ := hscope
        exact ⟨hchecked, (Except.ok.inj hs).symm⟩

/-- A scope of a finished program stands where it was declared. -/
theorem ProgramDraft.scope?_of_finish {d : ProgramDraft} {root : ScopeId} {p : Program}
    (hfinish : d.finish root = .ok p) (id : ScopeId) :
    (p.scope? id = none ↔ d.scopes[id.toNat]? = none) ∧
      ∀ s, p.scope? id = some s →
        ∃ declared, d.scopes[id.toNat]? = some declared ∧
          d.finishScope declared id.toNat = .ok s := by
  have hmap := getElem?_of_mapM_eq_ok (ProgramDraft.finish_eq hfinish).2.2 id.toNat
  simp only [List.getElem?_zipIdx, Array.getElem?_toList, Nat.zero_add, Option.map_map] at hmap
  unfold Program.scope?
  cases hscope : p.scopes[id.toNat]? with
  | none =>
      cases hdeclared : d.scopes[id.toNat]? with
      | none => simp
      | some declared => simp [hscope, hdeclared] at hmap
  | some s =>
      cases hdeclared : d.scopes[id.toNat]? with
      | none => simp [hscope, hdeclared] at hmap
      | some declared =>
          simp only [hscope, hdeclared, Option.map_some, Function.comp_apply,
            Option.some.injEq] at hmap
          simp [hmap]

theorem ProgramDraft.checkReference_of_checkReferences {d : ProgramDraft} {scope : String}
    {is : List Instr} (hchecked : d.checkReferences scope is = .ok ()) {i : Instr}
    (hi : i ∈ is) : d.checkReference scope i = .ok () := by
  induction is with
  | nil => cases hi
  | cons head rest ih =>
      unfold ProgramDraft.checkReferences at hchecked
      split at hchecked
      · cases hchecked
      · rename_i hhead
        rcases List.mem_cons.mp hi with rfl | hi
        · exact hhead
        · exact ih hchecked hi

/-- A callee that passes the check is a scope of the program, of the expected sort. -/
theorem ProgramDraft.callee_of_finish {d : ProgramDraft} {root : ScopeId} {p : Program}
    (hfinish : d.finish root = .ok p) {scope : String} {target : ScopeId} {expected : Callee}
    (hchecked : d.checkCallee scope target expected = .ok ()) :
    ∃ s, p.scope? target = some s ∧ s.isClosure = (expected == .closure) := by
  cases hdeclared : d.scopes[target.toNat]? with
  | none => simp [ProgramDraft.checkCallee, ProgramDraft.kindOf, hdeclared] at hchecked
  | some declared =>
      have hkind : (declared.kind == .closure) = (expected == .closure) := by
        simp only [ProgramDraft.checkCallee, ProgramDraft.kindOf, hdeclared] at hchecked
        split at hchecked
        · rename_i hsame
          exact eq_of_beq hsame
        · cases hchecked
      obtain ⟨hnone, hsome⟩ := ProgramDraft.scope?_of_finish hfinish target
      cases hscope : p.scope? target with
      | none =>
          rw [hnone.mp hscope] at hdeclared
          cases hdeclared
      | some s =>
          obtain ⟨other, hother, hfinished⟩ := hsome s hscope
          obtain rfl : declared = other := Option.some.inj (hdeclared.symm.trans hother)
          obtain ⟨code, -, -, rfl⟩ := ProgramDraft.finishScope_eq hfinished
          exact ⟨_, rfl, hkind⟩

/-- What runs rely on: scopes are known by their position, handlers are instructions, and calls
name scopes of the right sort, as the root does. -/
structure Program.Sound (p : Program) : Prop where
  identity : ∀ id s, p.scope? id = some s → s.id = id
  handlers : ∀ id s, p.scope? id = some s → s.code.HandlersPlaced
  methods : ∀ id s, p.scope? id = some s → ∀ target args dst,
    .callMethod target args dst ∈ s.code.instrs →
      ∃ t, p.scope? target = some t ∧ t.isClosure = false
  closures : ∀ id s, p.scope? id = some s → ∀ target mode args dst,
    .callClosure target mode args dst ∈ s.code.instrs →
      ∃ t, p.scope? target = some t ∧ t.isClosure = true
  root : ∃ t, p.scope? p.root = some t ∧ t.isClosure = false

theorem Program.Built.sound {p : Program} (hbuilt : p.Built) : p.Sound := by
  obtain ⟨d, root, hdrafted, hfinish⟩ := hbuilt
  have hscope {id : ScopeId} {s : Scope} (hs : p.scope? id = some s) :
      ∃ declared ∈ d.scopes, declared.code = some s.code ∧ s.id = id ∧
        d.checkReferences declared.name s.code.instrs.toList = .ok () := by
    obtain ⟨declared, hdeclared, hfinished⟩ := (d.scope?_of_finish hfinish _).2 s hs
    obtain ⟨code, hcode, hchecked, rfl⟩ := ProgramDraft.finishScope_eq hfinished
    refine ⟨declared, Array.mem_of_getElem? hdeclared, hcode, ?_, hchecked⟩
    simp [ScopeId.ofNat, ScopeId.toNat]
  refine ⟨?_, ?_, ?_, ?_, ?_⟩
  · intro id s hs
    obtain ⟨declared, -, -, hid, -⟩ := hscope hs
    exact hid
  · intro id s hs
    obtain ⟨declared, hdeclared, hcode, -, -⟩ := hscope hs
    obtain ⟨body, -, hbuild⟩ := hdrafted.codeFrom declared hdeclared s.code hcode
    exact ScopeDraft.build_handlersPlaced hbuild
  · intro id s hs target args dst hi
    obtain ⟨declared, -, -, -, hchecked⟩ := hscope hs
    exact d.callee_of_finish hfinish
      (ProgramDraft.checkReference_of_checkReferences hchecked (Array.mem_toList_iff.mpr hi))
  · intro id s hs target mode args dst hi
    obtain ⟨declared, -, -, -, hchecked⟩ := hscope hs
    exact d.callee_of_finish hfinish
      (ProgramDraft.checkReference_of_checkReferences hchecked (Array.mem_toList_iff.mpr hi))
  · obtain ⟨hroot, rfl, -⟩ := ProgramDraft.finish_eq hfinish
    exact d.callee_of_finish hfinish hroot

/-! ## Listed programs -/

theorem ScopeEntry.draft_drafted (s : ScopeEntry) : s.draft.Drafted := by
  have hitems (items : List CodeItem) {d : ScopeDraft} (hd : d.Drafted) :
      (items.foldl ScopeDraft.addItem d).Drafted := by
    induction items generalizing d with
    | nil => exact hd
    | cons item rest ih =>
        cases item with
        | label l => exact ih (hd.place l)
        | instr i => exact ih (hd.emit i)
  have hregions (regions : List RegionDraft) {d : ScopeDraft} (hd : d.Drafted) :
      (regions.foldl ScopeDraft.region d).Drafted := by
    induction regions generalizing d with
    | nil => exact hd
    | cons r rest ih => exact ih (hd.region r)
  exact hregions _ (hitems _ .empty)

/-- A listed scope has the regions that are listed, with rescue code where there is ensure
code. -/
theorem ScopeEntry.draft_regions (s : ScopeEntry) :
    s.draft.regions = s.regions.map RegionDraft.withRescue := by
  have hitems (items : List CodeItem) (d : ScopeDraft) :
      (items.foldl ScopeDraft.addItem d).regions = d.regions := by
    induction items generalizing d with
    | nil => rfl
    | cons item rest ih => cases item <;> exact ih _
  have hregions (regions : List RegionDraft) (d : ScopeDraft) :
      (regions.foldl ScopeDraft.region d).regions = d.regions ++ regions := by
    induction regions generalizing d with
    | nil => simp
    | cons r rest ih => simp [ih, ScopeDraft.region]
  rw [ScopeEntry.draft, hregions, hitems]
  rfl

/-- What is kept by declaring and defining listed scopes holds of the draft of a listing. -/
theorem Listing.draft_of_assemble {Q : ProgramDraft → Prop} {l : Listing} {p : Program}
    (hassemble : l.assemble = .ok p) (hempty : Q { name := l.name })
    (hdeclare : ∀ d (s : ScopeEntry), Q d → Q (d.declareEntry s).2)
    (hdefine : ∀ d id (s : ScopeEntry) defined, Q d → d.define id s.draft = .ok defined →
      Q defined) :
    ∃ d, Q d ∧ d.finish ⟨l.root⟩ = .ok p := by
  have hall (scopes : List ScopeEntry) {d : ProgramDraft} (hd : Q d) :
      Q (d.declareAll scopes).2 := by
    induction scopes generalizing d with
    | nil => exact hd
    | cons s rest ih => exact ih (hdeclare d s hd)
  have hdefined (entries : List (ScopeId × ScopeEntry)) {d defined : ProgramDraft} (hd : Q d)
      (hrun : d.defineAll entries = .ok defined) : Q defined := by
    induction entries generalizing d with
    | nil => exact Except.ok.inj hrun ▸ hd
    | cons entry rest ih =>
        simp only [ProgramDraft.defineAll] at hrun
        split at hrun
        · cases hrun
        · rename_i next hnext
          exact ih (hdefine d entry.1 entry.2 next hd hnext) hrun
  simp only [Listing.assemble, Except.bind_eq_ok_iff] at hassemble
  obtain ⟨d, hd, hfinish⟩ := hassemble
  exact ⟨d, hdefined _ (hall l.scopes hempty) hd, hfinish⟩

/-- Loading gives listed programs only. -/
theorem Program.listed_of_load {source : String} {p : Program}
    (hload : Program.load source = .ok p) : p.Listed := by
  unfold Program.load at hload
  split at hload
  · cases hload
  · simp only [Program.ofJson, Except.bind_eq_ok_iff] at hload
    obtain ⟨l, -, hprogram⟩ := hload
    split at hprogram
    · rename_i described hassemble
      cases hprogram
      exact ⟨l, hassemble⟩
    · cases hprogram

theorem ProgramDraft.Drafted.declareEntry {d : ProgramDraft} (hd : d.Drafted)
    (s : ScopeEntry) : (d.declareEntry s).2.Drafted := by
  unfold ProgramDraft.declareEntry
  split
  · exact hd.declareClosure _ _
  · exact hd.declare _ _

theorem ProgramDraft.CodeFrom.declareEntry {P : ScopeDraft → Prop} {d : ProgramDraft}
    (hd : d.CodeFrom P) (s : ScopeEntry) : (d.declareEntry s).2.CodeFrom P := by
  unfold ProgramDraft.declareEntry
  split <;> exact hd.add rfl

theorem Program.Listed.built {p : Program} (hlisted : p.Listed) : p.Built := by
  obtain ⟨l, hassemble⟩ := hlisted
  obtain ⟨d, hd, hfinish⟩ := Listing.draft_of_assemble (Q := ProgramDraft.Drafted) hassemble
    (.empty l.name) (fun d s hd => hd.declareEntry s)
    (fun d id s defined hd hdefine => hd.define s.draft_drafted hdefine)
  exact ⟨d, ⟨l.root⟩, hd, hfinish⟩

/-- In listed programs the region of every ensure handler has a rescue handler too. -/
theorem Program.Listed.rescuer_of_ensurer {p : Program} (hlisted : p.Listed) {id : ScopeId}
    {s : Scope} (hscope : p.scope? id = some s) {r : Region} (hr : r ∈ s.code.regions)
    (hensurer : r.ensurer.isSome) : r.rescuer.isSome := by
  obtain ⟨l, hassemble⟩ := hlisted
  obtain ⟨d, hd, hfinish⟩ := Listing.draft_of_assemble
    (Q := ProgramDraft.CodeFrom fun body => ∃ entry : ScopeEntry, body = entry.draft)
    hassemble (by simp [ProgramDraft.CodeFrom])
    (fun d s hd => hd.declareEntry s)
    (fun d id s defined hd hdefine => hd.define ⟨s, rfl⟩ hdefine)
  obtain ⟨declared, hdeclared, hfinished⟩ := (d.scope?_of_finish hfinish _).2 s hscope
  obtain ⟨code, hcode, -, rfl⟩ := ProgramDraft.finishScope_eq hfinished
  obtain ⟨_, ⟨entry, rfl⟩, hbuild⟩ := hd declared (Array.mem_of_getElem? hdeclared) code hcode
  obtain ⟨regions, hregions, rfl⟩ := ScopeDraft.build_eq hbuild
  obtain ⟨draft, hdraft, hresolve⟩ := exists_of_mapM_eq_ok hregions hr
  obtain ⟨-, hrescue, hensure⟩ := ScopeDraft.resolveRegion_eq hresolve
  rw [ScopeEntry.draft_regions] at hdraft
  obtain ⟨listed, -, rfl⟩ := List.mem_map.mp hdraft
  rw [(ScopeDraft.resolveHandler_eq hensure).1] at hensurer
  rw [(ScopeDraft.resolveHandler_eq hrescue).1]
  simp only [RegionDraft.withRescue] at hensurer ⊢
  cases hgiven : listed.rescue with
  | none => simpa [hgiven] using hensurer
  | some l => rfl

end Unwind
