import Unwind.Proofs.ScopeBuilding

/-!
Which programs are finished.

A program draft is told what to do step by step, and every step works in place.  What it holds can
be read off the steps: the scopes that they declare, and the definitions among them that succeed.
A definition that fails leaves the draft as it is, and no scope is defined twice.  Finishing
accepts the drafts whose scopes are all defined and refer to one another as they may.
-/

namespace Unwind

/-! ## Steps in place -/

/-- Gives a declared scope its code, in place. -/
def ProgramDraft.defineHere (id : ScopeId) (body : ScopeDraft) :
    EStateM BuildError ProgramDraft Unit := do
  let d ← get
  match d.scopes[id.toNat]? with
  | none => throw (.unknownScope programScope id)
  | some declared =>
      if declared.code.isSome then throw (.alreadyDefined declared.name)
      match body.build declared.name with
      | .error e => throw e
      | .ok code =>
          let defined := { declared with code := some code }
          set { d with scopes := d.scopes.setIfInBounds id.toNat defined }

/-- The declaration without its code. -/
def Declaration.header (declared : Declaration) : Declaration := { declared with code := none }

inductive DraftStep
  | declare (name : String) (kind : ScopeKind)
  | declareClosure (name : String) (method : ScopeId)
  | define (id : ScopeId) (body : ScopeDraft)

def DraftStep.perform : DraftStep → EStateM BuildError ProgramDraft Unit
  | .declare name kind => modify fun d => (d.declare name kind).2
  | .declareClosure name method => modify fun d => (d.declareClosure name method).2
  | .define id body => ProgramDraft.defineHere id body

/-- What a step declares. -/
def DraftStep.declaration? : DraftStep → Option Declaration
  | .declare name kind => some ⟨name, kind, none, none⟩
  | .declareClosure name method => some ⟨name, .closure, some method, none⟩
  | .define _ _ => none

/-- What a step defines, unless it fails. -/
def DraftStep.definition? (d : ProgramDraft) : DraftStep → Option (ScopeId × ScopeDraft)
  | .define id body =>
      match (ProgramDraft.defineHere id body).run d with
      | .ok _ _ => some (id, body)
      | .error _ _ => none
  | _ => none

namespace ProgramDraft

/-- The draft that a step leaves behind, whether it fails or not. -/
def after (d : ProgramDraft) (step : DraftStep) : ProgramDraft :=
  match step.perform.run d with
  | .ok _ next => next
  | .error _ left => left

/-- The program that steps draft. -/
def ofSteps (name : String) (steps : List DraftStep) : ProgramDraft :=
  steps.foldl after { name := name }

/-- What steps declare, in order. -/
def declarations (steps : List DraftStep) : List Declaration :=
  steps.filterMap DraftStep.declaration?

/-- What steps define from a draft on, in order. -/
def definitions (d : ProgramDraft) : List DraftStep → List (ScopeId × ScopeDraft)
  | [] => []
  | step :: rest => (step.definition? d).toList ++ (d.after step).definitions rest

section Defining

variable {d : ProgramDraft} {id : ScopeId} {body : ScopeDraft}

/-- Defining in place changes the draft when it succeeds, and only then. -/
theorem defineHere_run (d : ProgramDraft) (id : ScopeId) (body : ScopeDraft) :
    (defineHere id body).run d =
      match d.define id body with
      | .ok next => .ok () next
      | .error e => .error e d := by
  cases hdeclared : d.scopes[id.toNat]? with
  | none => simp [defineHere, define, hdeclared]
  | some declared =>
      by_cases hcode : declared.code.isSome = true
      · simp [defineHere, define, hdeclared, hcode]
      · cases hbuild : body.build declared.name <;>
          simp [defineHere, define, hdeclared, hcode, hbuild]

theorem eq_of_defineHere_error {e : BuildError} {left : ProgramDraft}
    (herror : (defineHere id body).run d = .error e left) : left = d := by
  rw [defineHere_run] at herror
  cases hdefine : d.define id body with
  | ok next => simp [hdefine] at herror
  | error f =>
      simp only [hdefine, EStateM.Result.error.injEq] at herror
      exact herror.2.symm

/-- A definition succeeds for a scope that is declared and not yet defined, with a body that is
built under its name. -/
theorem define_eq_ok_iff {next : ProgramDraft} :
    d.define id body = .ok next ↔
      ∃ declared code, d.scopes[id.toNat]? = some declared ∧ declared.code = none ∧
        body.build declared.name = .ok code ∧
        next = { d with
          scopes := d.scopes.setIfInBounds id.toNat { declared with code := some code } } := by
  cases hdeclared : d.scopes[id.toNat]? with
  | none => simp [define, hdeclared]
  | some declared =>
      cases hcode : declared.code with
      | some code => simp [define, hdeclared, hcode]
      | none =>
          cases hbuild : body.build declared.name <;>
            simp [define, hdeclared, hcode, hbuild, eq_comm]

theorem after_define (d : ProgramDraft) (id : ScopeId) (body : ScopeDraft) :
    (∃ next, d.define id body = .ok next ∧ d.after (.define id body) = next ∧
        DraftStep.definition? d (.define id body) = some (id, body)) ∨
      ∃ e, d.define id body = .error e ∧ d.after (.define id body) = d ∧
        DraftStep.definition? d (.define id body) = none := by
  simp only [after, DraftStep.perform, DraftStep.definition?, defineHere_run]
  cases d.define id body with
  | ok next => exact Or.inl ⟨next, rfl, rfl, rfl⟩
  | error e => exact Or.inr ⟨e, rfl, rfl, rfl⟩

end Defining

/-! ## What a draft holds -/

/-- The draft holds the given declarations, with code for those that are defined. -/
structure Accounts (d : ProgramDraft) (name : String) (headers : List Declaration)
    (defined : List (ScopeId × ScopeDraft)) : Prop where
  name : d.name = name
  declared : ∀ n : Nat, headers[n]? = d.scopes[n]?.map Declaration.header
  once : (defined.map Prod.fst).Nodup
  built : ∀ id body, (id, body) ∈ defined → ∃ declared code,
    d.scopes[id.toNat]? = some declared ∧ declared.code = some code ∧
      body.build declared.name = .ok code
  account : ∀ (n : Nat) declared, d.scopes[n]? = some declared → declared.code.isSome = true →
    ∃ id body, (id, body) ∈ defined ∧ id.toNat = n

variable {d : ProgramDraft} {name : String} {headers : List Declaration}
  {defined : List (ScopeId × ScopeDraft)}

theorem Accounts.length_eq (hd : d.Accounts name headers defined) :
    headers.length = d.scopes.size := by
  have hnone (n : Nat) : headers.length ≤ n ↔ d.scopes.size ≤ n := by
    rw [← List.getElem?_eq_none_iff, ← Array.getElem?_eq_none_iff, hd.declared,
      Option.map_eq_none_iff]
  exact Nat.le_antisymm ((hnone _).mpr (Nat.le_refl _)) ((hnone _).mp (Nat.le_refl _))

theorem Accounts.add (hd : d.Accounts name headers defined) {declared : Declaration}
    (hcode : declared.code = none) :
    (d.add declared).2.Accounts name (headers ++ [declared]) defined := by
  have hscopes (n : Nat) : (d.add declared).2.scopes[n]? =
      if n = d.scopes.size then some declared else d.scopes[n]? := Array.getElem?_push
  refine ⟨hd.name, ?_, hd.once, ?_, ?_⟩
  · intro n
    rw [hscopes, ← hd.length_eq]
    rcases Nat.lt_trichotomy n headers.length with hbefore | hlast | hbeyond
    · rw [if_neg (Nat.ne_of_lt hbefore), ← hd.declared]
      exact List.getElem?_append_left hbefore
    · simp [hlast, Declaration.header, ← hcode]
    · rw [if_neg (Nat.ne_of_gt hbeyond), ← hd.declared,
        List.getElem?_eq_none (Nat.le_of_lt hbeyond),
        List.getElem?_eq_none (by simpa using Nat.succ_le_of_lt hbeyond)]
  · intro id body hdefined
    obtain ⟨other, code, hother, hbuilt⟩ := hd.built id body hdefined
    obtain ⟨hlt, -⟩ := Array.getElem?_eq_some_iff.mp hother
    exact ⟨other, code, by rw [hscopes, if_neg (Nat.ne_of_lt hlt), hother], hbuilt⟩
  · intro n other hother hsome
    rw [hscopes] at hother
    split at hother
    · cases hother
      simp [hcode] at hsome
    · exact hd.account n other hother hsome

theorem Accounts.undefined (hd : d.Accounts name headers defined) {n : Nat}
    {declared : Declaration} (hdeclared : d.scopes[n]? = some declared)
    (hcode : declared.code = none) (id : ScopeId) (body : ScopeDraft)
    (hdefined : (id, body) ∈ defined) : id.toNat ≠ n := by
  rintro rfl
  obtain ⟨other, code, hother, hsome, -⟩ := hd.built id body hdefined
  obtain rfl : declared = other := Option.some.inj (hdeclared.symm.trans hother)
  rw [hcode] at hsome
  cases hsome

theorem Accounts.define (hd : d.Accounts name headers defined) {id : ScopeId} {body : ScopeDraft}
    {next : ProgramDraft} (hdefine : d.define id body = .ok next) :
    next.Accounts name headers (defined ++ [(id, body)]) := by
  obtain ⟨declared, code, hdeclared, hcode, hbuild, rfl⟩ := define_eq_ok_iff.mp hdefine
  have hnew := hd.undefined hdeclared hcode
  obtain ⟨hlt, -⟩ := Array.getElem?_eq_some_iff.mp hdeclared
  have hscopes (n : Nat) :
      (d.scopes.setIfInBounds id.toNat { declared with code := some code })[n]? =
        if id.toNat = n then some { declared with code := some code } else d.scopes[n]? := by
    rw [Array.getElem?_setIfInBounds, if_pos hlt]
  refine ⟨hd.name, ?_, ?_, ?_, ?_⟩
  · intro n
    rw [hscopes, hd.declared]
    split
    · rename_i hn
      subst hn
      rw [hdeclared]
      rfl
    · rfl
  · rw [List.map_append, List.nodup_append]
    refine ⟨hd.once, by simp, ?_⟩
    intro id' hold new hadded hsame
    obtain ⟨⟨_, other⟩, hother, rfl⟩ := List.mem_map.mp hold
    obtain rfl : new = id := by simpa using hadded
    exact hnew _ other hother (congrArg ScopeId.toNat hsame)
  · intro id' body' hdefined
    rcases List.mem_append.mp hdefined with hold | hnew'
    · obtain ⟨other, code', hother, hbuilt⟩ := hd.built id' body' hold
      refine ⟨other, code', ?_, hbuilt⟩
      rw [hscopes, if_neg (hnew _ _ hold).symm, hother]
    · obtain ⟨rfl, rfl⟩ := Prod.mk.inj (List.mem_singleton.mp hnew')
      exact ⟨{ declared with code := some code }, code, by rw [hscopes, if_pos rfl], rfl, hbuild⟩
  · intro n other hother hsome
    rw [hscopes] at hother
    split at hother
    · rename_i hn
      exact ⟨id, body, by simp, hn⟩
    · obtain ⟨id', body', hold, hn⟩ := hd.account n other hother hsome
      exact ⟨id', body', List.mem_append_left _ hold, hn⟩

/-- One step adds what it declares and what it defines. -/
theorem Accounts.after (hd : d.Accounts name headers defined) (step : DraftStep) :
    (d.after step).Accounts name (headers ++ step.declaration?.toList)
      (defined ++ (step.definition? d).toList) := by
  cases step with
  | declare scope kind =>
      rw [DraftStep.definition?, Option.toList_none, List.append_nil]
      · exact hd.add rfl
      · nofun
  | declareClosure scope method =>
      rw [DraftStep.definition?, Option.toList_none, List.append_nil]
      · exact hd.add rfl
      · nofun
  | define id body =>
      rw [DraftStep.declaration?, Option.toList_none, List.append_nil]
      rcases d.after_define id body with
        ⟨next, hdefine, hafter, hdefinition⟩ | ⟨e, -, hafter, hdefinition⟩
      · rw [hafter, hdefinition]
        exact hd.define hdefine
      · rw [hafter, hdefinition, Option.toList_none, List.append_nil]
        exact hd

theorem Accounts.steps (hd : d.Accounts name headers defined) (steps : List DraftStep) :
    (steps.foldl ProgramDraft.after d).Accounts name (headers ++ declarations steps)
      (defined ++ d.definitions steps) := by
  induction steps generalizing d headers defined with
  | nil => simpa [declarations, definitions] using hd
  | cons step rest ih =>
      have hrest := ih (hd.after step)
      rw [List.append_assoc, List.append_assoc] at hrest
      have hdeclarations :
          declarations (step :: rest) = step.declaration?.toList ++ declarations rest := by
        unfold declarations
        rw [List.filterMap_cons]
        cases step.declaration? <;> rfl
      rw [hdeclarations]
      exact hrest

theorem ofSteps_accounts (name : String) (steps : List DraftStep) :
    (ofSteps name steps).Accounts name (declarations steps)
      (definitions { name := name } steps) := by
  have hempty : Accounts { name := name } name [] [] :=
    ⟨rfl, by simp, List.nodup_nil, by simp, by simp⟩
  exact hempty.steps steps

/-- A definition succeeds for a scope that was declared and not defined before, if the body is
built under its name. -/
theorem Accounts.define_iff (hd : d.Accounts name headers defined) (id : ScopeId)
    (body : ScopeDraft) :
    (∃ next, d.define id body = .ok next) ↔
      (∀ other, (id, other) ∉ defined) ∧
        ∃ h code, headers[id.toNat]? = some h ∧ body.build h.name = .ok code := by
  constructor
  · rintro ⟨next, hdefine⟩
    obtain ⟨declared, code, hdeclared, hcode, hbuild, -⟩ := define_eq_ok_iff.mp hdefine
    refine ⟨fun other hdefined => hd.undefined hdeclared hcode id other hdefined rfl,
      declared.header, code, ?_, hbuild⟩
    rw [hd.declared, hdeclared]
    rfl
  · rintro ⟨hnew, h, code, hheader, hbuild⟩
    rw [hd.declared] at hheader
    obtain ⟨declared, hdeclared, rfl⟩ := Option.map_eq_some_iff.mp hheader
    refine ⟨_, define_eq_ok_iff.mpr ⟨declared, code, hdeclared, ?_, hbuild, rfl⟩⟩
    cases hcode : declared.code with
    | none => rfl
    | some built =>
        obtain ⟨other, body', hdefined, hsame⟩ :=
          hd.account id.toNat declared hdeclared (by rw [hcode]; rfl)
        obtain rfl : other = id := ScopeId.toNat_inj hsame
        exact absurd hdefined (hnew body')

/-! ## Finishing -/

theorem mapM_isOk_iff {α β ε : Type} {f : α → Except ε β} {xs : List α} :
    (∃ ys, xs.mapM f = .ok ys) ↔ ∀ x ∈ xs, ∃ y, f x = .ok y := by
  constructor
  · rintro ⟨ys, hmap⟩ x hx
    rw [mapM_eq_ok_iff] at hmap
    have hmem : f x ∈ ys.map Except.ok := by
      rw [← hmap]
      exact List.mem_map_of_mem hx
    obtain ⟨y, -, hy⟩ := List.mem_map.mp hmem
    exact ⟨y, hy.symm⟩
  · intro hall
    cases hmap : xs.mapM f with
    | ok ys => exact ⟨ys, rfl⟩
    | error e =>
        obtain ⟨x, hx, herror⟩ := exists_of_mapM_eq_error hmap
        obtain ⟨y, hy⟩ := hall x hx
        rw [herror] at hy
        cases hy

theorem finish_isOk_iff (d : ProgramDraft) (root : ScopeId) :
    (∃ p, d.finish root = .ok p) ↔
      d.checkCallee programScope root .method = .ok () ∧
        ∀ (n : Nat) declared, d.scopes[n]? = some declared →
          ∃ s, d.finishScope declared n = .ok s := by
  have hscopes : (∃ scopes, d.scopes.toList.zipIdx.mapM
      (fun entry => d.finishScope entry.1 entry.2) = .ok scopes) ↔
        ∀ (n : Nat) declared, d.scopes[n]? = some declared →
          ∃ s, d.finishScope declared n = .ok s := by
    rw [mapM_isOk_iff]
    constructor
    · intro hall n declared hdeclared
      exact hall (declared, n) (List.mem_zipIdx_iff_getElem?.mpr (by simpa using hdeclared))
    · rintro hall ⟨declared, n⟩ hmem
      exact hall n declared (by simpa using List.mem_zipIdx_iff_getElem?.mp hmem)
  rw [← hscopes]
  constructor
  · rintro ⟨p, hfinish⟩
    obtain ⟨hroot, -, hmap⟩ := finish_eq hfinish
    exact ⟨hroot, _, hmap⟩
  · rintro ⟨hroot, scopes, hmap⟩
    refine ⟨⟨d.name, scopes.toArray, root⟩, ?_⟩
    simp only [finish, Except.bind_eq_ok_iff]
    exact ⟨(), hroot, scopes, hmap, rfl⟩

theorem checkReferences_eq_ok_iff {d : ProgramDraft} {scope : String} {is : List Instr} :
    d.checkReferences scope is = .ok () ↔ ∀ i ∈ is, d.checkReference scope i = .ok () := by
  constructor
  · intro hchecked i hi
    exact checkReference_of_checkReferences hchecked hi
  · intro hall
    induction is with
    | nil => rfl
    | cons i rest ih =>
        rw [checkReferences, hall i List.mem_cons_self]
        exact ih fun j hj => hall j (List.mem_cons_of_mem i hj)

theorem kindOf_isOk_iff {d : ProgramDraft} {scope : String} {target : ScopeId} :
    (∃ kind, d.kindOf scope target = .ok kind) ↔ target.toNat < d.scopes.size := by
  unfold kindOf
  cases hdeclared : d.scopes[target.toNat]? with
  | none => simpa using hdeclared
  | some declared => simpa using (Array.getElem?_eq_some_iff.mp hdeclared).1

theorem discard_kindOf_eq_ok_iff {d : ProgramDraft} {scope : String} {target : ScopeId} :
    discard (d.kindOf scope target) = .ok () ↔ target.toNat < d.scopes.size := by
  rw [← @kindOf_isOk_iff d scope]
  cases d.kindOf scope target with
  | ok kind => exact ⟨fun _ => ⟨kind, rfl⟩, fun _ => rfl⟩
  | error e => exact ⟨nofun, nofun⟩

theorem finishScope_isOk_iff (d : ProgramDraft) (declared : Declaration) (n : Nat) :
    (∃ s, d.finishScope declared n = .ok s) ↔
      ∃ code, declared.code = some code ∧
        (∀ method, declared.lexicalMethod = some method → method.toNat < d.scopes.size) ∧
        ∀ i ∈ code.instrs, d.checkReference declared.name i = .ok () := by
  cases hcode : declared.code with
  | none => simp [finishScope, hcode]
  | some code =>
      have hinstrs : (∀ i ∈ code.instrs, d.checkReference declared.name i = .ok ()) ↔
          d.checkReferences declared.name code.instrs.toList = .ok () := by
        simp [checkReferences_eq_ok_iff]
      rw [finishScope, hcode]
      simp only [Option.some.injEq, exists_eq_left', hinstrs]
      cases hmethod : declared.lexicalMethod with
      | none =>
          constructor
          · rintro ⟨s, hs⟩
            obtain ⟨_, hchecked, -⟩ := Except.bind_eq_ok_iff.mp hs
            exact ⟨nofun, hchecked⟩
          · rintro ⟨-, hchecked⟩
            exact ⟨_, Except.bind_eq_ok_iff.mpr ⟨(), hchecked, rfl⟩⟩
      | some method =>
          constructor
          · rintro ⟨s, hs⟩
            obtain ⟨_, hkind, hrest⟩ := Except.bind_eq_ok_iff.mp hs
            obtain ⟨_, hchecked, -⟩ := Except.bind_eq_ok_iff.mp hrest
            refine ⟨?_, hchecked⟩
            intro target htarget
            cases htarget
            exact discard_kindOf_eq_ok_iff.mp hkind
          · rintro ⟨hlexical, hchecked⟩
            have hkind : discard (d.kindOf declared.name method) = .ok () :=
              discard_kindOf_eq_ok_iff.mpr (hlexical method rfl)
            exact ⟨_, Except.bind_eq_ok_iff.mpr
              ⟨(), hkind, Except.bind_eq_ok_iff.mpr ⟨(), hchecked, rfl⟩⟩⟩

/-! ## References -/

/-- The scope is declared, as one that satisfies the condition. -/
def DeclaredAs (headers : List Declaration) (p : ScopeKind → Prop) (target : ScopeId) : Prop :=
  ∃ h, headers[target.toNat]? = some h ∧ p h.kind

/-- What an instruction refers to is declared, and may be referred to like that. -/
def Refers (headers : List Declaration) : Instr → Prop
  | .callMethod target _ _ => DeclaredAs headers (· ≠ .closure) target
  | .callClosure target _ _ _ => DeclaredAs headers (· = .closure) target
  | .brk _ target => DeclaredAs headers (fun _ => True) target
  | .ret _ (some target) => DeclaredAs headers (fun _ => True) target
  | _ => True

theorem Accounts.declaredAs_iff (hd : d.Accounts name headers defined) (p : ScopeKind → Prop)
    (target : ScopeId) :
    DeclaredAs headers p target ↔ ∃ declared, d.scopes[target.toNat]? = some declared ∧
      p declared.kind := by
  unfold DeclaredAs
  rw [hd.declared]
  cases d.scopes[target.toNat]? <;> simp [Declaration.header]

theorem Accounts.checkCallee_iff (hd : d.Accounts name headers defined) {scope : String}
    {target : ScopeId} {expected : Callee} :
    d.checkCallee scope target expected = .ok () ↔
      DeclaredAs headers (fun kind => kind = .closure ↔ expected = .closure) target := by
  rw [hd.declaredAs_iff, checkCallee, kindOf]
  cases d.scopes[target.toNat]? with
  | none => simp
  | some declared => cases declared.kind <;> cases expected <;> simp

theorem Accounts.checkReference_iff (hd : d.Accounts name headers defined) {scope : String}
    {i : Instr} : d.checkReference scope i = .ok () ↔ Refers headers i := by
  have hdeclared (target : ScopeId) :
      (d.kindOf scope target).map (fun _ => ()) = .ok () ↔
        DeclaredAs headers (fun _ => True) target := by
    rw [hd.declaredAs_iff, kindOf]
    cases d.scopes[target.toNat]? <;> simp [Except.map]
  cases i with
  | callMethod target args dst => simp [checkReference, hd.checkCallee_iff, Refers]
  | callClosure target mode args dst => simp [checkReference, hd.checkCallee_iff, Refers]
  | brk value target => exact hdeclared target
  | ret value method =>
      cases method with
      | none => exact ⟨fun _ => trivial, fun _ => rfl⟩
      | some target => exact hdeclared target
  | _ => exact ⟨fun _ => trivial, fun _ => rfl⟩

/-- Declarations and definitions that can be finished with a root: every scope is defined, and all
that is referred to is declared. -/
structure Finishable (headers : List Declaration) (defined : List (ScopeId × ScopeDraft))
    (root : ScopeId) : Prop where
  root : DeclaredAs headers (· ≠ .closure) root
  complete : ∀ n < headers.length, ∃ id body, (id, body) ∈ defined ∧ id.toNat = n
  lexicalMethods : ∀ h ∈ headers, ∀ method, h.lexicalMethod = some method →
    DeclaredAs headers (fun _ => True) method
  references : ∀ id body, (id, body) ∈ defined → ∀ i ∈ body.instrs, Refers headers i

theorem Accounts.finish_iff (hd : d.Accounts name headers defined) (root : ScopeId) :
    (∃ p, d.finish root = .ok p) ↔ Finishable headers defined root := by
  have hroot : d.checkCallee programScope root .method = .ok () ↔
      DeclaredAs headers (· ≠ .closure) root := by
    simp [hd.checkCallee_iff]
  have hlexical (method : ScopeId) :
      method.toNat < d.scopes.size ↔ DeclaredAs headers (fun _ => True) method := by
    simp [hd.declaredAs_iff, Array.getElem?_eq_some_iff]
  rw [finish_isOk_iff, hroot]
  simp only [finishScope_isOk_iff, hd.checkReference_iff, hlexical]
  constructor
  · rintro ⟨hroot, hscopes⟩
    refine ⟨hroot, ?_, ?_, ?_⟩
    · intro n hn
      rw [hd.length_eq] at hn
      obtain ⟨code, hcode, -⟩ := hscopes n _ (Array.getElem?_eq_getElem hn)
      exact hd.account n _ (Array.getElem?_eq_getElem hn) (by rw [hcode]; rfl)
    · intro h hh method hmethod
      obtain ⟨n, hn⟩ := List.mem_iff_getElem?.mp hh
      rw [hd.declared] at hn
      obtain ⟨declared, hdeclared, rfl⟩ := Option.map_eq_some_iff.mp hn
      obtain ⟨-, -, hmethods, -⟩ := hscopes n declared hdeclared
      exact hmethods method hmethod
    · intro id body hdefined i hi
      obtain ⟨declared, code, hdeclared, hcode, hbuild⟩ := hd.built id body hdefined
      obtain ⟨code', hcode', -, hreferences⟩ := hscopes _ declared hdeclared
      obtain rfl : code = code' := Option.some.inj (hcode.symm.trans hcode')
      obtain ⟨_, -, rfl⟩ := ScopeDraft.build_eq hbuild
      exact hreferences i hi
  · rintro ⟨hroot, hcomplete, hmethods, hreferences⟩
    refine ⟨hroot, ?_⟩
    intro n declared hdeclared
    obtain ⟨hn, -⟩ := Array.getElem?_eq_some_iff.mp hdeclared
    obtain ⟨id, body, hdefined, rfl⟩ := hcomplete n (hd.length_eq ▸ hn)
    obtain ⟨other, code, hother, hcode, hbuild⟩ := hd.built id body hdefined
    obtain rfl : declared = other := Option.some.inj (hdeclared.symm.trans hother)
    refine ⟨code, hcode, ?_, ?_⟩
    · intro method hmethod
      refine hmethods declared.header ?_ method hmethod
      apply List.mem_of_getElem?
      rw [hd.declared, hdeclared]
      rfl
    · obtain ⟨_, -, rfl⟩ := ScopeDraft.build_eq hbuild
      exact hreferences id body hdefined

/-- The scope is the one that was declared with the header and defined once, at its place. -/
structure Describes (headers : List Declaration) (defined : List (ScopeId × ScopeDraft)) (n : Nat)
    (s : Scope) : Prop where
  identity : s.id.toNat = n
  declared : headers[n]? = some ⟨s.name, s.kind, s.lexicalMethod, none⟩
  code : ∃ body, (s.id, body) ∈ defined ∧ body.build s.name = .ok s.code

theorem Accounts.finished (hd : d.Accounts name headers defined) {root : ScopeId} {p : Program}
    (hfinish : d.finish root = .ok p) :
    p.name = name ∧ p.root = root ∧ p.scopes.size = headers.length ∧
      ∀ (n : Nat) s, p.scopes[n]? = some s → Describes headers defined n s := by
  simp only [finish, Except.bind_eq_ok_iff] at hfinish
  obtain ⟨_, -, scopes, hscopes, hp⟩ := hfinish
  cases hp
  refine ⟨hd.name, rfl, ?_, ?_⟩
  · have hsizes := congrArg List.length (mapM_eq_ok_iff.mp hscopes)
    simp only [List.length_map, List.length_zipIdx, Array.length_toList] at hsizes
    rw [hd.length_eq, hsizes, List.size_toArray]
  · intro n s hs
    have hmap := getElem?_of_mapM_eq_ok hscopes n
    rw [List.getElem?_toArray] at hs
    rw [hs, Option.map_some] at hmap
    obtain ⟨⟨declared, m⟩, hentry, hscope⟩ := Option.map_eq_some_iff.mp hmap
    rw [List.getElem?_zipIdx, Array.getElem?_toList, Nat.zero_add] at hentry
    obtain ⟨_, hdeclared, hsame⟩ := Option.map_eq_some_iff.mp hentry
    cases hsame
    obtain ⟨code, hcode, -, rfl⟩ := finishScope_eq hscope
    obtain ⟨id, body, hdefined, rfl⟩ := hd.account n declared hdeclared (by rw [hcode]; rfl)
    obtain ⟨other, code', hother, hcode', hbuild⟩ := hd.built id body hdefined
    obtain rfl : declared = other := Option.some.inj (hdeclared.symm.trans hother)
    obtain rfl : code = code' := Option.some.inj (hcode.symm.trans hcode')
    have hid : ScopeId.ofNat id.toNat = id := by
      simp [ScopeId.ofNat, ScopeId.toNat]
    refine ⟨congrArg ScopeId.toNat hid, ?_, body, ?_, hbuild⟩
    · rw [hd.declared, hdeclared]
      rfl
    · rw [hid]
      exact hdefined

end ProgramDraft

open ProgramDraft

/-- After any steps, a definition that fails leaves the draft as it is, and one succeeds exactly
for a scope that is declared and not yet defined, with a body that is built under its name; so no
scope is defined twice.  The draft is finished exactly when all its scopes are defined and refer to
one another as they may.  The scopes then stand where they were declared, as they were defined. -/
theorem program_building_exact (name : String) (steps : List DraftStep) :
    (∀ id body e left, (DraftStep.define id body).perform.run (ofSteps name steps) =
      .error e left → left = ofSteps name steps) ∧
    (∀ id body,
      (∃ next, (DraftStep.define id body).perform.run (ofSteps name steps) = .ok () next) ↔
        (∀ other, (id, other) ∉ definitions { name := name } steps) ∧
          ∃ h code, (declarations steps)[id.toNat]? = some h ∧ body.build h.name = .ok code) ∧
    ((definitions { name := name } steps).map Prod.fst).Nodup ∧
    ∀ root,
      ((∃ p, (ofSteps name steps).finish root = .ok p) ↔
        Finishable (declarations steps) (definitions { name := name } steps) root) ∧
      ∀ p, (ofSteps name steps).finish root = .ok p →
        p.name = name ∧ p.root = root ∧ p.scopes.size = (declarations steps).length ∧
          ∀ (n : Nat) s, p.scopes[n]? = some s →
            Describes (declarations steps) (definitions { name := name } steps) n s := by
  have hd := ofSteps_accounts name steps
  refine ⟨?_, ?_, hd.once, ?_⟩
  · intro id body e left herror
    exact eq_of_defineHere_error herror
  · intro id body
    rw [← hd.define_iff]
    simp only [DraftStep.perform, defineHere_run]
    cases (ofSteps name steps).define id body <;> simp
  · intro root
    refine ⟨hd.finish_iff root, ?_⟩
    intro p hfinish
    exact hd.finished hfinish

/-- A body that is not built leaves its scope to be defined by a later one, which is the last. -/
example :
    let exiting : ScopeDraft := ScopeDraft.ofSteps [.emit (.jump .exit)]
    let stray : ScopeDraft := ScopeDraft.ofSteps [.emit (.jump ⟨7⟩)]
    ProgramDraft.definitions { name := "twice" } [.declare "m" .method, .define ⟨0⟩ stray,
      .define ⟨0⟩ exiting, .define ⟨0⟩ exiting] = [(⟨0⟩, exiting)] := by
  decide

end Unwind
