import Mathlib.Data.List.Duplicate
import Mathlib.Data.List.Forall2
import Mathlib.Data.List.Induction
import Unwind.Proofs.Validation

/-!
Which scopes are built.

Everything that building asks about can be read off the steps that drafted a scope: a label is
placed where as many instructions have been emitted as there are before it.  Building accepts the
well-formed sequences of steps and no others, and an error names a fault that the steps have.
-/

namespace Unwind

/-! ## Steps -/

inductive ScopeStep
  | place (l : Label)
  | emit (i : Instr)
  | region (r : RegionDraft)

def ScopeDraft.step (d : ScopeDraft) : ScopeStep → ScopeDraft
  | .place l => d.place l
  | .emit i => (d.emit i).2
  | .region r => d.region r

/-- The scope that steps draft, from the empty one. -/
def ScopeDraft.ofSteps (steps : List ScopeStep) : ScopeDraft :=
  steps.foldl ScopeDraft.step .empty

namespace ScopeStep

def emitted? : ScopeStep → Option Instr
  | .emit i => some i
  | _ => none

def label? : ScopeStep → Option Label
  | .place l => some l
  | _ => none

def region? : ScopeStep → Option RegionDraft
  | .region r => some r
  | _ => none

/-- The emitted instructions, in order. -/
def emitted (steps : List ScopeStep) : List Instr := steps.filterMap emitted?

/-- The placed labels, in order. -/
def labels (steps : List ScopeStep) : List Label := steps.filterMap label?

/-- The regions, in order. -/
def regions (steps : List ScopeStep) : List RegionDraft := steps.filterMap region?

/-- The label is placed where `pc` instructions have been emitted. -/
def PlacedAt (steps : List ScopeStep) (l : Label) (pc : Nat) : Prop :=
  ∃ before after, steps = before ++ .place l :: after ∧ (emitted before).length = pc

theorem emitted_concat (steps : List ScopeStep) (step : ScopeStep) :
    emitted (steps ++ [step]) = emitted steps ++ step.emitted?.toList := by
  cases step <;> simp [emitted, emitted?]

theorem labels_concat (steps : List ScopeStep) (step : ScopeStep) :
    labels (steps ++ [step]) = labels steps ++ step.label?.toList := by
  cases step <;> simp [labels, label?]

theorem regions_concat (steps : List ScopeStep) (step : ScopeStep) :
    regions (steps ++ [step]) = regions steps ++ step.region?.toList := by
  cases step <;> simp [regions, region?]

variable {steps : List ScopeStep}

theorem mem_filterMap_iff {α : Type} {read : ScopeStep → Option α} {make : α → ScopeStep}
    (hread : ∀ step x, read step = some x ↔ step = make x) {x : α} :
    x ∈ steps.filterMap read ↔ make x ∈ steps := by
  simp [List.mem_filterMap, hread]

theorem mem_emitted {i : Instr} : i ∈ emitted steps ↔ .emit i ∈ steps := by
  apply mem_filterMap_iff
  intro step i
  cases step <;> simp [emitted?]

theorem mem_labels {l : Label} : l ∈ labels steps ↔ .place l ∈ steps := by
  apply mem_filterMap_iff
  intro step l
  cases step <;> simp [label?]

theorem mem_regions {r : RegionDraft} : r ∈ regions steps ↔ .region r ∈ steps := by
  apply mem_filterMap_iff
  intro step r
  cases step <;> simp [region?]

theorem PlacedAt.mem {l : Label} {pc : Nat} (hplaced : PlacedAt steps l pc) :
    .place l ∈ steps := by
  obtain ⟨before, after, rfl, -⟩ := hplaced
  simp

theorem exists_placedAt {l : Label} (hl : .place l ∈ steps) : ∃ pc, PlacedAt steps l pc := by
  obtain ⟨before, after, hsteps⟩ := List.append_of_mem hl
  exact ⟨_, before, after, hsteps, rfl⟩

theorem placedAt_concat (steps : List ScopeStep) (step : ScopeStep) (l : Label) (pc : Nat) :
    PlacedAt (steps ++ [step]) l pc ↔
      PlacedAt steps l pc ∨ step = .place l ∧ (emitted steps).length = pc := by
  constructor
  · rintro ⟨before, after, hsteps, hpc⟩
    rcases List.eq_nil_or_concat after with rfl | ⟨rest, last, rfl⟩
    · obtain ⟨rfl, hlast⟩ := List.append_inj' hsteps rfl
      exact Or.inr ⟨List.head_eq_of_cons_eq hlast, hpc⟩
    · have hsplit : steps ++ [step] = (before ++ .place l :: rest) ++ [last] := by
        rw [hsteps]
        simp
      obtain ⟨rfl, -⟩ := List.append_inj' hsplit rfl
      exact Or.inl ⟨before, rest, rfl, hpc⟩
  · rintro (⟨before, after, rfl, hpc⟩ | ⟨rfl, hpc⟩)
    · exact ⟨before, after ++ [step], by simp, hpc⟩
    · exact ⟨steps, [], rfl, hpc⟩

end ScopeStep

open ScopeStep

theorem ScopeDraft.ofSteps_concat (steps : List ScopeStep) (step : ScopeStep) :
    ofSteps (steps ++ [step]) = (ofSteps steps).step step := by
  simp [ofSteps]

theorem ScopeDraft.ofSteps_instrs (steps : List ScopeStep) :
    (ofSteps steps).instrs = (emitted steps).toArray := by
  induction steps using List.reverseRecOn with
  | nil => rfl
  | append_singleton steps step ih =>
      rw [ofSteps_concat, emitted_concat]
      cases step with
      | emit i => simp [ScopeDraft.step, emit, ih, emitted?]
      | _ => simpa [ScopeDraft.step, place, region, emitted?] using ih

theorem ScopeDraft.ofSteps_regions (steps : List ScopeStep) :
    (ofSteps steps).regions = ScopeStep.regions steps := by
  induction steps using List.reverseRecOn with
  | nil => rfl
  | append_singleton steps step ih =>
      rw [ofSteps_concat, regions_concat]
      cases step with
      | region r => simp [ScopeDraft.step, region, ih, region?]
      | _ => simpa [ScopeDraft.step, place, emit, region?] using ih

theorem ScopeDraft.step_labels (d : ScopeDraft) (step : ScopeStep) :
    (d.step step).placed.map Prod.fst = d.placed.map Prod.fst ++ step.label?.toList := by
  cases step <;> simp [ScopeDraft.step, place, emit, region, label?]

theorem ScopeDraft.ofSteps_labels (steps : List ScopeStep) :
    (ofSteps steps).placed.map Prod.fst = labels steps := by
  induction steps using List.reverseRecOn with
  | nil => rfl
  | append_singleton steps step ih => rw [ofSteps_concat, labels_concat, step_labels, ih]

theorem ScopeDraft.mem_ofSteps_placed (steps : List ScopeStep) (l : Label) (pc : Nat) :
    (l, pc) ∈ (ofSteps steps).placed ↔ PlacedAt steps l pc := by
  induction steps using List.reverseRecOn with
  | nil => simp [ofSteps, empty, PlacedAt]
  | append_singleton steps step ih =>
      rw [ofSteps_concat, placedAt_concat, ← ih]
      cases step with
      | place m => simp [ScopeDraft.step, place, ofSteps_instrs, eq_comm]
      | _ => simp [ScopeDraft.step, emit, region]

/-! ## Registers -/

/-- The register occurs in the instruction, as an operand or as the one that is written. -/
inductive Instr.Mentions (r : Reg) : Instr → Prop
  | loadConst (v : Value) : Mentions r (.loadConst v r)
  | copyFrom (dst : Reg) : Mentions r (.copy (.reg r) dst)
  | copyTo (src : Operand) : Mentions r (.copy src r)
  | binaryLeft (op : BinaryOp) (rhs : Operand) (dst : Reg) :
      Mentions r (.binary op (.reg r) rhs dst)
  | binaryRight (op : BinaryOp) (lhs : Operand) (dst : Reg) :
      Mentions r (.binary op lhs (.reg r) dst)
  | binaryTo (op : BinaryOp) (lhs rhs : Operand) : Mentions r (.binary op lhs rhs r)
  | branch (truthy : Bool) (target : Label) : Mentions r (.branch truthy (.reg r) target)
  | ret (method : Option ScopeId) : Mentions r (.ret (.reg r) method)
  | brk (target : ScopeId) : Mentions r (.brk (.reg r) target)
  | raise : Mentions r (.raise (.reg r))
  | receiveException : Mentions r (.receiveException r)
  | methodArgument (method : ScopeId) {args : List Operand} (dst : Option Reg)
      (hr : .reg r ∈ args) : Mentions r (.callMethod method args dst)
  | methodResult (method : ScopeId) (args : List Operand) :
      Mentions r (.callMethod method args (some r))
  | closureArgument (closure : ScopeId) (mode : BlockMode) {args : List Operand}
      (dst : Option Reg) (hr : .reg r ∈ args) : Mentions r (.callClosure closure mode args dst)
  | closureResult (closure : ScopeId) (mode : BlockMode) (args : List Operand) :
      Mentions r (.callClosure closure mode args (some r))

theorem Operand.mem_filterMap_reg? {r : Reg} {os : List Operand} :
    r ∈ os.filterMap Operand.reg? ↔ .reg r ∈ os := by
  have hreg (o : Operand) : o.reg? = some r ↔ o = .reg r := by
    cases o <;> simp [reg?]
  simp [List.mem_filterMap, hreg]

theorem Instr.mentions_iff {r : Reg} {i : Instr} : i.Mentions r ↔ r ∈ i.registers := by
  rw [registers, List.mem_append, Operand.mem_filterMap_reg?, Option.mem_toList]
  constructor
  · intro hmentions
    cases hmentions <;> simp [operands, resultSlot?, *]
  · rintro (hread | hwritten)
    · cases i <;> simp only [operands, List.mem_cons, List.not_mem_nil, or_false] at hread
      case copy src dst => exact hread ▸ .copyFrom dst
      case binary op lhs rhs dst =>
        rcases hread with rfl | rfl
        · exact .binaryLeft op rhs dst
        · exact .binaryRight op lhs dst
      case branch truthy cond target => exact hread ▸ .branch truthy target
      case ret value method => exact hread ▸ .ret method
      case brk value target => exact hread ▸ .brk target
      case raise value => exact hread ▸ .raise
      case callMethod method args dst => exact .methodArgument method dst hread
      case callClosure closure mode args dst => exact .closureArgument closure mode dst hread
    · cases i <;> simp only [resultSlot?, Option.some.injEq, reduceCtorEq] at hwritten
      case loadConst v dst => exact hwritten ▸ .loadConst v
      case copy src dst => exact hwritten ▸ .copyTo src
      case binary op lhs rhs dst => exact hwritten ▸ .binaryTo op lhs rhs
      case receiveException dst => exact hwritten ▸ .receiveException
      case callMethod method args dst => exact hwritten ▸ .methodResult method args
      case callClosure closure mode args dst => exact hwritten ▸ .closureResult closure mode args

/-! ## Well-formed steps -/

/-- The label is a handler of the region. -/
def RegionDraft.Handles (r : RegionDraft) (l : Label) : Prop :=
  r.rescue = some l ∨ r.ensure = some l

/-- The region does not end before it starts, and its handlers are instructions. -/
structure RegionDraft.Placed (steps : List ScopeStep) (r : RegionDraft) : Prop where
  ordered : ∃ start stop, PlacedAt steps r.start start ∧ PlacedAt steps r.stop stop ∧ start ≤ stop
  handled : ∀ l, r.Handles l → ∃ pc, PlacedAt steps l pc ∧ pc < (emitted steps).length

structure ScopeStep.WellFormed (steps : List ScopeStep) : Prop where
  exitFree : .place .exit ∉ steps
  once : (labels steps).Nodup
  registers : ∀ i, .emit i ∈ steps → ∀ r, i.Mentions r → r.toNat < registerLimit
  branches : ∀ i, .emit i ∈ steps → ∀ l, i.branchTarget? = some l → l = .exit ∨ .place l ∈ steps
  regions : ∀ r, .region r ∈ steps → r.Placed steps

/-- The fault that an error names is one that the steps have. -/
inductive ScopeStep.Fault (scope : String) (steps : List ScopeStep) : BuildError → Prop
  | reservedLabel (hexit : .place .exit ∈ steps) : Fault scope steps (.reservedLabel scope)
  | duplicateLabel {l : Label} (htwice : (labels steps).Duplicate l) :
      Fault scope steps (.duplicateLabel scope l)
  | registerOutOfRange {i : Instr} {r : Reg} (hi : .emit i ∈ steps) (hr : i.Mentions r)
      (hlimit : registerLimit ≤ r.toNat) : Fault scope steps (.registerOutOfRange scope r)
  | undefinedTarget {i : Instr} {l : Label} (hi : .emit i ∈ steps)
      (htarget : i.branchTarget? = some l) (hexit : l ≠ .exit) (hunplaced : .place l ∉ steps) :
      Fault scope steps (.undefinedLabel scope l)
  | undefinedBound {r : RegionDraft} {l : Label} (hr : .region r ∈ steps)
      (hbound : l = r.start ∨ l = r.stop) (hunplaced : .place l ∉ steps) :
      Fault scope steps (.undefinedLabel scope l)
  | undefinedHandler {r : RegionDraft} {l : Label} (hr : .region r ∈ steps) (hl : r.Handles l)
      (hunplaced : .place l ∉ steps) : Fault scope steps (.undefinedLabel scope l)
  | invalidRegion {r : RegionDraft} {start stop : Nat} (hr : .region r ∈ steps)
      (hstart : PlacedAt steps r.start start) (hstop : PlacedAt steps r.stop stop)
      (horder : stop < start) : Fault scope steps (.invalidRegion scope r.start r.stop)
  | handlerOutOfRange {r : RegionDraft} {l : Label} {pc : Nat} (hr : .region r ∈ steps)
      (hl : r.Handles l) (hplaced : PlacedAt steps l pc) (hend : (emitted steps).length ≤ pc) :
      Fault scope steps (.handlerOutOfRange scope l)

section Resolving

variable {steps : List ScopeStep} {scope : String}

theorem ScopeStep.PlacedAt.unique {l : Label} {pc other : Nat} (honce : (labels steps).Nodup)
    (hplaced : PlacedAt steps l pc) (hother : PlacedAt steps l other) : pc = other := by
  rw [← ScopeDraft.mem_ofSteps_placed] at hplaced hother
  rw [← ScopeDraft.ofSteps_labels] at honce
  exact congrArg Prod.snd (List.inj_on_of_nodup_map honce hplaced hother rfl)

/-- Steps that have a fault are not well-formed. -/
theorem ScopeStep.Fault.not_wellFormed {e : BuildError} (hfault : Fault scope steps e) :
    ¬ WellFormed steps := by
  intro hwell
  cases hfault with
  | reservedLabel hexit => exact hwell.exitFree hexit
  | duplicateLabel htwice => exact htwice.not_nodup hwell.once
  | registerOutOfRange hi hr hlimit =>
      exact Nat.not_lt_of_le hlimit (hwell.registers _ hi _ hr)
  | undefinedTarget hi htarget hexit hunplaced =>
      rcases hwell.branches _ hi _ htarget with hsame | hplaced
      · exact hexit hsame
      · exact hunplaced hplaced
  | undefinedBound hr hbound hunplaced =>
      obtain ⟨start, stop, hstart, hstop, -⟩ := (hwell.regions _ hr).ordered
      rcases hbound with rfl | rfl
      · exact hunplaced hstart.mem
      · exact hunplaced hstop.mem
  | undefinedHandler hr hl hunplaced =>
      obtain ⟨pc, hplaced, -⟩ := (hwell.regions _ hr).handled _ hl
      exact hunplaced hplaced.mem
  | invalidRegion hr hstart hstop horder =>
      obtain ⟨start, stop, hstart', hstop', hle⟩ := (hwell.regions _ hr).ordered
      obtain rfl := hstart.unique hwell.once hstart'
      obtain rfl := hstop.unique hwell.once hstop'
      exact Nat.not_lt_of_le hle horder
  | handlerOutOfRange hr hl hplaced hend =>
      obtain ⟨pc, hplaced', hlt⟩ := (hwell.regions _ hr).handled _ hl
      obtain rfl := hplaced.unique hwell.once hplaced'
      exact Nat.not_lt_of_le hend hlt

theorem ScopeDraft.placedAt_of_lookup {l : Label} {pc : Nat}
    (hlookup : (ofSteps steps).placed.lookup l = some pc) : PlacedAt steps l pc := by
  obtain ⟨before, after, hplaced, -⟩ := List.lookup_eq_some_iff.mp hlookup
  rw [← mem_ofSteps_placed, hplaced]
  simp

theorem ScopeDraft.unplaced_of_lookup {l : Label}
    (hlookup : (ofSteps steps).placed.lookup l = none) : .place l ∉ steps := by
  intro hl
  obtain ⟨pc, hplaced⟩ := exists_placedAt hl
  rw [← mem_ofSteps_placed] at hplaced
  simpa using List.lookup_eq_none_iff.mp hlookup _ hplaced

/-- A label that is placed once is found where it is placed. -/
theorem ScopeDraft.lookup_ofSteps_placed (honce : (labels steps).Nodup) {l : Label} {pc : Nat} :
    (ofSteps steps).placed.lookup l = some pc ↔ PlacedAt steps l pc := by
  constructor
  · exact placedAt_of_lookup
  · intro hplaced
    cases hlookup : (ofSteps steps).placed.lookup l with
    | some place => rw [(placedAt_of_lookup hlookup).unique honce hplaced]
    | none => exact absurd hplaced.mem (unplaced_of_lookup hlookup)

/-! ## What building checks -/

theorem checkPlaced_eq_ok {before : List Label} {placed : List (Label × Nat)}
    (hchecked : checkPlaced scope before placed = .ok ()) :
    .exit ∉ placed.map Prod.fst ∧ (placed.map Prod.fst).Nodup ∧
      ∀ l ∈ placed.map Prod.fst, l ∉ before := by
  induction placed generalizing before with
  | nil => simp
  | cons entry rest ih =>
      by_cases hexit : entry.1 = .exit
      · simp [checkPlaced, hexit] at hchecked
      · by_cases hbefore : entry.1 ∈ before
        · simp [checkPlaced, hexit, hbefore] at hchecked
        · simp only [checkPlaced, hexit, hbefore, ↓reduceIte] at hchecked
          obtain ⟨hexits, honce, hfresh⟩ := ih hchecked
          simp only [List.map_cons, List.mem_cons, not_or, List.nodup_cons]
          refine ⟨⟨Ne.symm hexit, hexits⟩, ⟨?_, honce⟩, ?_⟩
          · intro hagain
            exact hfresh _ hagain List.mem_cons_self
          · rintro l (rfl | hl)
            · exact hbefore
            · intro hmem
              exact hfresh l hl (List.mem_cons_of_mem _ hmem)

theorem checkPlaced_eq_error {before : List Label} {placed : List (Label × Nat)} {e : BuildError}
    (hchecked : checkPlaced scope before placed = .error e) :
    (e = .reservedLabel scope ∧ .exit ∈ placed.map Prod.fst) ∨
      ∃ l, e = .duplicateLabel scope l ∧ l ∈ placed.map Prod.fst ∧
        (l ∈ before ∨ (placed.map Prod.fst).Duplicate l) := by
  induction placed generalizing before with
  | nil => cases hchecked
  | cons entry rest ih =>
      by_cases hexit : entry.1 = .exit
      · simp only [checkPlaced, hexit, ↓reduceIte] at hchecked
        left
        exact ⟨(Except.error.inj hchecked).symm, by simp [hexit]⟩
      · by_cases hbefore : entry.1 ∈ before
        · simp only [checkPlaced, hexit, hbefore, ↓reduceIte] at hchecked
          right
          exact ⟨entry.1, (Except.error.inj hchecked).symm, List.mem_cons_self, Or.inl hbefore⟩
        · simp only [checkPlaced, hexit, hbefore, ↓reduceIte] at hchecked
          rcases ih hchecked with ⟨he, hmem⟩ | ⟨l, he, hl, hagain⟩
          · exact Or.inl ⟨he, List.mem_cons_of_mem _ hmem⟩
          · right
            refine ⟨l, he, List.mem_cons_of_mem _ hl, ?_⟩
            rcases hagain with hmem | htwice
            · rcases List.mem_cons.mp hmem with rfl | hmem
              · exact Or.inr (List.Mem.duplicate_cons_self hl)
              · exact Or.inl hmem
            · exact Or.inr (htwice.duplicate_cons _)

/-- A label resolves to where it is placed. -/
theorem ScopeDraft.resolve_ofSteps_eq_ok {l : Label} {pc : Nat}
    (hresolve : (ofSteps steps).resolve scope l = .ok pc) : PlacedAt steps l pc := by
  unfold resolve at hresolve
  split at hresolve
  · rename_i place hplace
    cases hresolve
    exact placedAt_of_lookup hplace
  · cases hresolve

theorem ScopeDraft.resolve_ofSteps_eq_error {l : Label} {e : BuildError}
    (hresolve : (ofSteps steps).resolve scope l = .error e) :
    e = .undefinedLabel scope l ∧ .place l ∉ steps := by
  unfold resolve at hresolve
  split at hresolve
  · cases hresolve
  · rename_i hnone
    exact ⟨(Except.error.inj hresolve).symm, unplaced_of_lookup hnone⟩

theorem ScopeDraft.checkInstr_ofSteps_eq_ok {i : Instr}
    (hchecked : (ofSteps steps).checkInstr scope i = .ok ()) :
    (∀ r, i.Mentions r → r.toNat < registerLimit) ∧
      ∀ l, i.branchTarget? = some l → l = .exit ∨ .place l ∈ steps := by
  unfold checkInstr at hchecked
  split at hchecked
  · cases hchecked
  · rename_i hnone
    constructor
    · intro r hr
      simpa using List.find?_eq_none.mp hnone r (Instr.mentions_iff.mp hr)
    · intro l htarget
      simp only [htarget] at hchecked
      by_cases hexit : l = .exit
      · exact Or.inl hexit
      · right
        simp only [hexit, ↓reduceIte] at hchecked
        cases hresolve : (ofSteps steps).resolve scope l with
        | ok pc => exact (resolve_ofSteps_eq_ok hresolve).mem
        | error e =>
            rw [hresolve] at hchecked
            cases hchecked

theorem ScopeDraft.checkInstr_ofSteps_eq_error {i : Instr} (hi : .emit i ∈ steps) {e : BuildError}
    (hchecked : (ofSteps steps).checkInstr scope i = .error e) : Fault scope steps e := by
  unfold checkInstr at hchecked
  split at hchecked
  · rename_i r hr
    cases hchecked
    have hlimit : registerLimit ≤ r.toNat := by simpa using List.find?_some hr
    exact .registerOutOfRange hi (Instr.mentions_iff.mpr (List.mem_of_find?_eq_some hr)) hlimit
  · split at hchecked
    · cases hchecked
    · rename_i l htarget
      by_cases hexit : l = .exit
      · simp [hexit] at hchecked
      · simp only [hexit, ↓reduceIte] at hchecked
        cases hresolve : (ofSteps steps).resolve scope l with
        | ok pc =>
            rw [hresolve] at hchecked
            cases hchecked
        | error f =>
            rw [hresolve] at hchecked
            cases hchecked
            obtain ⟨rfl, hunplaced⟩ := resolve_ofSteps_eq_error hresolve
            exact .undefinedTarget hi htarget hexit hunplaced

/-- The first refusal among the instructions is that of one of them. -/
theorem ScopeDraft.exists_of_checkInstrs_eq_error {d : ScopeDraft} {is : List Instr}
    {e : BuildError} (hchecked : d.checkInstrs scope is = .error e) :
    ∃ i ∈ is, d.checkInstr scope i = .error e := by
  induction is with
  | nil => cases hchecked
  | cons i rest ih =>
      unfold checkInstrs at hchecked
      split at hchecked
      · rename_i f hhead
        cases hchecked
        exact ⟨i, List.mem_cons_self, hhead⟩
      · obtain ⟨j, hj, herror⟩ := ih hchecked
        exact ⟨j, List.mem_cons_of_mem i hj, herror⟩

/-- A handler resolves to where it is placed, which is an instruction. -/
theorem ScopeDraft.resolveHandler_ofSteps_eq_ok {label : Option Label} {handler : Option Nat}
    (hresolve : (ofSteps steps).resolveHandler scope label = .ok handler) :
    Option.Rel (PlacedAt steps) label handler ∧
      ∀ l, label = some l → ∃ pc, PlacedAt steps l pc ∧ pc < (emitted steps).length := by
  unfold resolveHandler at hresolve
  split at hresolve
  · cases hresolve
    exact ⟨.none, nofun⟩
  · split at hresolve
    · cases hresolve
    · rename_i pc hpc
      split at hresolve
      · rename_i hend
        cases hresolve
        have hplaced := resolve_ofSteps_eq_ok hpc
        rw [ofSteps_instrs, List.size_toArray] at hend
        refine ⟨.some hplaced, ?_⟩
        intro l hl
        cases hl
        exact ⟨pc, hplaced, hend⟩
      · cases hresolve

theorem ScopeDraft.resolveHandler_ofSteps_eq_error {r : RegionDraft} (hr : .region r ∈ steps)
    {label : Option Label} (hlabel : ∀ l, label = some l → r.Handles l) {e : BuildError}
    (hresolve : (ofSteps steps).resolveHandler scope label = .error e) : Fault scope steps e := by
  unfold resolveHandler at hresolve
  split at hresolve
  · cases hresolve
  · rename_i l
    split at hresolve
    · rename_i f hf
      cases hresolve
      obtain ⟨rfl, hunplaced⟩ := resolve_ofSteps_eq_error hf
      exact .undefinedHandler hr (hlabel l rfl) hunplaced
    · rename_i pc hpc
      split at hresolve
      · cases hresolve
      · rename_i hend
        cases hresolve
        rw [ofSteps_instrs, List.size_toArray, Nat.not_lt] at hend
        exact .handlerOutOfRange hr (hlabel l rfl) (resolve_ofSteps_eq_ok hpc) hend

/-- The region is the drafted one, with places for labels. -/
structure RegionDraft.ResolvesTo (steps : List ScopeStep) (r : RegionDraft) (region : Region) :
    Prop where
  start : PlacedAt steps r.start region.start
  stop : PlacedAt steps r.stop region.stop
  rescuer : Option.Rel (PlacedAt steps) r.rescue region.rescuer
  ensurer : Option.Rel (PlacedAt steps) r.ensure region.ensurer

theorem ScopeDraft.resolveRegion_ofSteps_eq_ok {r : RegionDraft} {region : Region}
    (hresolve : (ofSteps steps).resolveRegion scope r = .ok region) :
    r.ResolvesTo steps region ∧ r.Placed steps := by
  have horder := (resolveRegion_eq hresolve).1
  simp only [resolveRegion, Except.bind_eq_ok_iff] at hresolve
  obtain ⟨start, hstart, stop, hstop, hrest⟩ := hresolve
  have hstart := resolve_ofSteps_eq_ok hstart
  have hstop := resolve_ofSteps_eq_ok hstop
  by_cases hreversed : stop < start
  · simp [hreversed, bind, Except.bind, throw, throwThe, MonadExceptOf.throw] at hrest
  · simp only [hreversed, ↓reduceIte, Except.bind_eq_ok_iff] at hrest
    obtain ⟨rescuer, hrescuer, ensurer, hensurer, hregion⟩ := hrest
    cases hregion
    obtain ⟨hrescuer, hrescued⟩ := resolveHandler_ofSteps_eq_ok hrescuer
    obtain ⟨hensurer, hensured⟩ := resolveHandler_ofSteps_eq_ok hensurer
    refine ⟨⟨hstart, hstop, hrescuer, hensurer⟩, ⟨start, stop, hstart, hstop, horder⟩, ?_⟩
    rintro l (hl | hl)
    · exact hrescued l hl
    · exact hensured l hl

theorem Except.bind_eq_error_iff {α β ε : Type} {x : Except ε α} {f : α → Except ε β} {e : ε} :
    x >>= f = .error e ↔ x = .error e ∨ ∃ a, x = .ok a ∧ f a = .error e := by
  cases x <;> simp [bind, Except.bind]

theorem ScopeDraft.resolveRegion_ofSteps_eq_error {r : RegionDraft} (hr : .region r ∈ steps)
    {e : BuildError} (hresolve : (ofSteps steps).resolveRegion scope r = .error e) :
    Fault scope steps e := by
  simp only [resolveRegion, Except.bind_eq_error_iff] at hresolve
  rcases hresolve with hstart | ⟨start, hstart, hstop | ⟨stop, hstop, hrest⟩⟩
  · obtain ⟨rfl, hunplaced⟩ := resolve_ofSteps_eq_error hstart
    exact .undefinedBound hr (Or.inl rfl) hunplaced
  · obtain ⟨rfl, hunplaced⟩ := resolve_ofSteps_eq_error hstop
    exact .undefinedBound hr (Or.inr rfl) hunplaced
  · by_cases hreversed : stop < start
    · simp only [hreversed, ↓reduceIte] at hrest
      cases hrest
      exact .invalidRegion hr (resolve_ofSteps_eq_ok hstart) (resolve_ofSteps_eq_ok hstop) hreversed
    · simp only [hreversed, ↓reduceIte, Except.bind_eq_error_iff] at hrest
      rcases hrest with hrescue | ⟨rescuer, -, hensure | ⟨ensurer, -, hregion⟩⟩
      · exact resolveHandler_ofSteps_eq_error hr (fun _ => Or.inl) hrescue
      · exact resolveHandler_ofSteps_eq_error hr (fun _ => Or.inr) hensure
      · cases hregion

/-! ## Building -/

theorem exists_of_mapM_eq_error {α β ε : Type} {f : α → Except ε β} {xs : List α} {e : ε}
    (hmap : xs.mapM f = .error e) : ∃ x ∈ xs, f x = .error e := by
  induction xs with
  | nil => cases hmap
  | cons x xs ih =>
      simp only [List.mapM_cons, Except.bind_eq_error_iff] at hmap
      rcases hmap with hx | ⟨y, -, hrest | ⟨ys, -, hdone⟩⟩
      · exact ⟨x, List.mem_cons_self, hx⟩
      · obtain ⟨z, hz, herror⟩ := ih hrest
        exact ⟨z, List.mem_cons_of_mem x hz, herror⟩
      · cases hdone

theorem forall₂_of_mapM_eq_ok {α β ε : Type} {f : α → Except ε β} {xs : List α} {ys : List β}
    (hmap : xs.mapM f = .ok ys) : List.Forall₂ (fun x y => f x = .ok y) xs ys := by
  rw [mapM_eq_ok_iff, ← List.forall₂_eq_eq_eq] at hmap
  simpa using hmap

/-- The code is what the steps drafted: the emitted instructions, labels where they are placed, and
the regions in order. -/
structure ScopeStep.Realized (steps : List ScopeStep) (code : Code) : Prop where
  instrs : code.instrs.toList = emitted steps
  places : ∀ l pc, code.place? l = some pc ↔
    PlacedAt steps l pc ∨ l = .exit ∧ pc = (emitted steps).length
  regions : List.Forall₂ (RegionDraft.ResolvesTo steps) (regions steps) code.regions

theorem ScopeDraft.build_ofSteps_eq_ok {code : Code}
    (hbuild : (ofSteps steps).build scope = .ok code) :
    WellFormed steps ∧ Realized steps code := by
  simp only [build, Except.bind_eq_ok_iff] at hbuild
  obtain ⟨_, hplaced, _, hinstrs, regions, hregions, hcode⟩ := hbuild
  cases hcode
  obtain ⟨hexit, honce, -⟩ := checkPlaced_eq_ok hplaced
  rw [ofSteps_labels] at hexit honce
  have hinstr {i : Instr} (hi : .emit i ∈ steps) :
      (ofSteps steps).checkInstr scope i = .ok () := by
    apply checkInstr_of_checkInstrs hinstrs
    simpa [ofSteps_instrs] using mem_emitted.mpr hi
  have hregion : List.Forall₂ (fun r region => r.Placed steps ∧ r.ResolvesTo steps region)
      (ScopeStep.regions steps) regions := by
    rw [← ofSteps_regions]
    exact (forall₂_of_mapM_eq_ok hregions).imp fun _ _ hresolve =>
      (resolveRegion_ofSteps_eq_ok hresolve).symm
  obtain ⟨hregionPlaced, hregionResolves⟩ := (List.forall₂_and_left _ _).mp hregion
  have hexit : .place .exit ∉ steps := fun hmem => hexit (mem_labels.mpr hmem)
  constructor
  · refine ⟨hexit, honce, ?_, ?_, ?_⟩
    · intro i hi
      exact (checkInstr_ofSteps_eq_ok (hinstr hi)).1
    · intro i hi
      exact (checkInstr_ofSteps_eq_ok (hinstr hi)).2
    · intro r hr
      exact hregionPlaced r (mem_regions.mpr hr)
  · refine ⟨by simp [ofSteps_instrs], ?_, hregionResolves⟩
    intro l pc
    by_cases hl : l = .exit
    · subst hl
      simp only [Code.place?, ↓reduceIte, Code.length, ofSteps_instrs, List.size_toArray,
        Option.some.injEq, true_and]
      constructor
      · intro hpc
        exact Or.inr hpc.symm
      · rintro (hplaced | hpc)
        · exact absurd hplaced.mem hexit
        · exact hpc.symm
    · simp only [Code.place?, hl, ↓reduceIte, false_and, or_false]
      exact lookup_ofSteps_placed honce

theorem ScopeDraft.build_ofSteps_eq_error {e : BuildError}
    (hbuild : (ofSteps steps).build scope = .error e) : Fault scope steps e := by
  simp only [build, Except.bind_eq_error_iff] at hbuild
  rcases hbuild with hplaced | ⟨_, -, hinstrs | ⟨_, -, hregions | ⟨regions, -, hdone⟩⟩⟩
  · have hlabels := checkPlaced_eq_error hplaced
    simp only [ofSteps_labels, List.not_mem_nil, false_or] at hlabels
    rcases hlabels with ⟨rfl, hexit⟩ | ⟨l, rfl, -, htwice⟩
    · exact .reservedLabel (mem_labels.mp hexit)
    · exact .duplicateLabel htwice
  · obtain ⟨i, hi, herror⟩ := exists_of_checkInstrs_eq_error hinstrs
    rw [ofSteps_instrs] at hi
    exact checkInstr_ofSteps_eq_error (mem_emitted.mp (by simpa using hi)) herror
  · obtain ⟨r, hr, herror⟩ := exists_of_mapM_eq_error hregions
    rw [ofSteps_regions] at hr
    exact resolveRegion_ofSteps_eq_error (mem_regions.mp hr) herror
  · cases hdone

end Resolving

/-- A scope is built exactly when its steps are well-formed, and then as they say.  The error with
which it is refused otherwise names a fault of the steps. -/
theorem scope_building_exact (steps : List ScopeStep) (scope : String) :
    ((∃ code, (ScopeDraft.ofSteps steps).build scope = .ok code) ↔ WellFormed steps) ∧
    (∀ code, (ScopeDraft.ofSteps steps).build scope = .ok code → Realized steps code) ∧
    ∀ e, (ScopeDraft.ofSteps steps).build scope = .error e → Fault scope steps e := by
  refine ⟨⟨?_, ?_⟩, ?_, ?_⟩
  · rintro ⟨code, hbuild⟩
    exact (ScopeDraft.build_ofSteps_eq_ok hbuild).1
  · intro hwell
    cases hbuild : (ScopeDraft.ofSteps steps).build scope with
    | ok code => exact ⟨code, rfl⟩
    | error e => exact absurd hwell (ScopeDraft.build_ofSteps_eq_error hbuild).not_wellFormed
  · intro code hbuild
    exact (ScopeDraft.build_ofSteps_eq_ok hbuild).2
  · intro e hbuild
    exact ScopeDraft.build_ofSteps_eq_error hbuild

/-- A region may be empty and end where the code does. -/
example : (ScopeDraft.ofSteps [.emit .clearPending, .region ⟨⟨0⟩, ⟨1⟩, none, none⟩, .place ⟨0⟩,
    .place ⟨1⟩]).build "m" =
      .ok ⟨#[.clearPending], [(⟨0⟩, 1), (⟨1⟩, 1)], [⟨1, 1, none, none⟩]⟩ := rfl

end Unwind
