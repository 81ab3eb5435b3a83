import Mathlib.Data.Set.Function
import Unwind.Proofs.ScopeBuilding
import Unwind.Proofs.Unlabelled

/-!
Renaming the labels of scopes.

Building asks about labels only where they are placed and whether they are the exit.  Renaming them
injectively, with the exit kept, changes neither, so that renamed scopes are built if and only if
the scopes themselves are, into code that is the same but for labels.
-/

namespace Unwind

/-! ## Renamed steps -/

def RegionDraft.relabel (ρ : Label → Label) (r : RegionDraft) : RegionDraft where
  start := ρ r.start
  stop := ρ r.stop
  rescue := r.rescue.map ρ
  ensure := r.ensure.map ρ

def ScopeStep.relabel (ρ : Label → Label) : ScopeStep → ScopeStep
  | .place l => .place (ρ l)
  | .emit i => .emit (i.relabel ρ)
  | .region r => .region (r.relabel ρ)

/-- The step names the label. -/
inductive ScopeStep.Names : ScopeStep → Label → Prop
  | place (l : Label) : Names (.place l) l
  | target {i : Instr} {l : Label} (htarget : i.branchTarget? = some l) : Names (.emit i) l
  | start (r : RegionDraft) : Names (.region r) r.start
  | stop (r : RegionDraft) : Names (.region r) r.stop
  | handler {r : RegionDraft} {l : Label} (hl : r.Handles l) : Names (.region r) l

/-- The labels of a scope: the exit, and those that its steps name. -/
def ScopeStep.labelsOf (steps : List ScopeStep) : Set Label :=
  {l | l = .exit ∨ ∃ step ∈ steps, step.Names l}

/-- The renaming keeps the exit, and gives no two labels of the scope one name. -/
structure ScopeStep.Renaming (ρ : Label → Label) (steps : List ScopeStep) : Prop where
  exit : ρ .exit = .exit
  injective : Set.InjOn ρ (labelsOf steps)

namespace ScopeStep

variable {steps : List ScopeStep} {ρ : Label → Label}

theorem filterMap_relabel {α : Type} {read : ScopeStep → Option α} {f : α → α}
    (hread : ∀ step : ScopeStep, read (step.relabel ρ) = (read step).map f) :
    (steps.map (relabel ρ)).filterMap read = (steps.filterMap read).map f := by
  rw [List.filterMap_map, List.map_filterMap]
  exact congrArg (List.filterMap · steps) (funext hread)

theorem emitted_relabel : emitted (steps.map (relabel ρ)) = (emitted steps).map (Instr.relabel ρ) :=
  filterMap_relabel fun step => by cases step <;> rfl

theorem labels_relabel : labels (steps.map (relabel ρ)) = (labels steps).map ρ :=
  filterMap_relabel fun step => by cases step <;> rfl

theorem regions_relabel :
    regions (steps.map (relabel ρ)) = (regions steps).map (RegionDraft.relabel ρ) :=
  filterMap_relabel fun step => by cases step <;> rfl

theorem forall_emit_relabel {P : Instr → Prop} :
    (∀ i, .emit i ∈ steps.map (relabel ρ) → P i) ↔ ∀ i, .emit i ∈ steps → P (i.relabel ρ) := by
  simp only [← mem_emitted, emitted_relabel, List.forall_mem_map]

theorem forall_region_relabel {P : RegionDraft → Prop} :
    (∀ r, .region r ∈ steps.map (relabel ρ) → P r) ↔ ∀ r, .region r ∈ steps → P (r.relabel ρ) := by
  simp only [← mem_regions, regions_relabel, List.forall_mem_map]

theorem exit_mem_labelsOf (steps : List ScopeStep) : .exit ∈ labelsOf steps := Or.inl rfl

theorem place_mem_labelsOf {l : Label} (hl : .place l ∈ steps) : l ∈ labelsOf steps :=
  Or.inr ⟨_, hl, .place l⟩

variable {l : Label}

/-- A renamed label is placed where the label is. -/
theorem Renaming.placedAt_iff (hρ : Renaming ρ steps) (hl : l ∈ labelsOf steps) (pc : Nat) :
    PlacedAt (steps.map (relabel ρ)) (ρ l) pc ↔ PlacedAt steps l pc := by
  constructor
  · rintro ⟨before', after', hsteps, hpc⟩
    obtain ⟨before, rest, rfl, rfl, hrest⟩ := List.map_eq_append_iff.mp hsteps
    obtain ⟨step, after, rfl, hstep, -⟩ := List.map_eq_cons_iff.mp hrest
    rw [emitted_relabel, List.length_map] at hpc
    cases step with
    | place m =>
        have hm : m ∈ labelsOf (before ++ .place m :: after) := place_mem_labelsOf (by simp)
        obtain rfl := hρ.injective hm hl (ScopeStep.place.inj hstep)
        exact ⟨before, after, rfl, hpc⟩
    | _ => cases hstep
  · rintro ⟨before, after, rfl, hpc⟩
    refine ⟨before.map (relabel ρ), after.map (relabel ρ), by simp [relabel], ?_⟩
    rw [emitted_relabel, List.length_map, hpc]

theorem Renaming.place_mem_iff (hρ : Renaming ρ steps) (hl : l ∈ labelsOf steps) :
    .place (ρ l) ∈ steps.map (relabel ρ) ↔ .place l ∈ steps := by
  constructor
  · intro hmem
    obtain ⟨pc, hplaced⟩ := exists_placedAt hmem
    exact ((hρ.placedAt_iff hl pc).mp hplaced).mem
  · intro hmem
    exact List.mem_map_of_mem hmem

theorem Renaming.eq_exit_iff (hρ : Renaming ρ steps) (hl : l ∈ labelsOf steps) :
    ρ l = .exit ↔ l = .exit := by
  constructor
  · intro hexit
    exact hρ.injective hl (exit_mem_labelsOf steps) (hexit.trans hρ.exit.symm)
  · rintro rfl
    exact hρ.exit

theorem Renaming.nodup_iff (hρ : Renaming ρ steps) :
    (labels (steps.map (relabel ρ))).Nodup ↔ (labels steps).Nodup := by
  rw [labels_relabel]
  constructor
  · exact List.Nodup.of_map ρ
  · intro honce
    refine honce.map_on ?_
    intro l hl m hm hsame
    exact hρ.injective (place_mem_labelsOf (mem_labels.mp hl))
      (place_mem_labelsOf (mem_labels.mp hm)) hsame

theorem Renaming.placed_iff (hρ : Renaming ρ steps) {r : RegionDraft} (hr : .region r ∈ steps) :
    (r.relabel ρ).Placed (steps.map (relabel ρ)) ↔ r.Placed steps := by
  have hlength : (emitted (steps.map (relabel ρ))).length = (emitted steps).length := by
    rw [emitted_relabel, List.length_map]
  have hstart := hρ.placedAt_iff (Or.inr ⟨_, hr, .start r⟩)
  have hstop := hρ.placedAt_iff (Or.inr ⟨_, hr, .stop r⟩)
  have hhandler {l : Label} (hl : r.Handles l) := hρ.placedAt_iff (Or.inr ⟨_, hr, .handler hl⟩)
  have hhandles (l : Label) : (r.relabel ρ).Handles l ↔ ∃ m, r.Handles m ∧ ρ m = l := by
    simp [RegionDraft.Handles, RegionDraft.relabel, or_and_right, exists_or]
  constructor
  · rintro ⟨⟨start, stop, hs, he, hle⟩, hhandled⟩
    refine ⟨⟨start, stop, (hstart start).mp hs, (hstop stop).mp he, hle⟩, ?_⟩
    intro l hl
    obtain ⟨pc, hplaced, hlt⟩ := hhandled (ρ l) ((hhandles _).mpr ⟨l, hl, rfl⟩)
    exact ⟨pc, (hhandler hl pc).mp hplaced, hlength ▸ hlt⟩
  · rintro ⟨⟨start, stop, hs, he, hle⟩, hhandled⟩
    refine ⟨⟨start, stop, (hstart start).mpr hs, (hstop stop).mpr he, hle⟩, ?_⟩
    intro l hl
    obtain ⟨m, hm, rfl⟩ := (hhandles l).mp hl
    obtain ⟨pc, hplaced, hlt⟩ := hhandled m hm
    exact ⟨pc, (hhandler hm pc).mpr hplaced, hlength ▸ hlt⟩

/-- Renamed steps are well-formed if and only if the steps are. -/
theorem Renaming.wellFormed_iff (hρ : Renaming ρ steps) :
    WellFormed (steps.map (relabel ρ)) ↔ WellFormed steps := by
  have hexit : .place .exit ∈ steps.map (relabel ρ) ↔ .place .exit ∈ steps := by
    rw [← hρ.place_mem_iff (exit_mem_labelsOf steps), hρ.exit]
  have hregisters (i : Instr) (r : Reg) : (i.relabel ρ).Mentions r ↔ i.Mentions r := by
    rw [Instr.mentions_iff, Instr.mentions_iff, Instr.registers_relabel]
  have hbranches : (∀ i, .emit i ∈ steps.map (relabel ρ) → ∀ l, i.branchTarget? = some l →
      l = .exit ∨ .place l ∈ steps.map (relabel ρ)) ↔
        ∀ i, .emit i ∈ steps → ∀ l, i.branchTarget? = some l → l = .exit ∨ .place l ∈ steps := by
    refine forall_emit_relabel.trans (forall₂_congr fun i hi => ?_)
    cases htarget : i.branchTarget? with
    | none => simp [htarget]
    | some l =>
        have hl : l ∈ labelsOf steps := Or.inr ⟨_, hi, .target htarget⟩
        simp only [Instr.branchTarget?_relabel, htarget, Option.map_some, Option.some.injEq,
          forall_eq', hρ.eq_exit_iff hl, hρ.place_mem_iff hl]
  have hregions : (∀ r, .region r ∈ steps.map (relabel ρ) → r.Placed (steps.map (relabel ρ))) ↔
      ∀ r, .region r ∈ steps → r.Placed steps :=
    forall_region_relabel.trans (forall₂_congr fun r hr => hρ.placed_iff hr)
  constructor
  · intro hwell
    refine ⟨mt hexit.mpr hwell.exitFree, hρ.nodup_iff.mp hwell.once, ?_,
      hbranches.mp hwell.branches, hregions.mp hwell.regions⟩
    intro i hi r hr
    exact forall_emit_relabel.mp hwell.registers i hi r ((hregisters i r).mpr hr)
  · intro hwell
    refine ⟨mt hexit.mp hwell.exitFree, hρ.nodup_iff.mpr hwell.once, ?_,
      hbranches.mpr hwell.branches, hregions.mpr hwell.regions⟩
    refine forall_emit_relabel.mpr fun i hi r hr => ?_
    exact hwell.registers i hi r ((hregisters i r).mp hr)

end ScopeStep

/-! ## Renamed code -/

/-- Both succeed, with values that are related, or both fail. -/
inductive Alike {α β ε : Type} (r : α → β → Prop) : Except ε α → Except ε β → Prop
  | ok {a : α} {b : β} (hab : r a b) : Alike r (.ok a) (.ok b)
  | error (e f : ε) : Alike r (.error e) (.error f)

section Alike

variable {α β γ δ ε : Type} {r : α → β → Prop} {s : γ → δ → Prop} {x : Except ε α} {y : Except ε β}

theorem alike_of_iff (hiff : (∃ a, x = .ok a) ↔ ∃ b, y = .ok b)
    (hrel : ∀ a b, x = .ok a → y = .ok b → r a b) : Alike r x y := by
  cases x with
  | ok a =>
      obtain ⟨b, rfl⟩ := hiff.mp ⟨a, rfl⟩
      exact .ok (hrel a b rfl rfl)
  | error e =>
      cases y with
      | ok b =>
          obtain ⟨a, ha⟩ := hiff.mpr ⟨b, rfl⟩
          cases ha
      | error f => exact .error e f

theorem Alike.bind {f : α → Except ε γ} {g : β → Except ε δ} (hxy : Alike r x y)
    (hfg : ∀ a b, r a b → Alike s (f a) (g b)) : Alike s (x >>= f) (y >>= g) := by
  cases hxy with
  | ok hab => exact hfg _ _ hab
  | error e e' => exact .error e e'

theorem Alike.imp {r' : α → β → Prop} (hxy : Alike r x y) (himp : ∀ a b, r a b → r' a b) :
    Alike r' x y := by
  cases hxy with
  | ok hab => exact .ok (himp _ _ hab)
  | error e e' => exact .error e e'

end Alike

open ScopeStep

section Build

variable {steps : List ScopeStep} {ρ : Label → Label}

theorem ScopeDraft.build_ofSteps_isOk_iff (steps : List ScopeStep) (scope : String) :
    (∃ code, (ofSteps steps).build scope = .ok code) ↔ WellFormed steps := by
  constructor
  · rintro ⟨code, hbuild⟩
    exact (build_ofSteps_eq_ok hbuild).1
  · intro hwell
    cases hbuild : (ofSteps steps).build scope with
    | ok code => exact ⟨code, rfl⟩
    | error e => exact absurd hwell (build_ofSteps_eq_error hbuild).not_wellFormed

/-- A region and the renamed one resolve to the same places. -/
theorem ScopeStep.Renaming.region_eq (hρ : Renaming ρ steps) (honce : (labels steps).Nodup)
    {r : RegionDraft} (hr : .region r ∈ steps) {region renamed : Region}
    (hregion : r.ResolvesTo steps region)
    (hrenamed : (r.relabel ρ).ResolvesTo (steps.map (relabel ρ)) renamed) : renamed = region := by
  have hhandler {label : Option Label} (hl : ∀ l, label = some l → r.Handles l)
      {place place' : Option Nat} (hplace : Option.Rel (PlacedAt steps) label place)
      (hplace' : Option.Rel (PlacedAt (steps.map (relabel ρ))) (label.map ρ) place') :
      place' = place := by
    cases hplace with
    | none =>
        cases hplace'
        rfl
    | some hpc =>
        obtain ⟨pc', rfl, hpc'⟩ := exists_of_rel_some hplace'
        rw [hρ.placedAt_iff (Or.inr ⟨_, hr, .handler (hl _ rfl)⟩)] at hpc'
        rw [hpc'.unique honce hpc]
  obtain ⟨start, stop, rescuer, ensurer⟩ := region
  obtain ⟨start', stop', rescuer', ensurer'⟩ := renamed
  have hstart := (hρ.placedAt_iff (Or.inr ⟨_, hr, .start r⟩) _).mp hrenamed.start
  have hstop := (hρ.placedAt_iff (Or.inr ⟨_, hr, .stop r⟩) _).mp hrenamed.stop
  obtain rfl : start' = start := hstart.unique honce hregion.start
  obtain rfl : stop' = stop := hstop.unique honce hregion.stop
  obtain rfl : rescuer' = rescuer := hhandler (fun _ => Or.inl) hregion.rescuer hrenamed.rescuer
  obtain rfl : ensurer' = ensurer := hhandler (fun _ => Or.inr) hregion.ensurer hrenamed.ensurer
  rfl

theorem ScopeStep.Renaming.regions_eq (hρ : Renaming ρ steps) (honce : (labels steps).Nodup)
    {rs : List RegionDraft} (hrs : ∀ r ∈ rs, .region r ∈ steps) {regions renamed : List Region}
    (hregions : List.Forall₂ (RegionDraft.ResolvesTo steps) rs regions)
    (hrenamed : List.Forall₂ (RegionDraft.ResolvesTo (steps.map (relabel ρ)))
      (rs.map (RegionDraft.relabel ρ)) renamed) : renamed = regions := by
  induction hregions generalizing renamed with
  | nil =>
      cases hrenamed
      rfl
  | cons hregion _ ih =>
      cases hrenamed with
      | cons hhead hrest =>
          have hmember := hrs _ List.mem_cons_self
          rw [hρ.region_eq honce hmember hregion hhead,
            ih (fun r hr => hrs r (List.mem_cons_of_mem _ hr)) hrest]

/-- An instruction of well-formed steps and the renamed one lead to the same place. -/
theorem ScopeStep.Renaming.destination (hρ : Renaming ρ steps) (hwell : WellFormed steps)
    {code renamed : Code} (hcode : Realized steps code)
    (hrenamed : Realized (steps.map (relabel ρ)) renamed) {i : Instr} (hi : .emit i ∈ steps) :
    ∃ place, code.place? i.destination = some place ∧
      renamed.place? (i.relabel ρ).destination = some place := by
  have hlength : (emitted (steps.map (relabel ρ))).length = (emitted steps).length := by
    rw [emitted_relabel, List.length_map]
  have hdestination : (i.relabel ρ).destination = ρ i.destination := by
    rw [Instr.destination, Instr.destination, Instr.branchTarget?_relabel]
    cases i.branchTarget? with
    | none => exact hρ.exit.symm
    | some l => rfl
  rw [hdestination]
  by_cases hexit : i.destination = .exit
  · rw [hexit, hρ.exit]
    exact ⟨(emitted steps).length, (hcode.places _ _).mpr (Or.inr ⟨rfl, rfl⟩),
      (hrenamed.places _ _).mpr (Or.inr ⟨rfl, hlength.symm⟩)⟩
  · cases htarget : i.branchTarget? with
    | none => simp [Instr.destination, htarget] at hexit
    | some l =>
        have hl : i.destination = l := by rw [Instr.destination, htarget, Option.getD_some]
        rw [hl] at hexit ⊢
        obtain ⟨pc, hplaced⟩ :=
          exists_placedAt ((hwell.branches i hi l htarget).resolve_left hexit)
        have hplaced' := (hρ.placedAt_iff (place_mem_labelsOf hplaced.mem) pc).mpr hplaced
        exact ⟨pc, (hcode.places _ _).mpr (Or.inl hplaced),
          (hrenamed.places _ _).mpr (Or.inl hplaced')⟩

theorem ScopeStep.Realized.sameButLabels {code renamed : Code} (hcode : Realized steps code)
    (hrenamed : Realized (steps.map (relabel ρ)) renamed) (hρ : Renaming ρ steps)
    (hwell : WellFormed steps) : code.SameButLabels renamed := by
  have hinstrs : renamed.instrs.toList = code.instrs.toList.map (Instr.relabel ρ) := by
    rw [hcode.instrs, hrenamed.instrs, emitted_relabel]
  have hinstr (pc : Nat) : renamed.instr? pc = (code.instr? pc).map (Instr.relabel ρ) := by
    rw [Code.instr?, Code.instr?, ← Array.getElem?_toList, ← Array.getElem?_toList, hinstrs,
      List.getElem?_map]
  constructor
  case instrs =>
    apply Array.ext'
    rw [Array.toList_map, Array.toList_map, hinstrs, List.map_map]
    exact congrArg (List.map · code.instrs.toList) (funext fun i => i.relabel_unlabelled ρ)
  case regions =>
    have hregions := hrenamed.regions
    rw [regions_relabel] at hregions
    exact hρ.regions_eq hwell.once (fun r hr => mem_regions.mp hr) hcode.regions hregions
  case places =>
    intro pc i j hi hj
    rw [hinstr, hi, Option.map_some, Option.some.injEq] at hj
    subst hj
    have hmember : i ∈ code.instrs.toList :=
      Array.mem_toList_iff.mpr (Array.mem_of_getElem? hi)
    rw [hcode.instrs] at hmember
    exact hρ.destination hwell hcode hrenamed (mem_emitted.mp hmember)

/-- Renamed steps are built if and only if the steps are, into code that is the same but for
labels. -/
theorem ScopeStep.Renaming.build_alike (hρ : Renaming ρ steps) (scope : String) :
    Alike Code.SameButLabels ((ScopeDraft.ofSteps steps).build scope)
      ((ScopeDraft.ofSteps (steps.map (relabel ρ))).build scope) := by
  apply alike_of_iff
  · rw [ScopeDraft.build_ofSteps_isOk_iff, ScopeDraft.build_ofSteps_isOk_iff, hρ.wellFormed_iff]
  · intro code renamed hbuild hrenamed
    obtain ⟨hwell, hcode⟩ := ScopeDraft.build_ofSteps_eq_ok hbuild
    exact hcode.sameButLabels (ScopeDraft.build_ofSteps_eq_ok hrenamed).2 hρ hwell

end Build

end Unwind
