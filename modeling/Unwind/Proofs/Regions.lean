import Unwind.Proofs.Built

/-!
Looking up handlers.

A handler that a look-up finds belongs to a region around the place, and there is one as soon as
some region around the place declares it.
-/

namespace Unwind

theorem Region.narrowest?_mem {rs : List Region} {r : Region}
    (hr : Region.narrowest? rs = some r) : r ∈ rs := by
  induction rs generalizing r with
  | nil => cases hr
  | cons head rest ih =>
      cases hbest : Region.narrowest? rest with
      | none =>
          simp only [Region.narrowest?, hbest, Option.some.injEq] at hr
          exact hr ▸ List.mem_cons_self
      | some best =>
          simp only [Region.narrowest?, hbest] at hr
          split at hr
          · cases hr
            exact List.mem_cons_of_mem head (ih hbest)
          · cases hr
            exact List.mem_cons_self

theorem Region.narrowest?_isSome {rs : List Region} {r : Region} (hr : r ∈ rs) :
    (Region.narrowest? rs).isSome := by
  cases rs with
  | nil => cases hr
  | cons head rest =>
      simp only [Region.narrowest?]
      split
      · rfl
      · split <;> rfl

/-- The handler that a look-up finds is declared by a region around the place. -/
theorem Code.exists_region_of_handler {code : Code} {handler : Region → Option Nat}
    {pc h : Nat} (hfound : (code.regionAt? handler pc).bind handler = some h) :
    ∃ r ∈ code.regions, r.covers pc = true ∧ handler r = some h := by
  obtain ⟨r, hr, hh⟩ := Option.bind_eq_some_iff.mp hfound
  have hmem := Region.narrowest?_mem hr
  simp only [List.mem_filter, Bool.and_eq_true] at hmem
  exact ⟨r, hmem.1, hmem.2.1, hh⟩

/-- A look-up finds a handler as soon as a region around the place declares one. -/
theorem Code.handler_isSome {code : Code} {handler : Region → Option Nat} {pc : Nat}
    {r : Region} (hr : r ∈ code.regions) (hcovers : r.covers pc = true)
    (hhandler : (handler r).isSome) : ((code.regionAt? handler pc).bind handler).isSome := by
  have hmem : r ∈ code.regions.filter fun r => r.covers pc && (handler r).isSome := by
    simp [hr, hcovers, hhandler]
  obtain ⟨best, hbest⟩ := Option.isSome_iff_exists.mp (Region.narrowest?_isSome hmem)
  have hfound := Region.narrowest?_mem hbest
  simp only [List.mem_filter, Bool.and_eq_true] at hfound
  rw [Code.regionAt?, hbest]
  exact hfound.2.2

theorem Code.HandlersPlaced.instr?_isSome {code : Code} (hplaced : code.HandlersPlaced)
    {pc h : Nat} (hfound : code.rescuerAt? pc = some h ∨ code.ensurerAt? pc = some h) :
    ∃ i, code.instr? h = some i := by
  have hlt : h < code.instrs.size := by
    rcases hfound with hfound | hfound
    · obtain ⟨r, hr, -, hh⟩ := Code.exists_region_of_handler hfound
      exact hplaced r hr h (Or.inl hh)
    · obtain ⟨r, hr, -, hh⟩ := Code.exists_region_of_handler hfound
      exact hplaced r hr h (Or.inr hh)
  exact ⟨code.instrs[h], Array.getElem?_eq_getElem hlt⟩

/-- In listed programs a place with ensure code has rescue code too. -/
theorem Program.Listed.rescuerAt?_isSome {p : Program} (hlisted : p.Listed) {id : ScopeId}
    {s : Scope} (hscope : p.scope? id = some s) {pc h : Nat}
    (hensurer : s.code.ensurerAt? pc = some h) : (s.code.rescuerAt? pc).isSome := by
  obtain ⟨r, hr, hcovers, hh⟩ := Code.exists_region_of_handler hensurer
  have hrescuer := hlisted.rescuer_of_ensurer hscope hr (by rw [hh]; rfl)
  exact Code.handler_isSome hr hcovers hrescuer

end Unwind
