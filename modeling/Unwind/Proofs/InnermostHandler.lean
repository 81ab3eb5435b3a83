import Unwind.Proofs.Regions

/-!
The innermost handler.

A look-up takes the narrowest region around a place that declares a handler of the sort, and the
first declared one of several such.  Where regions are nested, this one stands inside all others
that declare one.  The order in which regions are declared matters only between regions of one
span.
-/

namespace Unwind

/-! ## The narrowest region -/

/-- The first one of the regions of least span: those before it are wider, and those behind it
are no narrower. -/
def Region.FirstNarrowest (r : Region) (rs : List Region) : Prop :=
  ∃ before after, rs = before ++ r :: after ∧ (∀ q ∈ before, r.span < q.span) ∧
    ∀ q ∈ after, r.span ≤ q.span

theorem Region.FirstNarrowest.mem {r : Region} {rs : List Region} (hr : r.FirstNarrowest rs) :
    r ∈ rs := by
  obtain ⟨before, after, rfl, -, -⟩ := hr
  simp

theorem Region.FirstNarrowest.span_le {r q : Region} {rs : List Region}
    (hr : r.FirstNarrowest rs) (hq : q ∈ rs) : r.span ≤ q.span := by
  obtain ⟨before, after, rfl, hbefore, hafter⟩ := hr
  rcases List.mem_append.mp hq with hq | hq
  · exact Nat.le_of_lt (hbefore q hq)
  · rcases List.mem_cons.mp hq with rfl | hq
    · exact Nat.le_refl _
    · exact hafter q hq

theorem Region.firstNarrowest_cons_iff {r head : Region} {rest : List Region} :
    r.FirstNarrowest (head :: rest) ↔
      r = head ∧ (∀ q ∈ rest, head.span ≤ q.span) ∨
        r.span < head.span ∧ r.FirstNarrowest rest := by
  constructor
  · rintro ⟨before, after, hsplit, hbefore, hafter⟩
    cases before with
    | nil =>
        obtain ⟨rfl, rfl⟩ := List.cons.inj hsplit
        exact Or.inl ⟨rfl, hafter⟩
    | cons top before =>
        obtain ⟨rfl, rfl⟩ := List.cons.inj hsplit
        obtain ⟨htop, hbefore⟩ := List.forall_mem_cons.mp hbefore
        exact Or.inr ⟨htop, before, after, rfl, hbefore, hafter⟩
  · rintro (⟨rfl, hrest⟩ | ⟨hhead, before, after, rfl, hbefore, hafter⟩)
    · exact ⟨[], rest, rfl, List.forall_mem_nil _, hrest⟩
    · exact ⟨head :: before, after, rfl, List.forall_mem_cons.mpr ⟨hhead, hbefore⟩, hafter⟩

theorem Region.narrowest?_eq_some_iff {rs : List Region} {r : Region} :
    Region.narrowest? rs = some r ↔ r.FirstNarrowest rs := by
  induction rs generalizing r with
  | nil => simp [narrowest?, FirstNarrowest]
  | cons head rest ih =>
      rw [firstNarrowest_cons_iff, narrowest?]
      cases hbest : narrowest? rest with
      | none =>
          have hnone : rest = [] := by
            cases rest with
            | nil => rfl
            | cons q qs =>
                have hsome : (narrowest? (q :: qs)).isSome :=
                  narrowest?_isSome List.mem_cons_self
                rw [hbest] at hsome
                cases hsome
          subst hnone
          simp [FirstNarrowest, eq_comm]
      | some best =>
          have hleast := ih.mp hbest
          by_cases hnarrower : best.span < head.span
          · simp only [hnarrower, ↓reduceIte, Option.some.injEq]
            constructor
            · rintro rfl
              exact Or.inr ⟨hnarrower, hleast⟩
            · rintro (⟨-, hrest⟩ | ⟨-, hr⟩)
              · exact absurd hnarrower (Nat.not_lt.mpr (hrest best hleast.mem))
              · exact Option.some.inj (hbest.symm.trans (ih.mpr hr))
          · simp only [hnarrower, ↓reduceIte, Option.some.injEq]
            constructor
            · rintro rfl
              refine Or.inl ⟨rfl, fun q hq => ?_⟩
              exact Nat.le_trans (Nat.le_of_not_lt hnarrower) (hleast.span_le hq)
            · rintro (⟨rfl, -⟩ | ⟨hhead, hr⟩)
              · rfl
              · obtain rfl := Option.some.inj (hbest.symm.trans (ih.mpr hr))
                exact absurd hhead hnarrower

/-! ## Regions around a place -/

/-- The region covers the place, from its start on and before its end, and declares a handler of
the sort. -/
def Region.Serves (handler : Region → Option Nat) (pc : Nat) (r : Region) : Prop :=
  r.start ≤ pc ∧ pc < r.stop ∧ (handler r).isSome

/-- Of the regions that serve the place, this is one of least span, and the first declared of
these. -/
def Code.Innermost (code : Code) (handler : Region → Option Nat) (pc : Nat) (r : Region) : Prop :=
  ∃ before after, code.regions = before ++ r :: after ∧ r.Serves handler pc ∧
    (∀ q ∈ before, q.Serves handler pc → r.span < q.span) ∧
    ∀ q ∈ after, q.Serves handler pc → r.span ≤ q.span

variable {code : Code} {handler : Region → Option Nat} {pc : Nat}

theorem Region.covers_iff {r : Region} : r.covers pc = true ↔ r.start ≤ pc ∧ pc < r.stop := by
  simp [covers]

theorem Region.serves_iff {r : Region} :
    r.Serves handler pc ↔ (r.covers pc && (handler r).isSome) = true := by
  simp [Serves, covers, and_assoc]

theorem Code.Innermost.serves {r : Region} (hr : code.Innermost handler pc r) :
    r ∈ code.regions ∧ r.Serves handler pc := by
  obtain ⟨before, after, hsplit, hserves, -⟩ := hr
  exact ⟨by simp [hsplit], hserves⟩

theorem Code.regionAt?_eq_some_iff {r : Region} :
    code.regionAt? handler pc = some r ↔ code.Innermost handler pc r := by
  rw [regionAt?, Region.narrowest?_eq_some_iff]
  constructor
  · rintro ⟨inner, outer, hfilter, hinner, houter⟩
    obtain ⟨before, tail, hregions, rfl, htail⟩ := List.filter_eq_append_iff.mp hfilter
    obtain ⟨skipped, after, rfl, hskipped, hr, rfl⟩ := List.filter_eq_cons_iff.mp htail
    refine ⟨before ++ skipped, after, by simp [hregions], Region.serves_iff.mpr hr, ?_, ?_⟩
    · intro q hq hserves
      rw [Region.serves_iff] at hserves
      rcases List.mem_append.mp hq with hq | hq
      · exact hinner q (List.mem_filter.mpr ⟨hq, hserves⟩)
      · exact absurd hserves (hskipped q hq)
    · intro q hq hserves
      rw [Region.serves_iff] at hserves
      exact houter q (List.mem_filter.mpr ⟨hq, hserves⟩)
  · rintro ⟨before, after, hregions, hr, hbefore, hafter⟩
    rw [Region.serves_iff] at hr
    refine ⟨_, _, by rw [hregions, List.filter_append, List.filter_cons, if_pos hr], ?_, ?_⟩
    · intro q hq
      obtain ⟨hmem, hserves⟩ := List.mem_filter.mp hq
      exact hbefore q hmem (Region.serves_iff.mpr hserves)
    · intro q hq
      obtain ⟨hmem, hserves⟩ := List.mem_filter.mp hq
      exact hafter q hmem (Region.serves_iff.mpr hserves)

theorem Code.Innermost.span_le {r q : Region} (hr : code.Innermost handler pc r)
    (hq : q ∈ code.regions) (hserves : q.Serves handler pc) : r.span ≤ q.span := by
  rw [← regionAt?_eq_some_iff, regionAt?, Region.narrowest?_eq_some_iff] at hr
  exact hr.span_le (List.mem_filter.mpr ⟨hq, Region.serves_iff.mp hserves⟩)

/-- A look-up has an answer wherever a region serves, and then it is the handler of the innermost
one. -/
theorem Code.handler_eq_some_iff {h : Nat} :
    (code.regionAt? handler pc).bind handler = some h ↔
      ∃ r, code.Innermost handler pc r ∧ handler r = some h := by
  simp only [Option.bind_eq_some_iff, regionAt?_eq_some_iff]

theorem Code.exists_innermost {q : Region} (hq : q ∈ code.regions)
    (hserves : q.Serves handler pc) :
    ∃ r h, code.Innermost handler pc r ∧ handler r = some h := by
  obtain ⟨hcovers, hhandler⟩ := Bool.and_eq_true_iff.mp (Region.serves_iff.mp hserves)
  obtain ⟨h, hfound⟩ := Option.isSome_iff_exists.mp (Code.handler_isSome hq hcovers hhandler)
  obtain ⟨r, hr, hrh⟩ := handler_eq_some_iff.mp hfound
  exact ⟨r, h, hr, hrh⟩

/-! ## Nested regions -/

/-- All places of the first region are places of the second. -/
def Region.Within (inner outer : Region) : Prop :=
  ∀ pc, inner.covers pc = true → outer.covers pc = true

/-- The two regions have no place in common. -/
def Region.Apart (q r : Region) : Prop := ∀ pc, ¬(q.covers pc = true ∧ r.covers pc = true)

/-- Of any two regions, one stands within the other, or they are apart. -/
def Code.Nested (code : Code) : Prop :=
  ∀ q ∈ code.regions, ∀ r ∈ code.regions, q.Within r ∨ r.Within q ∨ q.Apart r

theorem Region.within_of_bounds {inner outer : Region} (hstart : outer.start ≤ inner.start)
    (hstop : inner.stop ≤ outer.stop) : inner.Within outer := by
  intro pc hpc
  rw [covers_iff] at hpc ⊢
  omega

/-- A region that is not empty has its bounds between those of a region around it. -/
theorem Region.bounds_of_within {inner outer : Region} (hwithin : inner.Within outer)
    (hpc : inner.covers pc = true) : outer.start ≤ inner.start ∧ inner.stop ≤ outer.stop := by
  rw [covers_iff] at hpc
  have hfirst := hwithin inner.start (covers_iff.mpr (by omega))
  have hlast := hwithin (inner.stop - 1) (covers_iff.mpr (by omega))
  rw [covers_iff] at hfirst hlast
  omega

/-- Of regions within one another, one that is no wider than the other stands within it. -/
theorem Region.Within.of_span_le {q r : Region} (hwithin : q.Within r) (hq : q.covers pc = true)
    (hspan : r.span ≤ q.span) : r.Within q := by
  obtain ⟨hstart, hstop⟩ := bounds_of_within hwithin hq
  rw [covers_iff] at hq
  simp only [span] at hspan
  exact within_of_bounds (by omega) (by omega)

theorem Code.Nested.innermost_within (hnested : code.Nested) {r q : Region}
    (hr : code.Innermost handler pc r) (hq : q ∈ code.regions)
    (hserves : q.Serves handler pc) : r.Within q := by
  obtain ⟨hmem, hrserves⟩ := hr.serves
  have hrcovers : r.covers pc = true := Region.covers_iff.mpr ⟨hrserves.1, hrserves.2.1⟩
  have hqcovers : q.covers pc = true := Region.covers_iff.mpr ⟨hserves.1, hserves.2.1⟩
  rcases hnested q hq r hmem with hinside | hinside | hapart
  · exact hinside.of_span_le hqcovers (hr.span_le hq hserves)
  · exact hinside
  · exact absurd ⟨hqcovers, hrcovers⟩ (hapart pc)

/-! ## The order of declaration -/

/-- Different regions that serve the place have different spans. -/
def Code.SpansDiffer (code : Code) (handler : Region → Option Nat) (pc : Nat) : Prop :=
  ∀ q ∈ code.regions, ∀ r ∈ code.regions, q.Serves handler pc → r.Serves handler pc →
    q ≠ r → q.span ≠ r.span

theorem Code.SpansDiffer.innermost_unique (hspans : code.SpansDiffer handler pc) {other : Code}
    (hperm : other.regions.Perm code.regions) {q r : Region} (hq : other.Innermost handler pc q)
    (hr : code.Innermost handler pc r) : q = r := by
  obtain ⟨hqmem, hqserves⟩ := hq.serves
  obtain ⟨hrmem, hrserves⟩ := hr.serves
  rw [hperm.mem_iff] at hqmem
  have hspan : q.span = r.span :=
    Nat.le_antisymm (hq.span_le (hperm.mem_iff.mpr hrmem) hrserves) (hr.span_le hqmem hqserves)
  exact Decidable.byContradiction fun hne => hspans q hqmem r hrmem hqserves hrserves hne hspan

/-- Where spans differ, the look-up has the same answer whatever the order of the regions. -/
theorem Code.SpansDiffer.handler_eq (hspans : code.SpansDiffer handler pc) {other : Code}
    (hperm : other.regions.Perm code.regions) :
    (other.regionAt? handler pc).bind handler = (code.regionAt? handler pc).bind handler := by
  apply Option.ext
  intro h
  rw [handler_eq_some_iff, handler_eq_some_iff]
  constructor
  · rintro ⟨q, hq, hh⟩
    obtain ⟨hqmem, hqserves⟩ := hq.serves
    obtain ⟨r, -, hr, -⟩ := exists_innermost (hperm.mem_iff.mp hqmem) hqserves
    obtain rfl := hspans.innermost_unique hperm hq hr
    exact ⟨q, hr, hh⟩
  · rintro ⟨r, hr, hh⟩
    obtain ⟨hrmem, hrserves⟩ := hr.serves
    obtain ⟨q, -, hq, -⟩ := exists_innermost (hperm.mem_iff.mpr hrmem) hrserves
    obtain rfl := hspans.innermost_unique hperm hq hr
    exact ⟨q, hq, hh⟩

/-- What succeeds on all members of a list succeeds on them in any order. -/
theorem exists_mapM_eq_ok_of_perm {α β ε : Type} {f : α → Except ε β} {xs zs : List α}
    {ys : List β} (hperm : zs.Perm xs) (hmap : xs.mapM f = .ok ys) :
    ∃ ws, zs.mapM f = .ok ws ∧ ws.Perm ys := by
  simp only [mapM_eq_ok_iff] at hmap ⊢
  induction hperm generalizing ys with
  | nil => exact ⟨ys, hmap, .refl ys⟩
  | cons x _ ih =>
      obtain ⟨y, rest, rfl, hy, hrest⟩ := List.map_eq_cons_iff.mp hmap.symm
      obtain ⟨ws, hws, hperm⟩ := ih hrest.symm
      exact ⟨y :: ws, by rw [List.map_cons, List.map_cons, hy, hws], hperm.cons y⟩
  | swap x z rest =>
      obtain ⟨y, tail, rfl, hy, htail⟩ := List.map_eq_cons_iff.mp hmap.symm
      obtain ⟨w, ws, rfl, hw, hws⟩ := List.map_eq_cons_iff.mp htail
      exact ⟨w :: y :: ws, by simp only [List.map_cons, hy, hw, hws], .swap y w ws⟩
  | trans _ _ ihfirst ihsecond =>
      obtain ⟨vs, hvs, hsecond⟩ := ihsecond hmap
      obtain ⟨ws, hws, hfirst⟩ := ihfirst hvs
      exact ⟨ws, hws, hfirst.trans hsecond⟩

/-- A scope is built whatever the order of its regions, and has them in that order. -/
theorem ScopeDraft.exists_build_of_perm {d : ScopeDraft} {scope : String}
    {regions : List RegionDraft} (hbuild : d.build scope = .ok code)
    (hperm : regions.Perm d.regions) :
    ∃ other, ({ d with regions := regions } : ScopeDraft).build scope = .ok other ∧
      other.regions.Perm code.regions := by
  have hinstrs (is : List Instr) :
      ({ d with regions := regions } : ScopeDraft).checkInstrs scope is =
        d.checkInstrs scope is := by
    induction is with
    | nil => rfl
    | cons i is ih =>
        rw [checkInstrs, checkInstrs, ih]
        rfl
  simp only [build, Except.bind_eq_ok_iff] at hbuild
  obtain ⟨_, hplaced, _, hchecked, resolved, hresolved, hcode⟩ := hbuild
  cases hcode
  obtain ⟨reordered, hreordered, hsame⟩ := exists_mapM_eq_ok_of_perm hperm hresolved
  refine ⟨⟨d.instrs, d.placed, reordered⟩, ?_, hsame⟩
  simp only [build, Except.bind_eq_ok_iff]
  exact ⟨_, hplaced, _, (hinstrs _).trans hchecked, reordered, hreordered, rfl⟩

/-! ## Looking up -/

/-- What a look-up for handlers of one sort in code answers. -/
structure Code.LooksUp (code : Code) (handler : Region → Option Nat)
    (find? : Nat → Option Nat) : Prop where
  /-- It has an answer wherever a region covers the place and declares a handler. -/
  isSome_iff : ∀ pc, (find? pc).isSome ↔ ∃ r ∈ code.regions, r.Serves handler pc
  /-- The answer is the handler of the narrowest such region, the first declared one on a tie. -/
  eq_some_iff : ∀ pc h, find? pc = some h ↔ ∃ r, code.Innermost handler pc r ∧ handler r = some h
  /-- Where regions are nested, this one stands within all such regions. -/
  within : code.Nested → ∀ pc r, code.Innermost handler pc r →
    ∀ q ∈ code.regions, q.Serves handler pc → r.Within q

theorem Code.looksUp (code : Code) (handler : Region → Option Nat) :
    code.LooksUp handler fun pc => (code.regionAt? handler pc).bind handler where
  isSome_iff pc := by
    rw [Option.isSome_iff_exists]
    constructor
    · rintro ⟨h, hfound⟩
      obtain ⟨r, hr, -⟩ := handler_eq_some_iff.mp hfound
      exact ⟨r, hr.serves⟩
    · rintro ⟨q, hq, hserves⟩
      obtain ⟨r, h, hr, hh⟩ := exists_innermost hq hserves
      exact ⟨h, handler_eq_some_iff.mpr ⟨r, hr, hh⟩⟩
  eq_some_iff pc h := handler_eq_some_iff
  within hnested pc r hr q hq hserves := hnested.innermost_within hr hq hserves

/-- In listed programs, the rescue code that a raise meets where there is ensure code belongs to a
region no wider than any with ensure code. -/
theorem Program.Listed.rescuer_before_ensurer {p : Program} (hlisted : p.Listed) {id : ScopeId}
    {s : Scope} (hscope : p.scope? id = some s) {h : Nat}
    (hensurer : s.code.ensurerAt? pc = some h) :
    ∃ r k, s.code.Innermost Region.rescuer pc r ∧ r.rescuer = some k ∧
      s.code.rescuerAt? pc = some k ∧
      ∀ e ∈ s.code.regions, e.Serves Region.ensurer pc → r.span ≤ e.span := by
  have hrescues {e : Region} (he : e ∈ s.code.regions) (hserves : e.Serves Region.ensurer pc) :
      e.Serves Region.rescuer pc :=
    ⟨hserves.1, hserves.2.1, hlisted.rescuer_of_ensurer hscope he hserves.2.2⟩
  obtain ⟨e, he, -⟩ := Code.handler_eq_some_iff.mp hensurer
  obtain ⟨hmem, hserves⟩ := he.serves
  obtain ⟨r, k, hr, hk⟩ := Code.exists_innermost hmem (hrescues hmem hserves)
  refine ⟨r, k, hr, hk, Code.handler_eq_some_iff.mpr ⟨r, hr, hk⟩, ?_⟩
  intro q hq hq'
  exact hr.span_le hq (hrescues hq hq')

/-- In code that a draft builds, a raise meets the rescue code of the innermost region around its
place that has some, and any other signal the ensure code of the innermost one that has some.
Declared in another order, the regions are built too, and where their spans differ the answers
are the same.  In the code of listed programs, where there is ensure code there is rescue code,
and a raise does not pass a region with ensure code to meet that of a wider one. -/
theorem innermost_handler {d : ScopeDraft} {scope : String} {code : Code}
    (hbuild : d.build scope = .ok code) :
    code.LooksUp Region.rescuer code.rescuerAt? ∧
    code.LooksUp Region.ensurer code.ensurerAt? ∧
    (∀ regions : List RegionDraft, regions.Perm d.regions →
      ∃ other, ({ d with regions := regions } : ScopeDraft).build scope = .ok other ∧ ∀ pc,
        (code.SpansDiffer Region.rescuer pc → other.rescuerAt? pc = code.rescuerAt? pc) ∧
        (code.SpansDiffer Region.ensurer pc → other.ensurerAt? pc = code.ensurerAt? pc)) ∧
    ∀ (p : Program) (id : ScopeId) (s : Scope), p.Listed → p.scope? id = some s →
      ∀ pc h, s.code.ensurerAt? pc = some h →
        ∃ r k, s.code.Innermost Region.rescuer pc r ∧ r.rescuer = some k ∧
          s.code.rescuerAt? pc = some k ∧
          ∀ e ∈ s.code.regions, e.Serves Region.ensurer pc → r.span ≤ e.span := by
  refine ⟨code.looksUp Region.rescuer, code.looksUp Region.ensurer, ?_, ?_⟩
  · intro regions hperm
    obtain ⟨other, hother, hsame⟩ := ScopeDraft.exists_build_of_perm hbuild hperm
    exact ⟨other, hother, fun pc =>
      ⟨fun hspans => hspans.handler_eq hsame, fun hspans => hspans.handler_eq hsame⟩⟩
  · intro p id s hlisted hscope pc h hensurer
    exact hlisted.rescuer_before_ensurer hscope hensurer

namespace InnermostHandlerWitness

/-- A script with rescue code around its first instruction and ensure code around the first two. -/
def entry : ScopeEntry :=
  ⟨"<main>", .script, none,
    [.label ⟨0⟩, .instr (.raise (.const (.str "boom"))), .label ⟨1⟩, .instr (.fatal "broken"),
      .label ⟨2⟩, .instr (.ret .nil none), .label ⟨3⟩, .instr (.receiveException ⟨0⟩),
      .label ⟨4⟩, .instr .resumePending],
    [⟨⟨0⟩, ⟨2⟩, none, some ⟨4⟩⟩, .rescuing ⟨0⟩ ⟨1⟩ ⟨3⟩]⟩

def mainCode : Code :=
  ⟨#[.raise (.const (.str "boom")), .fatal "broken", .ret .nil none, .receiveException ⟨0⟩,
      .resumePending],
    [(⟨0⟩, 0), (⟨1⟩, 1), (⟨2⟩, 2), (⟨3⟩, 3), (⟨4⟩, 4)],
    [⟨0, 2, some 4, some 4⟩, ⟨0, 1, some 3, none⟩]⟩

def mainScope : Scope := ⟨⟨0⟩, "<main>", .script, none, mainCode⟩

def program : Program := { name := "nesting", root := ⟨0⟩, scopes := #[mainScope] }

theorem program_listed : program.Listed :=
  ⟨{ name := "nesting", root := 0, scopes := [entry] }, rfl⟩

theorem mainCode_nested : mainCode.Nested := by
  have hwithin : Region.Within ⟨0, 1, some 3, none⟩ ⟨0, 2, some 4, some 4⟩ :=
    Region.within_of_bounds (by decide) (by decide)
  intro q hq r hr
  simp only [mainCode, List.mem_cons, List.not_mem_nil, or_false] at hq hr
  rcases hq with rfl | rfl <;> rcases hr with rfl | rfl
  · exact Or.inl fun _ => id
  · exact Or.inr (Or.inl hwithin)
  · exact Or.inl hwithin
  · exact Or.inl fun _ => id

theorem mainCode_spansDiffer (pc : Nat) : mainCode.SpansDiffer Region.rescuer pc := by
  intro q hq r hr _ _ hne
  simp only [mainCode, List.mem_cons, List.not_mem_nil, or_false] at hq hr
  rcases hq with rfl | rfl <;> rcases hr with rfl | rfl
  · exact absurd rfl hne
  · decide
  · decide
  · exact absurd rfl hne

/-- At the first place the inner region is found, in either order of declaration; at the second,
the ensure code meets raises too. -/
theorem innermost_handler_nesting :
    entry.draft.build "<main>" = .ok mainCode ∧ mainCode.Nested ∧ program.Listed ∧
    (∃ r, mainCode.Innermost Region.rescuer 0 r ∧ r.rescuer = some 3 ∧
      r.Within ⟨0, 2, some 4, some 4⟩) ∧
    (∃ other, ({ entry.draft with regions := entry.draft.regions.reverse } : ScopeDraft).build
        "<main>" = .ok other ∧ other.rescuerAt? 0 = mainCode.rescuerAt? 0) ∧
    ∃ r k, mainCode.Innermost Region.rescuer 1 r ∧ mainCode.rescuerAt? 1 = some k ∧
      r.span ≤ Region.span ⟨0, 2, some 4, some 4⟩ := by
  have hbuild : entry.draft.build "<main>" = .ok mainCode := rfl
  obtain ⟨hrescuers, -, hreordered, hensured⟩ := innermost_handler hbuild
  refine ⟨hbuild, mainCode_nested, program_listed, ?_, ?_, ?_⟩
  · obtain ⟨r, hr, hh⟩ := (hrescuers.eq_some_iff 0 3).mp rfl
    refine ⟨r, hr, hh, hrescuers.within mainCode_nested 0 r hr _ List.mem_cons_self ?_⟩
    exact ⟨by decide, by decide, rfl⟩
  · obtain ⟨other, hother, hsame⟩ := hreordered _ (List.reverse_perm _)
    exact ⟨other, hother, (hsame 0).1 (mainCode_spansDiffer 0)⟩
  · obtain ⟨r, k, hr, -, hk, hleast⟩ :=
      hensured program ⟨0⟩ mainScope program_listed rfl 1 4 rfl
    exact ⟨r, k, hr, hk, hleast _ List.mem_cons_self ⟨by decide, by decide, rfl⟩⟩

end InnermostHandlerWitness

end Unwind
