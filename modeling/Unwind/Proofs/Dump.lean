import Mathlib.Data.List.Nodup
import Mathlib.Data.List.Sort
import Unwind.Proofs.ScopeBuilding

/-!
The text of code, line by line.

The text shows every instruction and every region, and in front of an instruction the labels of its
place.  Labels past the last instruction are not shown, so that a branch to one of them has a target
which no line names.
-/

namespace Unwind

/-! ## Lines -/

/-- A line of the text of code. -/
inductive CodeLine
  | label (l : Label)
  | instr (i : Instr) (pc : Nat)
  | region (r : Region)
  deriving DecidableEq

namespace CodeLine

def text : CodeLine → String
  | .label l => "  " ++ l.text ++ ":\n"
  | .instr i pc => "    " ++ placeText pc ++ "  " ++ i.text ++ "\n"
  | .region r => r.line

def label? : CodeLine → Option Label
  | .label l => some l
  | _ => none

def instr? : CodeLine → Option (Instr × Nat)
  | .instr i pc => some (i, pc)
  | _ => none

def region? : CodeLine → Option Region
  | .region r => some r
  | _ => none

theorem label?_eq_some {line : CodeLine} {l : Label} :
    line.label? = some l ↔ line = .label l := by
  cases line <;> simp [label?]

end CodeLine

variable {code : Code} {l : Label} {pc : Nat}

def Code.labelLines (code : Code) (pc : Nat) : List CodeLine := (code.labelsAt pc).map .label

/-- The lines of an instruction, with the labels of its place in front. -/
def Code.placeLines (code : Code) (entry : Instr × Nat) : List CodeLine :=
  code.labelLines entry.2 ++ [.instr entry.1 entry.2]

/-- The lines of the text. -/
def Code.lines (code : Code) : List CodeLine :=
  code.instrs.toList.zipIdx.flatMap code.placeLines ++ code.regions.map .region

/-- The lines of a text that shows all labels: those of the end stand behind all instructions. -/
def Code.allLines (code : Code) : List CodeLine :=
  code.instrs.toList.zipIdx.flatMap code.placeLines ++ code.labelLines code.length ++
    code.regions.map .region

theorem join_flatMap_text {α : Type} (f : α → List CodeLine) (xs : List α) :
    String.join ((xs.flatMap f).map CodeLine.text) =
      String.join (xs.map fun x => String.join ((f x).map CodeLine.text)) := by
  induction xs with
  | nil => rfl
  | cons x xs ih =>
      rw [List.flatMap_cons, List.map_append, String.join_append, ih, List.map_cons,
        String.join_cons]

theorem Code.join_placeLines (code : Code) (entry : Instr × Nat) :
    String.join ((code.placeLines entry).map CodeLine.text) =
      code.instrLines entry.2 entry.1 := by
  simp only [placeLines, labelLines, instrLines, List.map_append, List.map_map, List.map_cons,
    List.map_nil, String.join_append, String.join_cons, String.join_nil, String.append_empty,
    String.append_assoc, Function.comp_def, CodeLine.text]

theorem Code.text_eq_join (code : Code) :
    code.text = String.join (code.lines.map CodeLine.text) := by
  simp only [text, lines, List.map_append, String.join_append, join_flatMap_text,
    join_placeLines, List.map_map, Function.comp_def, CodeLine.text]

/-! ## The labels of a place -/

section Order

abbrev Label.NumberLE (l m : Label) : Prop := l.toNat ≤ m.toNat

instance : Std.Total Label.NumberLE := ⟨fun l m => Nat.le_total l.toNat m.toNat⟩

instance : IsTrans Label Label.NumberLE := ⟨fun _ _ _ => Nat.le_trans⟩

theorem Label.insert_eq_orderedInsert (l : Label) (ls : List Label) :
    l.insert ls = ls.orderedInsert Label.NumberLE l := by
  induction ls with
  | nil => rfl
  | cons m rest ih => rw [Label.insert, List.orderedInsert_cons, ih]

theorem Code.labelsAt_eq_insertionSort (code : Code) (pc : Nat) :
    code.labelsAt pc = ((code.labels.filter fun entry => entry.2 == pc).map Prod.fst).insertionSort
      Label.NumberLE := by
  have hinsert : Label.insert = List.orderedInsert Label.NumberLE := by
    funext l ls
    exact l.insert_eq_orderedInsert ls
  rw [labelsAt, hinsert, List.insertionSort]

end Order

namespace Code

theorem labelsAt_perm (code : Code) (pc : Nat) :
    (code.labelsAt pc).Perm ((code.labels.filter fun entry => entry.2 == pc).map Prod.fst) := by
  rw [labelsAt_eq_insertionSort]
  exact List.perm_insertionSort _ _

theorem labelsAt_sorted (code : Code) (pc : Nat) :
    (code.labelsAt pc).Pairwise Label.NumberLE := by
  rw [labelsAt_eq_insertionSort]
  exact List.pairwise_insertionSort _ _

theorem mem_labelsAt : l ∈ code.labelsAt pc ↔ (l, pc) ∈ code.labels := by
  rw [(code.labelsAt_perm pc).mem_iff]
  simp

theorem labelsAt_nodup (honce : (code.labels.map Prod.fst).Nodup) (pc : Nat) :
    (code.labelsAt pc).Nodup := by
  rw [(code.labelsAt_perm pc).nodup_iff]
  exact honce.sublist (List.filter_sublist.map Prod.fst)

/-- The labels of a place are shown in increasing order. -/
theorem labelsAt_increasing (honce : (code.labels.map Prod.fst).Nodup) (pc : Nat) :
    (code.labelsAt pc).Pairwise fun l m => l.toNat < m.toNat := by
  refine ((code.labelsAt_sorted pc).and (labelsAt_nodup honce pc)).imp ?_
  rintro l m ⟨hle, hne⟩
  exact Nat.lt_of_le_of_ne hle fun hsame => hne (Label.toNat_inj hsame)

/-- A label has one place. -/
theorem place_unique (honce : (code.labels.map Prod.fst).Nodup) {other : Nat}
    (hl : (l, pc) ∈ code.labels) (hother : (l, other) ∈ code.labels) : pc = other :=
  congrArg Prod.snd (List.inj_on_of_nodup_map honce hl hother rfl)

/-- The order of the label table does not matter. -/
theorem labelsAt_of_perm {labels : List (Label × Nat)} (hperm : labels.Perm code.labels)
    (pc : Nat) : ({ code with labels := labels } : Code).labelsAt pc = code.labelsAt pc := by
  have hantisymm (l m : Label) (hlm : l.NumberLE m) (hml : m.NumberLE l) : l = m :=
    Label.toNat_inj (Nat.le_antisymm hlm hml)
  refine List.Perm.eq_of_pairwise (fun l m _ _ => hantisymm l m) (labelsAt_sorted _ pc)
    (labelsAt_sorted code pc) ?_
  calc
    (({ code with labels := labels } : Code).labelsAt pc).Perm _ := labelsAt_perm _ pc
    List.Perm _ ((code.labels.filter fun entry => entry.2 == pc).map Prod.fst) :=
      (hperm.filter _).map Prod.fst
    List.Perm _ (code.labelsAt pc) := (labelsAt_perm code pc).symm

theorem lines_of_perm {labels : List (Label × Nat)} (hperm : labels.Perm code.labels) :
    ({ code with labels := labels } : Code).lines = code.lines := by
  have hplace : ({ code with labels := labels } : Code).placeLines = code.placeLines := by
    funext entry
    rw [placeLines, placeLines, labelLines, labelLines, labelsAt_of_perm hperm]
  rw [lines, lines, hplace]

/-! ## What is shown -/

theorem filterMap_instr?_lines (code : Code) :
    code.lines.filterMap CodeLine.instr? = code.instrs.toList.zipIdx := by
  simp [lines, placeLines, labelLines, List.filterMap_append, List.filterMap_flatMap,
    List.filterMap_map, Function.comp_def, CodeLine.instr?]

theorem filterMap_region?_lines (code : Code) :
    code.lines.filterMap CodeLine.region? = code.regions := by
  simp [lines, placeLines, labelLines, List.filterMap_append, List.filterMap_flatMap,
    List.filterMap_map, Function.comp_def, CodeLine.region?]

theorem filterMap_label?_placeLines (code : Code) (entry : Instr × Nat) :
    (code.placeLines entry).filterMap CodeLine.label? = code.labelsAt entry.2 := by
  have hown : CodeLine.label? ∘ CodeLine.label = some := rfl
  have hlast : [CodeLine.instr entry.1 entry.2].filterMap CodeLine.label? = [] := rfl
  rw [placeLines, labelLines, List.filterMap_append, List.filterMap_map, hown, hlast,
    List.filterMap_some, List.append_nil]

theorem filterMap_label?_lines (code : Code) :
    code.lines.filterMap CodeLine.label? = (List.range code.length).flatMap code.labelsAt := by
  have hregions : (code.regions.map CodeLine.region).filterMap CodeLine.label? = [] := by
    simp [CodeLine.label?]
  have hplaces : code.instrs.toList.zipIdx.map Prod.snd = List.range code.length := by
    rw [List.zipIdx_map_snd, Array.length_toList, length, List.range_eq_range']
  rw [lines, List.filterMap_append, hregions, List.append_nil, List.filterMap_flatMap, ← hplaces,
    List.flatMap_map]
  exact List.flatMap_congr fun entry _ => code.filterMap_label?_placeLines entry

theorem filterMap_label?_lines_nodup (honce : (code.labels.map Prod.fst).Nodup) :
    (code.lines.filterMap CodeLine.label?).Nodup := by
  rw [filterMap_label?_lines, List.nodup_flatMap]
  refine ⟨fun pc _ => labelsAt_nodup honce pc, ?_⟩
  refine List.nodup_range.pairwise_of_forall_ne fun pc _ other _ hne => ?_
  intro l hl hother
  exact hne (place_unique honce (mem_labelsAt.mp hl) (mem_labelsAt.mp hother))

/-- A line shows a label if its place has an instruction. -/
theorem label_mem_lines : CodeLine.label l ∈ code.lines ↔
    ∃ pc, (l, pc) ∈ code.labels ∧ pc < code.length := by
  have hmem : CodeLine.label l ∈ code.lines ↔ l ∈ code.lines.filterMap CodeLine.label? := by
    simp only [List.mem_filterMap, CodeLine.label?_eq_some, exists_eq_right]
  simp only [hmem, filterMap_label?_lines, List.mem_flatMap, List.mem_range, mem_labelsAt]
  exact exists_congr fun pc => and_comm

theorem count_label_lines (honce : (code.labels.map Prod.fst).Nodup)
    (hl : (l, pc) ∈ code.labels) :
    code.lines.count (.label l) = if pc < code.length then 1 else 0 := by
  have hcount : code.lines.count (.label l) =
      (code.lines.filterMap CodeLine.label?).count l := by
    rw [List.count_filterMap, List.count]
    refine List.countP_congr fun line _ => ?_
    simp only [beq_iff_eq]
    exact CodeLine.label?_eq_some.symm
  have hshown : l ∈ code.lines.filterMap CodeLine.label? ↔ pc < code.length := by
    rw [List.mem_filterMap]
    simp only [CodeLine.label?_eq_some, exists_eq_right, label_mem_lines]
    constructor
    · rintro ⟨other, hother, hlt⟩
      rwa [place_unique honce hl hother]
    · exact fun hlt => ⟨pc, hl, hlt⟩
  rw [hcount, (filterMap_label?_lines_nodup honce).count]
  simp only [hshown]

/-- Behind the line of a label stand the further labels of its place, and then the instruction. -/
theorem behind_label {entries : List (Instr × Nat)} {last before after : List CodeLine}
    (hlast : ∀ line ∈ last, line.label? = none)
    (hsplit : entries.flatMap code.placeLines ++ last = before ++ .label l :: after) :
    ∃ i pc less more rest, (i, pc) ∈ entries ∧ code.labelsAt pc = less ++ l :: more ∧
      after = more.map .label ++ .instr i pc :: rest := by
  induction entries generalizing before with
  | nil =>
      have hl : CodeLine.label l ∈ last := by
        rw [List.flatMap_nil, List.nil_append] at hsplit
        rw [hsplit]
        exact List.mem_append_right _ List.mem_cons_self
      cases hlast _ hl
  | cons entry entries ih =>
      obtain ⟨i, pc⟩ := entry
      rw [List.flatMap_cons, placeLines, List.append_assoc, List.append_assoc] at hsplit
      rcases List.append_eq_append_iff.mp hsplit with ⟨gap, -, hgap⟩ | ⟨gap, hlabels, hgap⟩
      · -- the label stands behind the instruction of this entry
        cases gap with
        | nil => cases hgap
        | cons line gap =>
            obtain ⟨j, place, less, more, rest, hmem, hat, hafter⟩ := ih (List.cons.inj hgap).2
            exact ⟨j, place, less, more, rest, List.mem_cons_of_mem _ hmem, hat, hafter⟩
      · -- the label is one of this entry
        cases gap with
        | nil => cases hgap
        | cons line gap =>
            obtain ⟨rfl, hafter⟩ := List.cons.inj hgap
            obtain ⟨less, shown, hat, -, hshown⟩ := List.map_eq_append_iff.mp hlabels
            obtain ⟨m, more, rfl, hm, rfl⟩ := List.map_eq_cons_iff.mp hshown
            obtain rfl := CodeLine.label.inj hm
            exact ⟨i, pc, less, more, _, List.mem_cons_self, hat, hafter⟩

/-- Behind the line of a label stand the greater labels of its place, and then the instruction at
its place. -/
theorem after_label (honce : (code.labels.map Prod.fst).Nodup) {before after : List CodeLine}
    (hsplit : code.lines = before ++ .label l :: after) :
    ∃ (pc : Nat) (i : Instr) (more : List Label) (rest : List CodeLine),
      (l, pc) ∈ code.labels ∧ code.instr? pc = some i ∧
      after = more.map .label ++ .instr i pc :: rest ∧
      ∀ m ∈ more, (m, pc) ∈ code.labels ∧ l.toNat < m.toNat := by
  have hregions : ∀ line ∈ code.regions.map CodeLine.region, line.label? = none := by
    intro line hline
    obtain ⟨r, -, rfl⟩ := List.mem_map.mp hline
    rfl
  obtain ⟨i, pc, less, more, rest, hmem, hat, hafter⟩ := behind_label hregions hsplit
  have hinstr : code.instr? pc = some i := by
    simpa [instr?] using List.mem_zipIdx_iff_getElem?.mp hmem
  have hincreasing := labelsAt_increasing honce pc
  rw [hat, List.pairwise_append, List.pairwise_cons] at hincreasing
  refine ⟨pc, i, more, rest, ?_, hinstr, hafter, ?_⟩
  · rw [← mem_labelsAt, hat]
    exact List.mem_append_right _ List.mem_cons_self
  · intro m hm
    refine ⟨?_, hincreasing.2.1.1 m hm⟩
    rw [← mem_labelsAt, hat]
    exact List.mem_append_right _ (List.mem_cons_of_mem _ hm)

/-- The text shows all labels if and only if none is at the end. -/
theorem text_eq_allLines_iff : code.text = String.join (code.allLines.map CodeLine.text) ↔
    ∀ l, (l, code.length) ∉ code.labels := by
  rw [text_eq_join, lines, allLines]
  simp only [List.map_append, String.join_append]
  constructor
  · intro hsame l hl
    obtain ⟨m, rest, hat⟩ := List.exists_cons_of_ne_nil (List.ne_nil_of_mem (mem_labelsAt.mpr hl))
    have hlength := congrArg String.length hsame
    simp only [labelLines, hat, List.map_cons, String.join_cons, CodeLine.text,
      String.length_append] at hlength
    have hmargin : "  ".length = 2 := rfl
    omega
  · intro hnone
    have hat : code.labelsAt code.length = [] := by
      rw [List.eq_nil_iff_forall_not_mem]
      exact fun l hl => hnone l (mem_labelsAt.mp hl)
    rw [labelLines, hat, List.map_nil, List.map_nil, String.join_nil, String.append_empty]

end Code

/-! ## Built code -/

theorem ScopeDraft.build_labels {d : ScopeDraft} {scope : String}
    (hbuild : d.build scope = .ok code) : (code.labels.map Prod.fst).Nodup := by
  simp only [build, Except.bind_eq_ok_iff] at hbuild
  obtain ⟨_, hplaced, _, -, regions, -, hcode⟩ := hbuild
  cases hcode
  exact (checkPlaced_eq_ok hplaced).2.1

/-- A branch of built code is to a label of the table, which a line shows unless it is at the
end. -/
theorem ScopeDraft.build_target {d : ScopeDraft} (hd : d.Drafted) {scope : String}
    (hbuild : d.build scope = .ok code) {i : Instr} (hi : i ∈ code.instrs)
    (htarget : i.branchTarget? = some l) (hexit : l ≠ .exit) :
    ∃ pc, (l, pc) ∈ code.labels ∧ pc ≤ code.length ∧
      (.label l ∈ code.lines ↔ pc < code.length) := by
  have hresolved := build_resolved hd hbuild
  obtain ⟨pc, hplace⟩ := hresolved.branches i hi l htarget
  have hl : (l, pc) ∈ code.labels := by
    simp only [Code.place?, hexit, ↓reduceIte] at hplace
    obtain ⟨before, after, hlabels, -⟩ := List.lookup_eq_some_iff.mp hplace
    rw [hlabels]
    exact List.mem_append_right _ List.mem_cons_self
  refine ⟨pc, hl, hresolved.places l pc hplace, ?_⟩
  rw [Code.label_mem_lines]
  constructor
  · rintro ⟨other, hother, hlt⟩
    rwa [Code.place_unique (build_labels hbuild) hl hother]
  · exact fun hlt => ⟨pc, hl, hlt⟩

/-- The text of built code shows every instruction once, in order, and every region once, in the
order of declaration.  A label has one line if its place has an instruction, in front of that
instruction and of the greater labels of the place, and it has none at the end of the code.  So the
text shows all labels, and all targets of branches, if and only if no label is at the end.  It does
not depend on the order of the label table. -/
theorem text_shows_labels_of_instrs {d : ScopeDraft} (hd : d.Drafted) {scope : String}
    (hbuild : d.build scope = .ok code) :
    code.text = String.join (code.lines.map CodeLine.text) ∧
    code.lines.filterMap CodeLine.instr? = code.instrs.toList.zipIdx ∧
    code.lines.filterMap CodeLine.region? = code.regions ∧
    (∀ l pc, (l, pc) ∈ code.labels →
      code.lines.count (.label l) = if pc < code.length then 1 else 0) ∧
    (∀ l before after, code.lines = before ++ .label l :: after →
      ∃ (pc : Nat) (i : Instr) (more : List Label) (rest : List CodeLine),
        (l, pc) ∈ code.labels ∧ code.instr? pc = some i ∧
        after = more.map .label ++ .instr i pc :: rest ∧
        ∀ m ∈ more, (m, pc) ∈ code.labels ∧ l.toNat < m.toNat) ∧
    (∀ i ∈ code.instrs, ∀ l, i.branchTarget? = some l → l ≠ .exit →
      ∃ pc, (l, pc) ∈ code.labels ∧ pc ≤ code.length ∧
        (.label l ∈ code.lines ↔ pc < code.length)) ∧
    (∀ labels, labels.Perm code.labels →
      ({ code with labels := labels } : Code).text = code.text) ∧
    (code.text = String.join (code.allLines.map CodeLine.text) ↔
      ∀ l, (l, code.length) ∉ code.labels) := by
  have honce := ScopeDraft.build_labels hbuild
  refine ⟨code.text_eq_join, code.filterMap_instr?_lines, code.filterMap_region?_lines, ?_, ?_, ?_,
    ?_, Code.text_eq_allLines_iff⟩
  · intro l pc hl
    exact Code.count_label_lines honce hl
  · intro l before after hsplit
    exact Code.after_label honce hsplit
  · intro i hi l htarget hexit
    exact ScopeDraft.build_target hd hbuild hi htarget hexit
  · intro labels hperm
    rw [Code.text_eq_join, Code.lines_of_perm hperm, ← Code.text_eq_join]

namespace DumpWitness

/-- Code with two labels in front of its first instruction, and one at its end. -/
def entry : ScopeEntry :=
  ⟨"<main>", .script, none,
    [.label ⟨5⟩, .label ⟨2⟩, .instr (.jump ⟨9⟩), .label ⟨1⟩, .instr .clearPending, .label ⟨9⟩],
    [.rescuing ⟨2⟩ ⟨1⟩ ⟨1⟩]⟩

def mainCode : Code :=
  ⟨#[.jump ⟨9⟩, .clearPending], [(⟨5⟩, 0), (⟨2⟩, 0), (⟨1⟩, 1), (⟨9⟩, 2)],
    [⟨0, 1, some 1, none⟩]⟩

theorem mainCode_built : entry.draft.build "<main>" = .ok mainCode := rfl

theorem text_shows_labels_of_main :
    entry.draft.build "<main>" = .ok mainCode ∧
    mainCode.lines.count (.label ⟨2⟩) = 1 ∧ mainCode.lines.count (.label ⟨9⟩) = 0 ∧
    (∃ (pc : Nat) (i : Instr) (more : List Label) (rest : List CodeLine),
      (⟨2⟩, pc) ∈ mainCode.labels ∧ mainCode.instr? pc = some i ∧
      [.label ⟨5⟩, .instr (.jump ⟨9⟩) 0, .label ⟨1⟩, .instr .clearPending 1,
        .region ⟨0, 1, some 1, none⟩] = more.map .label ++ .instr i pc :: rest ∧
      ∀ m ∈ more, (m, pc) ∈ mainCode.labels ∧ Label.toNat ⟨2⟩ < m.toNat) ∧
    ({ mainCode with labels := mainCode.labels.reverse } : Code).text = mainCode.text ∧
    mainCode.text ≠ String.join (mainCode.allLines.map CodeLine.text) := by
  obtain ⟨-, -, -, hcount, hafter, -, hperm, hall⟩ :=
    text_shows_labels_of_instrs entry.draft_drafted mainCode_built
  refine ⟨mainCode_built, ?_, ?_, ?_, ?_, ?_⟩
  · exact hcount ⟨2⟩ 0 (by decide)
  · exact hcount ⟨9⟩ 2 (by decide)
  · exact hafter ⟨2⟩ [] _ rfl
  · exact hperm _ (List.reverse_perm _)
  · exact fun hsame => hall.mp hsame ⟨9⟩ (by decide)

/-- A script that jumps to its end. -/
def ending : ScopeEntry :=
  ⟨"<main>", .script, none, [.instr (.jump ⟨0⟩), .label ⟨0⟩], []⟩

/-- The target of the jump has no line. -/
theorem target_not_shown :
    ∃ code, ending.draft.build "<main>" = .ok code ∧ (⟨0⟩, 1) ∈ code.labels ∧
      code.instr? 0 = some (.jump ⟨0⟩) ∧ code.text = "    0000  jump L0\n" ∧
      code.lines.count (.label ⟨0⟩) = 0 ∧
      String.join (code.allLines.map CodeLine.text) = "    0000  jump L0\n  L0:\n" :=
  ⟨_, rfl, by decide, rfl, by decide +kernel, by decide, by decide +kernel⟩

end DumpWitness

end Unwind
