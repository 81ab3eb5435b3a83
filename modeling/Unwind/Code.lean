import Unwind.Instr

/-!
The code of a scope: its instructions at fixed places, the places that labels name, and the
protected regions that say which handler covers which instructions.
-/

namespace Unwind

/-- A half-open range of places, with the handlers that cover it. -/
structure Region where
  start : Nat
  stop : Nat
  rescuer : Option Nat
  ensurer : Option Nat
  deriving DecidableEq

def Region.covers (r : Region) (pc : Nat) : Bool := r.start ≤ pc && pc < r.stop

def Region.span (r : Region) : Nat := r.stop - r.start

structure Code where
  instrs : Array Instr
  labels : List (Label × Nat)
  regions : List Region
  deriving DecidableEq

def Code.length (code : Code) : Nat := code.instrs.size

def Code.instr? (code : Code) (pc : Nat) : Option Instr := code.instrs[pc]?

/-- The registers that a frame of this code needs: one more than the greatest it mentions. -/
def Code.registerCount (code : Code) : Nat :=
  (code.instrs.toList.flatMap Instr.registers).foldl (fun n r => max n (r.toNat + 1)) 0

/-- The place that a label names; the exit is past the last instruction. -/
def Code.place? (code : Code) (label : Label) : Option Nat :=
  if label = .exit then some code.length else code.labels.lookup label

/-! ## Handlers -/

/-- The region of least span, the first one on a tie. -/
def Region.narrowest? : List Region → Option Region
  | [] => none
  | r :: rest =>
      match Region.narrowest? rest with
      | none => some r
      | some best => if best.span < r.span then some best else some r

/-- The innermost region around a place among those with a handler of the given sort. -/
def Code.regionAt? (code : Code) (handler : Region → Option Nat) (pc : Nat) : Option Region :=
  Region.narrowest? (code.regions.filter fun r => r.covers pc && (handler r).isSome)

/-- Where a raise at a place is handled. -/
def Code.rescuerAt? (code : Code) (pc : Nat) : Option Nat :=
  (code.regionAt? Region.rescuer pc).bind Region.rescuer

/-- Where any other signal at a place is handled on its way out. -/
def Code.ensurerAt? (code : Code) (pc : Nat) : Option Nat :=
  (code.regionAt? Region.ensurer pc).bind Region.ensurer

/-! ## Text -/

/-- A place as at least four digits. -/
def placeText (pc : Nat) : String :=
  let digits := toString pc
  zeros (4 - digits.length) ++ digits

/-- Puts a label in front of the first one that is not smaller. -/
def Label.insert (l : Label) : List Label → List Label
  | [] => [l]
  | m :: rest => if l.toNat ≤ m.toNat then l :: m :: rest else m :: l.insert rest

/-- The labels of a place, in increasing order. -/
def Code.labelsAt (code : Code) (pc : Nat) : List Label :=
  ((code.labels.filter fun entry => entry.2 == pc).map Prod.fst).foldr Label.insert []

def Code.instrLines (code : Code) (pc : Nat) (i : Instr) : String :=
  String.join ((code.labelsAt pc).map fun l => "  " ++ l.text ++ ":\n")
    ++ "    " ++ placeText pc ++ "  " ++ i.text ++ "\n"

def Region.line (r : Region) : String :=
  "  protect [" ++ toString r.start ++ ", " ++ toString r.stop ++ ")"
    ++ (r.rescuer.elim "" fun pc => " rescue " ++ placeText pc)
    ++ (r.ensurer.elim "" fun pc => " ensure " ++ placeText pc) ++ "\n"

/-- The code line by line: every instruction behind the labels of its place, then the
regions. -/
def Code.text (code : Code) : String :=
  String.join (code.instrs.toList.zipIdx.map fun (i, pc) => code.instrLines pc i)
    ++ String.join (code.regions.map Region.line)

section Witness

/-- The inner region wins, and the outer one takes over behind it. -/
example :
    let code : Code := ⟨#[], [], [⟨0, 6, some 8, none⟩, ⟨2, 4, some 7, none⟩]⟩
    code.rescuerAt? 1 = some 8 ∧ code.rescuerAt? 3 = some 7 ∧ code.rescuerAt? 5 = some 8 ∧
      code.rescuerAt? 6 = none := by
  decide

example :
    let code : Code :=
      ⟨#[.clearPending, .line 3], [(⟨5⟩, 0), (⟨2⟩, 0), (⟨1⟩, 1)], [⟨0, 1, some 1, none⟩]⟩
    code.text = "  L2:\n  L5:\n    0000  clear_pending\n  L1:\n    0001  line 3\n" ++
      "  protect [0, 1) rescue 0001\n" := by
  decide +kernel

end Witness

end Unwind
