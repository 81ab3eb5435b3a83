import Unwind.Proofs.Encoding
import Unwind.Proofs.WrittenListing

/-!
Values and instructions are read back from their text.

Whatever holds no float and is not nested too deep is what is read from the text of its JSON, and
so no two values, operands or instructions are written alike.
-/

namespace Unwind

/-! ## Floats -/

mutual

/-- No float stands in the value, at any depth. -/
def Value.isFloatFree : Value → Bool
  | .float _ => false
  | .exception e => e.isFloatFree
  | _ => true
termination_by structural v => v

def Exception.isFloatFree : Exception → Bool
  | ⟨_, _, _, exitValue, _⟩ => Value.optionFloatFree exitValue
termination_by structural e => e

def Value.optionFloatFree : Option Value → Bool
  | none => true
  | some v => v.isFloatFree
termination_by structural v => v

end

def Operand.isFloatFree : Operand → Bool
  | .const v => v.isFloatFree
  | _ => true

/-- No float stands in the instruction, in its constants or below them. -/
def Instr.isFloatFree : Instr → Bool
  | .loadConst value _ => value.isFloatFree
  | i => i.operands.all Operand.isFloatFree

section Whole

open Json

theorem Json.allItems_map {α : Type} {test : Numeral → Bool} {write : α → Json} (as : List α) :
    allItems test (as.map write) = as.all fun a => (write a).all test := by
  induction as with
  | nil => rfl
  | cons a as ih => rw [List.map_cons, allItems, ih, List.all_cons]

@[simp]
theorem Json.all_ofWord (n : UInt32) : (Json.ofWord n).all Numeral.isWhole = true := rfl

@[simp]
theorem Reg.all_isWhole (r : Reg) : r.toJson.all Numeral.isWhole = true := rfl

@[simp]
theorem Label.all_isWhole (l : Label) : l.toJson.all Numeral.isWhole = true := rfl

@[simp]
theorem ScopeId.all_isWhole (id : ScopeId) : id.toJson.all Numeral.isWhole = true := rfl

@[simp]
theorem BlockMode.all_isWhole (mode : BlockMode) : mode.toJson.all Numeral.isWhole = true := rfl

theorem Json.all_ofOption {α : Type} {write : α → Json}
    (hwrite : ∀ a, (write a).all Numeral.isWhole = true) (o : Option α) :
    (Json.ofOption write o).all Numeral.isWhole = true := by
  cases o with
  | none => rfl
  | some a => exact hwrite a

mutual

/-- All numbers in the JSON of a value are whole if and only if it is free of floats. -/
theorem Value.all_isWhole : (v : Value) → v.toJson.all Numeral.isWhole = v.isFloatFree
  | .nil => rfl
  | .bool _ => rfl
  | .int _ => rfl
  | .float _ => rfl
  | .str _ => rfl
  | .exception e => (Bool.and_true _).trans e.all_isWhole

theorem Exception.all_isWhole : (e : Exception) → e.toJson.all Numeral.isWhole = e.isFloatFree
  | ⟨className, message, reason, exitValue, backtrace⟩ => by
      have hreason := Json.all_ofOption (fun r : JumpReason => (rfl : r.toJson.all _ = true)) reason
      have hexit := Value.option_all_isWhole exitValue
      simp [Exception.toJson, Exception.isFloatFree, all, allMembers, allItems_map, hreason, hexit]

theorem Value.option_all_isWhole : (o : Option Value) →
    (Value.optionToJson o).all Numeral.isWhole = Value.optionFloatFree o
  | none => rfl
  | some v => v.all_isWhole

end

@[simp]
theorem Operand.all_isWhole (o : Operand) : o.toJson.all Numeral.isWhole = o.isFloatFree := by
  cases o with
  | const v => exact (Bool.and_true _).trans v.all_isWhole
  | _ => rfl

theorem Instr.all_isWhole (i : Instr) : i.toJson.all Numeral.isWhole = i.isFloatFree := by
  have hreg := Json.all_ofOption Reg.all_isWhole
  have hscope := Json.all_ofOption ScopeId.all_isWhole
  cases i with
  | loadConst value dst =>
      simp [toJson, withOp, isFloatFree, all, allMembers, value.all_isWhole]
  | branch truthy cond target =>
      cases truthy <;> simp [toJson, withOp, isFloatFree, operands, all, allMembers]
  | _ =>
      simp [toJson, withOp, isFloatFree, operands, all, allMembers, allItems_map, hreg, hscope]

end Whole

/-! ## Text -/

/-- The value in a text. -/
def Value.ofText? (emptyCounts : Bool) (source : String) : Option Value :=
  (Json.read? nestingLimit source).bind (Value.ofJson? emptyCounts)

/-- The instruction in a text. -/
def Instr.ofText? (numbered : Bool) (source : String) : Option Instr :=
  (Json.read? nestingLimit source).bind (Instr.ofJson? numbered)

/-- What is decoded from its JSON is read back from its text. -/
theorem Json.Decodes.bind_read? {α : Type} {read : Json → Option α} {j : Json} {a : α}
    (hdecodes : j.Decodes read a) (hexact : j.Exact) (hwhole : j.all Numeral.isWhole = true)
    (hdepth : j.depth ≤ nestingLimit) : (Json.read? nestingLimit j.write).bind read = some a := by
  rw [Json.read?_write (hexact hwhole) hdepth]
  exact hdecodes j (.refl j (Json.usable_of_all j hwhole))

theorem Value.ofText?_write {v : Value} (hfree : v.isFloatFree = true)
    (hdepth : v.toJson.depth ≤ nestingLimit) (emptyCounts : Bool) :
    Value.ofText? emptyCounts v.toJson.write = some v :=
  (v.decodes emptyCounts).bind_read? v.exact (v.all_isWhole.trans hfree) hdepth

theorem Instr.ofText?_write {i : Instr} (hfree : i.isFloatFree = true)
    (hdepth : i.toJson.depth ≤ nestingLimit) (numbered : Bool) :
    Instr.ofText? numbered i.toJson.write = some i :=
  (i.decodes numbered).bind_read? i.exact (i.all_isWhole.trans hfree) hdepth

/-- Operands with the same JSON are the same. -/
theorem Operand.toJson_inj {o p : Operand} (hfree : o.isFloatFree = true)
    (hsame : o.toJson = p.toJson) : o = p := by
  have husable := Json.usable_of_all o.toJson (o.all_isWhole.trans hfree)
  have ho : Operand.ofJson? o.toJson = some o := o.decodes _ (.refl _ husable)
  have hp : Operand.ofJson? p.toJson = some p := p.decodes _ (.refl _ (hsame ▸ husable))
  rw [← hsame, ho] at hp
  exact Option.some.inj hp

/-- A value, or an instruction, that holds no float and whose JSON is not nested deeper than the
reader goes is what is read from the text of its JSON.  So operands, values and instructions that
differ are written differently: nil as an operand, as a constant and as the text of a constant,
the receiver, and whatever is absent or nil. -/
theorem text_round_trip :
    (∀ v : Value, v.isFloatFree = true → v.toJson.depth ≤ nestingLimit →
      ∀ emptyCounts, Value.ofText? emptyCounts v.toJson.write = some v) ∧
    (∀ i : Instr, i.isFloatFree = true → i.toJson.depth ≤ nestingLimit →
      ∀ numbered, Instr.ofText? numbered i.toJson.write = some i) ∧
    (∀ o p : Operand, o.isFloatFree = true → o ≠ p → o.toJson ≠ p.toJson) ∧
    (∀ v w : Value, v.isFloatFree = true → w.isFloatFree = true →
      v.toJson.depth ≤ nestingLimit → w.toJson.depth ≤ nestingLimit → v ≠ w →
      v.toJson.write ≠ w.toJson.write) ∧
    ∀ i k : Instr, i.isFloatFree = true → k.isFloatFree = true →
      i.toJson.depth ≤ nestingLimit → k.toJson.depth ≤ nestingLimit → i ≠ k →
      i.toJson.write ≠ k.toJson.write := by
  refine ⟨fun v => Value.ofText?_write, fun i => Instr.ofText?_write, ?_, ?_, ?_⟩
  · intro o p hfree hne hsame
    exact hne (Operand.toJson_inj hfree hsame)
  · intro v w hv hw hvdepth hwdepth hne hsame
    have hread := Value.ofText?_write hv hvdepth false
    rw [hsame, Value.ofText?_write hw hwdepth] at hread
    exact hne (Option.some.inj hread).symm
  · intro i k hi hk hidepth hkdepth hne hsame
    have hread := Instr.ofText?_write hi hidepth false
    rw [hsame, Instr.ofText?_write hk hkdepth] at hread
    exact hne (Option.some.inj hread).symm

namespace RoundTripWitness

/-- A refused return of nothing, refused again with the exception as its value. -/
def refused : Value :=
  .exception (.localJump .byReturn
    (.exception ⟨"Ä\"", "line\n", some .byBreak, some .nil, ["at 1"]⟩) "unexpected return" [])

/-- The same with a value that is absent. -/
def valueless : Value :=
  .exception (.localJump .byReturn
    (.exception ⟨"Ä\"", "line\n", some .byBreak, none, ["at 1"]⟩) "unexpected return" [])

def calling (dst : Option Reg) : Instr :=
  .callMethod ⟨3⟩ [.nil, .const .nil, .receiver, .const (.str "nil"), .const (.int (-5))] dst

theorem text_round_trip_refused :
    (∀ emptyCounts, Value.ofText? emptyCounts refused.toJson.write = some refused) ∧
    (∀ numbered, Instr.ofText? numbered (calling none).toJson.write = some (calling none)) ∧
    Operand.toJson .nil ≠ Operand.toJson (.const .nil) ∧
    refused.toJson.write ≠ valueless.toJson.write ∧
    (calling none).toJson.write ≠ (calling (some ⟨0⟩)).toJson.write := by
  obtain ⟨hvalue, hinstr, hoperands, hvalues, hinstrs⟩ := text_round_trip
  refine ⟨hvalue refused rfl (by decide), hinstr (calling none) rfl (by decide), ?_, ?_, ?_⟩
  · exact hoperands .nil (.const .nil) rfl nofun
  · exact hvalues refused valueless rfl rfl (by decide) (by decide) (by decide)
  · exact hinstrs (calling none) (calling (some ⟨0⟩)) rfl rfl (by decide) (by decide) (by decide)

end RoundTripWitness

end Unwind
