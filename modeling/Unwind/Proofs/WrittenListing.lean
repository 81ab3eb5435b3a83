import Unwind.Listing.Codec
import Unwind.Proofs.JsonText

/-!
Encodings are read back from their text.

The whole numbers in an encoding have at most 64 bits, so that the encoding of a value, of an
instruction or of a listing that holds no float is read back from its text.
-/

namespace Unwind

def Numeral.isWhole : Numeral → Bool
  | .whole _ => true
  | .float _ => false

namespace Json

/-- Every number in the value is exact if none is a float. -/
def Exact (j : Json) : Prop := j.all Numeral.isWhole = true → j.all Numeral.isExact = true

theorem allItems_eq_true {test : Numeral → Bool} {items : List Json} :
    allItems test items = true ↔ ∀ j ∈ items, j.all test = true := by
  induction items with
  | nil => simp [allItems]
  | cons j items ih => simp [allItems, ih]

theorem allMembers_eq_true {test : Numeral → Bool} {members : List (String × Json)} :
    allMembers test members = true ↔ ∀ m ∈ members, m.2.all test = true := by
  induction members with
  | nil => simp [allMembers]
  | cons m members ih => simp [allMembers, ih]

@[simp]
theorem exact_null : Exact .null := fun _ => rfl

@[simp]
theorem exact_bool (b : Bool) : Exact (.bool b) := fun _ => rfl

@[simp]
theorem exact_text (s : String) : Exact (.text s) := fun _ => rfl

@[simp]
theorem exact_ofWord (n : UInt32) : Exact (.ofWord n) := by
  intro _
  have hlt := n.toNat_lt
  simp only [ofWord, all, Numeral.isExact, Bool.and_eq_true, decide_eq_true_eq]
  omega

theorem exact_list {items : List Json} (hitems : ∀ j ∈ items, Exact j) : Exact (.list items) := by
  intro hwhole
  exact allItems_eq_true.mpr fun j hj => hitems j hj (allItems_eq_true.mp hwhole j hj)

theorem exact_map {α : Type} {write : α → Json} (hwrite : ∀ a, Exact (write a)) (as : List α) :
    Exact (.list (as.map write)) := by
  apply exact_list
  intro j hj
  obtain ⟨a, -, rfl⟩ := List.mem_map.mp hj
  exact hwrite a

theorem exact_record {members : List (String × Json)} (hmembers : ∀ m ∈ members, Exact m.2) :
    Exact (.record members) := by
  intro hwhole
  exact allMembers_eq_true.mpr fun m hm => hmembers m hm (allMembers_eq_true.mp hwhole m hm)

theorem exact_ofOption {α : Type} {write : α → Json} (hwrite : ∀ a, Exact (write a))
    (o : Option α) : Exact (.ofOption write o) := by
  cases o with
  | none => exact exact_null
  | some a => exact hwrite a

mutual

theorem usable_of_all {test : Numeral → Bool} : (j : Json) → j.all test = true →
    j.isUsable = true
  | .null, _ => rfl
  | .bool _, _ => rfl
  | .number _, _ => rfl
  | .text _, _ => rfl
  | .list items, hitems => usable_of_allItems items hitems
  | .record members, hmembers => usable_of_allMembers members hmembers

theorem usable_of_allItems {test : Numeral → Bool} : (items : List Json) →
    allItems test items = true → areUsable items = true
  | [], _ => rfl
  | j :: items, hitems => by
      obtain ⟨hj, hitems⟩ := Bool.and_eq_true_iff.mp hitems
      exact Bool.and_eq_true_iff.mpr ⟨usable_of_all j hj, usable_of_allItems items hitems⟩

theorem usable_of_allMembers {test : Numeral → Bool} : (members : List (String × Json)) →
    allMembers test members = true → membersUsable members = true
  | [], _ => rfl
  | (_, j) :: members, hmembers => by
      obtain ⟨hj, hmembers⟩ := Bool.and_eq_true_iff.mp hmembers
      exact Bool.and_eq_true_iff.mpr ⟨usable_of_all j hj, usable_of_allMembers members hmembers⟩

end

end Json

open Json

@[simp]
theorem Reg.exact (r : Reg) : r.toJson.Exact := exact_ofWord r.index

@[simp]
theorem Label.exact (l : Label) : l.toJson.Exact := exact_ofWord l.number

@[simp]
theorem ScopeId.exact (id : ScopeId) : id.toJson.Exact := exact_ofWord id.index

theorem Value.exact_int (n : Int64) : Exact (.number (.whole n.toInt)) := by
  intro _
  have hlower := n.le_toInt
  have hupper := n.toInt_lt
  simp only [all, Numeral.isExact, Bool.and_eq_true, decide_eq_true_eq]
  omega

mutual

theorem Value.exact : (v : Value) → v.toJson.Exact
  | .nil => exact_text _
  | .bool b => exact_record (by simp)
  | .int n => exact_record (by simpa using Value.exact_int n)
  | .float x => nofun
  | .str s => exact_record (by simp)
  | .exception e => exact_record (by simpa using e.exact)

theorem Exception.exact : (e : Exception) → e.toJson.Exact
  | ⟨className, message, reason, exitValue, backtrace⟩ => by
      have hreason := exact_ofOption (fun r : JumpReason => exact_text r.text) reason
      have hexit := Value.option_exact exitValue
      have htrace := exact_map exact_text backtrace
      rw [Exception.toJson]
      exact exact_record (by simpa using ⟨hreason, hexit, htrace⟩)

theorem Value.option_exact : (o : Option Value) → (Value.optionToJson o).Exact
  | none => exact_null
  | some v => v.exact

end

@[simp]
theorem Operand.exact (o : Operand) : o.toJson.Exact := by
  cases o with
  | reg r => exact exact_record (by simp)
  | const v => exact exact_record (by simpa using v.exact)
  | receiver => exact exact_text _
  | nil => exact exact_text _

theorem Instr.exact_withOp {op : String} {fields : List (String × Json)}
    (hfields : ∀ m ∈ fields, m.2.Exact) : (withOp op fields).Exact := by
  apply exact_record
  intro m hm
  rcases List.mem_cons.mp hm with rfl | hm
  · exact exact_text op
  · exact hfields m hm

theorem Instr.exact (i : Instr) : i.toJson.Exact := by
  have hargs := exact_map Operand.exact
  have hreg := exact_ofOption Reg.exact
  have hscope := exact_ofOption ScopeId.exact
  cases i with
  | loadConst value dst => exact exact_withOp (by simp [value.exact])
  | branch truthy cond target => cases truthy <;> exact exact_withOp (by simp)
  | ret value method => exact exact_withOp (by simp [hscope])
  | callMethod method args dst => exact exact_withOp (by simp [hargs, hreg])
  | callClosure closure mode args dst =>
      have hmode : mode.toJson.Exact := exact_text mode.text
      exact exact_withOp (by simp [hargs, hreg, hmode])
  | _ => exact exact_withOp (by simp)

theorem CodeItem.exact (item : CodeItem) : item.toJson.Exact := by
  cases item with
  | label l => exact exact_record (by simp)
  | instr i => exact i.exact

theorem RegionDraft.exact (r : RegionDraft) : r.toJson.Exact := by
  have hlabel := exact_ofOption Label.exact
  exact exact_record (by simp [hlabel])

theorem ScopeEntry.exact (s : ScopeEntry) : s.toJson.Exact := by
  have hscope := exact_ofOption ScopeId.exact
  have hcode := exact_map CodeItem.exact
  have hregions := exact_map RegionDraft.exact
  exact exact_record (by simp [hscope, hcode, hregions])

theorem Listing.exact (l : Listing) : l.toJson.Exact := by
  have hscopes := exact_map ScopeEntry.exact
  exact exact_record (by simp [hscopes])

/-- A listing without floats is read back from its text, unless it is nested too deep. -/
theorem Listing.read?_write {l : Listing} {limit : Nat}
    (hwhole : l.toJson.all Numeral.isWhole = true) (hdepth : l.toJson.depth ≤ limit) :
    Json.read? limit l.toJson.write = some l.toJson :=
  Json.read?_write (l.exact hwhole) hdepth

end Unwind
