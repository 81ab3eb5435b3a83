import Unwind.Decimal

/-!
JSON values.

A value keeps what a reader of unit files has to see: the order of the members of a record,
repeated names, and whether a number was written as a whole number.  A part that is written
correctly but stands for nothing, such as a number beyond the range of doubles, is `unusable`;
it does no harm where nobody looks at it.
-/

namespace Unwind

/-- A number: whole if its text has neither a fraction nor an exponent and fits into 64 bits,
and a float otherwise.  The text `-0` is a float too, since no whole number is negative zero. -/
inductive Numeral
  | whole (n : Int)
  | float (x : Float)
  deriving DecidableEq

/-- Every number can be taken as a float. -/
def Numeral.toFloat : Numeral → Float
  | .whole n => if n < 0 then -(Float.ofNat n.natAbs) else Float.ofNat n.natAbs
  | .float x => x

inductive Json
  | null
  | bool (b : Bool)
  | number (n : Numeral)
  | text (s : String)
  | list (items : List Json)
  | record (members : List (String × Json))
  | unusable

mutual

/-- Whether every part of a value stands for something. -/
def Json.isUsable : Json → Bool
  | .null => true
  | .bool _ => true
  | .number _ => true
  | .text _ => true
  | .list items => Json.areUsable items
  | .record members => Json.membersUsable members
  | .unusable => false

def Json.areUsable : List Json → Bool
  | [] => true
  | item :: items => item.isUsable && Json.areUsable items

def Json.membersUsable : List (String × Json) → Bool
  | [] => true
  | (_, item) :: members => item.isUsable && Json.membersUsable members

end

/-- The first member of a given name. -/
def Json.member? (members : List (String × Json)) (name : String) : Option Json :=
  members.lookup name

/-- A whole number of at most 32 bits. -/
def Json.word? : Json → Option UInt32
  | .number (.whole n) => if 0 ≤ n ∧ n < 0x100000000 then some (UInt32.ofNat n.toNat) else none
  | _ => none

/-- The value that stands for a word. -/
def Json.ofWord (n : UInt32) : Json := .number (.whole n.toNat)

theorem Json.word?_ofWord (n : UInt32) : (Json.ofWord n).word? = some n := by
  have bound : n.toNat < 0x100000000 := n.toNat_lt
  have inside : (0 : Int) ≤ n.toNat ∧ (n.toNat : Int) < 0x100000000 := by omega
  simp only [Json.ofWord, Json.word?, if_pos inside]
  simp

def Json.text? : Json → Option String
  | .text s => some s
  | _ => none

/-- A list of texts. -/
def Json.texts? : Json → Option (List String)
  | .list items => items.mapM Json.text?
  | _ => none

/-- An absent or null value is none; any other has to be readable. -/
def Json.optional? {α : Type} (read : Json → Option α) : Option Json → Option (Option α)
  | none => some none
  | some .null => some none
  | some j => (read j).map some

def Json.ofOption {α : Type} (write : α → Json) : Option α → Json
  | none => .null
  | some a => write a

/-- Whether a value stands in for having no content.  Null always does; an empty record does
too where `emptyCounts`. -/
def Json.isNothing (emptyCounts : Bool) : Json → Bool
  | .null => true
  | .record [] => emptyCounts
  | _ => false

/-! ## Fields -/

/-- The fields of a structure: named members in any order, or bare values in the order of
declaration. -/
inductive Fields
  | named (members : List (String × Json))
  | placed (values : List Json)

/-- The field that is declared at a position under a name. -/
def Fields.get? : Fields → Nat → String → Option Json
  | .named members, _, name => Json.member? members name
  | .placed values, index, _ => values[index]?

/-- Whether the fields suit a structure with the given names: no name is repeated, and no
value is left over.  Members of other names do no harm. -/
def Fields.suit (names : List String) : Fields → Bool
  | .named members => names.all fun name => (members.countP fun m => m.1 == name) ≤ 1
  | .placed values => values.length ≤ names.length

/-- A field that has to be there. -/
def Fields.require? {α : Type} (fields : Fields) (index : Nat) (name : String)
    (read : Json → Option α) : Option α :=
  (fields.get? index name).bind read

/-- A field that may be absent or null. -/
def Fields.optional? {α : Type} (fields : Fields) (index : Nat) (name : String)
    (read : Json → Option α) : Option (Option α) :=
  Json.optional? read (fields.get? index name)

/-- A field that may be absent, but not null. -/
def Fields.default? {α : Type} (fields : Fields) (index : Nat) (name : String)
    (read : Json → Option α) (absent : α) : Option α :=
  match fields.get? index name with
  | none => some absent
  | some j => read j

end Unwind
