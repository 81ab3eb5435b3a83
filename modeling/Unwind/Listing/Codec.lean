import Unwind.Instr.Codec
import Unwind.Json.Reader
import Unwind.Listing
import Unwind.Listing.Fault

/-!
Listings as JSON.

Fields are read in the order of the text, and a missing one is noticed last.  Members of
unknown names are passed over without a look at what they hold.  A structure may also be a list
of its fields in the order of declaration, of which the optional ones at the end may be left
out.
-/

namespace Unwind

/-! ## Writing -/

def ScopeKind.word : ScopeKind → String
  | .script => "script"
  | .method => "method"
  | .closure => "closure"
  | .moduleBody => "module_body"

def CodeItem.toJson : CodeItem → Json
  | .label l => .record [("label", l.toJson)]
  | .instr i => i.toJson

def RegionDraft.toJson (r : RegionDraft) : Json := .record [
  ("start", r.start.toJson), ("end", r.stop.toJson),
  ("rescue", .ofOption Label.toJson r.rescue), ("ensure", .ofOption Label.toJson r.ensure)]

def ScopeEntry.toJson (s : ScopeEntry) : Json := .record [
  ("name", .text s.name), ("kind", .text s.kind.word),
  ("lexical_method", .ofOption ScopeId.toJson s.lexicalMethod),
  ("code", .list (s.code.map CodeItem.toJson)),
  ("regions", .list (s.regions.map RegionDraft.toJson))]

def Listing.toJson (l : Listing) : Json := .record [
  ("name", .text l.name), ("root", .ofWord l.root),
  ("scopes", .list (l.scopes.map ScopeEntry.toJson))]

/-! ## Reading parts -/

/-- A part that is unusable makes the whole text no JSON. -/
abbrev Reading := Except LoadError

def Reading.refuse {α : Type} (fault : ShapeFault) : Reading α := .error (.shape fault)

/-- Refuses a value for its type. -/
def Json.mismatch {α : Type} (found : Json) (expected : String) : Reading α :=
  match found with
  | .unusable => .error .notJson
  | _ => .refuse (.invalidType found expected)

def Json.readText : Json → Reading String
  | .text s => .ok s
  | j => j.mismatch "a string"

def Json.readWord : Json → Reading UInt32
  | .number (.whole n) =>
      if 0 ≤ n ∧ n < 0x100000000 then .ok (UInt32.ofNat n.toNat)
      else .refuse (.invalidValue n "u32")
  | j => j.mismatch "u32"

def Json.readLabel (j : Json) : Reading Label := j.readWord.map Label.mk

def Json.readScopeId (j : Json) : Reading ScopeId := j.readWord.map ScopeId.mk

/-- Null is none. -/
def Json.readOptional {α : Type} (read : Json → Reading α) : Json → Reading (Option α)
  | .null => .ok none
  | j => (read j).map some

def Json.readList {α : Type} (read : Json → Reading α) : Json → Reading (List α)
  | .list items => items.mapM read
  | j => j.mismatch "a sequence"

def ScopeKind.ofWord : String → Reading ScopeKind
  | "script" => .ok .script
  | "method" => .ok .method
  | "closure" => .ok .closure
  | "module_body" => .ok .moduleBody
  | name => .refuse (.unknownVariant name ["script", "method", "closure", "module_body"])

/-- A kind: its word, by itself or as the only member of a record with null under it. -/
def ScopeKind.ofJson : Json → Reading ScopeKind
  | .text s => ScopeKind.ofWord s
  | .record ((name, j) :: rest) => do
      let kind ← ScopeKind.ofWord name
      match j with
      | .null => if rest.isEmpty then return kind else .refuse .expectedValue
      | _ => j.mismatch "unit"
  | .unusable => .error .notJson
  | _ => .refuse .expectedValue

/-- The label of a marker: a record with one valid member `label` among any others. -/
def Label.ofMarker? : Json → Option Label
  | .record members =>
      if members.countP (fun m => m.1 == "label") = 1 then
        (Json.member? members "label").bind Label.ofJson?
      else none
  | _ => none

/-- An element of code: a label marker if it can be one, and else an instruction, whose
operation may be named by its number. -/
def CodeItem.ofJson (j : Json) : Reading CodeItem :=
  if j.isUsable then
    match Label.ofMarker? j with
    | some l => .ok (.label l)
    | none =>
        match Instr.ofJson? true j with
        | some i => .ok (.instr i)
        | none => .refuse .noCodeItem
  else .error .notJson

/-! ## Reading structures -/

/-- Fills the slot of a named field, which may be filled once. -/
def Reading.fill {α : Type} (name : String) (slot : Option α) (value : Reading α) :
    Reading (Option α) :=
  if slot.isSome then .refuse (.duplicateField name) else value.map some

/-- A field that has to be there. -/
def Reading.required {α : Type} (name : String) : Option α → Reading α
  | some a => .ok a
  | none => .refuse (.missingField name)

/-- A value of a list of fields that has to be there. -/
def Json.valueAt (values : List Json) (index : Nat) (expected : String) : Reading Json :=
  match values[index]? with
  | some j => .ok j
  | none => .refuse (.invalidLength index expected)

/-- A value of a list of fields that may be left out. -/
def Json.valueAtOr {α : Type} (values : List Json) (index : Nat) (read : Json → Reading α)
    (absent : α) : Reading α :=
  match values[index]? with
  | some j => read j
  | none => .ok absent

/-- Refuses a list with more values than fields. -/
def Json.noMoreThan (values : List Json) (count : Nat) : Reading Unit :=
  if values.length ≤ count then .ok () else .refuse .leftoverElements

/-! ### Regions -/

/-- The fields of a region that were found so far. -/
structure RegionSlots where
  start : Option Label := none
  stop : Option Label := none
  rescue : Option (Option Label) := none
  ensure : Option (Option Label) := none

def RegionSlots.add (slots : RegionSlots) : String × Json → Reading RegionSlots
  | ("start", j) => do
      return { slots with start := ← Reading.fill "start" slots.start j.readLabel }
  | ("end", j) => do
      return { slots with stop := ← Reading.fill "end" slots.stop j.readLabel }
  | ("rescue", j) => do
      let rescue ← Reading.fill "rescue" slots.rescue (j.readOptional Json.readLabel)
      return { slots with rescue := rescue }
  | ("ensure", j) => do
      let ensure ← Reading.fill "ensure" slots.ensure (j.readOptional Json.readLabel)
      return { slots with ensure := ensure }
  | _ => return slots

def RegionDraft.ofJson : Json → Reading RegionDraft
  | .record members => do
      let slots ← members.foldlM RegionSlots.add {}
      return {
        start := ← Reading.required "start" slots.start
        stop := ← Reading.required "end" slots.stop
        rescue := slots.rescue.join
        ensure := slots.ensure.join }
  | .list values => do
      let expected := "struct RegionFile with 4 elements"
      let start ← (← Json.valueAt values 0 expected).readLabel
      let stop ← (← Json.valueAt values 1 expected).readLabel
      let rescue ← Json.valueAtOr values 2 (Json.readOptional Json.readLabel) none
      let ensure ← Json.valueAtOr values 3 (Json.readOptional Json.readLabel) none
      Json.noMoreThan values 4
      return ⟨start, stop, rescue, ensure⟩
  | j => j.mismatch "struct RegionFile"

/-! ### Scopes -/

/-- The fields of a scope that were found so far. -/
structure ScopeSlots where
  name : Option String := none
  kind : Option ScopeKind := none
  lexicalMethod : Option (Option ScopeId) := none
  code : Option (List CodeItem) := none
  regions : Option (List RegionDraft) := none

def ScopeSlots.add (slots : ScopeSlots) : String × Json → Reading ScopeSlots
  | ("name", j) => do
      return { slots with name := ← Reading.fill "name" slots.name j.readText }
  | ("kind", j) => do
      return { slots with kind := ← Reading.fill "kind" slots.kind (ScopeKind.ofJson j) }
  | ("lexical_method", j) => do
      let method ← Reading.fill "lexical_method" slots.lexicalMethod
        (j.readOptional Json.readScopeId)
      return { slots with lexicalMethod := method }
  | ("code", j) => do
      return { slots with code := ← Reading.fill "code" slots.code (j.readList CodeItem.ofJson) }
  | ("regions", j) => do
      let regions ← Reading.fill "regions" slots.regions (j.readList RegionDraft.ofJson)
      return { slots with regions := regions }
  | _ => return slots

def ScopeEntry.ofJson : Json → Reading ScopeEntry
  | .record members => do
      let slots ← members.foldlM ScopeSlots.add {}
      return {
        name := ← Reading.required "name" slots.name
        kind := ← Reading.required "kind" slots.kind
        lexicalMethod := slots.lexicalMethod.join
        code := ← Reading.required "code" slots.code
        regions := slots.regions.getD [] }
  | .list values => do
      let expected := "struct ScopeFile with 5 elements"
      let name ← (← Json.valueAt values 0 expected).readText
      let kind ← ScopeKind.ofJson (← Json.valueAt values 1 expected)
      let method ← Json.valueAtOr values 2 (Json.readOptional Json.readScopeId) none
      let code ← (← Json.valueAt values 3 expected).readList CodeItem.ofJson
      let regions ← Json.valueAtOr values 4 (Json.readList RegionDraft.ofJson) []
      Json.noMoreThan values 5
      return ⟨name, kind, method, code, regions⟩
  | j => j.mismatch "struct ScopeFile"

/-! ### Programs -/

/-- The fields of a listing that were found so far. -/
structure ListingSlots where
  name : Option String := none
  root : Option UInt32 := none
  scopes : Option (List ScopeEntry) := none

def ListingSlots.add (slots : ListingSlots) : String × Json → Reading ListingSlots
  | ("name", j) => do
      return { slots with name := ← Reading.fill "name" slots.name j.readText }
  | ("root", j) => do
      return { slots with root := ← Reading.fill "root" slots.root j.readWord }
  | ("scopes", j) => do
      let scopes ← Reading.fill "scopes" slots.scopes (j.readList ScopeEntry.ofJson)
      return { slots with scopes := scopes }
  | _ => return slots

def Listing.ofJson : Json → Reading Listing
  | .record members => do
      let slots ← members.foldlM ListingSlots.add {}
      return {
        name := ← Reading.required "name" slots.name
        root := slots.root.getD 0
        scopes := ← Reading.required "scopes" slots.scopes }
  | .list values => do
      let expected := "struct UnitFile with 3 elements"
      let name ← (← Json.valueAt values 0 expected).readText
      let root ← Json.valueAtOr values 1 Json.readWord 0
      let scopes ← (← Json.valueAt values 2 expected).readList ScopeEntry.ofJson
      Json.noMoreThan values 3
      return ⟨name, root, scopes⟩
  | j => j.mismatch "struct UnitFile"

/-! ## Loading -/

/-- The program that a JSON value describes. -/
def Program.ofJson (j : Json) : Except LoadError Program := do
  let listing ← Listing.ofJson j
  match listing.assemble with
  | .ok program => return program
  | .error e => throw (.build e)

/-- The program that a text describes. -/
def Program.load (source : String) : Except LoadError Program :=
  match Json.read? nestingLimit source with
  | none => .error .notJson
  | some j => Program.ofJson j

end Unwind
