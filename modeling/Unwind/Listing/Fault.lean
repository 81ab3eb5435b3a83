import Unwind.Draft
import Unwind.Json

/-!
What can be wrong with the text of a listing: it is no JSON, its JSON has the wrong shape, or
the program that it describes is refused.
-/

namespace Unwind

/-- A way in which JSON fails to have the shape of a listing. -/
inductive ShapeFault
  | missingField (name : String)
  | duplicateField (name : String)
  | invalidType (found : Json) (expected : String)
  | invalidValue (found : Int) (expected : String)
  /-- A list of fields is too short; as many as `length` stand before the missing one. -/
  | invalidLength (length : Nat) (expected : String)
  | unknownVariant (name : String) (known : List String)
  | expectedValue
  | leftoverElements
  /-- An element of code is neither a label nor an instruction. -/
  | noCodeItem

/-- What a JSON value is, for a message. -/
def Json.described : Json → String
  | .null => "null"
  | .bool b => "boolean `" ++ (if b then "true" else "false") ++ "`"
  | .number (.whole n) => "integer `" ++ toString n ++ "`"
  | .number (.float x) => "floating point `" ++ markedFloat x ++ "`"
  | .text s => "string " ++ quoted s
  | .list _ => "sequence"
  | .record _ => "map"
  | .unusable => "unusable"

def ShapeFault.message : ShapeFault → String
  | .missingField name => "missing field `" ++ name ++ "`"
  | .duplicateField name => "duplicate field `" ++ name ++ "`"
  | .invalidType found expected =>
      "invalid type: " ++ found.described ++ ", expected " ++ expected
  | .invalidValue found expected =>
      "invalid value: integer `" ++ toString found ++ "`, expected " ++ expected
  | .invalidLength length expected =>
      "invalid length " ++ toString length ++ ", expected " ++ expected
  | .unknownVariant name known =>
      "unknown variant `" ++ name ++ "`, expected one of "
        ++ String.intercalate ", " (known.map fun k => "`" ++ k ++ "`")
  | .expectedValue => "expected value"
  | .leftoverElements => "trailing characters"
  | .noCodeItem => "data did not match any variant of untagged enum CodeItem"

/-- Why a program cannot be loaded. -/
inductive LoadError
  | notJson
  | shape (fault : ShapeFault)
  | build (e : BuildError)

/-- The report about a program that cannot be loaded. -/
def LoadError.report : LoadError → Report
  | .notJson => { kind := .load, message := "invalid unit file: not well-formed JSON" }
  | .shape fault => { kind := .load, message := "invalid unit file: " ++ fault.message }
  | .build e => e.report

end Unwind
