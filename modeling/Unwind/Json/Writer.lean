import Unwind.Json
import Unwind.Text.Quoted

/-!
Writing JSON text.

The text is compact and has ASCII characters only; a character beyond ASCII is written as its
one or two UTF-16 units.
-/

namespace Unwind

/-- A UTF-16 unit as an escape of four hexadecimal digits. -/
def unitEscape (unit : Nat) : String :=
  let digits := hexadecimal unit
  "\\u" ++ zeros (4 - digits.length) ++ digits

/-- One character inside a quoted text. -/
def jsonChar (c : Char) : String :=
  let code := c.toNat
  if c = '"' then "\\\""
  else if c = '\\' then "\\\\"
  else if 0x20 ≤ code ∧ code < 0x7f then c.toString
  else if code < 0x10000 then unitEscape code
  else
    let offset := code - 0x10000
    unitEscape (0xd800 + offset / 0x400) ++ unitEscape (0xdc00 + offset % 0x400)

def jsonText (s : String) : String :=
  "\"" ++ String.join (s.toList.map jsonChar) ++ "\""

/-- Floats without a finite value are written as null. -/
def Numeral.text : Numeral → String
  | .whole n => toString n
  | .float x => if x.isFinite then markedFloat x else "null"

mutual

def Json.write : Json → String
  | .null => "null"
  | .bool b => if b then "true" else "false"
  | .number n => n.text
  | .text s => jsonText s
  | .list items => "[" ++ String.intercalate "," (Json.writeItems items) ++ "]"
  | .record members => "\x7b" ++ String.intercalate "," (Json.writeMembers members) ++ "\x7d"
  | .unusable => "null"

def Json.writeItems : List Json → List String
  | [] => []
  | item :: items => item.write :: Json.writeItems items

def Json.writeMembers : List (String × Json) → List String
  | [] => []
  | (name, item) :: members =>
      (jsonText name ++ ":" ++ item.write) :: Json.writeMembers members

end

end Unwind
