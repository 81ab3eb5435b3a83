import Unwind.Text.Printable

/-!
Quoted strings.

A quoted string stands between double quotes and shows every character that has a visible form
of its own.  The quote, the backslash and four controls have short escapes; every other hidden
character is written by its code point in hexadecimal.
-/

namespace Unwind

/-- Lower-case hexadecimal digits, without leading zeros. -/
def hexadecimal (n : Nat) : String := String.ofList (Nat.toDigits 16 n)

/-- The form of one character inside double quotes. -/
def quotedChar : Char → String
  | '"' => "\\\""
  | '\\' => "\\\\"
  | '\n' => "\\n"
  | '\r' => "\\r"
  | '\t' => "\\t"
  | '\x00' => "\\0"
  | c => if isPrintable c then c.toString else "\\u\x7b" ++ hexadecimal c.toNat ++ "\x7d"

/-- A string as guest output shows it: between double quotes, hidden characters escaped. -/
def quoted (s : String) : String :=
  "\"" ++ String.join (s.toList.map quotedChar) ++ "\""

section Witness

example : quoted "it's \"q\"\\" = "\"it's \\\"q\\\"\\\\\"" := by decide +kernel

example : quotedChar (Char.ofNat 0x200b) = "\\u\x7b200b\x7d" := by decide +kernel

end Witness

end Unwind
