import Unwind.Json.Numeral

/-!
The tokens of JSON text.

Text is cut into punctuation, quoted texts and words; a word is a number or one of the three
literals.  A quoted text with half a surrogate pair is well formed but stands for no string.
-/

namespace Unwind

inductive Token
  | openList
  | closeList
  | openRecord
  | closeRecord
  | comma
  | colon
  /-- A quoted text, if it stands for a string. -/
  | text (s : Option String)
  | scalar (j : Json)

/-! ## Quoted texts -/

def hexDigit? (c : Char) : Option Nat :=
  if c.isDigit then some (c.toNat - '0'.toNat)
  else if 'a' ≤ c ∧ c ≤ 'f' then some (c.toNat - 'a'.toNat + 10)
  else if 'A' ≤ c ∧ c ≤ 'F' then some (c.toNat - 'A'.toNat + 10)
  else none

/-- The character that a backslash and a letter stand for. -/
def shortEscape? : Char → Option Char
  | '"' => some '"'
  | '\\' => some '\\'
  | '/' => some '/'
  | 'b' => some '\x08'
  | 'f' => some '\x0c'
  | 'n' => some '\n'
  | 'r' => some '\r'
  | 't' => some '\t'
  | _ => none

/-- Replaces the escapes by the units they stand for. -/
def unescape? : List Char → Option (List Nat)
  | [] => some []
  | '\\' :: 'u' :: a :: b :: c :: d :: rest => do
      let unit := 4096 * (← hexDigit? a) + 256 * (← hexDigit? b) + 16 * (← hexDigit? c)
        + (← hexDigit? d)
      return unit :: (← unescape? rest)
  | '\\' :: c :: rest => do
      let escaped ← shortEscape? c
      return escaped.toNat :: (← unescape? rest)
  | ['\\'] => none
  | c :: rest => do return c.toNat :: (← unescape? rest)

/-- Whether a unit is the first half of a surrogate pair. -/
def isHighHalf (unit : Nat) : Bool := 0xd800 ≤ unit && unit < 0xdc00

/-- Whether a unit is the second half of a surrogate pair. -/
def isLowHalf (unit : Nat) : Bool := 0xdc00 ≤ unit && unit < 0xe000

/-- Joins surrogate pairs; `none` if half a pair stands alone. -/
def joinHalves? : List Nat → Option (List Char)
  | [] => some []
  | [unit] => if isHighHalf unit || isLowHalf unit then none else some [Char.ofNat unit]
  | unit :: next :: rest =>
      if isHighHalf unit then
        if isLowHalf next then
          let joined := 0x10000 + (unit - 0xd800) * 0x400 + (next - 0xdc00)
          (joinHalves? rest).map (Char.ofNat joined :: ·)
        else none
      else if isLowHalf unit then none
      else (joinHalves? (next :: rest)).map (Char.ofNat unit :: ·)

/-- The token of what stood between two quotes. -/
def Token.ofQuoted? (cs : List Char) : Option Token :=
  (unescape? cs).map fun units => .text ((joinHalves? units).map String.ofList)

/-! ## Words -/

/-- The characters of words. -/
def isWordChar (c : Char) : Bool := c.isAlphanum || c == '+' || c == '-' || c == '.'

/-- A literal or a number. -/
def Token.ofWord? (cs : List Char) : Option Token :=
  if cs = ['n', 'u', 'l', 'l'] then some (.scalar .null)
  else if cs = ['t', 'r', 'u', 'e'] then some (.scalar (.bool true))
  else if cs = ['f', 'a', 'l', 's', 'e'] then some (.scalar (.bool false))
  else (Json.ofNumeral? cs).map .scalar

/-! ## Cutting text into tokens -/

/-- Where the cut stands: between tokens, in a word, in quotes, or behind a backslash in
quotes.  The characters of the unfinished token are kept in reverse. -/
inductive Cut
  | between
  | inWord (taken : List Char)
  | inQuotes (taken : List Char)
  | afterBackslash (taken : List Char)

/-- A character that stands between tokens: blank, a token of its own, or the first one of a
longer token. -/
def Cut.begin? (c : Char) : Option (Option Token × Cut) :=
  match c with
  | ' ' | '\n' | '\r' | '\t' => some (none, .between)
  | '[' => some (some .openList, .between)
  | ']' => some (some .closeList, .between)
  | '\x7b' => some (some .openRecord, .between)
  | '\x7d' => some (some .closeRecord, .between)
  | ',' => some (some .comma, .between)
  | ':' => some (some .colon, .between)
  | '"' => some (none, .inQuotes [])
  | _ => if isWordChar c then some (none, .inWord [c]) else none

/-- The tokens of the remaining text after those already found, which are in reverse.  A
control character inside quotes is refused. -/
def tokensFrom? (found : List Token) : Cut → List Char → Option (List Token)
  | .between, [] => some found.reverse
  | .inWord taken, [] => do return (← Token.ofWord? taken.reverse) :: found |>.reverse
  | .inQuotes _, [] => none
  | .afterBackslash _, [] => none
  | .between, c :: cs => do
      let (token, cut) ← Cut.begin? c
      tokensFrom? (token.toList ++ found) cut cs
  | .inWord taken, c :: cs =>
      if isWordChar c then tokensFrom? found (.inWord (c :: taken)) cs
      else do
        let word ← Token.ofWord? taken.reverse
        let (token, cut) ← Cut.begin? c
        tokensFrom? (token.toList ++ word :: found) cut cs
  | .inQuotes taken, c :: cs =>
      if c = '"' then do
        let text ← Token.ofQuoted? taken.reverse
        tokensFrom? (text :: found) .between cs
      else if c = '\\' then tokensFrom? found (.afterBackslash (c :: taken)) cs
      else if c.toNat < 0x20 then none
      else tokensFrom? found (.inQuotes (c :: taken)) cs
  | .afterBackslash taken, c :: cs => tokensFrom? found (.inQuotes (c :: taken)) cs

/-- The tokens of a text. -/
def Token.ofText? (s : String) : Option (List Token) := tokensFrom? [] .between s.toList

end Unwind
