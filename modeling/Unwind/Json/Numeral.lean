import Unwind.Json

/-!
Reading numbers.

A number has a whole part, and may have a fraction and an exponent.  Its digits are gathered
into a significand of 64 bits, and the digits that no longer fit are dropped.  The float is
the significand, scaled once by a power of ten, so that only short numbers are sure to be
correctly rounded.
-/

namespace Unwind

/-- The parts of a number's text. -/
structure NumeralText where
  negative : Bool
  whole : List Nat
  fraction : Option (List Nat)
  exponent : Option (Bool × List Nat)
  deriving DecidableEq

def digitValue (c : Char) : Nat := c.toNat - '0'.toNat

/-- The digits at the front, which have to be there, and what follows them. -/
def digits? (cs : List Char) : Option (List Nat × List Char) :=
  match cs.takeWhile Char.isDigit with
  | [] => none
  | ds => some (ds.map digitValue, cs.dropWhile Char.isDigit)

/-- A whole part has no leading zero unless it is zero. -/
def wholePart? (cs : List Char) : Option (List Nat × List Char) :=
  match digits? cs with
  | some (0 :: _ :: _, _) => none
  | other => other

def fractionPart? : List Char → Option (Option (List Nat) × List Char)
  | '.' :: cs => (digits? cs).map fun (ds, rest) => (some ds, rest)
  | cs => some (none, cs)

def exponentDigits? (negative : Bool) (cs : List Char) :
    Option (Option (Bool × List Nat) × List Char) :=
  (digits? cs).map fun (ds, rest) => (some (negative, ds), rest)

def exponentPart? : List Char → Option (Option (Bool × List Nat) × List Char)
  | c :: cs =>
      if c = 'e' ∨ c = 'E' then
        match cs with
        | '+' :: rest => exponentDigits? false rest
        | '-' :: rest => exponentDigits? true rest
        | _ => exponentDigits? false cs
      else some (none, c :: cs)
  | [] => some (none, [])

/-- Takes a number's text apart; `none` unless the whole text is a number. -/
def NumeralText.ofChars? (cs : List Char) : Option NumeralText := do
  let (negative, cs) := match cs with
    | '-' :: rest => (true, rest)
    | _ => (false, cs)
  let (whole, cs) ← wholePart? cs
  let (fraction, cs) ← fractionPart? cs
  let (exponent, cs) ← exponentPart? cs
  if cs.isEmpty then some ⟨negative, whole, fraction, exponent⟩ else none

/-- Appends digits to a significand while it fits into 64 bits, and counts them. -/
def appendDigits (significand : Nat) : List Nat → Nat × Nat
  | [] => (significand, 0)
  | d :: ds =>
      if significand * 10 + d < 2 ^ 64 then
        let (full, count) := appendDigits (significand * 10 + d) ds
        (full, count + 1)
      else (significand, 0)

/-- The value of a list of digits. -/
def digitsValue (ds : List Nat) : Nat := ds.foldl (fun n d => n * 10 + d) 0

/-- A power of ten, the largest being `10^308`. -/
def powerOfTen (n : Nat) : Float := Float.ofScientific 1 false n

/-- Divides by a power of ten, by at most `10^308` at a time. -/
def divideByPower (x : Float) (n : Nat) : Float :=
  if n ≤ 308 then x / powerOfTen n
  else if x == 0 then x
  else divideByPower (x / powerOfTen 308) (n - 308)
termination_by n

/-- The significand times a power of ten, unless that is beyond the range of doubles. -/
def scaleByPower? (significand : Nat) (exponent : Int) : Option Float :=
  let x := Float.ofNat significand
  if exponent < 0 then some (divideByPower x exponent.natAbs)
  else if exponent ≤ 308 then
    let scaled := x * powerOfTen exponent.toNat
    if scaled.isInf then none else some scaled
  else if significand = 0 then some x
  else none

/-- The number that a text stands for, if it is within the range of doubles. -/
def NumeralText.value? (t : NumeralText) : Option Numeral :=
  let (leading, count) := appendDigits 0 t.whole
  let dropped := t.whole.length - count
  let signed (x : Float) : Numeral := .float (if t.negative then -x else x)
  match t.fraction, t.exponent with
  | none, none =>
      if dropped ≠ 0 then (scaleByPower? leading dropped).map signed
      else if !t.negative then some (.whole leading)
      else if 0 < leading ∧ leading ≤ 0x8000000000000000 then some (.whole (-leading))
      else some (signed (Float.ofNat leading))
  | fraction, exponent =>
      let (significand, places) := appendDigits leading (fraction.getD [])
      let shift : Int := match exponent with
        | none => 0
        | some (negative, ds) => if negative then -(digitsValue ds) else digitsValue ds
      (scaleByPower? significand (dropped - places + shift)).map signed

/-- The value of a number's text; `none` unless the text is a number. -/
def Json.ofNumeral? (cs : List Char) : Option Json :=
  (NumeralText.ofChars? cs).map fun t =>
    match t.value? with
    | some n => .number n
    | none => .unusable

section Witness

example : (NumeralText.ofChars? "-12.5e+3".toList) =
    some ⟨true, [1, 2], some [5], some (false, [3])⟩ := by decide +kernel

example : NumeralText.ofChars? "01".toList = none ∧ NumeralText.ofChars? "1.".toList = none ∧
    NumeralText.ofChars? ".5".toList = none ∧ NumeralText.ofChars? "+1".toList = none := by
  decide +kernel

end Witness

end Unwind
