/-!
Decimal text of binary floating-point numbers.

A finite double is an exact dyadic number `m * 2^e`.  The reals that round to it form an
interval, closed exactly when `m` is even.  Its shortest decimal is the point of the coarsest
grid `10^k` that meets this interval, and of two such points the nearer one.  A format says
which one is taken on a tie, and how the decimal is laid out: positional, or with an exponent
outside the customary range.
-/

namespace Unwind

/-- A double taken apart: its exact value, or the way in which it has none. -/
inductive DoubleParts
  | nan
  | infinite (negative : Bool)
  | finite (negative : Bool) (mantissa : Nat) (exponent : Int)
  deriving DecidableEq

/-- Reads the sign, the eleven exponent bits and the fraction of a double. -/
def DoubleParts.ofBits (bits : UInt64) : DoubleParts :=
  let negative := bits >>> 63 == 1
  let field := ((bits >>> 52) &&& 0x7ff).toNat
  let fraction := (bits &&& 0xfffffffffffff).toNat
  if field = 0x7ff then
    if fraction = 0 then .infinite negative else .nan
  else if field = 0 then
    .finite negative fraction (-1074)
  else
    .finite negative (fraction + 0x10000000000000) (field - 1075)

/-- The interval of reals that round to one double, in units of `1 / denominator`. -/
structure RoundingInterval where
  low : Nat
  value : Nat
  high : Nat
  denominator : Nat
  closed : Bool

/-- Half a unit in the last place to each side; below a power of two the lower neighbour is
twice as near.  Only the least normal number has a lower neighbour at the full distance. -/
def RoundingInterval.ofDyadic (mantissa : Nat) (exponent : Int) : RoundingInterval :=
  let below := if mantissa = 0x10000000000000 ∧ exponent ≠ -1074 then 1 else 2
  let scale := Nat.pow 2 (exponent - 2).toNat
  { low := (4 * mantissa - below) * scale
    value := 4 * mantissa * scale
    high := (4 * mantissa + 2) * scale
    denominator := Nat.pow 2 (2 - exponent).toNat
    closed := mantissa % 2 == 0 }

/-- Which of two equally near points of a grid is taken. -/
inductive TieRule
  | upper
  | even
  deriving DecidableEq

/-- Whether the upper one of `d` and `d + 1` is taken on a tie. -/
def TieRule.takesUpper (tie : TieRule) (d : Nat) : Bool :=
  match tie with
  | .upper => true
  | .even => d % 2 == 1

/-- The point `d * 10^k` of the interval that is nearest to its value, if the grid `10^k` meets
the interval at all.  One of the two neighbours of the value on the grid is in the interval
whenever any point of the grid is. -/
def RoundingInterval.nearest? (i : RoundingInterval) (tie : TieRule) (k : Int) : Option Nat :=
  let unit := i.denominator * Nat.pow 10 k.toNat
  let magnify := Nat.pow 10 (-k).toNat
  let value := i.value * magnify
  let inside (point : Nat) : Bool :=
    if i.closed then i.low * magnify ≤ point && point ≤ i.high * magnify
    else i.low * magnify < point && point < i.high * magnify
  let d := value / unit
  match inside (d * unit), inside ((d + 1) * unit) with
  | true, true =>
      let beyond := 2 * (value - d * unit)
      some (if unit < beyond ∨ (beyond = unit ∧ tie.takesUpper d) then d + 1 else d)
  | true, false => some d
  | false, true => some (d + 1)
  | false, false => none

/-- A decimal number `digits * 10^exponent`. -/
structure Decimal where
  digits : Nat
  exponent : Int
  deriving DecidableEq

/-- The shortest decimal that reads back as the given positive dyadic.  No double needs a
grid finer than `10^-324`, and none meets one coarser than `10^309`. -/
def Decimal.shortest (tie : TieRule) (mantissa : Nat) (exponent : Int) : Decimal :=
  let interval := RoundingInterval.ofDyadic mantissa exponent
  let onGrid (i : Nat) : Option Decimal :=
    let k : Int := 309 - i
    (interval.nearest? tie k).map fun d => ⟨d, k⟩
  ((List.range 634).findSome? onGrid).getD ⟨0, 0⟩

/-- As many zeros as asked for. -/
def zeros (count : Nat) : String := String.ofList (List.replicate count '0')

/-- Positional text: all digits before the point are written, none after it if it is a whole
number. -/
def Decimal.positional (x : Decimal) : String :=
  let digits := toString x.digits
  let places := (-x.exponent).toNat
  if places = 0 then
    digits ++ zeros x.exponent.toNat
  else if places < digits.length then
    let chars := digits.toList
    let split := digits.length - places
    String.ofList (chars.take split) ++ "." ++ String.ofList (chars.drop split)
  else
    "0." ++ zeros (places - digits.length) ++ digits

/-- Text that shows a decimal or an exponent: positional with at least one decimal for
magnitudes from `10^-5` up to `10^16`, and elsewhere with a signed exponent. -/
def Decimal.scientific (x : Decimal) : String :=
  let digits := toString x.digits
  let point := (digits.length : Int) + x.exponent
  if 0 ≤ x.exponent ∧ point ≤ 16 then
    x.positional ++ ".0"
  else if -5 < point ∧ point ≤ 16 then
    x.positional
  else
    let rest := String.ofList (digits.toList.drop 1)
    let lead := String.ofList (digits.toList.take 1)
    let body := if rest.isEmpty then lead else lead ++ "." ++ rest
    body ++ (if 0 < point then "e+" else "e") ++ toString (point - 1)

/-- How the shortest decimal of a double is chosen and laid out. -/
structure FloatFormat where
  tie : TieRule
  layout : Decimal → String

def FloatFormat.text (format : FloatFormat) (x : Float) : String :=
  match DoubleParts.ofBits x.toBits with
  | .nan => "NaN"
  | .infinite negative => (if negative then "-" else "") ++ "inf"
  | .finite negative mantissa exponent =>
      let magnitude :=
        if mantissa = 0 then ⟨0, 0⟩ else Decimal.shortest format.tie mantissa exponent
      (if negative then "-" else "") ++ format.layout magnitude

/-- Floats in guest output: the shortest digits that read back, never an exponent, and no
point after a whole number. -/
def plainFloat (x : Float) : String := FloatFormat.text ⟨.upper, Decimal.positional⟩ x

/-- Floats in messages about unit files: always recognisable as a float. -/
def markedFloat (x : Float) : String := FloatFormat.text ⟨.even, Decimal.scientific⟩ x

section Witness

/-- `222507385850720.125` lies between two decimals of two places. -/
example : Decimal.shortest .upper 7120236347223044 (-5) = ⟨22250738585072013, -2⟩ ∧
    Decimal.shortest .even 7120236347223044 (-5) = ⟨22250738585072012, -2⟩ := by
  decide +kernel

example : (Decimal.mk 15 (-1)).positional = "1.5" := by decide +kernel

example : (Decimal.mk 1 3).positional = "1000" := by decide +kernel

example : (Decimal.mk 5 (-3)).positional = "0.005" := by decide +kernel

example : (Decimal.mk 15 20).scientific = "1.5e+21" ∧ (Decimal.mk 1 (-6)).scientific = "1e-6" := by
  decide +kernel

example : (Decimal.mk 10 (-1)).scientific = "1.0" := by decide +kernel

end Witness

end Unwind
