/-!
White space.

The blanks are the characters with the Unicode property `White_Space`, and trimming removes
them from both ends of a text.
-/

namespace Unwind

/-- The code points with the property `White_Space`, as ascending closed ranges. -/
def blankRanges : List (Nat × Nat) := [
  (0x9, 0xd), (0x20, 0x20), (0x85, 0x85), (0xa0, 0xa0), (0x1680, 0x1680), (0x2000, 0x200a),
  (0x2028, 0x2029), (0x202f, 0x202f), (0x205f, 0x205f), (0x3000, 0x3000)]

/-- Whether a character is white space. -/
def isBlank (c : Char) : Bool :=
  blankRanges.any fun range => range.1 ≤ c.toNat && c.toNat ≤ range.2

/-- The text without the blanks at its two ends. -/
def trimBlanks (s : String) : String :=
  let front := s.toList.dropWhile isBlank
  String.ofList (front.reverse.dropWhile isBlank).reverse

section Witness

example : trimBlanks " off\t" = "off" := by decide +kernel

example : trimBlanks " \n" = "" := by decide +kernel

end Witness

end Unwind
