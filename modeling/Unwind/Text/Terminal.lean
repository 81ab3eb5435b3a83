import Unwind.Text.Quoted

/-!
Text for a terminal.

A terminal acts on control characters: an escape sequence starts a style, and the reset
sequence ends every style.  A styled text keeps its style to its end, even across resets of its
own.  An inert text has the characters spelled out with which it could ring, erase or start a
sequence.
-/

namespace Unwind

/-! ## Styled text -/

/-- The sequence that starts the style with the given parameters. -/
def startSequence (parameters : String) : String := "\x1b[" ++ parameters ++ "m"

/-- The sequence that ends every style. -/
def resetSequence : String := "\x1b[0m"

/-- Starts a style again after every reset sequence of a text. -/
def restyle (start : List Char) : List Char → List Char
  | [] => []
  | '\x1b' :: '[' :: '0' :: 'm' :: rest =>
      '\x1b' :: '[' :: '0' :: 'm' :: (start ++ restyle start rest)
  | c :: rest => c :: restyle start rest

/-- A text in the style with the given parameters, even if it is empty; a reset inside the text
does not end the style. -/
def styled (parameters : String) (s : String) : String :=
  let start := startSequence parameters
  start ++ String.ofList (restyle start.toList s.toList) ++ resetSequence

/-! ## Inert text -/

/-- The form of a character in an inert text: bell, backspace, form feed, escape, delete and the
controls beyond ASCII by their code points, and all others, line ends among them, as they
are. -/
def inertChar : Char → String
  | '\x07' => "\\x07"
  | '\x08' => "\\x08"
  | '\x0c' => "\\x0c"
  | '\x1b' => "\\x1b"
  | '\x7f' => "\\x7f"
  | c =>
      if 0x80 ≤ c.toNat ∧ c.toNat ≤ 0x9f then "\\u\x7b" ++ hexadecimal c.toNat ++ "\x7d"
      else c.toString

/-- A text that cannot ring, erase or start a sequence on a terminal. -/
def inert (s : String) : String := String.join (s.toList.map inertChar)

section Witness

example : styled "1" "a\x1b[0mb" = "\x1b[1ma\x1b[0m\x1b[1mb\x1b[0m" := by decide +kernel

/-- Other sequences that end a style are left alone. -/
example : styled "1" "a\x1b[mb" = "\x1b[1ma\x1b[mb\x1b[0m" := by decide +kernel

example : inert "a\x1b\n" = "a\\x1b\n" ∧
    inertChar (Char.ofNat 0x85) = "\\u\x7b85\x7d" := by decide +kernel

end Witness

end Unwind
