import Unwind.Json.Token
import Unwind.Json.Writer

/-!
Quoted JSON text is read back.

A character stands between quotes as itself or as escapes of its UTF-16 units.  The cut passes over
each of these up to the closing quote, and what it has passed over is unescaped to the same units.
-/

namespace Unwind

/-! ## Escapes -/

/-- Hexadecimal digits, with zeros in front of them up to a width. -/
def paddedHex (width n : Nat) : List Char :=
  List.replicate (width - (Nat.toDigits 16 n).length) '0' ++ Nat.toDigits 16 n

theorem paddedHex_one {n : Nat} (hn : n < 16) : paddedHex 1 n = [n.digitChar] := by
  simp [paddedHex, Nat.toDigits_of_lt_base hn]

theorem paddedHex_succ {width : Nat} (hwidth : 0 < width) (n : Nat) :
    paddedHex (width + 1) n = paddedHex width (n / 16) ++ [(n % 16).digitChar] := by
  unfold paddedHex
  rcases Nat.lt_or_ge n 16 with hsmall | hlarge
  · have hzeros : List.replicate width '0' = List.replicate (width - 1) '0' ++ ['0'] := by
      rw [← List.replicate_succ', Nat.sub_add_cancel hwidth]
    rw [Nat.toDigits_of_lt_base hsmall, Nat.div_eq_of_lt hsmall, Nat.mod_eq_of_lt hsmall,
      Nat.toDigits_zero]
    simp [hzeros]
  · rw [Nat.toDigits_of_base_le (by decide) hlarge, List.length_append, List.length_singleton,
      Nat.add_sub_add_right, List.append_assoc]

/-- The escape of a unit, digit by digit. -/
theorem unitEscape_toList {unit : Nat} (hunit : unit < 0x10000) :
    (unitEscape unit).toList = ['\\', 'u', (unit / 4096).digitChar, (unit / 256 % 16).digitChar,
      (unit / 16 % 16).digitChar, (unit % 16).digitChar] := by
  have hdigits : paddedHex 4 unit = [(unit / 4096).digitChar, (unit / 256 % 16).digitChar,
      (unit / 16 % 16).digitChar, (unit % 16).digitChar] := by
    rw [paddedHex_succ (by decide), paddedHex_succ (by decide), paddedHex_succ (by decide),
      Nat.div_div_eq_div_mul, Nat.div_div_eq_div_mul, Nat.div_div_eq_div_mul,
      paddedHex_one (by omega)]
    rfl
  rw [← hdigits]
  simp [unitEscape, hexadecimal, zeros, paddedHex]

theorem hexDigit?_digitChar {n : Nat} (hn : n < 16) : hexDigit? n.digitChar = some n := by
  have hall : ∀ m < 16, hexDigit? m.digitChar = some m := by decide
  exact hall n hn

theorem unescape?_unitEscape {unit : Nat} (hunit : unit < 0x10000) (rest : List Char) :
    unescape? ((unitEscape unit).toList ++ rest) = (unescape? rest).map (unit :: ·) := by
  have hsum : 4096 * (unit / 4096) + 256 * (unit / 256 % 16) + 16 * (unit / 16 % 16) + unit % 16 =
      unit := by
    omega
  rw [unitEscape_toList hunit]
  simp only [List.cons_append, List.nil_append, unescape?, hexDigit?_digitChar (show
    unit / 4096 < 16 by omega), hexDigit?_digitChar (Nat.mod_lt _ (show 16 > 0 by decide)),
    Option.bind_eq_bind, Option.bind_some, hsum]
  cases unescape? rest <;> rfl

/-! ## Characters -/

/-- No character is half a surrogate pair. -/
theorem toNat_scalar (c : Char) : c.toNat < 0xd800 ∨ 0xdfff < c.toNat ∧ c.toNat < 0x110000 :=
  c.valid

/-- The UTF-16 units of a character. -/
def utf16 (c : Char) : List Nat :=
  if c.toNat < 0x10000 then [c.toNat]
  else [0xd800 + (c.toNat - 0x10000) / 0x400, 0xdc00 + (c.toNat - 0x10000) % 0x400]

theorem utf16_of_lt {c : Char} (hc : c.toNat < 0x10000) : utf16 c = [c.toNat] := if_pos hc

/-- Every unit has four hexadecimal digits. -/
theorem utf16_lt (c : Char) {unit : Nat} (hunit : unit ∈ utf16 c) : unit < 0x10000 := by
  have hscalar := toNat_scalar c
  unfold utf16 at hunit
  split at hunit
  · rwa [List.mem_singleton.mp hunit]
  · simp only [List.mem_cons, List.not_mem_nil, or_false] at hunit
    omega

/-- The character stands for itself between quotes. -/
structure IsBare (c : Char) : Prop where
  visible : 0x20 ≤ c.toNat
  ascii : c.toNat < 0x7f
  noQuote : c ≠ '"'
  noBackslash : c ≠ '\\'

/-- The forms that a character has between quotes. -/
theorem jsonChar_cases (c : Char) :
    ((c = '"' ∨ c = '\\') ∧ (jsonChar c).toList = ['\\', c]) ∨
    (IsBare c ∧ (jsonChar c).toList = [c]) ∨
    (jsonChar c).toList = (utf16 c).flatMap fun unit => (unitEscape unit).toList := by
  by_cases hquote : c = '"'
  · subst hquote
    exact Or.inl ⟨Or.inl rfl, rfl⟩
  by_cases hbackslash : c = '\\'
  · subst hbackslash
    exact Or.inl ⟨Or.inr rfl, rfl⟩
  right
  by_cases hvisible : 0x20 ≤ c.toNat ∧ c.toNat < 0x7f
  · exact Or.inl ⟨⟨hvisible.1, hvisible.2, hquote, hbackslash⟩,
      by simp [jsonChar, hquote, hbackslash, hvisible]⟩
  · right
    by_cases hplane : c.toNat < 0x10000
    · simp [jsonChar, hquote, hbackslash, hvisible, hplane, utf16]
    · simp [jsonChar, hquote, hbackslash, hvisible, hplane, utf16]

theorem unescape?_units (units : List Nat) (hunits : ∀ unit ∈ units, unit < 0x10000)
    (rest : List Char) :
    unescape? ((units.flatMap fun unit => (unitEscape unit).toList) ++ rest) =
      (unescape? rest).map (units ++ ·) := by
  induction units with
  | nil => simp
  | cons unit units ih =>
      rw [List.flatMap_cons, List.append_assoc, unescape?_unitEscape (hunits unit (by simp)),
        ih fun other hother => hunits other (List.mem_cons_of_mem unit hother), Option.map_map]
      rfl

theorem unescape?_jsonChar (c : Char) (rest : List Char) :
    unescape? ((jsonChar c).toList ++ rest) = (unescape? rest).map (utf16 c ++ ·) := by
  rcases jsonChar_cases c with ⟨rfl | rfl, hchars⟩ | ⟨hbare, hchars⟩ | hchars
  · rw [hchars]
    cases hrest : unescape? rest <;> simp [unescape?, shortEscape?, hrest, utf16]
  · rw [hchars]
    cases hrest : unescape? rest <;> simp [unescape?, shortEscape?, hrest, utf16]
  · have hascii := hbare.ascii
    rw [hchars, utf16_of_lt (by omega)]
    rw [List.singleton_append, unescape?]
    · cases unescape? rest <;> rfl
    · exact fun _ _ _ _ _ hc _ => hbare.noBackslash hc
    · exact fun _ _ hc _ => hbare.noBackslash hc
    · exact fun hc _ => hbare.noBackslash hc
  · rw [hchars, unescape?_units (utf16 c) fun unit => utf16_lt c]

/-- What stands between the quotes is unescaped to the units of the text. -/
theorem unescape?_jsonChars (cs : List Char) :
    unescape? (cs.flatMap fun c => (jsonChar c).toList) = some (cs.flatMap utf16) := by
  induction cs with
  | nil => rfl
  | cons c cs ih =>
      rw [List.flatMap_cons, unescape?_jsonChar, ih]
      rfl

/-! ## Surrogate pairs -/

theorem joinHalves?_whole {unit : Nat} (hhigh : isHighHalf unit = false)
    (hlow : isLowHalf unit = false) (rest : List Nat) :
    joinHalves? (unit :: rest) = (joinHalves? rest).map (Char.ofNat unit :: ·) := by
  cases rest with
  | nil => simp [joinHalves?, hhigh, hlow]
  | cons next rest => simp [joinHalves?, hhigh, hlow]

theorem joinHalves?_utf16 (c : Char) (rest : List Nat) :
    joinHalves? (utf16 c ++ rest) = (joinHalves? rest).map (c :: ·) := by
  have hscalar := toNat_scalar c
  by_cases hplane : c.toNat < 0x10000
  · have hhigh : isHighHalf c.toNat = false := by
      simp only [isHighHalf, Bool.and_eq_false_iff, decide_eq_false_iff_not]
      omega
    have hlow : isLowHalf c.toNat = false := by
      simp only [isLowHalf, Bool.and_eq_false_iff, decide_eq_false_iff_not]
      omega
    rw [utf16_of_lt hplane, List.singleton_append, joinHalves?_whole hhigh hlow, Char.ofNat_toNat]
  · have hhigh : isHighHalf (0xd800 + (c.toNat - 0x10000) / 0x400) = true := by
      simp only [isHighHalf, Bool.and_eq_true, decide_eq_true_eq]
      omega
    have hlow : isLowHalf (0xdc00 + (c.toNat - 0x10000) % 0x400) = true := by
      simp only [isLowHalf, Bool.and_eq_true, decide_eq_true_eq]
      omega
    have hjoined : 0x10000 + (0xd800 + (c.toNat - 0x10000) / 0x400 - 0xd800) * 0x400 +
        (0xdc00 + (c.toNat - 0x10000) % 0x400 - 0xdc00) = c.toNat := by
      omega
    simp only [utf16, hplane, ↓reduceIte, List.cons_append, List.nil_append, joinHalves?, hhigh,
      hlow, hjoined, Char.ofNat_toNat]

theorem joinHalves?_flatMap (cs : List Char) : joinHalves? (cs.flatMap utf16) = some cs := by
  induction cs with
  | nil => rfl
  | cons c cs ih =>
      rw [List.flatMap_cons, joinHalves?_utf16, ih]
      rfl

/-- A quoted text stands for the string that was quoted. -/
theorem Token.ofQuoted?_jsonChars (s : String) :
    Token.ofQuoted? (s.toList.flatMap fun c => (jsonChar c).toList) = some (.text (some s)) := by
  simp [ofQuoted?, unescape?_jsonChars, joinHalves?_flatMap]

/-! ## The cut between quotes -/

/-- The cut stays between the quotes while it passes over the characters. -/
def PassedOver (cs : List Char) : Prop :=
  ∀ found taken rest, tokensFrom? found (.inQuotes taken) (cs ++ rest) =
    tokensFrom? found (.inQuotes (cs.reverse ++ taken)) rest

theorem PassedOver.nil : PassedOver [] := fun _ _ _ => rfl

theorem PassedOver.append {cs ds : List Char} (hcs : PassedOver cs) (hds : PassedOver ds) :
    PassedOver (cs ++ ds) := by
  intro found taken rest
  rw [List.append_assoc, hcs, hds, List.reverse_append, List.append_assoc]

theorem PassedOver.flatMap {α : Type} {xs : List α} {chars : α → List Char}
    (hchars : ∀ x ∈ xs, PassedOver (chars x)) : PassedOver (xs.flatMap chars) := by
  induction xs with
  | nil => exact .nil
  | cons x xs ih =>
      rw [List.flatMap_cons]
      exact (hchars x List.mem_cons_self).append
        (ih fun y hy => hchars y (List.mem_cons_of_mem x hy))

theorem PassedOver.bare {c : Char} (hbare : IsBare c) : PassedOver [c] := by
  intro found taken rest
  have hvisible : ¬ c.toNat < 0x20 := Nat.not_lt_of_le hbare.visible
  simp [tokensFrom?, hbare.noQuote, hbare.noBackslash, hvisible]

/-- Whatever stands behind a backslash is passed over with it. -/
theorem PassedOver.escaped (c : Char) : PassedOver ['\\', c] := by
  intro found taken rest
  simp [tokensFrom?]

theorem isBare_digitChar {n : Nat} (hn : n < 16) : IsBare n.digitChar := by
  have hall : ∀ m < 16, 0x20 ≤ m.digitChar.toNat ∧ m.digitChar.toNat < 0x7f ∧
      m.digitChar ≠ '"' ∧ m.digitChar ≠ '\\' := by decide
  obtain ⟨hvisible, hascii, hquote, hbackslash⟩ := hall n hn
  exact ⟨hvisible, hascii, hquote, hbackslash⟩

theorem PassedOver.unitEscape {unit : Nat} (hunit : unit < 0x10000) :
    PassedOver (unitEscape unit).toList := by
  rw [unitEscape_toList hunit]
  exact (PassedOver.escaped 'u').append ((PassedOver.bare (isBare_digitChar (by omega))).append
    ((PassedOver.bare (isBare_digitChar (by omega))).append
      ((PassedOver.bare (isBare_digitChar (by omega))).append
        (PassedOver.bare (isBare_digitChar (by omega))))))

theorem PassedOver.jsonChar (c : Char) : PassedOver (jsonChar c).toList := by
  rcases jsonChar_cases c with ⟨-, hchars⟩ | ⟨hbare, hchars⟩ | hchars
  · rw [hchars]
    exact .escaped c
  · rw [hchars]
    exact .bare hbare
  · rw [hchars]
    exact .flatMap fun unit hunit => .unitEscape (utf16_lt c hunit)

/-- A quoted text is cut out as one token. -/
theorem tokensFrom?_jsonText (s : String) (found : List Token) (rest : List Char) :
    tokensFrom? found .between ((jsonText s).toList ++ rest) =
      tokensFrom? (.text (some s) :: found) .between rest := by
  have hpassed : PassedOver (s.toList.flatMap fun c => (jsonChar c).toList) :=
    .flatMap fun c _ => .jsonChar c
  have hchars : (jsonText s).toList ++ rest =
      '"' :: ((s.toList.flatMap fun c => (jsonChar c).toList) ++ '"' :: rest) := by
    simp [jsonText, List.flatMap_map]
  rw [hchars, tokensFrom?]
  simp only [Cut.begin?, Option.bind_eq_bind, Option.bind_some, Option.toList_none,
    List.nil_append]
  rw [hpassed, tokensFrom?]
  simp [Token.ofQuoted?_jsonChars]

end Unwind
