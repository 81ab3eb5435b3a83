import Mathlib.Data.List.TakeWhile
import Unwind.Json.Token
import Unwind.Json.Writer

/-!
Whole numbers in JSON text are read back.

The decimal digits of a number have no leading zero and their value is the number, so that a number
of at most 64 bits is a whole number again.
-/

namespace Unwind

/-- The number is whole and read as such. -/
def Numeral.isExact : Numeral → Bool
  | .whole n => -0x8000000000000000 ≤ n && n < 0x10000000000000000
  | .float _ => false

/-! ## Digits -/

/-- The decimal digits of a number. -/
def decimalDigits (n : Nat) : List Nat := (Nat.toDigits 10 n).map digitValue

/-- Only zero has a leading zero. -/
theorem decimalDigits_eq_cons {n : Nat} (hn : 0 < n) :
    ∃ d ds, decimalDigits n = d :: ds ∧ d ≠ 0 := by
  induction n using Nat.strongRecOn with
  | ind n ih =>
      rcases Nat.lt_or_ge n 10 with hsmall | hlarge
      · have hall : ∀ d < 10, decimalDigits d = [d] := by decide
        exact ⟨n, [], hall n hsmall, Nat.ne_of_gt hn⟩
      · obtain ⟨d, ds, hrest, hd⟩ := ih (n / 10) (by omega) (by omega)
        refine ⟨d, ds ++ [digitValue (n % 10).digitChar], ?_, hd⟩
        rw [decimalDigits, Nat.toDigits_of_base_le (by decide) hlarge, List.map_append,
          List.map_singleton, ← decimalDigits, hrest, List.cons_append]

theorem foldl_decimalDigits (n : Nat) :
    (decimalDigits n).foldl (fun value d => value * 10 + d) 0 = n := by
  have hvalue := Nat.ofDigitChars_ten_toDigits (n := n)
  simpa [Nat.ofDigitChars_eq_foldl, decimalDigits, List.foldl_map, digitValue, Nat.mul_comm]
    using hvalue

theorem digits?_toDigits (n : Nat) : digits? (Nat.toDigits 10 n) = some (decimalDigits n, []) := by
  have hdigits : ∀ c ∈ Nat.toDigits 10 n, c.isDigit = true := by
    intro c hc
    exact Nat.isDigit_of_mem_toDigits (by decide) (by decide) hc
  rw [digits?, List.takeWhile_eq_self_iff.mpr hdigits, List.dropWhile_eq_nil_iff.mpr hdigits]
  cases hchars : Nat.toDigits 10 n with
  | nil => exact absurd hchars Nat.toDigits_ne_nil
  | cons c cs => rw [decimalDigits, hchars]

theorem wholePart?_toDigits (n : Nat) :
    wholePart? (Nat.toDigits 10 n) = some (decimalDigits n, []) := by
  rw [wholePart?, digits?_toDigits]
  rcases Nat.eq_zero_or_pos n with rfl | hn
  · rfl
  · obtain ⟨d, ds, hdigits, hd⟩ := decimalDigits_eq_cons hn
    rw [hdigits]
    cases d with
    | zero => exact absurd rfl hd
    | succ d => rfl

/-- A number of at most 64 bits is gathered as a whole. -/
theorem appendDigits_eq {start : Nat} {ds : List Nat}
    (hlt : ds.foldl (fun value d => value * 10 + d) start < 0x10000000000000000) :
    appendDigits start ds = (ds.foldl (fun value d => value * 10 + d) start, ds.length) := by
  have hcons (value d : Nat) (ds : List Nat) : appendDigits value (d :: ds) =
      if value * 10 + d < 0x10000000000000000 then
        ((appendDigits (value * 10 + d) ds).1, (appendDigits (value * 10 + d) ds).2 + 1)
      else (value, 0) := rfl
  have hle (ds : List Nat) (value : Nat) :
      value ≤ ds.foldl (fun value d => value * 10 + d) value := by
    induction ds generalizing value with
    | nil => exact Nat.le_refl _
    | cons d ds ih =>
        have hrest := ih (value * 10 + d)
        simp only [List.foldl_cons]
        omega
  induction ds generalizing start with
  | nil => rfl
  | cons d ds ih =>
      rw [List.foldl_cons] at hlt
      have hstart := hle ds (start * 10 + d)
      rw [hcons, if_pos (Nat.lt_of_le_of_lt hstart hlt), ih hlt]
      rfl

/-! ## Numbers -/

theorem ofChars?_toDigits (n : Nat) :
    NumeralText.ofChars? (Nat.toDigits 10 n) = some ⟨false, decimalDigits n, none, none⟩ := by
  have hsign (cs : List Char) : Nat.toDigits 10 n ≠ '-' :: cs := by
    intro hchars
    have hdigit := Nat.isDigit_of_mem_toDigits (b := 10) (n := n) (c := '-') (by decide) (by decide)
      (hchars ▸ List.mem_cons_self)
    exact absurd hdigit (by decide)
  have hwhole := wholePart?_toDigits n
  generalize Nat.toDigits 10 n = cs at hsign hwhole ⊢
  simp [NumeralText.ofChars?, hwhole, fractionPart?, exponentPart?]

theorem ofChars?_negative (n : Nat) :
    NumeralText.ofChars? ('-' :: Nat.toDigits 10 n) =
      some ⟨true, decimalDigits n, none, none⟩ := by
  simp [NumeralText.ofChars?, wholePart?_toDigits, fractionPart?, exponentPart?]

theorem toList_toString_ofNat (n : Nat) :
    (toString (Int.ofNat n)).toList = Nat.toDigits 10 n := by
  have htext : toString (Int.ofNat n) = n.repr := rfl
  rw [htext, Nat.repr_eq_ofList_toDigits, String.toList_ofList]

theorem toList_toString_negSucc (n : Nat) :
    (toString (Int.negSucc n)).toList = '-' :: Nat.toDigits 10 (n + 1) := by
  have htext : toString (Int.negSucc n) = "-" ++ (n + 1).repr := rfl
  simp [htext, Nat.repr_eq_ofList_toDigits]

theorem toString_ne_nil (n : Int) : (toString n).toList ≠ [] := by
  cases n with
  | ofNat m =>
      rw [toList_toString_ofNat]
      exact Nat.toDigits_ne_nil
  | negSucc m =>
      rw [toList_toString_negSucc]
      exact List.cons_ne_nil _ _

/-- A whole number is written with digits, and perhaps a sign. -/
theorem isDigit_or_sign {n : Int} {c : Char} (hc : c ∈ (toString n).toList) :
    c.isDigit = true ∨ c = '-' := by
  have hdigit {m : Nat} (hm : c ∈ Nat.toDigits 10 m) : c.isDigit = true :=
    Nat.isDigit_of_mem_toDigits (by decide) (by decide) hm
  cases n with
  | ofNat m =>
      rw [toList_toString_ofNat] at hc
      exact Or.inl (hdigit hc)
  | negSucc m =>
      rw [toList_toString_negSucc] at hc
      rcases List.mem_cons.mp hc with rfl | hc
      · exact Or.inr rfl
      · exact Or.inl (hdigit hc)

/-- A whole number of at most 64 bits is read back from its text. -/
theorem ofNumeral?_toString {n : Int} (hexact : (Numeral.whole n).isExact = true) :
    Json.ofNumeral? (toString n).toList = some (.number (.whole n)) := by
  have hvalue (m : Nat) (hm : m < 0x10000000000000000) :
      appendDigits 0 (decimalDigits m) = (m, (decimalDigits m).length) := by
    have hall := foldl_decimalDigits m
    rw [appendDigits_eq (by rwa [hall]), hall]
  simp only [Numeral.isExact, Bool.and_eq_true, decide_eq_true_eq] at hexact
  cases n with
  | ofNat m =>
      have hm : m < 0x10000000000000000 := by
        have hupper := hexact.2
        rw [Int.ofNat_eq_natCast] at hupper
        omega
      rw [toList_toString_ofNat, Json.ofNumeral?, ofChars?_toDigits]
      simp [NumeralText.value?, hvalue m hm]
  | negSucc m =>
      have hm : m + 1 ≤ 0x8000000000000000 := by
        omega
      rw [toList_toString_negSucc, Json.ofNumeral?, ofChars?_negative]
      simp [NumeralText.value?, hvalue (m + 1) (by omega), hm, Int.negSucc_eq]

end Unwind
