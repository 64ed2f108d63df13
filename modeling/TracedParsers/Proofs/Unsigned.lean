import TracedParsers.Proofs.Decimal

/-!
# Unsigned numbers

What the matcher of unsigned numbers does on every text, told by the row of digits in front of it and the
number that they stand for in base 10. Leading zeros and the length of the row do not matter. A number that
is written in decimal and followed by something else than a digit is read back.
-/

namespace TracedParsers

/-- The digits at the front of a text, as many as there are. -/
def Text.leadingDigits (s : Text) : List Char := s.chars.takeWhile Char.isDigit

/-- What follows the digits at the front of a text. -/
def Text.afterDigits (s : Text) : Text := .ofList (s.chars.dropWhile Char.isDigit)

theorem Text.leadingDigits_append_afterDigits (s : Text) : s.leadingDigits ++ s.afterDigits.chars = s.chars :=
  List.takeWhile_append_dropWhile

namespace Matcher

/-! ### Digits and their number -/

theorem digitValue_add {c : Char} (h : c.isDigit = true) : digitValue c + '0'.toNat = c.toNat := by
  simp only [Char.isDigit, Bool.and_eq_true, decide_eq_true_eq, ge_iff_le, UInt32.le_iff_toNat_le] at h
  have h0 : '0'.toNat ≤ c.toNat := h.1
  unfold digitValue
  omega

theorem decimal_map_digitValue (cs : List Char) :
    decimal (cs.map digitValue) = Nat.ofDigitChars 10 cs 0 := by
  rw [decimal, List.foldl_map, Nat.ofDigitChars_eq_foldl]
  simp only [digitValue, Nat.mul_comm]

theorem digitValues_lt {cs : List Char} (digits : ∀ c ∈ cs, c.isDigit = true) :
    ∀ d ∈ cs.map digitValue, d < 10 := by
  intro d hd
  obtain ⟨c, hc, rfl⟩ := List.mem_map.mp hd
  exact digitValue_lt (digits c hc)

/-- The running number is exact as long as there is one. -/
theorem ofDigits?_map_eq_some_iff {cs : List Char} (digits : ∀ c ∈ cs, c.isDigit = true) {n : UInt64} :
    ofDigits? (cs.map digitValue) = some n ↔ n.toNat = Nat.ofDigitChars 10 cs 0 := by
  rw [ofDigits?_eq (digitValues_lt digits), Checked.ofNat?_eq_some_iff, decimal_map_digitValue]

theorem ofDigits?_map_eq_none_iff {cs : List Char} (digits : ∀ c ∈ cs, c.isDigit = true) :
    ofDigits? (cs.map digitValue) = none ↔ UInt64.size ≤ Nat.ofDigitChars 10 cs 0 := by
  rw [ofDigits?_eq (digitValues_lt digits), Checked.ofNat?_eq_none_iff, decimal_map_digitValue]

/-! ### What is read -/

theorem yields_unsigned_value {s : Text} {n : UInt64} (digits : s.leadingDigits ≠ [])
    (value : n.toNat = Nat.ofDigitChars 10 s.leadingDigits 0) :
    unsigned.Yields s (.success n s.afterDigits) [] := by
  rw [← decimal_map_digitValue] at value
  exact yields_unsigned_iff.mpr (.value digits value)

theorem yields_unsigned_tooLarge {s : Text} (large : UInt64.size ≤ Nat.ofDigitChars 10 s.leadingDigits 0) :
    unsigned.Yields s (.failure (.invalid "integer does not fit in u64")) [.rejected] := by
  have digits : s.leadingDigits ≠ [] := by
    intro hnil
    rw [hnil] at large
    exact absurd large (by decide)
  rw [← decimal_map_digitValue] at large
  exact yields_unsigned_iff.mpr (.tooLarge digits large)

theorem yields_unsigned_atEnd {s : Text} (atEnd : s.chars = []) :
    unsigned.Yields s (.failure (.unexpectedEnd "ASCII digit")) [] := by
  refine yields_unsigned_iff.mpr ?_
  rw [atEnd]
  exact .atEnd

theorem yields_unsigned_other {s : Text} {c : Char} {cs : List Char} (none : s.leadingDigits = [])
    (hs : s.chars = c :: cs) : unsigned.Yields s (.failure (.unexpected "ASCII digit" c)) [] := by
  have hc : c.isDigit = false := by
    rw [Text.leadingDigits, hs, List.takeWhile_cons] at none
    cases h : c.isDigit with
    | true => simp [h] at none
    | false => rfl
  refine yields_unsigned_iff.mpr ?_
  rw [hs]
  exact .other hc

/-! ### Reading back -/

section
variable {digits : List Char} {tail : Text} (hdigits : ∀ c ∈ digits, c.isDigit = true)
  (htail : ∀ c ∈ tail.chars.head?, c.isDigit = false)
include hdigits htail

theorem leadingDigits_append : (Text.ofList digits ++ tail).leadingDigits = digits := by
  rw [Text.leadingDigits, Text.chars_append, Text.chars_ofList, List.takeWhile_append_of_pos hdigits]
  cases h : tail.chars with
  | nil => simp
  | cons c cs =>
    have hc : c.isDigit = false := htail c (by rw [h]; rfl)
    simp [hc]

theorem afterDigits_append : (Text.ofList digits ++ tail).afterDigits = tail := by
  have hwhole := Text.leadingDigits_append_afterDigits (.ofList digits ++ tail)
  rw [leadingDigits_append hdigits htail] at hwhole
  exact Text.ext (List.append_cancel_left hwhole)

end

theorem isDigit_of_mem_padded {zeros n : Nat} {c : Char}
    (h : c ∈ List.replicate zeros '0' ++ Nat.toDigits 10 n) : c.isDigit = true := by
  rcases List.mem_append.mp h with h | h
  · rw [List.eq_of_mem_replicate h]
    rfl
  · exact Nat.isDigit_of_mem_toDigits (by decide) (by decide) h

theorem ofDigitChars_padded (zeros n : Nat) :
    Nat.ofDigitChars 10 (List.replicate zeros '0' ++ Nat.toDigits 10 n) 0 = n := by
  rw [Nat.ofDigitChars_append, Nat.ofDigitChars_replicate_zero, Nat.mul_zero, Nat.ofDigitChars_ten_toDigits]

theorem yields_unsigned_padded (n : UInt64) (zeros : Nat) {tail : Text}
    (htail : ∀ c ∈ tail.chars.head?, c.isDigit = false) :
    unsigned.Yields (.ofList (List.replicate zeros '0' ++ Nat.toDigits 10 n.toNat) ++ tail)
      (.success n tail) [] := by
  have hdigits : ∀ c ∈ List.replicate zeros '0' ++ Nat.toDigits 10 n.toNat, c.isDigit = true :=
    fun _ => isDigit_of_mem_padded
  have hleading := leadingDigits_append hdigits htail
  have hread := yields_unsigned_value (s := .ofList _ ++ tail) (n := n)
    (by rw [hleading]; exact List.append_ne_nil_of_right_ne_nil _ Nat.toDigits_ne_nil)
    (by rw [hleading, ofDigitChars_padded])
  rwa [afterDigits_append hdigits htail] at hread

/-- An unsigned number is exactly what the digits in front of a text stand for. No step towards it wraps or
    goes below zero: the value of a digit and every running number are exact, and there is no running number
    only where it would need more than 64 bits. A number written in decimal is read back. -/
theorem unsigned_reads_leadingDigits :
    (∀ s : Text,
      (s.leadingDigits = [] →
        (s.chars = [] → unsigned.Yields s (.failure (.unexpectedEnd "ASCII digit")) []) ∧
        ∀ c cs, s.chars = c :: cs → unsigned.Yields s (.failure (.unexpected "ASCII digit" c)) []) ∧
      (s.leadingDigits ≠ [] → ∀ fits : Nat.ofDigitChars 10 s.leadingDigits 0 < UInt64.size,
        unsigned.Yields s (.success (.ofNatLT _ fits) s.afterDigits) []) ∧
      (UInt64.size ≤ Nat.ofDigitChars 10 s.leadingDigits 0 →
        unsigned.Yields s (.failure (.invalid "integer does not fit in u64")) [.rejected])) ∧
    (∀ c : Char, c.isDigit = true → digitValue c + '0'.toNat = c.toNat ∧
      (UInt64.ofNat (digitValue c)).toNat = digitValue c) ∧
    (∀ a b n : UInt64, (Checked.mul? a b = some n ↔ n.toNat = a.toNat * b.toNat) ∧
      (Checked.add? a b = some n ↔ n.toNat = a.toNat + b.toNat)) ∧
    (∀ cs : List Char, (∀ c ∈ cs, c.isDigit = true) →
      (∀ n : UInt64, ofDigits? (cs.map digitValue) = some n ↔ n.toNat = Nat.ofDigitChars 10 cs 0) ∧
      (ofDigits? (cs.map digitValue) = none ↔ UInt64.size ≤ Nat.ofDigitChars 10 cs 0)) ∧
    ∀ (n : UInt64) (zeros : Nat) (tail : Text), (∀ c ∈ tail.chars.head?, c.isDigit = false) →
      unsigned.Yields (.ofList (List.replicate zeros '0' ++ Nat.toDigits 10 n.toNat) ++ tail)
        (.success n tail) [] := by
  refine ⟨fun s => ⟨?_, ?_, yields_unsigned_tooLarge⟩, ?_, ?_, ?_, ?_⟩
  · intro none
    exact ⟨yields_unsigned_atEnd, fun c cs hs => yields_unsigned_other none hs⟩
  · intro digits fits
    exact yields_unsigned_value digits UInt64.toNat_ofNatLT
  · intro c hc
    have hsmall : digitValue c < UInt64.size := Nat.lt_trans (digitValue_lt hc) (by decide)
    exact ⟨digitValue_add hc, UInt64.toNat_ofNat_of_lt' hsmall⟩
  · intro a b n
    exact ⟨Checked.ofNat?_eq_some_iff, Checked.ofNat?_eq_some_iff⟩
  · intro cs digits
    exact ⟨fun n => ofDigits?_map_eq_some_iff digits, ofDigits?_map_eq_none_iff digits⟩
  · intro n zeros tail htail
    exact yields_unsigned_padded n zeros htail

/-- The largest number behind zeros and before a letter, the number after it, a letter, nothing at all, and a
    number that is read back. -/
theorem unsigned_reads_leadingDigits_bounds :
    unsigned.Yields (.ofString "0018446744073709551615x") (.success 18446744073709551615 (.ofString "x")) [] ∧
      unsigned.Yields (.ofString "18446744073709551616") (.failure (.invalid "integer does not fit in u64"))
        [.rejected] ∧
      unsigned.Yields (.ofString "x") (.failure (.unexpected "ASCII digit" 'x')) [] ∧
      unsigned.Yields (.ofString "") (.failure (.unexpectedEnd "ASCII digit")) [] ∧
      (UInt64.ofNat (digitValue '9')).toNat = 9 ∧
      ofDigits? (['4', '2'].map digitValue) = some 42 ∧
      unsigned.Yields (.ofList (List.replicate 2 '0' ++ Nat.toDigits 10 7) ++ .ofString ".5")
        (.success 7 (.ofString ".5")) [] := by
  obtain ⟨hread, hdigit, -, hrunning, hback⟩ := unsigned_reads_leadingDigits
  refine ⟨?_, ?_, ?_, ?_, ?_, ?_, ?_⟩
  · exact (hread (.ofString "0018446744073709551615x")).2.1 (by decide) (by decide)
  · exact (hread (.ofString "18446744073709551616")).2.2 (by decide)
  · exact ((hread (.ofString "x")).1 (by decide)).2 'x' [] (by decide)
  · exact ((hread (.ofString "")).1 (by decide)).1 (by decide)
  · exact (hdigit '9' (by decide)).2
  · exact ((hrunning ['4', '2'] (List.all_eq_true.mp rfl)).1 42).mpr (by decide)
  · exact hback 7 2 (.ofString ".5") fun c hc => by cases hc; rfl

end Matcher
end TracedParsers
