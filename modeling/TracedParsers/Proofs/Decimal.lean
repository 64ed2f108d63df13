import TracedParsers.Proofs.Span

/-!
# Decimal numbers

An unsigned number is read from the longest row of digits at the front of the input. The row is refused
exactly where its number needs more than 64 bits, wherever the first step overflows.
-/

namespace TracedParsers
namespace Matcher

theorem digitValue_lt {c : Char} (h : c.isDigit = true) : digitValue c < 10 := by
  simp only [Char.isDigit, Bool.and_eq_true, decide_eq_true_eq, UInt32.le_iff_toNat_le] at h
  have h9 : c.toNat ≤ 57 := h.2
  have h0 : '0'.toNat = 48 := rfl
  unfold digitValue
  omega

/-- The number that a list of decimal digits stands for. -/
def decimal (ds : List Nat) : Nat := ds.foldl (fun n d => n * 10 + d) 0

theorem le_foldl_decimal (n : Nat) (ds : List Nat) : n ≤ ds.foldl (fun n d => n * 10 + d) n := by
  induction ds generalizing n with
  | nil => exact Nat.le_refl n
  | cons d ds ih =>
    calc n ≤ n * 10 + d := by omega
      _ ≤ _ := ih _

theorem pushDigit?_eq {n : UInt64} {d : Nat} (hd : d < 10) :
    pushDigit? n d = Checked.ofNat? (n.toNat * 10 + d) := by
  have hsize : 10 < UInt64.size := by decide
  have hd' : (UInt64.ofNat d).toNat = d := UInt64.toNat_ofNat_of_lt' (Nat.lt_trans hd hsize)
  unfold pushDigit? Checked.mul? Checked.add?
  cases hm : Checked.ofNat? (n.toNat * (10 : UInt64).toNat) with
  | none =>
    have hlarge : UInt64.size ≤ n.toNat * 10 := Checked.ofNat?_eq_none_iff.mp hm
    exact (Checked.ofNat?_eq_none_iff.mpr (by omega)).symm
  | some m =>
    have hm : m.toNat = n.toNat * 10 := Checked.ofNat?_eq_some_iff.mp hm
    rw [Option.bind_some, hm, hd']

theorem foldlM_pushDigit? {n : UInt64} {ds : List Nat} (hds : ∀ d ∈ ds, d < 10) :
    ds.foldlM pushDigit? n = Checked.ofNat? (ds.foldl (fun n d => n * 10 + d) n.toNat) := by
  induction ds generalizing n with
  | nil => exact (Checked.ofNat?_eq_some_iff.mpr rfl).symm
  | cons d ds ih =>
    rw [List.forall_mem_cons] at hds
    rw [List.foldlM_cons, List.foldl_cons, pushDigit?_eq hds.1]
    cases hn : Checked.ofNat? (n.toNat * 10 + d) with
    | none =>
      -- A number that is too large does not get smaller by more digits.
      have hlarge := Checked.ofNat?_eq_none_iff.mp hn
      exact (Checked.ofNat?_eq_none_iff.mpr (Nat.le_trans hlarge (le_foldl_decimal _ ds))).symm
    | some m =>
      rw [← Checked.ofNat?_eq_some_iff.mp hn]
      exact ih hds.2

section NumberOf
variable {ds : List Nat} (hds : ∀ d ∈ ds, d < 10)
include hds

theorem ofDigits?_eq : ofDigits? ds = Checked.ofNat? (decimal ds) :=
  foldlM_pushDigit? hds

theorem numberOf_eq_ok_iff {n : UInt64} : numberOf ds = .ok n ↔ n.toNat = decimal ds := by
  rw [numberOf, ofDigits?_eq hds, ← Checked.ofNat?_eq_some_iff]
  cases Checked.ofNat? (decimal ds) <;> simp

theorem numberOf_eq_error_iff {e : MatchError Char} :
    numberOf ds = .error e ↔ UInt64.size ≤ decimal ds ∧ e = .invalid "integer does not fit in u64" := by
  rw [numberOf, ofDigits?_eq hds, ← Checked.ofNat?_eq_none_iff]
  cases Checked.ofNat? (decimal ds) <;> simp [eq_comm]

end NumberOf

inductive ReadsUnsigned : List Char → Outcome (List Char) (MatchError Char) UInt64 → Trace → Prop where
  | value {cs n} (digits : cs.takeWhile Char.isDigit ≠ [])
      (value : n.toNat = decimal ((cs.takeWhile Char.isDigit).map digitValue)) :
      ReadsUnsigned cs (.success n (cs.dropWhile Char.isDigit)) []
  | tooLarge {cs} (digits : cs.takeWhile Char.isDigit ≠ [])
      (large : UInt64.size ≤ decimal ((cs.takeWhile Char.isDigit).map digitValue)) :
      ReadsUnsigned cs (.failure (.invalid "integer does not fit in u64")) [.rejected]
  | other {c cs} (h : c.isDigit = false) :
      ReadsUnsigned (c :: cs) (.failure (.unexpected "ASCII digit" c)) []
  | atEnd : ReadsUnsigned [] (.failure (.unexpectedEnd "ASCII digit")) []

theorem yields_digits_iff {s : Text} {o : Outcome Text (MatchError Char) (List Nat)} {t : Trace} :
    digit.many1.Yields s o t ↔
      ReadsRow Char.isDigit "ASCII digit" digitValue s.chars (o.mapRest Text.chars) ∧ t = [] :=
  yields_many1_element_map

theorem yields_unsigned_iff {s : Text} {o : Outcome Text (MatchError Char) UInt64} {t : Trace} :
    unsigned.Yields s o t ↔ ReadsUnsigned s.chars (o.mapRest Text.chars) t := by
  have hds : ∀ d ∈ (s.chars.takeWhile Char.isDigit).map digitValue, d < 10 := by
    intro d hd
    obtain ⟨c, hc, rfl⟩ := List.mem_map.mp hd
    exact digitValue_lt (List.all_eq_true.mp List.all_takeWhile c hc)
  rw [unsigned, Parser.yields_validate]
  simp only [yields_digits_iff]
  constructor
  · rintro (⟨e, ⟨h, rfl⟩, rfl⟩ | ⟨ds, r, n, ⟨h, rfl⟩, hn, rfl⟩ | ⟨ds, r, e, t', ⟨h, rfl⟩, he, rfl, rfl⟩)
    · generalize s.chars = cs at h
      cases h with
      | other hc => exact .other hc
      | atEnd => exact .atEnd
    · obtain ⟨hrow, rfl, hr⟩ := readsRow_success_iff.mp h
      rw [Outcome.mapRest_success, hr]
      exact .value hrow ((numberOf_eq_ok_iff hds).mp hn)
    · obtain ⟨hrow, rfl, -⟩ := readsRow_success_iff.mp h
      obtain ⟨hlarge, rfl⟩ := (numberOf_eq_error_iff hds).mp he
      exact .tooLarge hrow hlarge
  · intro h
    generalize hs : s.chars = cs at h hds
    generalize ho : o.mapRest Text.chars = o' at h
    cases h with
    | value hrow hn =>
      obtain ⟨r, rfl, hr⟩ := Outcome.mapRest_eq_success_iff.mp ho
      exact Or.inr (Or.inl ⟨_, r, _, ⟨readsRow_success_iff.mpr ⟨hrow, rfl, hr⟩, rfl⟩,
        (numberOf_eq_ok_iff hds).mpr hn, rfl⟩)
    | tooLarge hrow hlarge =>
      have he := (numberOf_eq_error_iff hds).mpr ⟨hlarge, rfl⟩
      exact Or.inr (Or.inr ⟨_, .ofList _, _, [], ⟨readsRow_success_iff.mpr ⟨hrow, rfl, rfl⟩, rfl⟩, he,
        Outcome.mapRest_eq_failure_iff.mp ho, rfl⟩)
    | other hc => exact Or.inl ⟨_, ⟨.other hc, rfl⟩, Outcome.mapRest_eq_failure_iff.mp ho⟩
    | atEnd => exact Or.inl ⟨_, ⟨.atEnd, rfl⟩, Outcome.mapRest_eq_failure_iff.mp ho⟩

end Matcher
end TracedParsers
