import TracedParsers.Formats.DigitList
import TracedParsers.Proofs.Literals
import TracedParsers.Proofs.Unsigned

/-!
# Lists of digits

A list of digits with commas between them is read to its end: as far as each comma has a digit behind it. A comma
without one is read by the last attempt, which fails on what follows and gives the comma back. What is read is a list
in its written form, so a list that is written and followed by something else is read again.
-/

namespace TracedParsers
namespace Formats

open Matcher

variable {s r : Text} {d : Nat} {ds : List Nat} {e : MatchError Char} {t : Trace}

/-! ### Digits and their characters -/

theorem digitChar_digitValue {c : Char} (h : c.isDigit = true) : Nat.digitChar (digitValue c) = c := by
  have hvalue := digitValue_add h
  have hzero : '0'.toNat = 48 := rfl
  refine Char.toNat_inj.mp ?_
  rw [Nat.toNat_digitChar_of_lt_ten (digitValue_lt h)]
  omega

theorem digitValue_digitChar (h : d < 10) : digitValue (Nat.digitChar d) = d := by
  have hzero : '0'.toNat = 48 := rfl
  rw [digitValue, Nat.toNat_digitChar_of_lt_ten h]
  omega

/-! ### One digit -/

theorem yields_digit_success_iff :
    digit.Yields s (.success d r) t ↔ d < 10 ∧ s.chars = Nat.digitChar d :: r.chars ∧ t = [] := by
  refine (TextLeaf.digit).yields_iff.trans ?_
  generalize s.chars = cs
  constructor
  · rintro ⟨o, h, ho⟩
    obtain ⟨c, rfl, rfl⟩ := Outcome.map_eq_success_iff.mp ho.symm
    cases h with
    | success hc => exact ⟨digitValue_lt hc, by rw [digitChar_digitValue hc], rfl⟩
  · rintro ⟨hd, rfl, rfl⟩
    have hc : (Nat.digitChar d).isDigit = true := by rw [Nat.isDigit_digitChar, decide_eq_true hd]
    refine ⟨_, .success hc, ?_⟩
    rw [Outcome.map_success, digitValue_digitChar hd]
    rfl

theorem yields_digit_failure_iff : digit.Yields s (.failure e) t ↔
    (∀ c ∈ s.chars.head?, c.isDigit = false) ∧ e = .instead "ASCII digit" s.chars.head? ∧ t = [] := by
  refine (TextLeaf.digit).yields_iff.trans ?_
  generalize s.chars = cs
  constructor
  · rintro ⟨o, h, ho⟩
    obtain rfl := Outcome.map_eq_failure_iff.mp ho.symm
    cases h with
    | other hc => exact ⟨fun _ hd => Option.some.inj hd ▸ hc, rfl, rfl⟩
    | atEnd => exact ⟨nofun, rfl, rfl⟩
  · rintro ⟨hc, rfl, rfl⟩
    cases cs with
    | nil => exact ⟨_, .atEnd, rfl⟩
    | cons c cs => exact ⟨_, .other (hc c rfl), rfl⟩

/-! ### One more digit -/

/-- A comma and the digit behind it. -/
def nextDigit : Parser Text (MatchError Char) Nat := (char ',').seqRight digit

theorem yields_nextDigit_success_iff :
    nextDigit.Yields s (.success d r) t ↔ d < 10 ∧ s.chars = ',' :: Nat.digitChar d :: r.chars ∧ t = [] := by
  rw [nextDigit, Parser.yields_seqRight_success_iff]
  constructor
  · rintro ⟨c, rest, t₁, t₂, hcomma, hdigit, rfl⟩
    obtain ⟨-, hs, rfl⟩ := yields_char_success_iff.mp hcomma
    obtain ⟨hd, hrest, rfl⟩ := yields_digit_success_iff.mp hdigit
    exact ⟨hd, by rw [hs, hrest], rfl⟩
  · rintro ⟨hd, hs, rfl⟩
    have hcomma : (char ',').Yields s (.success ',' (.ofList (Nat.digitChar d :: r.chars))) [] :=
      yields_char_success_iff.mpr ⟨rfl, hs, rfl⟩
    exact ⟨_, _, [], [], hcomma, yields_digit_success_iff.mpr ⟨hd, rfl, rfl⟩, rfl⟩

/-- The attempt fails at the comma, or behind it. -/
theorem exists_nextDigit_failure_iff : (∃ e, nextDigit.Yields s (.failure e) t) ↔ ¬s.HasNextDigit ∧ t = [] := by
  constructor
  · rintro ⟨e, h⟩
    rcases Parser.yields_seqRight_failure_iff.mp h with hcomma | ⟨c, rest, t₁, t₂, hcomma, hdigit, rfl⟩
    · obtain ⟨hne, -, rfl⟩ := yields_char_failure_iff.mp hcomma
      refine ⟨?_, rfl⟩
      rintro ⟨c, cs, hs, -⟩
      exact hne (by rw [hs]; rfl)
    · obtain ⟨-, hs, rfl⟩ := yields_char_success_iff.mp hcomma
      obtain ⟨hrest, -, rfl⟩ := yields_digit_failure_iff.mp hdigit
      refine ⟨?_, rfl⟩
      obtain rfl : s = .ofString "," ++ rest := Text.ext hs
      exact Text.not_hasNextDigit_comma hrest
  · rintro ⟨hnone, rfl⟩
    by_cases hcomma : s.chars.head? = some ','
    · obtain ⟨cs, hs⟩ := List.head?_eq_some_iff.mp hcomma
      have hread : (char ',').Yields s (.success ',' (.ofList cs)) [] := yields_char_success_iff.mpr ⟨rfl, hs, rfl⟩
      have hother : ∀ c ∈ cs.head?, c.isDigit = false := by
        intro c hc
        obtain ⟨cs', rfl⟩ := List.head?_eq_some_iff.mp hc
        exact Bool.eq_false_iff.mpr fun hdigit => hnone ⟨c, cs', hs, hdigit⟩
      have hfail := (yields_digit_failure_iff (s := .ofList cs)).mpr ⟨hother, rfl, rfl⟩
      exact ⟨_, Parser.yields_seqRight_failure_iff.mpr (.inr ⟨_, _, [], [], hread, hfail, rfl⟩)⟩
    · have hfail := yields_char_failure_iff.mpr ⟨hcomma, rfl, rfl⟩
      exact ⟨_, Parser.yields_seqRight_failure_iff.mpr (.inl hfail)⟩

/-! ### All that follow -/

theorem ends_items_nextDigit : (nextDigit.items s).Ends (ds, r) t ↔
    (∀ d ∈ ds, d < 10) ∧ s.chars = continuation ds ++ r.chars ∧ ¬r.HasNextDigit ∧ t = [] := by
  induction ds generalizing s t with
  | nil =>
    rw [Parser.ends_items_nil_iff, exists_nextDigit_failure_iff]
    constructor
    · rintro ⟨rfl, hnone, rfl⟩
      exact ⟨nofun, rfl, hnone, rfl⟩
    · rintro ⟨-, hs, hnone, rfl⟩
      obtain rfl : s = r := Text.ext hs
      exact ⟨rfl, hnone, rfl⟩
  | cons d ds ih =>
    rw [Parser.ends_items_cons_iff, List.forall_mem_cons]
    constructor
    · rintro ⟨rest, t₁, t₂, hnext, hothers, rfl⟩
      obtain ⟨hd, hs, rfl⟩ := yields_nextDigit_success_iff.mp hnext
      obtain ⟨hds, hrest, hnone, rfl⟩ := ih.mp hothers
      exact ⟨⟨hd, hds⟩, by rw [hs, hrest]; rfl, hnone, rfl⟩
    · rintro ⟨⟨hd, hds⟩, hs, hnone, rfl⟩
      have hnext : nextDigit.Yields s (.success d (.ofList (continuation ds ++ r.chars))) [] :=
        yields_nextDigit_success_iff.mpr ⟨hd, hs, rfl⟩
      exact ⟨_, [], [], hnext, ih.mpr ⟨hds, rfl, hnone, rfl⟩, rfl⟩

/-- Every text is a list of digits with a comma before each, as long as there is, and a rest. -/
theorem exists_continuation (cs : List Char) : ∃ ds r, (∀ d ∈ ds, d < 10) ∧ cs = continuation ds ++ r ∧
    ¬(Text.ofList r).HasNextDigit := by
  by_cases hnext : (Text.ofList cs).HasNextDigit
  · obtain ⟨c, rest, hcs, hc⟩ := hnext
    obtain rfl : cs = ',' :: c :: rest := hcs
    obtain ⟨ds, r, hds, rfl, hnone⟩ := exists_continuation rest
    refine ⟨digitValue c :: ds, r, List.forall_mem_cons.mpr ⟨digitValue_lt hc, hds⟩, ?_, hnone⟩
    show _ = ',' :: Nat.digitChar (digitValue c) :: (continuation ds ++ r)
    rw [digitChar_digitValue hc]
  · exact ⟨[], cs, nofun, rfl, hnext⟩
termination_by cs.length

/-! ### Lists -/

theorem digitList_yields_success_iff : digitList.Yields s (.success (d, ds) r) t ↔
    (∀ x ∈ d :: ds, x < 10) ∧ s.chars = written (d :: ds) ++ r.chars ∧ ¬r.HasNextDigit ∧ t = [.stopped ds.length] := by
  show (digit.seq nextDigit.many).Yields s _ t ↔ _
  rw [Parser.yields_seq_success_iff, List.forall_mem_cons, written_cons]
  constructor
  · rintro ⟨rest, t₁, t₂, hfirst, hmany, rfl⟩
    obtain ⟨hd, hs, rfl⟩ := yields_digit_success_iff.mp hfirst
    obtain ⟨u, hitems, rfl⟩ := Parser.yields_many_success_iff.mp hmany
    obtain ⟨hds, hrest, hnone, rfl⟩ := ends_items_nextDigit.mp hitems
    exact ⟨⟨hd, hds⟩, by rw [hs, hrest]; rfl, hnone, rfl⟩
  · rintro ⟨⟨hd, hds⟩, hs, hnone, rfl⟩
    have hfirst : digit.Yields s (.success d (.ofList (continuation ds ++ r.chars))) [] :=
      yields_digit_success_iff.mpr ⟨hd, hs, rfl⟩
    have hitems := (ends_items_nextDigit (s := .ofList (continuation ds ++ r.chars))).mpr ⟨hds, rfl, hnone, rfl⟩
    exact ⟨_, [], _, hfirst, Parser.yields_many_success_iff.mpr ⟨[], hitems, rfl⟩, rfl⟩

theorem digitList_yields_failure_iff : (∃ e t, digitList.Yields s (.failure e) t) ↔
    ∀ c ∈ s.chars.head?, c.isDigit = false := by
  show (∃ e t, (digit.seq nextDigit.many).Yields s (.failure e) t) ↔ _
  constructor
  · rintro ⟨e, t, h⟩
    rcases Parser.yields_seq_failure_iff.mp h with hfirst | ⟨_, _, _, _, _, hmany, _⟩
    · exact (yields_digit_failure_iff.mp hfirst).1
    · exact absurd hmany Parser.not_yields_many_failure
  · intro hnone
    exact ⟨_, [], Parser.yields_seq_failure_iff.mpr (.inl (yields_digit_failure_iff.mpr ⟨hnone, rfl, rfl⟩))⟩

theorem digitList_succeeds_iff : (∃ v r t, digitList.Yields s (.success v r) t) ↔
    ∃ c ∈ s.chars.head?, c.isDigit = true := by
  constructor
  · rintro ⟨⟨d, ds⟩, r, t, h⟩
    obtain ⟨hdigits, hs, -⟩ := digitList_yields_success_iff.mp h
    rw [written_cons] at hs
    refine ⟨Nat.digitChar d, by rw [hs]; rfl, ?_⟩
    rw [Nat.isDigit_digitChar, decide_eq_true (hdigits d List.mem_cons_self)]
  · rintro ⟨c, hhead, hc⟩
    obtain ⟨cs, hs⟩ := List.head?_eq_some_iff.mp hhead
    obtain ⟨ds, r, hds, rfl, hnone⟩ := exists_continuation cs
    refine ⟨(digitValue c, ds), .ofList r, _, digitList_yields_success_iff.mpr ⟨?_, ?_, hnone, rfl⟩⟩
    · exact List.forall_mem_cons.mpr ⟨digitValue_lt hc, hds⟩
    · rw [written_cons, digitChar_digitValue hc]
      exact hs

/-- On every text a list of digits is read exactly where a digit stands first, and otherwise the parser fails. What is
    read is written in front of what is left, with single commas between the digits, and what is left does not start
    with a comma and a digit; the number of digits behind the first is reported, and nothing else. So a list that is
    written is read again whatever follows it, but for a comma with a digit behind it. A comma with anything else
    behind it, or with nothing, is left. -/
theorem digitList_reads_written :
    (∀ s : Text,
      (∀ (d : Nat) (ds : List Nat) (r : Text) (t : Trace), digitList.Yields s (.success (d, ds) r) t ↔
        (∀ x ∈ d :: ds, x < 10) ∧ s = .ofList (written (d :: ds)) ++ r ∧ ¬r.HasNextDigit ∧
          t = [.stopped ds.length]) ∧
      ((∃ v r t, digitList.Yields s (.success v r) t) ↔ ∃ c ∈ s.chars.head?, c.isDigit = true) ∧
      ((∃ e t, digitList.Yields s (.failure e) t) ↔ ∀ c ∈ s.chars.head?, c.isDigit = false)) ∧
    (∀ (d : Nat) (ds : List Nat) (tail : Text), (∀ x ∈ d :: ds, x < 10) → ¬tail.HasNextDigit →
      digitList.Yields (.ofList (written (d :: ds)) ++ tail) (.success (d, ds) tail) [.stopped ds.length]) ∧
    ∀ (d : Nat) (ds : List Nat) (tail : Text), (∀ x ∈ d :: ds, x < 10) →
      (∀ c ∈ tail.chars.head?, c.isDigit = false) →
        digitList.Yields (.ofList (written (d :: ds)) ++ (.ofString "," ++ tail))
          (.success (d, ds) (.ofString "," ++ tail)) [.stopped ds.length] := by
  refine ⟨fun s => ⟨?_, digitList_succeeds_iff, digitList_yields_failure_iff⟩, ?_, ?_⟩
  · intro d ds r t
    have hwhole : s = .ofList (written (d :: ds)) ++ r ↔ s.chars = written (d :: ds) ++ r.chars :=
      ⟨fun h => congrArg Text.chars h, fun h => Text.ext h⟩
    rw [digitList_yields_success_iff, hwhole]
  · intro d ds tail hdigits htail
    exact digitList_yields_success_iff.mpr ⟨hdigits, rfl, htail, rfl⟩
  · intro d ds tail hdigits htail
    exact digitList_yields_success_iff.mpr ⟨hdigits, rfl, Text.not_hasNextDigit_comma htail, rfl⟩

/-- A list with a comma and a letter behind it, a comma with no digit before it, and two lists that are written: one
    with nothing behind it and one with a comma behind it. -/
theorem digitList_reads_written_commas :
    digitList.Yields (.ofString "1,2,x") (.success (1, [2]) (.ofString ",x")) [.stopped 1] ∧
      (∃ e t, digitList.Yields (.ofString ",1") (.failure e) t) ∧
      digitList.Yields (.ofList (written [7, 0, 9])) (.success (7, [0, 9]) .empty) [.stopped 2] ∧
      digitList.Yields (.ofList (written [4]) ++ (.ofString "," ++ .empty)) (.success (4, []) (.ofString ","))
        [.stopped 0] := by
  obtain ⟨hread, hback, hcomma⟩ := digitList_reads_written
  have hletter : ¬(Text.ofString ",x").HasNextDigit :=
    Text.not_hasNextDigit_comma (s := .ofString "x") fun c hc => by cases hc; rfl
  have hempty : ¬Text.empty.HasNextDigit := nofun
  refine ⟨?_, ?_, ?_, ?_⟩
  · exact ((hread _).1 1 [2] _ _).mpr ⟨by decide, Text.ext rfl, hletter, rfl⟩
  · exact (hread _).2.2.mpr fun c hc => by cases hc; rfl
  · exact hback 7 [0, 9] .empty (by decide) hempty
  · exact hcomma 4 [] .empty (by decide) nofun

end Formats
end TracedParsers
