import TracedParsers.Grammar.Leaves

/-!
# What the matchers read

The rules of the matchers, said about lists of elements and without a parser. A matcher of one element
takes an element that passes its test, and a literal takes exactly its characters. A literal looks at the bytes of
the input first and at its characters only where the bytes differ; `literal_parse` makes one walk of the two. Neither
matcher reports an event.
-/

namespace TracedParsers
namespace Matcher

variable {σ τ : Type}

inductive ReadsElement (test : τ → Bool) (expected : String) :
    List τ → Outcome (List τ) (MatchError τ) τ → Trace → Prop where
  | success {x xs} (h : test x = true) : ReadsElement test expected (x :: xs) (.success x xs) []
  | other {x xs} (h : test x = false) :
      ReadsElement test expected (x :: xs) (.failure (.unexpected expected x)) []
  | atEnd : ReadsElement test expected [] (.failure (.unexpectedEnd expected)) []

/-- How a fixed text is read. Where the input differs, the error shows the first character that does. -/
inductive ReadsLiteral (wanted : String) :
    List Char → Outcome (List Char) (MatchError Char) String → Trace → Prop where
  | success {cs} : ReadsLiteral wanted (wanted.toList ++ cs) (.success wanted cs) []
  | other {before c cs found rest} (h : wanted.toList = before ++ c :: cs) (ne : found ≠ c) :
      ReadsLiteral wanted (before ++ found :: rest) (.failure (.unexpected (inspect wanted) found)) []
  | atEnd {cs d ds} (h : wanted.toList = cs ++ d :: ds) :
      ReadsLiteral wanted cs (.failure (.unexpectedEnd (inspect wanted))) []

theorem yields_element_iff [Source σ τ] {test : τ → Bool} {expected : String} {s : σ}
    {o : Outcome σ (MatchError τ) τ} {t : Trace} :
    (element test expected).Yields s o t ↔
      ReadsElement test expected (Source.toList s) (o.mapRest Source.toList) t := by
  cases hs : Source.next? s with
  | none =>
    rw [yields_element_of_none hs, Source.toList_of_none hs]
    constructor
    · rintro ⟨rfl, rfl⟩
      exact .atEnd
    · intro h
      generalize ho : o.mapRest Source.toList = o' at h
      cases h
      exact ⟨Outcome.mapRest_eq_failure_iff.mp ho, rfl⟩
  | some y =>
    obtain ⟨x, rest⟩ := y
    rw [yields_element_of_some hs, Source.toList_of_some hs]
    constructor
    · rintro ⟨rfl, rfl⟩
      cases hx : test x with
      | true => exact .success hx
      | false => exact .other hx
    · intro h
      generalize ho : o.mapRest Source.toList = o' at h
      cases h with
      | success hx =>
        obtain ⟨r, rfl, hr⟩ := Outcome.mapRest_eq_success_iff.mp ho
        rw [if_pos hx, Source.toList_injective hr]
        exact ⟨rfl, rfl⟩
      | other hx =>
        rw [if_neg (Bool.eq_false_iff.mp hx)]
        exact ⟨Outcome.mapRest_eq_failure_iff.mp ho, rfl⟩

/-! ### Literals -/

section
variable [BEq τ] [LawfulBEq τ]

/-- Two lists of which neither shows an element that differs are equal as far as both go. So if the first is no
    prefix of the second, the second is a strict prefix of the first. -/
theorem strict_prefix_of_no_mismatch {xs ys : List τ} (h : mismatch? xs ys = none) (notPrefix : ¬ xs.IsPrefix ys) :
    ∃ y zs, xs = ys ++ y :: zs := by
  induction xs generalizing ys with
  | nil => exact absurd List.nil_prefix notPrefix
  | cons x xs ih =>
    cases ys with
    | nil => exact ⟨x, xs, rfl⟩
    | cons y ys =>
      by_cases hxy : x = y
      · subst hxy
        have htail : mismatch? xs ys = none := by simpa [mismatch?] using h
        have hnot : ¬ xs.IsPrefix ys := fun hprefix => notPrefix (List.cons_prefix_cons.mpr ⟨rfl, hprefix⟩)
        obtain ⟨z, zs, rfl⟩ := ih htail hnot
        exact ⟨z, zs, rfl⟩
      · simp [mismatch?, hxy] at h

/-- The walk stops at the first element of the input that differs. -/
theorem drop_of_mismatch [Source σ τ] {xs : List τ} {s : σ} {x y : τ}
    (h : mismatch? xs (Source.toList s) = some (x, y)) : Source.drop xs s = .error (some y) := by
  induction xs generalizing s with
  | nil => nomatch h
  | cons z xs ih =>
    cases hs : Source.next? s with
    | none =>
      rw [Source.toList_of_none hs] at h
      nomatch h
    | some next =>
      obtain ⟨z', r⟩ := next
      rw [Source.toList_of_some hs] at h
      by_cases hz : z = z'
      · subst hz
        have htail : mismatch? xs (Source.toList r) = some (x, y) := by simpa [mismatch?] using h
        simp [Source.drop, hs, ih htail]
      · obtain ⟨-, rfl⟩ : z = x ∧ z' = y := by simpa [mismatch?, hz] using h
        simp [Source.drop, hs, Ne.symm hz]

end

/-- Comparing bytes and splitting, or else looking for a character that differs, comes to one walk over the text and
    the input. -/
theorem literal_parse (wanted : String) (s : Text) :
    (literal wanted).parse s =
      match Source.drop wanted.toList s with
      | .ok rest => pure (.success wanted rest)
      | .error none => pure (.failure (.unexpectedEnd (inspect wanted)))
      | .error (some found) => pure (.failure (.unexpected (inspect wanted) found)) := by
  unfold literal
  by_cases hstarts : s.startsWith (.ofString wanted) = true
  -- The bytes are those of the text, so they end where its characters end, and the split cannot go wrong.
  · obtain ⟨cs, hs⟩ := Text.startsWith_iff.mp hstarts
    have hdrop : Source.drop wanted.toList s = .ok (.ofList cs) := Source.drop_eq_ok_iff.mpr hs.symm
    have hsplit : s.splitAt? (Text.ofString wanted).utf8Size = some (.ofString wanted, .ofList cs) :=
      Text.splitAt?_eq_some_iff.mpr ⟨Text.ext hs.symm, rfl⟩
    simp only [hstarts, if_true, hsplit, hdrop, Text.toString_ofString]
  -- Other bytes are other characters, but the search may still find none that differs: the input is too short then.
  · have hnot : ¬ wanted.toList.IsPrefix s.chars := fun h => hstarts (Text.startsWith_iff.mpr h)
    cases hm : mismatch? wanted.toList s.chars with
    | none =>
      have hdrop : Source.drop wanted.toList s = .error none :=
        Source.drop_eq_error_none_iff.mpr (strict_prefix_of_no_mismatch hm hnot)
      simp only [if_neg hstarts, hm, hdrop]
    | some x =>
      have hdrop : Source.drop wanted.toList s = .error (some x.2) := drop_of_mismatch hm
      simp only [if_neg hstarts, hm, hdrop]

theorem yields_literal_iff {wanted : String} {s : Text} {o : Outcome Text (MatchError Char) String}
    {t : Trace} : (literal wanted).Yields s o t ↔ ReadsLiteral wanted s.chars (o.mapRest Text.chars) t := by
  rw [← Text.toList_eq_chars]
  simp only [Parser.Yields, literal_parse]
  constructor
  · intro h
    split at h
    next r hr =>
      obtain ⟨rfl, rfl⟩ := Run.ends_pure.mp h
      rw [Source.drop_eq_ok_iff.mp hr]
      exact .success
    next hr =>
      obtain ⟨rfl, rfl⟩ := Run.ends_pure.mp h
      obtain ⟨d, ds, hw⟩ := Source.drop_eq_error_none_iff.mp hr
      exact .atEnd hw
    next found hr =>
      obtain ⟨rfl, rfl⟩ := Run.ends_pure.mp h
      obtain ⟨before, c, cs, rest, hw, hs, ne⟩ := Source.drop_eq_error_some_iff.mp hr
      rw [hs]
      exact .other hw ne
  · intro h
    generalize hs : Source.toList s = cs at h
    generalize ho : o.mapRest Text.chars = o' at h
    cases h with
    | success =>
      obtain ⟨r, rfl, rfl⟩ := Outcome.mapRest_eq_success_iff.mp ho
      rw [Source.drop_eq_ok_iff.mpr hs]
      exact Run.ends_pure.mpr ⟨rfl, rfl⟩
    | other hw ne =>
      rw [Outcome.mapRest_eq_failure_iff.mp ho, Source.drop_eq_error_some_iff.mpr ⟨_, _, _, _, hw, hs, ne⟩]
      exact Run.ends_pure.mpr ⟨rfl, rfl⟩
    | atEnd hw =>
      rw [Outcome.mapRest_eq_failure_iff.mp ho, Source.drop_eq_error_none_iff.mpr ⟨_, _, hs ▸ hw⟩]
      exact Run.ends_pure.mpr ⟨rfl, rfl⟩

end Matcher
end TracedParsers
