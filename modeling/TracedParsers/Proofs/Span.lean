import TracedParsers.Parser.Values
import TracedParsers.Proofs.Matching
import TracedParsers.Token.Spanned

/-!
# Rows of elements

A matcher of one element, repeated, takes the longest row of elements that pass its test and nothing
after it.
-/

namespace TracedParsers
namespace Matcher

variable {σ τ α : Type} [Source σ τ] {test : τ → Bool} {expected : String} {f : τ → α} {s r : σ}
  {as : List α} {o : Outcome σ (MatchError τ) α} {t : Trace}

theorem yields_element_map_of_none (h : Source.next? s = none) :
    ((element test expected).map f).Yields s o t ↔ o = .failure (.unexpectedEnd expected) ∧ t = [] := by
  rw [Parser.yields_map]
  constructor
  · rintro ⟨o', ho', rfl⟩
    obtain ⟨rfl, rfl⟩ := (yields_element_of_none h).mp ho'
    exact ⟨rfl, rfl⟩
  · rintro ⟨rfl, rfl⟩
    exact ⟨_, (yields_element_of_none h).mpr ⟨rfl, rfl⟩, rfl⟩

theorem yields_element_map_of_some {x : τ} (h : Source.next? s = some (x, r)) :
    ((element test expected).map f).Yields s o t ↔
      o = (if test x then .success (f x) r else .failure (.unexpected expected x)) ∧ t = [] := by
  have hmap : ∀ b : Bool, (if b then .success x r else .failure (.unexpected expected x) :
      Outcome σ (MatchError τ) τ).map f = if b then .success (f x) r else .failure (.unexpected expected x) :=
    fun b => by cases b <;> rfl
  rw [Parser.yields_map, ← hmap]
  constructor
  · rintro ⟨o', ho', rfl⟩
    obtain ⟨rfl, rfl⟩ := (yields_element_of_some h).mp ho'
    exact ⟨rfl, rfl⟩
  · rintro ⟨rfl, rfl⟩
    exact ⟨_, (yields_element_of_some h).mpr ⟨rfl, rfl⟩, rfl⟩

theorem ends_items_element_map :
    (((element test expected).map f).items s).Ends (as, r) t ↔
      as = ((Source.toList s).takeWhile test).map f ∧
        Source.toList r = (Source.toList s).dropWhile test ∧ t = [] := by
  -- The induction is on the elements that are left.
  generalize hxs : Source.toList s = xs
  induction xs generalizing s as t with
  | nil =>
    have hs := Source.next?_eq_none_iff.mpr hxs
    rw [Parser.ends_items]
    simp only [yields_element_map_of_none hs, List.takeWhile_nil, List.map_nil, List.dropWhile_nil]
    constructor
    · rintro (⟨e, ⟨-, rfl⟩, rfl, rfl⟩ | ⟨a, rest, as', t₁, t₂, ⟨ho, -⟩, -⟩)
      · exact ⟨rfl, hxs, rfl⟩
      · nomatch ho
    · rintro ⟨rfl, hr, rfl⟩
      exact Or.inl ⟨_, ⟨rfl, rfl⟩, rfl, Source.toList_injective (hr.trans hxs.symm)⟩
  | cons x xs ih =>
    obtain ⟨rest, hs, hrest⟩ := Source.exists_next?_of_toList hxs
    rw [Parser.ends_items]
    simp only [yields_element_map_of_some hs]
    cases hx : test x with
    | false =>
      simp only [Bool.false_eq_true, if_false, List.takeWhile_cons_of_neg (Bool.eq_false_iff.mp hx),
        List.dropWhile_cons_of_neg (Bool.eq_false_iff.mp hx), List.map_nil]
      constructor
      · rintro (⟨e, ⟨-, rfl⟩, rfl, rfl⟩ | ⟨a, _, as', t₁, t₂, ⟨ho, -⟩, -⟩)
        · exact ⟨rfl, hxs, rfl⟩
        · nomatch ho
      · rintro ⟨rfl, hr, rfl⟩
        exact Or.inl ⟨_, ⟨rfl, rfl⟩, rfl, Source.toList_injective (hr.trans hxs.symm)⟩
    | true =>
      simp only [if_true, List.takeWhile_cons_of_pos hx, List.dropWhile_cons_of_pos hx, List.map_cons]
      constructor
      · rintro (⟨e, ⟨ho, -⟩, -⟩ | ⟨a, _, as', t₁, t₂, ⟨ho, rfl⟩, hi, rfl, rfl⟩)
        · nomatch ho
        · cases ho
          obtain ⟨rfl, hr, rfl⟩ := (ih hrest).mp hi
          exact ⟨rfl, hr, rfl⟩
      · rintro ⟨rfl, hr, rfl⟩
        exact Or.inr ⟨_, _, _, _, _, ⟨rfl, rfl⟩, (ih hrest).mpr ⟨rfl, hr, rfl⟩, rfl, rfl⟩

/-- How a row of at least one element is read. -/
inductive ReadsRow (test : τ → Bool) (expected : String) (f : τ → α) :
    List τ → Outcome (List τ) (MatchError τ) (List α) → Prop where
  | row {xs} (h : xs.takeWhile test ≠ []) :
      ReadsRow test expected f xs (.success ((xs.takeWhile test).map f) (xs.dropWhile test))
  | other {x xs} (h : test x = false) :
      ReadsRow test expected f (x :: xs) (.failure (.unexpected expected x))
  | atEnd : ReadsRow test expected f [] (.failure (.unexpectedEnd expected))

theorem readsRow_success_iff {xs rest : List τ} : ReadsRow test expected f xs (.success as rest) ↔
    xs.takeWhile test ≠ [] ∧ as = (xs.takeWhile test).map f ∧ rest = xs.dropWhile test := by
  constructor
  · rintro ⟨h⟩
    exact ⟨h, rfl, rfl⟩
  · rintro ⟨h, rfl, rfl⟩
    exact .row h

theorem yields_many1_element_map {o : Outcome σ (MatchError τ) (List α)} :
    ((element test expected).map f).many1.Yields s o t ↔
      ReadsRow test expected f (Source.toList s) (o.mapRest Source.toList) ∧ t = [] := by
  rw [Parser.yields_many1]
  cases hs : Source.next? s with
  | none =>
    simp only [yields_element_map_of_none hs, Source.toList_of_none hs]
    constructor
    · rintro (⟨e, ⟨ho, rfl⟩, rfl⟩ | ⟨a, r, as, rest, t₁, t₂, ⟨ho, -⟩, -⟩)
      · cases ho
        exact ⟨.atEnd, rfl⟩
      · nomatch ho
    · rintro ⟨h, rfl⟩
      generalize ho : o.mapRest Source.toList = o' at h
      cases h with
      | row h => exact absurd rfl h
      | atEnd => exact Or.inl ⟨_, ⟨rfl, rfl⟩, Outcome.mapRest_eq_failure_iff.mp ho⟩
  | some y =>
    obtain ⟨x, rest⟩ := y
    simp only [yields_element_map_of_some hs, Source.toList_of_some hs]
    cases hx : test x with
    | false =>
      simp only [Bool.false_eq_true, if_false]
      constructor
      · rintro (⟨e, ⟨ho, rfl⟩, rfl⟩ | ⟨a, r, as, rest', t₁, t₂, ⟨ho, -⟩, -⟩)
        · cases ho
          exact ⟨.other hx, rfl⟩
        · nomatch ho
      · rintro ⟨h, rfl⟩
        generalize ho : o.mapRest Source.toList = o' at h
        cases h with
        | row h => exact absurd (List.takeWhile_cons_of_neg (Bool.eq_false_iff.mp hx)) h
        | other => exact Or.inl ⟨_, ⟨rfl, rfl⟩, Outcome.mapRest_eq_failure_iff.mp ho⟩
    | true =>
      have htake := List.takeWhile_cons_of_pos (l := Source.toList rest) hx
      have hdrop := List.dropWhile_cons_of_pos (l := Source.toList rest) hx
      simp only [if_true, ends_items_element_map]
      constructor
      · rintro (⟨e, ⟨ho, -⟩, -⟩ | ⟨a, r, as, rest', t₁, t₂, ⟨ho, rfl⟩, ⟨rfl, hr, rfl⟩, rfl, rfl⟩)
        · nomatch ho
        · cases ho
          refine ⟨?_, rfl⟩
          rw [Outcome.mapRest_success, hr, ← List.map_cons, ← htake, ← hdrop]
          exact .row (by simp [htake])
      · rintro ⟨h, rfl⟩
        generalize ho : o.mapRest Source.toList = o' at h
        cases h with
        | row h =>
          obtain ⟨r, rfl, hr⟩ := Outcome.mapRest_eq_success_iff.mp ho
          rw [htake, List.map_cons]
          exact Or.inr ⟨_, _, _, _, _, _, ⟨rfl, rfl⟩, ⟨rfl, hr.trans hdrop, rfl⟩, rfl, rfl⟩
        | other h => rw [hx] at h; nomatch h

/-! ### Main statement -/

/-- Repeated, the parser takes the elements at the front of the input that pass `test`, as many as there are, with `f`
    applied to each, and leaves exactly what follows them. A repetition of at least one fails where there are none,
    and tells of the end of the input or of the element that stands first. -/
structure TakesSpan (p : Parser σ (MatchError τ) α) (test : τ → Bool) (expected : String) (f : τ → α) : Prop where
  many : ∀ s : σ, ∃ r : σ, Source.toList r = (Source.toList s).dropWhile test ∧
    p.many.Yields s (.success (((Source.toList s).takeWhile test).map f) r)
      [.stopped ((Source.toList s).takeWhile test).length]
  many1 : ∀ s : σ, (Source.toList s).takeWhile test ≠ [] →
    ∃ r : σ, Source.toList r = (Source.toList s).dropWhile test ∧
      p.many1.Yields s (.success (((Source.toList s).takeWhile test).map f) r) []
  many1_atEnd : ∀ s : σ, Source.toList s = [] → p.many1.Yields s (.failure (.unexpectedEnd expected)) []
  many1_other : ∀ (s : σ) (x : τ) (xs : List τ), Source.toList s = x :: xs → test x = false →
    p.many1.Yields s (.failure (.unexpected expected x)) []

theorem element_takesSpan (test : τ → Bool) (expected : String) (f : τ → α) :
    TakesSpan ((element test expected).map f : Parser σ (MatchError τ) α) test expected f where
  many s := by
    obtain ⟨r, hr⟩ := Source.exists_of_suffix (List.dropWhile_suffix (l := Source.toList s) test)
    have hitems : (((element test expected).map f).items s).Ends (((Source.toList s).takeWhile test).map f, r) [] :=
      ends_items_element_map.mpr ⟨rfl, hr, rfl⟩
    refine ⟨r, hr, Parser.yields_many_success_iff.mpr ⟨[], hitems, ?_⟩⟩
    rw [List.length_map, List.nil_append]
  many1 s h := by
    obtain ⟨r, hr⟩ := Source.exists_of_suffix (List.dropWhile_suffix (l := Source.toList s) test)
    refine ⟨r, hr, yields_many1_element_map.mpr ⟨?_, rfl⟩⟩
    rw [Outcome.mapRest_success, hr]
    exact .row h
  many1_atEnd s h := by
    refine yields_many1_element_map.mpr ⟨?_, rfl⟩
    rw [h]
    exact .atEnd
  many1_other s x xs h hx := by
    refine yields_many1_element_map.mpr ⟨?_, rfl⟩
    rw [h]
    exact .other hx

/-- The elements that a repetition gives are those of the input, whatever the test is. -/
theorem element_values_append_rest {xs : List τ}
    (h : (element test expected).many.Yields s (.success xs r) t ∨
      (element test expected).many1.Yields s (.success xs r) t) : xs ++ Source.toList r = Source.toList s := by
  rw [← Parser.map_id (p := element test expected)] at h
  have hspan : xs = ((Source.toList s).takeWhile test).map (fun x => x) ∧
      Source.toList r = (Source.toList s).dropWhile test := by
    rcases h with hmany | hmany1
    · obtain ⟨u, hitems, -⟩ := Parser.yields_many_success_iff.mp hmany
      obtain ⟨hxs, hr, -⟩ := ends_items_element_map.mp hitems
      exact ⟨hxs, hr⟩
    · obtain ⟨hrow, -⟩ := yields_many1_element_map.mp hmany1
      exact (readsRow_success_iff.mp hrow).2
  rw [hspan.1, hspan.2, List.map_id', List.takeWhile_append_dropWhile]

/-- A repetition of a matcher of one element takes the longest row of such elements at the front of the input, for
    characters of a text and for tokens, by a test or by equality. Equality of tokens may be any relation: what is
    given are the tokens of the input as they stand there, so that values and rest are the input again. -/
theorem repetition_takes_span {τ α : Type} :
    (∀ (test : Char → Bool) (expected : String) (f : Char → α),
      TakesSpan ((charIf test expected).map f) test expected f) ∧
    (∀ (wanted : Char) (f : Char → α), TakesSpan ((char wanted).map f) (· == wanted) (inspect wanted) f) ∧
    (∀ (test : τ → Bool) (expected : String) (f : τ → α),
      TakesSpan ((tokenIf test expected).map f) test expected f) ∧
    (∀ [BEq τ] [Inspect τ] (wanted : τ) (f : τ → α),
      TakesSpan ((token wanted).map f) (· == wanted) (inspect wanted) f) ∧
    ∀ [BEq τ] [Inspect τ] (wanted : τ) (s xs r : List τ) (t : Trace),
      (token wanted).many.Yields s (.success xs r) t ∨ (token wanted).many1.Yields s (.success xs r) t →
        xs ++ r = s := by
  refine ⟨element_takesSpan, ?_, element_takesSpan, ?_, ?_⟩
  · intro wanted f
    exact element_takesSpan _ _ f
  · intro _ _ wanted f
    exact element_takesSpan _ _ f
  · intro _ _ wanted s xs r t h
    exact element_values_append_rest h

/-- Two tokens that count as the one asked for, and one that does not. -/
def identifiersThenOperator : List Spanned := [⟨"id", 4⟩, ⟨"id", 7⟩, ⟨"op", 9⟩]

/-- A row of two-byte characters and what stands behind it; a text without one, and the empty text; and tokens that
    are equal to the one asked for and are given with their own places. -/
theorem repetition_takes_span_marks :
    ((char 'é').map Char.toNat).many.Yields (.ofString "ééx") (.success [233, 233] (.ofString "x")) [.stopped 2] ∧
      ((char 'é').map Char.toNat).many1.Yields (.ofString "x") (.failure (.unexpected (inspect 'é') 'x')) [] ∧
      ((char 'é').map Char.toNat).many1.Yields .empty (.failure (.unexpectedEnd (inspect 'é'))) [] ∧
      ((token (⟨"id", 0⟩ : Spanned)).map Spanned.pos).many1.Yields identifiersThenOperator
        (.success [4, 7] [⟨"op", 9⟩]) [] ∧
      ∃ xs r, (token (⟨"id", 0⟩ : Spanned)).many.Yields identifiersThenOperator (.success xs r) [.stopped 2] ∧
        xs ++ r = identifiersThenOperator := by
  obtain ⟨-, hchar, -⟩ := repetition_takes_span (τ := Spanned) (α := Nat)
  obtain ⟨-, -, -, hplace, -⟩ := repetition_takes_span (τ := Spanned) (α := Int)
  obtain ⟨-, -, -, htoken, hown⟩ := repetition_takes_span (τ := Spanned) (α := Spanned)
  have hmarks := hchar 'é' Char.toNat
  refine ⟨?_, hmarks.many1_other _ 'x' [] rfl (by decide), hmarks.many1_atEnd _ rfl, ?_, ?_⟩
  · obtain ⟨r, hr, h⟩ := hmarks.many (.ofString "ééx")
    obtain rfl : r = .ofString "x" := Text.ext hr
    exact h
  · obtain ⟨r, hr, h⟩ := (hplace ⟨"id", 0⟩ Spanned.pos).many1 identifiersThenOperator nofun
    obtain rfl : r = [⟨"op", 9⟩] := hr
    exact h
  · obtain ⟨r, hr, h⟩ := (htoken ⟨"id", 0⟩ fun x => x).many identifiersThenOperator
    rw [Parser.map_id] at h
    exact ⟨_, r, h, hown _ _ _ _ _ (.inl h)⟩

end Matcher
end TracedParsers
