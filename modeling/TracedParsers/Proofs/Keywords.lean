import TracedParsers.Proofs.Alternatives
import TracedParsers.Proofs.Literals
import TracedParsers.Proofs.Termination

/-!
# Keywords

A keyword is one of several fixed words, tried in order. Where one word starts another, the shorter one hides the
longer if it is tried first. Where none does, an input starts with at most one of them, so the order in which they
are tried shows in the error of a failure only.
-/

namespace TracedParsers

/-- None of the words is a proper prefix of another. A word may be listed more than once. -/
def PrefixFree (words : List String) : Prop :=
  ∀ v ∈ words, ∀ w ∈ words, v.toList.IsPrefix w.toList → v = w

theorem PrefixFree.perm {words words' : List String} (prefixFree : PrefixFree words) (order : words.Perm words') :
    PrefixFree words' := by
  intro v hv w hw hvw
  exact prefixFree v (order.mem_iff.mpr hv) w (order.mem_iff.mpr hw) hvw

/-- A text starts with one of the words at most: of two prefixes of one text, one starts the other. -/
theorem PrefixFree.eq_of_prefix {words : List String} (prefixFree : PrefixFree words) {cs : List Char} {v w : String}
    (hv : v ∈ words) (hw : w ∈ words) (hvs : v.toList.IsPrefix cs) (hws : w.toList.IsPrefix cs) : v = w := by
  rcases List.prefix_or_prefix_of_prefix hvs hws with hvw | hwv
  · exact prefixFree v hv w hw hvw
  · exact (prefixFree w hw v hv hwv).symm

namespace Matcher

/-- The choice between the literals of some words, in the order of the words. -/
def keyword (word : String) (others : List String) : Parser Text (MatchError Char) String :=
  .firstOf (literal word) (others.map literal)

variable {v word : String} {words others : List String} {s r : Text} {e : MatchError Char} {t : Trace}

/-- The literals of some words. -/
def literals (words : List String) : List (AnyParser Text (MatchError Char)) :=
  words.map fun w => (literal w).any

/-! ### The literals of a list -/

theorem keyword_yields_success_iff : (keyword word others).Yields s (.success v r) t ↔
    ∃ k ts, Selects s (literals (word :: others)) k ⟨String, v⟩ r ts ∧ t = withFallbacks ts := by
  rw [keyword, Parser.firstOf_yields_success_iff, List.map_cons, List.map_map]
  rfl

theorem keyword_yields_failure_iff : (keyword word others).Yields s (.failure e) t ↔
    ∃ es ts, Refused s (literals (word :: others)) es ts ∧ es.getLast? = some e ∧ t = withFallbacks ts := by
  rw [keyword, Parser.firstOf_yields_failure_iff, List.map_cons, List.map_map]
  rfl

/-- The literal that is selected is that of a word in front of the input. -/
theorem word_of_selects {k : Nat} {a : AnyValue} {ts : List Trace} (h : Selects s (literals words) k a r ts) :
    ∃ v ∈ words, a = ⟨String, v⟩ ∧ s.chars = v.toList ++ r.chars := by
  obtain ⟨p, hp, b, u, succeeds, rfl⟩ := h.succeeds
  obtain ⟨w, hw, rfl⟩ := List.mem_map.mp hp
  obtain ⟨hvalue, hs, -⟩ := yields_literal_success_iff.mp succeeds
  exact ⟨w, hw, congrArg (fun v => (⟨String, v⟩ : AnyValue)) hvalue, hs⟩

theorem not_prefix_of_refused {es : List (MatchError Char)} {ts : List Trace} (h : Refused s (literals words) es ts)
    (hv : v ∈ words) : ¬v.toList.IsPrefix s.chars := by
  rintro ⟨cs, hs⟩
  obtain ⟨e, u, fails⟩ := h.fails (List.mem_map_of_mem hv)
  have hread : (literal v).Yields s (.success v (.ofList cs)) [] :=
    yields_literal_success_iff.mpr ⟨rfl, hs.symm, rfl⟩
  nomatch (hread.unique fails).1

theorem selects_or_refused_literals (words : List String) (s : Text) :
    (∃ k a r ts, Selects s (literals words) k a r ts) ∨ ∃ es ts, Refused s (literals words) es ts := by
  refine selects_or_refused ?_
  intro p hp
  obtain ⟨w, -, rfl⟩ := List.mem_map.mp hp
  exact literal_ends w s

/-! ### One chain -/

/-- A chain takes the one word with which the input starts, wherever it stands in the chain. -/
theorem exists_keyword_yields_success_iff (prefixFree : PrefixFree (word :: others)) :
    (∃ t, (keyword word others).Yields s (.success v r) t) ↔
      v ∈ word :: others ∧ s.chars = v.toList ++ r.chars := by
  constructor
  · rintro ⟨t, h⟩
    obtain ⟨k, ts, selects, -⟩ := keyword_yields_success_iff.mp h
    obtain ⟨w, hw, hvalue, hs⟩ := word_of_selects selects
    cases hvalue
    exact ⟨hw, hs⟩
  · rintro ⟨hv, hs⟩
    have hvs : v.toList.IsPrefix s.chars := ⟨r.chars, hs.symm⟩
    rcases selects_or_refused_literals (word :: others) s with ⟨k, a, r', ts, selects⟩ | ⟨es, ts, refused⟩
    · obtain ⟨w, hw, rfl, hs'⟩ := word_of_selects selects
      obtain rfl := prefixFree.eq_of_prefix hv hw hvs ⟨r'.chars, hs'.symm⟩
      obtain rfl : r' = r := Text.ext (List.append_cancel_left (hs'.symm.trans hs))
      exact ⟨_, keyword_yields_success_iff.mpr ⟨k, ts, selects, rfl⟩⟩
    · exact absurd hvs (not_prefix_of_refused refused hv)

/-- Where the input starts with none of the words, the error is that of the last. -/
theorem keyword_fails_as_last (none : ∀ v ∈ word :: others, ¬v.toList.IsPrefix s.chars) :
    ∃ e t, (keyword word others).Yields s (.failure e) t ∧
      (literal ((word :: others).getLast (List.cons_ne_nil _ _))).Yields s (.failure e) [] := by
  rcases selects_or_refused_literals (word :: others) s with ⟨k, a, r, ts, selects⟩ | ⟨es, ts, refused⟩
  · obtain ⟨w, hw, -, hs⟩ := word_of_selects selects
    exact absurd ⟨r.chars, hs.symm⟩ (none w hw)
  · have hes := (refused.ne_nil (List.cons_ne_nil _ _)).1
    have he := List.getLast?_eq_some_getLast hes
    obtain ⟨p, u, hp, fails⟩ := refused.last_fails he
    rw [literals, List.getLast?_map, List.getLast?_eq_some_getLast (List.cons_ne_nil _ _)] at hp
    cases hp
    obtain ⟨-, -, -, -, rfl⟩ := yields_literal_failure_iff.mp fails
    exact ⟨_, _, keyword_yields_failure_iff.mpr ⟨es, ts, refused, he, rfl⟩, fails⟩

/-! ### Two orders -/

/-- Words none of which is a proper prefix of another may be tried in any order. On every input both orders succeed
    with the same word and the same rest, or both fail, each with the error of the word that it tries last. They
    succeed exactly where the input starts with a word, and it then starts with no other. -/
theorem keyword_order_is_irrelevant {word word' : String} {others others' : List String}
    (prefixFree : PrefixFree (word :: others)) (order : (word :: others).Perm (word' :: others')) (s : Text) :
    (∀ (v : String) (r : Text), (∃ t, (keyword word others).Yields s (.success v r) t) ↔
      ∃ t, (keyword word' others').Yields s (.success v r) t) ∧
    ((∃ v r t, (keyword word others).Yields s (.success v r) t) ↔
      ∃ v ∈ word :: others, v.toList.IsPrefix s.chars) ∧
    (∀ (v : String) (r : Text) (t : Trace), (keyword word others).Yields s (.success v r) t →
      v ∈ word :: others ∧ s = .ofString v ++ r ∧ ∀ w ∈ word :: others, w.toList.IsPrefix s.chars → w = v) ∧
    ((∀ v ∈ word :: others, ¬v.toList.IsPrefix s.chars) → ∃ e t e' t',
      (keyword word others).Yields s (.failure e) t ∧
      (literal ((word :: others).getLast (List.cons_ne_nil _ _))).Yields s (.failure e) [] ∧
      (keyword word' others').Yields s (.failure e') t' ∧
      (literal ((word' :: others').getLast (List.cons_ne_nil _ _))).Yields s (.failure e') []) := by
  refine ⟨?_, ?_, ?_, ?_⟩
  · intro v r
    rw [exists_keyword_yields_success_iff prefixFree, exists_keyword_yields_success_iff (prefixFree.perm order),
      order.mem_iff]
  · constructor
    · rintro ⟨v, r, h⟩
      obtain ⟨hv, hs⟩ := (exists_keyword_yields_success_iff prefixFree).mp h
      exact ⟨v, hv, r.chars, hs.symm⟩
    · rintro ⟨v, hv, cs, hs⟩
      exact ⟨v, .ofList cs, (exists_keyword_yields_success_iff prefixFree).mpr ⟨hv, hs.symm⟩⟩
  · intro v r t h
    obtain ⟨hv, hs⟩ := (exists_keyword_yields_success_iff prefixFree).mp ⟨t, h⟩
    refine ⟨hv, Text.ext hs, ?_⟩
    intro w hw hws
    exact prefixFree.eq_of_prefix hw hv hws ⟨r.chars, hs.symm⟩
  · intro none
    have none' : ∀ v ∈ word' :: others', ¬v.toList.IsPrefix s.chars := fun v hv => none v (order.mem_iff.mpr hv)
    obtain ⟨e, t, h, hlast⟩ := keyword_fails_as_last none
    obtain ⟨e', t', h', hlast'⟩ := keyword_fails_as_last none'
    exact ⟨e, t, e', t', h, hlast, h', hlast'⟩

/-- Three words of one first letter, forwards and backwards: the second and the first find the same word, and where
    no word is found each order tells of its own last word. -/
theorem keyword_order_is_irrelevant_letters :
    PrefixFree ["let", "loop", "lazy"] ∧ ["let", "loop", "lazy"].Perm ["lazy", "loop", "let"] ∧
      (∃ t, (keyword "let" ["loop", "lazy"]).Yields (.ofString "loops") (.success "loop" (.ofString "s")) t) ∧
      (∃ t, (keyword "lazy" ["loop", "let"]).Yields (.ofString "loops") (.success "loop" (.ofString "s")) t) ∧
      (∃ t, (keyword "let" ["loop", "lazy"]).Yields (.ofString "le")
        (.failure (.unexpected (inspect "lazy") 'e')) t) ∧
      ∃ t, (keyword "lazy" ["loop", "let"]).Yields (.ofString "le") (.failure (.unexpectedEnd (inspect "let"))) t := by
  have prefixFree : PrefixFree ["let", "loop", "lazy"] := by
    unfold PrefixFree
    decide
  have order : ["let", "loop", "lazy"].Perm ["lazy", "loop", "let"] := by decide
  obtain ⟨hsame, hfound, hword, -⟩ := keyword_order_is_irrelevant prefixFree order (.ofString "loops")
  obtain ⟨-, -, -, hnone⟩ := keyword_order_is_irrelevant prefixFree order (.ofString "le")
  have hloop : ∃ t, (keyword "let" ["loop", "lazy"]).Yields (.ofString "loops")
      (.success "loop" (.ofString "s")) t := by
    obtain ⟨v, r, t, h⟩ := hfound.mpr ⟨"loop", by decide, by decide⟩
    obtain ⟨-, hs, honly⟩ := hword v r t h
    obtain rfl : "loop" = v := honly "loop" (by decide) (by decide)
    have hread : Text.ofString "loops" = .ofString "loop" ++ .ofString "s" := Text.ext rfl
    obtain rfl : r = .ofString "s" := Text.ext (List.append_cancel_left (congrArg Text.chars (hs.symm.trans hread)))
    exact ⟨t, h⟩
  obtain ⟨e, t, e', t', h, hlast, h', hlast'⟩ := hnone (by decide)
  have hlazy : (literal "lazy").Yields (.ofString "le") (.failure (.unexpected (inspect "lazy") 'e')) [] :=
    yields_literal_failure_iff.mpr ⟨'a', some 'e', ⟨['l'], ['z', 'y'], ['e'], rfl, rfl, rfl, by decide⟩, rfl, rfl⟩
  have hlet : (literal "let").Yields (.ofString "le") (.failure (.unexpectedEnd (inspect "let"))) [] :=
    yields_literal_failure_iff.mpr ⟨'t', none, ⟨['l', 'e'], [], [], rfl, rfl, rfl, nofun⟩, rfl, rfl⟩
  cases (hlast.unique hlazy).1
  cases (hlast'.unique hlet).1
  exact ⟨prefixFree, order, hloop, (hsame _ _).mp hloop, ⟨t, h⟩, ⟨t', h'⟩⟩

end Matcher
end TracedParsers
