import TracedParsers.Grammar.Consuming
import TracedParsers.Proofs.Origins
import TracedParsers.Proofs.Unsigned
import TracedParsers.Token.Lexeme

/-!
# Repetitions end

A repetition has no guard of its own: it goes on as long as its part succeeds. If every success of the part
leaves less than it was given, the repetition ends, and there are no more items than there is to read. So a
bounded grammar ends on every input, and so does every repetition in it.
-/

namespace TracedParsers
namespace Grammar

variable {S : Signature} {M : Model S} {rules : Rules S} {κ : S.Kind} {ε α ε' α' : Type}

/-- Every leaf ends, and none leaves more than it was given, by the size of inputs; the consuming ones leave less. -/
structure Advances (M : Model S) (leaves : ∀ κ ε α, S.Leaf κ ε α → Prop) (size : ∀ κ, M.Input κ → Nat) : Prop where
  ends : ∀ {κ ε α} (l : S.Leaf κ ε α) (s : M.Input κ), ∃ o t, (M.leaf l).Yields s o t
  shrinks : Shrinks M fun κ r s => size κ r ≤ size κ s
  leaf : ∀ {κ ε α} {l : S.Leaf κ ε α} {s o t}, leaves κ ε α l → (M.leaf l).Yields s o t →
    o.Leaves (size κ · < size κ s)

variable {leaves : ∀ κ ε α, S.Leaf κ ε α → Prop} {size : ∀ κ, M.Input κ → Nat}

-- In a sequence either part may be the one that reads something.
theorem Derives.leaves_lt_after {β : Type} (adv : Advances M leaves size) {g : Grammar S κ ε α} {h : Grammar S κ ε β}
    {s r : M.Input κ} {a : α} {o : Outcome (M.Input κ) ε β} {t u : Trace}
    (hg : Derives M rules g s (.success a r) t) (hh : Derives M rules h r o u)
    (lt : size κ r < size κ s ∨ o.Leaves (size κ · < size κ r)) : o.Leaves (size κ · < size κ s) := by
  have hr : size κ r ≤ size κ s := hg.leaves adv.shrinks
  rcases lt with lt | lt
  · exact (hh.leaves adv.shrinks).imp fun _ le => Nat.lt_of_le_of_lt le lt
  · exact lt.imp fun _ lt => Nat.lt_of_lt_of_le lt hr

/-- A success of a consuming grammar leaves less than it was given. -/
theorem Derives.leaves_lt (adv : Advances M leaves size) {g : Grammar S κ ε α} {s : M.Input κ} {o t}
    (h : Derives M rules g s o t) (hg : Consuming leaves rules g) : o.Leaves (size κ · < size κ s) := by
  induction h with
  | leaf h => exact adv.leaf hg.parts h
  | rule _ ih => exact ih hg.parts
  | pure => exact hg.parts.elim
  | fail => trivial
  | map _ ih => exact Outcome.leaves_map.mpr (ih hg.parts)
  | mapError _ ih => exact Outcome.leaves_mapError.mpr (ih hg.parts)
  | through => exact hg.parts.elim
  | validate_failure => trivial
  | validate_ok _ _ ih => exact ih hg.parts
  | validate_error => trivial
  | seq_failure => trivial
  | seq_success hg' hh ihg ihh => exact Outcome.leaves_map.mpr (hg'.leaves_lt_after adv hh (hg.parts.imp ihg ihh))
  | seqLeft_failure => trivial
  | seqLeft_success hg' hh ihg ihh => exact Outcome.leaves_map.mpr (hg'.leaves_lt_after adv hh (hg.parts.imp ihg ihh))
  | seqRight_failure => trivial
  | seqRight_success hg' hh ihg ihh => exact hg'.leaves_lt_after adv hh (hg.parts.imp ihg ihh)
  | choice_left _ ih => exact ih hg.parts.1
  | choice_right _ _ _ ihh => exact Outcome.leaves_map.mpr (ihh hg.parts.2)
  | orElse_left _ ih => exact ih hg.parts.1
  | orElse_right _ _ _ ihh => exact ihh hg.parts.2
  | optional_some => exact hg.parts.elim
  | optional_none => exact hg.parts.elim
  | many_nil => exact hg.parts.elim
  | many_cons => exact hg.parts.elim
  | many1_failure => trivial
  | many1_success _ hm ihg _ => exact Nat.lt_of_le_of_lt (hm.leaves adv.shrinks) (ihg hg.parts)

/-! ### Ends -/

/-- A repetition ends if its part ends everywhere and each of its successes leaves less than it was given. Then
    each item takes at least one from the size of what is left. -/
theorem exists_derives_many {g : Grammar S κ ε α} (ends : ∀ s, ∃ o t, Derives M rules g s o t)
    (lt : ∀ {s o t}, Derives M rules g s o t → o.Leaves (size κ · < size κ s)) (s : M.Input κ) :
    ∃ as r t, Derives M rules (.many g) s (.success as r) (t ++ [.stopped as.length]) ∧
      as.length + size κ r ≤ size κ s := by
  -- What is left after a success is smaller, so the attempts that follow it are covered by the induction.
  generalize hn : size κ s = n
  induction n using Nat.strongRecOn generalizing s with
  | ind n ih =>
    obtain ⟨o, t, hg⟩ := ends s
    cases o with
    | failure e => exact ⟨[], s, t, .many_nil hg, by simp [hn]⟩
    | success a r =>
      have hr : size κ r < n := hn ▸ lt hg
      obtain ⟨as, r', u, hm, hle⟩ := ih (size κ r) hr r rfl
      exact ⟨a :: as, r', t ++ u, .many_cons hg hm, by rw [List.length_cons]; omega⟩

theorem exists_derives_many1 {g : Grammar S κ ε α} (ends : ∀ s, ∃ o t, Derives M rules g s o t)
    (lt : ∀ {s o t}, Derives M rules g s o t → o.Leaves (size κ · < size κ s)) (s : M.Input κ) :
    ∃ o t, Derives M rules (.many1 g) s o t ∧ ∀ as r, o = .success as r → as.length + size κ r ≤ size κ s := by
  obtain ⟨o, t, hg⟩ := ends s
  cases o with
  | failure e => exact ⟨_, _, .many1_failure hg, nofun⟩
  | success a r =>
    have hr : size κ r < size κ s := lt hg
    obtain ⟨as, r', u, hm, hle⟩ := exists_derives_many ends lt r
    refine ⟨_, _, .many1_success hg hm, ?_⟩
    rintro _ _ ⟨⟩
    rw [List.length_cons]
    omega

theorem Bounded.ends (adv : Advances M leaves size) {g : Grammar S κ ε α} (hg : Bounded leaves rules g)
    (s : M.Input κ) : ∃ o t, Derives M rules g s o t := by
  -- To be bounded is said of what a rule says too, so the induction follows the rules and never meets one twice.
  induction hg generalizing s with
  | leaf =>
    obtain ⟨o, t, h⟩ := adv.ends _ s
    exact ⟨o, t, .leaf h⟩
  | rule _ ih =>
    obtain ⟨o, t, h⟩ := ih s
    exact ⟨o, t, .rule h⟩
  | pure => exact ⟨_, _, .pure⟩
  | fail => exact ⟨_, _, .fail⟩
  | map _ ih =>
    obtain ⟨o, t, h⟩ := ih s
    exact ⟨_, _, .map h⟩
  | mapError _ ih =>
    obtain ⟨o, t, h⟩ := ih s
    exact ⟨_, _, .mapError h⟩
  | @validate _ _ _ check _ _ ih =>
    obtain ⟨⟨a, r⟩ | e, t, h⟩ := ih s
    · cases accepted : check a with
      | ok b => exact ⟨_, _, .validate_ok h accepted⟩
      | error e => exact ⟨_, _, .validate_error h accepted⟩
    · exact ⟨_, _, .validate_failure h⟩
  | seq _ _ ihg ihh =>
    obtain ⟨⟨a, r⟩ | e, t, h⟩ := ihg s
    · obtain ⟨o, u, h'⟩ := ihh r
      exact ⟨_, _, .seq_success h h'⟩
    · exact ⟨_, _, .seq_failure h⟩
  | seqLeft _ _ ihg ihh =>
    obtain ⟨⟨a, r⟩ | e, t, h⟩ := ihg s
    · obtain ⟨o, u, h'⟩ := ihh r
      exact ⟨_, _, .seqLeft_success h h'⟩
    · exact ⟨_, _, .seqLeft_failure h⟩
  | seqRight _ _ ihg ihh =>
    obtain ⟨⟨a, r⟩ | e, t, h⟩ := ihg s
    · obtain ⟨o, u, h'⟩ := ihh r
      exact ⟨_, _, .seqRight_success h h'⟩
    · exact ⟨_, _, .seqRight_failure h⟩
  | choice _ _ ihg ihh =>
    obtain ⟨⟨a, r⟩ | e, t, h⟩ := ihg s
    · exact ⟨_, _, .choice_left h⟩
    · obtain ⟨o, u, h'⟩ := ihh s
      exact ⟨_, _, .choice_right h h'⟩
  | orElse _ _ ihg ihh =>
    obtain ⟨⟨a, r⟩ | e, t, h⟩ := ihg s
    · exact ⟨_, _, .orElse_left h⟩
    · obtain ⟨o, u, h'⟩ := ihh s
      exact ⟨_, _, .orElse_right h h'⟩
  | optional _ ih =>
    obtain ⟨⟨a, r⟩ | e, t, h⟩ := ih s
    · exact ⟨_, _, .optional_some h⟩
    · exact ⟨_, _, .optional_none h⟩
  | many _ consuming ih =>
    obtain ⟨as, r, t, h, -⟩ := exists_derives_many (fun s => ih s) (fun h => h.leaves_lt adv consuming) s
    exact ⟨_, _, h⟩
  | many1 _ consuming ih =>
    obtain ⟨o, t, h, -⟩ := exists_derives_many1 (fun s => ih s) (fun h => h.leaves_lt adv consuming) s
    exact ⟨_, _, h⟩

/-- A repetition in a bounded grammar ends on every input, with no more items than there is to read. -/
theorem Bounded.many_yields (adv : Advances M leaves size) {g : Grammar S κ ε α}
    (hg : Bounded leaves rules (.many g)) (s : M.Input κ) :
    ∃ items r t, ((Grammar.many g).parser M rules).Yields s (.success items r) t ∧ items.length ≤ size κ s := by
  obtain ⟨hpart, consuming⟩ := hg.parts
  obtain ⟨items, r, t, h, hle⟩ := exists_derives_many (hpart.ends adv) (fun h => h.leaves_lt adv consuming) s
  exact ⟨items, r, _, h.yields, Nat.le_trans (Nat.le_add_right ..) hle⟩

theorem Bounded.many1_yields (adv : Advances M leaves size) {g : Grammar S κ ε α}
    (hg : Bounded leaves rules (.many1 g)) (s : M.Input κ) :
    ∃ o t, ((Grammar.many1 g).parser M rules).Yields s o t ∧
      ∀ items r, o = .success items r → items.length ≤ size κ s := by
  obtain ⟨hpart, consuming⟩ := hg.parts
  obtain ⟨o, t, h, hle⟩ := exists_derives_many1 (hpart.ends adv) (fun h => h.leaves_lt adv consuming) s
  exact ⟨o, t, h.yields, fun items r ho => Nat.le_trans (Nat.le_add_right ..) (hle items r ho)⟩

theorem Bounded.yields (adv : Advances M leaves size) {g : Grammar S κ ε α} (hg : Bounded leaves rules g)
    (s : M.Input κ) : ∃ o t, (g.parser M rules).Yields s o t := by
  obtain ⟨o, t, h⟩ := hg.ends adv s
  exact ⟨o, t, h.yields⟩

end Grammar

/-! ### The matchers -/

namespace Matcher

variable {σ τ : Type}

theorem element_ends [Source σ τ] (test : τ → Bool) (expected : String) (s : σ) :
    ∃ o t, (element test expected).Yields s o t := by
  cases hs : Source.next? s with
  | none => exact ⟨_, _, (yields_element_of_none hs).mpr ⟨rfl, rfl⟩⟩
  | some x => exact ⟨_, _, (yields_element_of_some hs).mpr ⟨rfl, rfl⟩⟩

theorem literal_ends (wanted : String) (s : Text) : ∃ o t, (literal wanted).Yields s o t := by
  simp only [Parser.Yields, literal_parse]
  split <;> exact ⟨_, _, Run.ends_pure.mpr ⟨rfl, rfl⟩⟩

theorem unsigned_ends (s : Text) : ∃ o t, unsigned.Yields s o t := by
  by_cases digits : s.leadingDigits = []
  · cases hs : s.chars with
    | nil => exact ⟨_, _, yields_unsigned_atEnd hs⟩
    | cons c cs => exact ⟨_, _, yields_unsigned_other digits hs⟩
  · rcases Nat.lt_or_ge (Nat.ofDigitChars 10 s.leadingDigits 0) UInt64.size with fits | large
    · exact ⟨_, _, yields_unsigned_value digits (UInt64.toNat_ofNatLT (h := fits))⟩
    · exact ⟨_, _, yields_unsigned_tooLarge large⟩

variable {t : Trace}

theorem ReadsElement.length_lt {test : τ → Bool} {expected : String} {xs : List τ}
    {o : Outcome (List τ) (MatchError τ) τ} (h : ReadsElement test expected xs o t) :
    o.Leaves (·.length < xs.length) := by
  cases h with
  | success => exact Nat.lt_succ_self _
  | other => trivial
  | atEnd => trivial

theorem ReadsLiteral.length_lt {wanted : String} (some : wanted ≠ "") {cs : List Char}
    {o : Outcome (List Char) (MatchError Char) String} (h : ReadsLiteral wanted cs o t) :
    o.Leaves (·.length < cs.length) := by
  cases h with
  | success =>
    have hpos : 0 < wanted.toList.length := List.length_pos_iff.mpr (by simpa using some)
    show _ < (wanted.toList ++ _).length
    rw [List.length_append]
    omega
  | other => trivial
  | atEnd => trivial

theorem ReadsUnsigned.length_lt {cs : List Char} {o : Outcome (List Char) (MatchError Char) UInt64}
    (h : ReadsUnsigned cs o t) : o.Leaves (·.length < cs.length) := by
  cases h with
  | value digits =>
    have hpos := List.length_pos_iff.mpr digits
    have hsum := congrArg List.length (List.takeWhile_append_dropWhile (p := Char.isDigit) (l := cs))
    rw [List.length_append] at hsum
    show (cs.dropWhile Char.isDigit).length < cs.length
    omega
  | tooLarge => trivial
  | other => trivial
  | atEnd => trivial

end Matcher

theorem TextLeaf.ends {ε α : Type} (l : TextLeaf ε α) (s : Text) : ∃ o t, l.parser.Yields s o t := by
  cases l with
  | anyChar => exact Matcher.element_ends ..
  | char wanted => exact Matcher.element_ends ..
  | charIf test expected => exact Matcher.element_ends ..
  | digit =>
    obtain ⟨o, t, h⟩ := Matcher.element_ends Char.isDigit "ASCII digit" s
    exact ⟨_, t, Parser.yields_map.mpr ⟨o, h, rfl⟩⟩
  | literal wanted => exact Matcher.literal_ends wanted s
  | unsigned => exact Matcher.unsigned_ends s

theorem TextLeaf.Reads.length_lt {ε α : Type} {l : TextLeaf ε α} (consuming : l.Consuming) {cs : List Char}
    {o : Outcome (List Char) ε α} {t : Trace} (h : l.Reads cs o t) : o.Leaves (·.length < cs.length) := by
  cases l with
  | anyChar => exact Matcher.ReadsElement.length_lt h
  | char wanted => exact Matcher.ReadsElement.length_lt h
  | charIf test expected => exact Matcher.ReadsElement.length_lt h
  | digit =>
    obtain ⟨o', h', rfl⟩ := h
    exact Outcome.leaves_map.mpr h'.length_lt
  | literal wanted => exact Matcher.ReadsLiteral.length_lt consuming h
  | unsigned => exact Matcher.ReadsUnsigned.length_lt h

theorem TokenLeaf.ends {τ ε α : Type} [BEq τ] [Inspect τ] (l : TokenLeaf τ ε α) (xs : List τ) :
    ∃ o t, l.parser.Yields xs o t := by
  cases l with
  | anyToken => exact Matcher.element_ends ..
  | token wanted => exact Matcher.element_ends ..
  | tokenIf test expected => exact Matcher.element_ends ..

theorem TokenLeaf.Reads.length_lt {τ ε α : Type} [BEq τ] [Inspect τ] {l : TokenLeaf τ ε α} {xs : List τ}
    {o : Outcome (List τ) ε α} {t : Trace} (h : l.Reads xs o t) : o.Leaves (·.length < xs.length) := by
  cases l with
  | anyToken => exact Matcher.ReadsElement.length_lt h
  | token wanted => exact Matcher.ReadsElement.length_lt h
  | tokenIf test expected => exact Matcher.ReadsElement.length_lt h

namespace Grammar

variable {Rule : Type → Type → Type}

theorem shrinks_of_leaves {Leaf : Type → Type → Type} {σ : Type} {leaf : ∀ {ε α}, Leaf ε α → Parser σ ε α}
    (size : σ → Nat) (le : ∀ {ε α} {l : Leaf ε α} {s o t}, (leaf l).Yields s o t → o.Leaves (size · ≤ size s)) :
    Shrinks (.ofLeaves σ leaf : Model (.ofLeaves Leaf Rule)) fun _ r s => size r ≤ size s where
  refl _ := Nat.le_refl _
  trans := Nat.le_trans
  leaf := le
  view {_ _ v} := nomatch v

theorem text_advances : Advances (.text : Model (.text Rule)) (fun _ _ _ => TextLeaf.Consuming)
    (fun _ (s : Text) => s.chars.length) where
  ends := TextLeaf.ends
  shrinks := shrinks_of_leaves (fun s : Text => s.chars.length) fun h =>
    (TextLeaf.leaves_suffix h).imp fun _ => List.IsSuffix.length_le
  leaf {_ _ _ l s o t} consuming h := by
    have hlt := (l.yields_iff.mp h).length_lt consuming
    cases o with
    | success a r => exact hlt
    | failure e => trivial

theorem tokens_advances {τ : Type} [BEq τ] [Inspect τ] : Advances (.tokens τ : Model (.tokens τ Rule))
    (fun _ _ _ _ => True) (fun _ (xs : List τ) => xs.length) where
  ends := TokenLeaf.ends
  shrinks := shrinks_of_leaves List.length fun h =>
    (TokenLeaf.leaves_suffix h).imp fun _ => List.IsSuffix.length_le
  leaf {_ _ _ l _ _ _} _ h := (l.yields_iff.mp h).length_lt

/-- What a matcher reads with is bounded, also the digits of a number. -/
theorem parts_bounded {rules : Rules (.text Rule)} {ε α : Type} (l : TextLeaf ε α) :
    Bounded (S := .text Rule) (fun _ _ _ => TextLeaf.Consuming) rules (parts l) := by
  cases l with
  | anyChar | char | charIf | digit | literal => exact .leaf
  | unsigned => exact .validate (.many1 .leaf (.leaf trivial))

theorem ReadsNode.bounded {rules : Rules (.text Rule)} {ε α ε' α' : Type} {g : Grammar (.text Rule) () ε α}
    {c : Grammar (.text Rule) () ε' α'} {s u : Text} (h : ReadsNode rules g s c u)
    (hg : Bounded (S := .text Rule) (fun _ _ _ => TextLeaf.Consuming) rules g) :
    Bounded (S := .text Rule) (fun _ _ _ => TextLeaf.Consuming) rules c := by
  rcases h with ⟨-, call⟩ | ⟨ε₁, α₁, l, v, -, part⟩
  · exact call.bounded hg
  · exact part.bounded (parts_bounded l)

/-- A bounded grammar ends on every input. So does every repetition that is read on the way, with no more items
    than there are elements to read, and a success of a consuming grammar leaves a shorter input. -/
theorem bounded_ends_within_input :
    (∀ {Rule : Type → Type → Type} (rules : Rules (.text Rule)) {ε α : Type} (g : Grammar (.text Rule) () ε α),
      Bounded (S := .text Rule) (fun _ _ _ => TextLeaf.Consuming) rules g → ∀ s : Text,
        (∃ o t, (g.parser .text rules).Yields s o t) ∧
        (∀ {ε' α' : Type} (c : Grammar (.text Rule) () ε' α') (u : Text), ReadsNode rules g s (.many c) u →
          Source.IsSuffix u s ∧ ∃ items r t, ((Grammar.many c).parser .text rules).Yields u (.success items r) t ∧
            items.length ≤ u.chars.length) ∧
        (∀ {ε' α' : Type} (c : Grammar (.text Rule) () ε' α') (u : Text), ReadsNode rules g s (.many1 c) u →
          Source.IsSuffix u s ∧ ∃ o t, ((Grammar.many1 c).parser .text rules).Yields u o t ∧
            ∀ items r, o = .success items r → items.length ≤ u.chars.length) ∧
        (Consuming (S := .text Rule) (fun _ _ _ => TextLeaf.Consuming) rules g → ∀ (a : α) (r : Text) (t : Trace),
          (g.parser .text rules).Yields s (.success a r) t →
            Source.IsSuffix r s ∧ r.chars.length < s.chars.length)) ∧
    ∀ {Rule : Type → Type → Type} {τ : Type} [BEq τ] [Inspect τ] (rules : Rules (.tokens τ Rule)) {ε α : Type}
      (g : Grammar (.tokens τ Rule) () ε α), Bounded (fun _ _ _ _ => True) rules g → ∀ s : List τ,
        (∃ o t, (g.parser (.tokens τ) rules).Yields s o t) ∧
        (∀ {ε' α' : Type} (c : Grammar (.tokens τ Rule) () ε' α') (u : List τ),
          Calls (.tokens τ) rules g s (.many c) u → Source.IsSuffix u s ∧
            ∃ items r t, ((Grammar.many c).parser (.tokens τ) rules).Yields u (.success items r) t ∧
              items.length ≤ u.length) ∧
        (∀ {ε' α' : Type} (c : Grammar (.tokens τ Rule) () ε' α') (u : List τ),
          Calls (.tokens τ) rules g s (.many1 c) u → Source.IsSuffix u s ∧
            ∃ o t, ((Grammar.many1 c).parser (.tokens τ) rules).Yields u o t ∧
              ∀ items r, o = .success items r → items.length ≤ u.length) ∧
        (Consuming (fun _ _ _ _ => True) rules g → ∀ (a : α) (r : List τ) (t : Trace),
          (g.parser (.tokens τ) rules).Yields s (.success a r) t → Source.IsSuffix r s ∧ r.length < s.length) := by
  constructor
  · intro Rule rules ε α g hg s
    refine ⟨hg.yields text_advances s, ?_, ?_, ?_⟩
    · intro ε' α' c u h
      exact ⟨h.isSuffix, (h.bounded hg).many_yields text_advances u⟩
    · intro ε' α' c u h
      exact ⟨h.isSuffix, (h.bounded hg).many1_yields text_advances u⟩
    · intro consuming a r t h
      have hderives := derives_of_yields h
      exact ⟨hderives.leaves text_shrinks, hderives.leaves_lt text_advances consuming⟩
  · intro Rule τ _ _ rules ε α g hg s
    refine ⟨hg.yields tokens_advances s, ?_, ?_, ?_⟩
    · intro ε' α' c u h
      exact ⟨h.input_le tokens_shrinks, (h.bounded hg).many_yields tokens_advances u⟩
    · intro ε' α' c u h
      exact ⟨h.input_le tokens_shrinks, (h.bounded hg).many1_yields tokens_advances u⟩
    · intro consuming a r t h
      have hderives := derives_of_yields h
      exact ⟨hderives.leaves tokens_shrinks, hderives.leaves_lt tokens_advances consuming⟩

/-! ### Rows of words -/

inductive Word : Type → Type → Type where
  | word : Word (MatchError Char) (String ⊕ UInt64)

/-- The word "ab" or a number. -/
def wordRules : Rules (.text Word)
  | _, _, _, .word => .choice (.ofText (.literal "ab")) (.ofText .unsigned)

/-- A word with any number of blanks in front of it. -/
def word : Grammar (.text Word) () (MatchError Char) (String ⊕ UInt64) :=
  .seqRight (.many (.ofText (.char ' '))) (.call .word)

/-- Rows of words, with or without commas behind them. -/
def wordRows : Grammar (.text Word) () (MatchError Char) (List (List (String ⊕ UInt64))) :=
  .many1 (.seqLeft (.many1 word) (.optional (.ofText (.char ','))))

/-- Number tokens, each with a comma behind it. -/
def numberRow : Grammar (.tokens Lexeme fun _ _ => Empty) () (MatchError Lexeme) (List Lexeme) :=
  .many1 (.seqLeft (.ofToken (.tokenIf Lexeme.isNumber "number")) (.ofToken (.token .comma)))

/-- Repetitions in repetitions, of a part that reads something because of what a rule says. The blanks before the
    number and its digits are read by repetitions too. -/
theorem bounded_ends_within_input_wordRows :
    Bounded (S := .text Word) (fun _ _ _ => TextLeaf.Consuming) wordRules wordRows ∧
      Consuming (S := .text Word) (fun _ _ _ => TextLeaf.Consuming) wordRules wordRows ∧
      (∃ o t, (wordRows.parser .text wordRules).Yields (.ofString " ab 7,ab") o t) ∧
      (∃ blanks r t, ((Grammar.many (.ofText (.char ' '))).parser .text wordRules).Yields (.ofString " 7,ab")
        (.success blanks r) t ∧ blanks.length ≤ 5) ∧
      (∃ o t, ((Grammar.many1 (.ofText .digit)).parser .text wordRules).Yields (.ofString "7,ab") o t ∧
        ∀ digits r, o = .success digits r → digits.length ≤ 4) ∧
      (∀ (rows : List (List (String ⊕ UInt64))) (r : Text) (t : Trace),
        (wordRows.parser .text wordRules).Yields (.ofString " ab 7,ab") (.success rows r) t →
          r.chars.length < 8) ∧
      Bounded (fun _ _ _ _ => True) .none numberRow ∧
      ∃ o t, (numberRow.parser (.tokens Lexeme) .none).Yields [.number 1, .comma, .number 2] o t ∧
        ∀ numbers r, o = .success numbers r → numbers.length ≤ 3 := by
  have hword : Consuming (S := .text Word) (fun _ _ _ => TextLeaf.Consuming) wordRules word :=
    .seqRight_second (.rule (.choice (.leaf (nofun : "ab" ≠ "")) (.leaf trivial)))
  have hrow : Consuming (S := .text Word) (fun _ _ _ => TextLeaf.Consuming) wordRules
      (.seqLeft (.many1 word) (.optional (.ofText (.char ',')))) :=
    .seqLeft_first (.many1 hword)
  have hbounded : Bounded (S := .text Word) (fun _ _ _ => TextLeaf.Consuming) wordRules wordRows :=
    .many1 (.seqLeft (.many1 (.seqRight (.many .leaf (.leaf trivial)) (.rule (.choice .leaf .leaf))) hword)
      (.optional .leaf)) hrow
  have hnumbers : Bounded (fun _ _ _ _ => True) .none numberRow :=
    .many1 (.seqLeft .leaf .leaf) (.seqLeft_first (.leaf trivial))
  have blank (c : Char) (cs : List Char) (hc : (c == ' ') = false) :
      Derives .text wordRules (.many (.ofText (.char ' '))) (.ofList (' ' :: c :: cs))
        (.success [' '] (.ofList (c :: cs))) ([] ++ [] ++ [.stopped 1]) :=
    .many_cons (.leaf (TextLeaf.yields_char ' ' (c :: cs)))
      (.many_nil (.leaf (TextLeaf.yields_char_other ' ' c cs hc)))
  have hab : Derives .text wordRules (.ofText (.literal "ab")) (.ofString "ab 7,ab")
      (.success "ab" (.ofString " 7,ab")) [] :=
    .leaf ((TextLeaf.yields_iff (.literal "ab")).mpr .success)
  have hnoab : Derives .text wordRules (.ofText (.literal "ab")) (.ofString "7,ab")
      (.failure (.unexpected (inspect "ab") '7')) [] :=
    .leaf ((TextLeaf.yields_iff (.literal "ab")).mpr
      (.other (show "ab".toList = [] ++ 'a' :: ['b'] from rfl) (by decide)))
  have hfirst : Derives .text wordRules word (.ofString " ab 7,ab") (.success (.inl "ab") (.ofString " 7,ab"))
      [.stopped 1] :=
    .seqRight_success (blank 'a' _ rfl) (.rule (.choice_left hab))
  have hblanks : ReadsNode wordRules wordRows (.ofString " ab 7,ab") (.many (.ofText (.char ' ')))
      (.ofString " 7,ab") :=
    .inl ⟨id, .many1_first (.seqLeft_first (.many1_next hfirst (.many_first (.seqRight_first .self))))⟩
  have hunsigned : Calls .text wordRules wordRows (.ofString " ab 7,ab") (.ofText .unsigned) (.ofString "7,ab") :=
    .many1_first (.seqLeft_first (.many1_next hfirst (.many_first
      (.seqRight_second (blank '7' _ rfl) (.rule (.choice_second hnoab .self))))))
  have hdigits : ReadsNode wordRules wordRows (.ofString " ab 7,ab") (.many1 (.ofText .digit))
      (.ofString "7,ab") :=
    .inr ⟨_, _, .unsigned, _, hunsigned, .validate .self⟩
  obtain ⟨htext, htokens⟩ := bounded_ends_within_input
  obtain ⟨hends, hmany, hmany1, hshorter⟩ := htext wordRules wordRows hbounded (.ofString " ab 7,ab")
  obtain ⟨-, -, hnumbers1, -⟩ := htokens .none numberRow hnumbers [.number 1, .comma, .number 2]
  exact ⟨hbounded, .many1 hrow, hends, (hmany _ _ hblanks).2, (hmany1 _ _ hdigits).2,
    fun rows r t h => (hshorter (.many1 hrow) rows r t h).2, hnumbers, (hnumbers1 _ _ .self).2⟩

end Grammar
end TracedParsers
