import TracedParsers.Proofs.Leaves
import TracedParsers.Proofs.Simulation

/-!
# Longer inputs

A grammar depends only on the part of its input that its leaves look at. If no leaf that is read on the
way reports the end of the input, then the grammar does the same on every longer input, and leaves what
it left before with the additional part behind it.
-/

namespace TracedParsers

/-! ### Matchers on longer inputs -/

namespace Matcher

theorem ReadsElement.extend {τ : Type} {test : τ → Bool} {expected : String} {xs : List τ}
    {o : Outcome (List τ) (MatchError τ) τ} {t : Trace} (h : ReadsElement test expected xs o t)
    (noEnd : o ≠ .failure (.unexpectedEnd expected)) (more : List τ) :
    ReadsElement test expected (xs ++ more) (o.mapRest (· ++ more)) t := by
  cases h with
  | success hx => exact .success hx
  | other hx => exact .other hx
  | atEnd => exact absurd rfl noEnd

theorem ReadsLiteral.extend {wanted : String} {cs : List Char}
    {o : Outcome (List Char) (MatchError Char) String} {t : Trace} (h : ReadsLiteral wanted cs o t)
    (noEnd : o ≠ .failure (.unexpectedEnd (inspect wanted))) (more : List Char) :
    ReadsLiteral wanted (cs ++ more) (o.mapRest (· ++ more)) t := by
  cases h with
  | success =>
    rw [List.append_assoc]
    exact .success
  | other hw ne =>
    rw [List.append_assoc]
    exact .other hw ne
  | atEnd => exact absurd rfl noEnd

/-- A number that some character follows is read to its end. -/
theorem ReadsUnsigned.extend {cs : List Char} {o : Outcome (List Char) (MatchError Char) UInt64} {t : Trace}
    (h : ReadsUnsigned cs o t) (noEnd : cs.dropWhile Char.isDigit ≠ []) (more : List Char) :
    ReadsUnsigned (cs ++ more) (o.mapRest (· ++ more)) t := by
  have hlength : (cs.takeWhile Char.isDigit).length ≠ cs.length := by
    intro hlength
    have hsum := congrArg List.length (List.takeWhile_append_dropWhile (p := Char.isDigit) (l := cs))
    rw [List.length_append] at hsum
    exact noEnd (List.length_eq_zero_iff.mp (by omega))
  have htake : (cs ++ more).takeWhile Char.isDigit = cs.takeWhile Char.isDigit := by
    rw [List.takeWhile_append, if_neg hlength]
  have hdrop : (cs ++ more).dropWhile Char.isDigit = cs.dropWhile Char.isDigit ++ more := by
    rw [List.dropWhile_append, if_neg (by simpa using noEnd)]
  cases h with
  | value hrow hn =>
    rw [← htake] at hrow hn
    rw [Outcome.mapRest_success, ← hdrop]
    exact .value hrow hn
  | tooLarge hrow hlarge =>
    rw [← htake] at hrow hlarge
    exact .tooLarge hrow hlarge
  | other hc => exact .other hc
  | atEnd => exact absurd rfl noEnd

end Matcher

/-! ### Meeting the end -/

namespace Grammar

variable {S : Signature} {κ : S.Kind} {Rule : Type → Type → Type} {ε α β : Type}

/-- Some leaf that is read on the way reports the end of the input. -/
def ReportsEnd (τ : Type) (M : Model S) (rules : Rules S) (g : Grammar S κ ε α) (s : M.Input κ) : Prop :=
  ∃ (α' : Type) (l : S.Leaf κ (MatchError τ) α') (u : M.Input κ) (expected : String) (t : Trace),
    Calls M rules g s (.leaf l) u ∧ (M.leaf l).Yields u (.failure (.unexpectedEnd expected)) t

theorem leaf_ne_atEnd {τ : Type} {M : Model S} {rules : Rules S} {g : Grammar S κ ε α} {s : M.Input κ}
    (noEnd : ¬ ReportsEnd τ M rules g s) {l : S.Leaf κ (MatchError τ) β} {u : M.Input κ}
    {o : Outcome (M.Input κ) (MatchError τ) β} {t : Trace} (call : Calls M rules g s (.leaf l) u)
    (h : (M.leaf l).Yields u o t) {expected : String} : o ≠ .failure (.unexpectedEnd expected) := by
  rintro rfl
  exact noEnd ⟨β, l, u, expected, t, call, h⟩

/-- A matcher of texts as a grammar of the matchers that it reads with; only a number has more than one. -/
def parts : TextLeaf ε α → Grammar (.text Rule) () ε α
  | .unsigned => .validate Matcher.numberOf (.many1 (.ofText .digit))
  | l => .ofText l

theorem yields_parts_iff {rules : Rules (.text Rule)} (l : TextLeaf ε α) {s : Text} {o : Outcome Text ε α}
    {t : Trace} : ((parts l).parser .text rules).Yields s o t ↔ l.parser.Yields s o t := by
  refine yields_parser_iff.trans ?_
  cases l <;> exact ⟨fun ⟨_, h⟩ => h, fun h => ⟨0, h⟩⟩

/-- Some matcher that is read on the way, or one that it reads with, reports the end of the text. -/
def MeetsEnd (rules : Rules (.text Rule)) (g : Grammar (.text Rule) () ε α) (s : Text) : Prop :=
  ∃ (ε' α' : Type) (l : TextLeaf ε' α') (u : Text),
    Calls .text rules g s (.ofText l) u ∧ ReportsEnd Char .text rules (parts l) u

/-- A text of digits is empty or starts with a digit, and then more of them follow. -/
theorem digit_of_dropWhile {cs : List Char} (h : cs.dropWhile Char.isDigit = []) :
    cs = [] ∨ ∃ c rest, cs = c :: rest ∧ c.isDigit = true ∧ rest.dropWhile Char.isDigit = [] := by
  cases cs with
  | nil => exact .inl rfl
  | cons c cs =>
    rw [List.dropWhile_cons] at h
    split at h
    next hc => exact .inr ⟨c, cs, rfl, hc, h⟩
    next => nomatch h

theorem derives_digit {rules : Rules (.text Rule)} {u : Text} {c : Char} {cs : List Char}
    (hu : u.chars = c :: cs) (hc : c.isDigit = true) :
    Derives .text rules (.ofText .digit) u (.success (Matcher.digitValue c) (.ofList cs)) [] := by
  refine .leaf ((TextLeaf.yields_iff .digit).mpr ⟨.success c cs, ?_, rfl⟩)
  rw [hu]
  exact .success hc

/-- Digits up to the end of the text lead to an attempt to read one more at the end. -/
theorem calls_digit_atEnd {rules : Rules (.text Rule)} {u : Text} (h : u.chars.dropWhile Char.isDigit = []) :
    Calls .text rules (.many (.ofText .digit)) u (.ofText .digit) Text.empty := by
  generalize hcs : u.chars = cs at h
  induction cs generalizing u with
  | nil =>
    obtain rfl : u = .empty := Text.ext hcs
    exact .many_first .self
  | cons c cs ih =>
    rcases digit_of_dropWhile h with hnil | ⟨_, _, heq, hc, hrest⟩
    · nomatch hnil
    · cases heq
      exact .many_next (derives_digit hcs hc) (ih rfl hrest)

/-- A number that ends with the text meets its end. -/
theorem reportsEnd_unsigned {rules : Rules (.text Rule)} {u : Text}
    (h : u.chars.dropWhile Char.isDigit = []) : ReportsEnd Char .text rules (parts .unsigned) u := by
  have hend : TextLeaf.digit.parser.Yields Text.empty (.failure (.unexpectedEnd "ASCII digit")) [] :=
    (TextLeaf.yields_iff .digit).mpr ⟨.failure (.unexpectedEnd "ASCII digit"), .atEnd, rfl⟩
  have hdigit : Calls .text rules (.many1 (.ofText .digit)) u (.ofText .digit) Text.empty := by
    rcases digit_of_dropWhile h with hu | ⟨c, cs, hu, hc, hrest⟩
    · obtain rfl : u = .empty := Text.ext hu
      exact .many1_first .self
    · exact .many1_next (derives_digit hu hc) (calls_digit_atEnd hrest)
  exact ⟨_, .digit, _, _, _, .validate hdigit, hend⟩

/-! ### Grammars on longer inputs -/

/-- A matcher of texts that does not meet the end does the same on a longer text. -/
theorem text_leaf_extend {rules : Rules (.text Rule)} {l : TextLeaf ε α} {s : Text} {o : Outcome Text ε α}
    {t : Trace} (noEnd : ¬ ReportsEnd Char .text rules (parts l) s) (h : l.parser.Yields s o t)
    (more : Text) : l.parser.Yields (s ++ more) (o.mapRest (· ++ more)) t := by
  have hchars : (o.mapRest (· ++ more)).mapRest Text.chars =
      (o.mapRest Text.chars).mapRest (· ++ more.chars) := by
    rw [Outcome.mapRest_mapRest, Outcome.mapRest_mapRest]
    rfl
  have hreads := l.yields_iff.mp h
  refine l.yields_iff.mpr ?_
  rw [hchars]
  cases l with
  | anyChar =>
    refine Matcher.ReadsElement.extend hreads ?_ _
    exact mt Outcome.mapRest_eq_failure_iff.mp (leaf_ne_atEnd noEnd .self h)
  | char wanted =>
    refine Matcher.ReadsElement.extend hreads ?_ _
    exact mt Outcome.mapRest_eq_failure_iff.mp (leaf_ne_atEnd noEnd .self h)
  | charIf test expected =>
    refine Matcher.ReadsElement.extend hreads ?_ _
    exact mt Outcome.mapRest_eq_failure_iff.mp (leaf_ne_atEnd noEnd .self h)
  | literal wanted =>
    refine Matcher.ReadsLiteral.extend hreads ?_ _
    exact mt Outcome.mapRest_eq_failure_iff.mp (leaf_ne_atEnd noEnd .self h)
  | digit =>
    obtain ⟨o', ho', ho⟩ := hreads
    refine ⟨_, ho'.extend ?_ _, ?_⟩
    · rintro rfl
      exact leaf_ne_atEnd noEnd .self h (Outcome.mapRest_eq_failure_iff.mp ho)
    · rw [ho, Outcome.mapRest_map]
  | unsigned =>
    refine Matcher.ReadsUnsigned.extend hreads ?_ _
    exact mt reportsEnd_unsigned noEnd

/-- A matcher of tokens that is read and does not meet the end does the same on a longer list. -/
theorem token_leaf_extend {τ : Type} [BEq τ] [Inspect τ] {rules : Rules (.tokens τ Rule)}
    {g : Grammar (.tokens τ Rule) () ε α} {s : List τ} (noEnd : ¬ ReportsEnd τ (.tokens τ) rules g s)
    {ε' : Type} {l : TokenLeaf τ ε' β} {u : List τ} {o : Outcome (List τ) ε' β} {t : Trace}
    (call : Calls (.tokens τ) rules g s (.ofToken l) u) (h : l.parser.Yields u o t) (more : List τ) :
    l.parser.Yields (u ++ more) (o.mapRest (· ++ more)) t := by
  have hreads := l.yields_iff.mp h
  refine l.yields_iff.mpr ?_
  cases l with
  | anyToken => exact Matcher.ReadsElement.extend hreads (leaf_ne_atEnd noEnd call h) _
  | token wanted => exact Matcher.ReadsElement.extend hreads (leaf_ne_atEnd noEnd call h) _
  | tokenIf test expected => exact Matcher.ReadsElement.extend hreads (leaf_ne_atEnd noEnd call h) _

/-- A grammar that does not meet the end of its input does the same on every longer one, and leaves what
    was added behind what it left before. -/
theorem yields_append_of_not_atEnd :
    (∀ {Rule : Type → Type → Type} (rules : Rules (.text Rule)) {ε α : Type}
      (g : Grammar (.text Rule) () ε α) (s : Text) (o : Outcome Text ε α) (t : Trace),
      (g.parser .text rules).Yields s o t → ¬ MeetsEnd rules g s → ∀ more : Text,
        (g.parser .text rules).Yields (s ++ more) (o.mapRest (· ++ more)) t) ∧
    ∀ {Rule : Type → Type → Type} {τ : Type} [BEq τ] [Inspect τ] (rules : Rules (.tokens τ Rule))
      {ε α : Type} (g : Grammar (.tokens τ Rule) () ε α) (s : List τ) (o : Outcome (List τ) ε α) (t : Trace),
      (g.parser (.tokens τ) rules).Yields s o t → ¬ ReportsEnd τ (.tokens τ) rules g s → ∀ more : List τ,
        (g.parser (.tokens τ) rules).Yields (s ++ more) (o.mapRest (· ++ more)) t := by
  constructor
  · intro Rule rules ε α g s o t h noEnd more
    have hleaves : LeavesFollow .text .text rules (fun _ (r r' : Text) => r' = r ++ more) g s := by
      refine ⟨fun call hu hl => ?_⟩
      subst hu
      have hparts := fun hend => noEnd ⟨_, _, _, _, call, hend⟩
      exact ⟨_, text_leaf_extend hparts hl more, Outcome.related_mapRest _⟩
    exact (yields_of_leavesFollow Signature.noViews h hleaves rfl fun _ _ hr => hr).1
  · intro Rule τ _ _ rules ε α g s o t h noEnd more
    have hleaves :
        LeavesFollow (.tokens τ) (.tokens τ) rules (fun _ (r r' : List τ) => r' = r ++ more) g s := by
      refine ⟨fun call hu hl => ?_⟩
      subst hu
      exact ⟨_, token_leaf_extend noEnd call hl more, Outcome.related_mapRest _⟩
    exact (yields_of_leavesFollow Signature.noViews h hleaves rfl fun _ _ hr => hr).1

/-! ### A row that stops before the end -/

section
variable {M : Model S} {rules : Rules S} {s u : M.Input κ} {ε' α' : Type} {l : S.Leaf κ ε α}
  {l' : S.Leaf κ ε' α'}

theorem calls_leaf (h : Calls M rules (.leaf l) s (.leaf l') u) :
    (⟨ε', α', l', u⟩ : (ε : Type) × (α : Type) × S.Leaf κ ε α × M.Input κ) = ⟨ε, α, l, s⟩ := by
  rcases h.self_or_part with heq | hpart
  · cases heq
    rfl
  · exact hpart.elim

/-- A repetition of one leaf reads it on its input and on what its successes leave. -/
theorem calls_many_leaf (h : Calls M rules (.many (.leaf l)) s (.leaf l') u) :
    (⟨ε', α', l', u⟩ : (ε : Type) × (α : Type) × S.Leaf κ ε α × M.Input κ) = ⟨ε, α, l, s⟩ ∨
      ∃ a r t, (M.leaf l).Yields s (.success a r) t ∧ Calls M rules (.many (.leaf l)) r (.leaf l') u := by
  rcases h.self_or_part with heq | h | ⟨a, r, t, hg, hm⟩
  · cases heq
  · exact .inl (calls_leaf h)
  · exact .inr ⟨a, r, t, derives_leaf_iff.mp hg, hm⟩

end

/-- A row of one character. -/
def row (c : Char) : Grammar (.text fun _ _ => Empty) () (MatchError Char) (List Char) :=
  .many (.ofText (.char c))

/-- A row that another character ends, whatever follows. -/
theorem yields_append_row :
    ((row 'a').parser .text .none).Yields (.ofString "ab") (.success ['a'] (.ofString "b")) [.stopped 1] ∧
      ¬ MeetsEnd .none (row 'a') (.ofString "ab") ∧
      ((row 'a').parser .text .none).Yields (.ofString "abaa") (.success ['a'] (.ofString "baa"))
        [.stopped 1] := by
  have hab : (TextLeaf.char 'a').parser.Yields (.ofString "ab") (.success 'a' (.ofString "b")) [] :=
    (TextLeaf.yields_iff _).mpr (.success rfl)
  have hb : (TextLeaf.char 'a').parser.Yields (.ofString "b") (.failure (.unexpected "'a'" 'b')) [] :=
    (TextLeaf.yields_iff _).mpr (.other rfl)
  have hrow : Derives .text .none (row 'a') (.ofString "b") (.success [] (.ofString "b"))
      ([] ++ [.stopped 0]) := .many_nil (.leaf hb)
  have hyields := (Derives.many_cons (.leaf hab) hrow).yields
  have hend : ¬ MeetsEnd .none (row 'a') (.ofString "ab") := by
    rintro ⟨ε, α, l, u, call, α', l', u', expected, t, part, h⟩
    rcases calls_many_leaf call with heq | ⟨a, r, t', ha, call⟩
    · cases heq
      cases calls_leaf part
      nomatch (hab.unique h).1
    · obtain ⟨heq, -⟩ := hab.unique ha
      cases heq
      rcases calls_many_leaf call with heq | ⟨a, r, t', ha, -⟩
      · cases heq
        cases calls_leaf part
        nomatch (hb.unique h).1
      · nomatch (hb.unique ha).1
  exact ⟨hyields, hend, yields_append_of_not_atEnd.1 .none (row 'a') _ _ _ hyields hend (.ofString "aa")⟩

end Grammar
end TracedParsers
