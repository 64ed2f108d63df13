import TracedParsers.Proofs.Decimal
import TracedParsers.Grammar.Leaves

/-!
# What the leaves read

Each matcher that grammars have for leaves has one rule, said about the list of characters or tokens in
front of it.
-/

namespace TracedParsers

/-- What a matcher of texts does on a list of characters. -/
def TextLeaf.Reads {ε α : Type} : TextLeaf ε α → List Char → Outcome (List Char) ε α → Trace → Prop
  | .anyChar => Matcher.ReadsElement (fun _ => true) "any character"
  | .char wanted => Matcher.ReadsElement (· == wanted) (inspect wanted)
  | .charIf test expected => Matcher.ReadsElement test expected
  | .digit => fun cs o t =>
    ∃ o', Matcher.ReadsElement Char.isDigit "ASCII digit" cs o' t ∧ o = o'.map Matcher.digitValue
  | .literal wanted => Matcher.ReadsLiteral wanted
  | .unsigned => Matcher.ReadsUnsigned

def TokenLeaf.Reads {τ ε α : Type} [BEq τ] [Inspect τ] :
    TokenLeaf τ ε α → List τ → Outcome (List τ) ε α → Trace → Prop
  | .anyToken => Matcher.ReadsElement (fun _ => true) "any token"
  | .token wanted => Matcher.ReadsElement (· == wanted) (inspect wanted)
  | .tokenIf test expected => Matcher.ReadsElement test expected

@[simp] theorem Outcome.mapRest_chars_ofList {ε α : Type} (o : Outcome (List Char) ε α) :
    (o.mapRest Text.ofList).mapRest Text.chars = o := by
  cases o <;> rfl

theorem TextLeaf.yields_iff {ε α : Type} (l : TextLeaf ε α) {s : Text} {o : Outcome Text ε α} {t : Trace} :
    l.parser.Yields s o t ↔ l.Reads s.chars (o.mapRest Text.chars) t := by
  cases l with
  | anyChar => exact Matcher.yields_element_iff
  | char wanted => exact Matcher.yields_element_iff
  | charIf test expected => exact Matcher.yields_element_iff
  | literal wanted => exact Matcher.yields_literal_iff
  | unsigned => exact Matcher.yields_unsigned_iff
  | digit =>
    have hdigit {o' : Outcome Text (MatchError Char) Char} :
        (Matcher.charIf Char.isDigit "ASCII digit").Yields s o' t ↔ Matcher.ReadsElement
          Char.isDigit "ASCII digit" s.chars (o'.mapRest Text.chars) t :=
      Matcher.yields_element_iff
    show (Matcher.digit).Yields s o t ↔ _
    rw [Matcher.digit, Parser.yields_map]
    constructor
    · rintro ⟨o', ho', rfl⟩
      exact ⟨_, hdigit.mp ho', Outcome.mapRest_map ..⟩
    · rintro ⟨o', ho', ho⟩
      refine ⟨o'.mapRest Text.ofList, hdigit.mpr (by rwa [Outcome.mapRest_chars_ofList]), ?_⟩
      refine Outcome.mapRest_injective Text.ext ?_
      rw [ho, Outcome.mapRest_map, Outcome.mapRest_chars_ofList]

theorem TextLeaf.yields_char (c : Char) (cs : List Char) :
    (TextLeaf.char c).parser.Yields (.ofList (c :: cs)) (.success c (.ofList cs)) [] :=
  (TextLeaf.char c).yields_iff.mpr (.success (beq_self_eq_true c))

theorem TextLeaf.yields_char_other (c d : Char) (cs : List Char) (h : (d == c) = false) :
    (TextLeaf.char c).parser.Yields (.ofList (d :: cs)) (.failure (.unexpected (inspect c) d)) [] :=
  (TextLeaf.char c).yields_iff.mpr (.other h)

theorem TextLeaf.yields_char_refused (c : Char) {cs : List Char} (h : cs.head? ≠ some c) :
    ∃ e, (TextLeaf.char c).parser.Yields (.ofList cs) (.failure e) [] := by
  cases cs with
  | nil => exact ⟨_, (TextLeaf.char c).yields_iff.mpr .atEnd⟩
  | cons d cs =>
    have hd : d ≠ c := fun hdc => h (congrArg some hdc)
    exact ⟨_, yields_char_other c d cs (beq_false_of_ne hd)⟩

theorem TokenLeaf.yields_iff {τ ε α : Type} [BEq τ] [Inspect τ] (l : TokenLeaf τ ε α) {s : List τ}
    {o : Outcome (List τ) ε α} {t : Trace} : l.parser.Yields s o t ↔ l.Reads s o t := by
  have hlist (o : Outcome (List τ) (MatchError τ) τ) : o.mapRest Source.toList = o := Outcome.mapRest_id o
  have helement {test : τ → Bool} {expected : String} {o : Outcome (List τ) (MatchError τ) τ} :
      (Matcher.element test expected).Yields s o t ↔ Matcher.ReadsElement test expected s o t := by
    rw [Matcher.yields_element_iff, hlist]
    rfl
  cases l with
  | anyToken => exact helement
  | token wanted => exact helement
  | tokenIf test expected => exact helement

theorem TokenLeaf.yields_token {τ : Type} [BEq τ] [Inspect τ] (wanted x : τ) (xs : List τ)
    (h : (x == wanted) = true) : (TokenLeaf.token wanted).parser.Yields (x :: xs) (.success x xs) [] :=
  (TokenLeaf.token wanted).yields_iff.mpr (.success h)

theorem TokenLeaf.yields_token_other {τ : Type} [BEq τ] [Inspect τ] (wanted x : τ) (xs : List τ)
    (h : (x == wanted) = false) :
    (TokenLeaf.token wanted).parser.Yields (x :: xs) (.failure (.unexpected (inspect wanted) x)) [] :=
  (TokenLeaf.token wanted).yields_iff.mpr (.other h)

end TracedParsers
