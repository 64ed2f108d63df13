import TracedParsers.Grammar.Leaves

/-!
# Grammars over inputs of several sorts

A grammar may read texts, lists of tokens and inputs of other sorts in one, going from one sort to another
by views. Its leaves are the matchers and readers of the user's making. Readers and views come with
what is expected of them: a reader leaves a suffix of its input, and a view takes every suffix of what it
shows back to a suffix of what it looks at.
-/

namespace TracedParsers

/-- Inputs of which some are what is left of others. -/
class Suffixed (σ : Type) where
  IsSuffix : σ → σ → Prop
  refl : ∀ s, IsSuffix s s
  trans : ∀ {q r s}, IsSuffix q r → IsSuffix r s → IsSuffix q s

/-- An input made of elements has the suffixes of the list of its elements. -/
instance {σ τ : Type} [Source σ τ] : Suffixed σ where
  IsSuffix := Source.IsSuffix
  refl := Source.IsSuffix.refl
  trans := Source.IsSuffix.trans

/-- A parser of the user's making. -/
structure SuffixReader (σ : Type) [Suffixed σ] (ε α : Type) where
  parser : Parser σ ε α
  isSuffix : ∀ {s r : σ} {a : α} {t : Trace}, parser.Yields s (.success a r) t → Suffixed.IsSuffix r s

def SuffixReader.ofFn {σ ε α : Type} [Suffixed σ] (read : σ → Except ε (α × σ))
    (h : ∀ {s r : σ} {a : α}, read s = .ok (a, r) → Suffixed.IsSuffix r s) : SuffixReader σ ε α where
  parser := .ofFn read
  isSuffix {s _ _ _} hread := by
    obtain ⟨ho, -⟩ := Parser.yields_ofFn.mp hread
    cases hs : read s with
    | ok x =>
      rw [hs] at ho
      cases ho
      exact h hs
    | error e =>
      rw [hs] at ho
      nomatch ho

/-- A way to look at an input as one of another sort. -/
structure SuffixView (σ σ' : Type) [Suffixed σ] [Suffixed σ'] where
  into : σ → σ'
  back : σ' → σ
  isSuffix : ∀ {s : σ} {r : σ'}, Suffixed.IsSuffix r (into s) → Suffixed.IsSuffix (back r) s

/-- The types of tokens, and the sorts of inputs other than texts and lists of tokens. -/
structure Media where
  TokenSort : Type
  Token : TokenSort → Type
  [beq : ∀ i, BEq (Token i)]
  [inspect : ∀ i, Inspect (Token i)]
  OtherSort : Type
  Input : OtherSort → Type
  [suffixed : ∀ i, Suffixed (Input i)]

attribute [instance] Media.beq Media.inspect Media.suffixed

namespace Media

variable {U : Media}

inductive Kind (U : Media) : Type where
  | text
  | tokens (i : U.TokenSort)
  | other (i : U.OtherSort)

def Kind.Input : U.Kind → Type
  | text => Text
  | tokens i => List (U.Token i)
  | other i => U.Input i

instance : (κ : U.Kind) → Suffixed κ.Input
  | .text => inferInstanceAs (Suffixed Text)
  | .tokens i => inferInstanceAs (Suffixed (List (U.Token i)))
  | .other i => inferInstanceAs (Suffixed (U.Input i))

/-- The matchers, each for inputs of its sort, and the readers for inputs of any sort. -/
inductive Leaf (U : Media) (ε α : Type) : U.Kind → Type where
  | text (l : TextLeaf ε α) : Leaf U ε α .text
  | token {i : U.TokenSort} (l : TokenLeaf (U.Token i) ε α) : Leaf U ε α (.tokens i)
  | reader {κ : U.Kind} (p : SuffixReader κ.Input ε α) : Leaf U ε α κ

def Leaf.parser {κ : U.Kind} {ε α : Type} : U.Leaf ε α κ → Parser κ.Input ε α
  | .text l => l.parser
  | .token l => l.parser
  | .reader p => p.parser

abbrev signature (U : Media) (Rule : U.Kind → Type → Type → Type) : Signature where
  Kind := U.Kind
  Leaf κ ε α := U.Leaf ε α κ
  View κ κ' := SuffixView κ.Input κ'.Input
  Rule := Rule

/-- Matchers, readers and views do what they are. -/
def model {Rule : U.Kind → Type → Type → Type} : Model (U.signature Rule) where
  Input := Kind.Input
  leaf := Leaf.parser
  into := SuffixView.into
  back := SuffixView.back

end Media
end TracedParsers
