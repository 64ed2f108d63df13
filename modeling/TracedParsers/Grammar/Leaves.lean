import TracedParsers.Grammar.Basic
import TracedParsers.Matcher.Text
import TracedParsers.Matcher.Token
import TracedParsers.Text.Offset

/-!
# Grammars over matchers

The signatures whose leaves are the matchers of texts, or those of tokens, with rules of the reader's
choice and no views. A grammar over texts is read on a text by `Model.text`, and over the byte offsets
of a text by `Model.offsets`.
-/

namespace TracedParsers

inductive TextLeaf : Type → Type → Type where
  | anyChar : TextLeaf (MatchError Char) Char
  | char (wanted : Char) : TextLeaf (MatchError Char) Char
  | charIf (test : Char → Bool) (expected : String) : TextLeaf (MatchError Char) Char
  | digit : TextLeaf (MatchError Char) Nat
  | literal (wanted : String) : TextLeaf (MatchError Char) String
  | unsigned : TextLeaf (MatchError Char) UInt64

def TextLeaf.parser {ε α : Type} : TextLeaf ε α → Parser Text ε α
  | anyChar => Matcher.anyChar
  | char wanted => Matcher.char wanted
  | charIf test expected => Matcher.charIf test expected
  | digit => Matcher.digit
  | literal wanted => Matcher.literal wanted
  | unsigned => Matcher.unsigned

inductive TokenLeaf (τ : Type) : Type → Type → Type where
  | anyToken : TokenLeaf τ (MatchError τ) τ
  | token (wanted : τ) : TokenLeaf τ (MatchError τ) τ
  | tokenIf (test : τ → Bool) (expected : String) : TokenLeaf τ (MatchError τ) τ

def TokenLeaf.parser {τ ε α : Type} [BEq τ] [Inspect τ] : TokenLeaf τ ε α → Parser (List τ) ε α
  | anyToken => Matcher.anyToken
  | token wanted => Matcher.token wanted
  | tokenIf test expected => Matcher.tokenIf test expected

/-- Grammars with inputs of one kind and no views. -/
def Signature.ofLeaves (Leaf Rule : Type → Type → Type) : Signature where
  Kind := Unit
  Leaf _ := Leaf
  View _ _ := Empty
  Rule _ := Rule

theorem Signature.noViews {Leaf Rule : Type → Type → Type} {κ κ' : Unit} :
    (Signature.ofLeaves Leaf Rule).View κ κ' → False :=
  fun v => nomatch v

abbrev Signature.text (Rule : Type → Type → Type) : Signature := .ofLeaves TextLeaf Rule

abbrev Signature.tokens (τ : Type) (Rule : Type → Type → Type) : Signature := .ofLeaves (TokenLeaf τ) Rule

def Grammar.ofText {Rule : Type → Type → Type} {ε α : Type} (l : TextLeaf ε α) :
    Grammar (.text Rule) () ε α :=
  .leaf l

def Grammar.ofToken {τ : Type} {Rule : Type → Type → Type} {ε α : Type} (l : TokenLeaf τ ε α) :
    Grammar (.tokens τ Rule) () ε α :=
  .leaf l

def Grammar.call {Leaf Rule : Type → Type → Type} {ε α : Type} (r : Rule ε α) :
    Grammar (.ofLeaves Leaf Rule) () ε α :=
  .rule r

/-- The rules where there are no names. -/
def Rules.none {Leaf : Type → Type → Type} : Rules (.ofLeaves Leaf fun _ _ => Empty) :=
  fun _ _ _ r => nomatch r

namespace Model

variable {Leaf Rule : Type → Type → Type}

/-- Leaves read as the given parsers do. -/
def ofLeaves (σ : Type) (leaf : ∀ {ε α}, Leaf ε α → Parser σ ε α) : Model (.ofLeaves Leaf Rule) where
  Input _ := σ
  leaf := leaf
  into v := nomatch v
  back v := nomatch v

def text : Model (.text Rule) := ofLeaves Text TextLeaf.parser

def tokens (τ : Type) [BEq τ] [Inspect τ] : Model (.tokens τ Rule) := ofLeaves (List τ) TokenLeaf.parser

/-- Matchers of texts read on the byte offsets of `whole`: each matcher sees the text from the offset
    on, and what it leaves is given by the offset at which it starts. -/
def offsets (whole : Text) : Model (.text Rule) :=
  ofLeaves Nat fun l => l.parser.through
    (fun offset => (whole.suffixAt? offset).getD .empty) (fun rest => whole.utf8Size - rest.utf8Size)

end Model
end TracedParsers
