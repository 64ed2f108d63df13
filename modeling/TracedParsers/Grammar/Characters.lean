import TracedParsers.Grammar.Leaves

/-!
# Grammars of characters

A grammar whose leaves ask for one character each, for a given one or for one that passes a test, can be
written with the matchers of texts and with those of tokens, where the tokens are characters. Leaves are put
in the place of others by `withLeaves`, which leaves the grammar as it is otherwise.
-/

namespace TracedParsers

variable {S : Signature} {Leaf : S.Kind → Type → Type → Type}

abbrev Signature.withLeaves (S : Signature) (Leaf : S.Kind → Type → Type → Type) : Signature :=
  { S with Leaf := Leaf }

/-- Reads a leaf as the one that stands in its place. -/
abbrev Model.onLeaves (M : Model (S.withLeaves Leaf)) (leaf : ∀ {κ ε α}, S.Leaf κ ε α → Leaf κ ε α) :
    Model S where
  Input := M.Input
  leaf l := M.leaf (leaf l)
  into := M.into
  back := M.back

namespace Grammar

/-- The grammar with other leaves in the place of its own. -/
def withLeaves (leaf : ∀ {κ ε α}, S.Leaf κ ε α → Leaf κ ε α) {κ : S.Kind} {ε α : Type} :
    Grammar S κ ε α → Grammar (S.withLeaves Leaf) κ ε α
  | .leaf l => .leaf (leaf l)
  | .rule r => .rule r
  | .pure a => .pure a
  | .fail e => .fail e
  | .map f g => .map f (g.withLeaves leaf)
  | .mapError f g => .mapError f (g.withLeaves leaf)
  | .validate check g => .validate check (g.withLeaves leaf)
  | .through v g => .through v (g.withLeaves leaf)
  | .seq g h => .seq (g.withLeaves leaf) (h.withLeaves leaf)
  | .seqLeft g h => .seqLeft (g.withLeaves leaf) (h.withLeaves leaf)
  | .seqRight g h => .seqRight (g.withLeaves leaf) (h.withLeaves leaf)
  | .choice g h => .choice (g.withLeaves leaf) (h.withLeaves leaf)
  | .orElse g h => .orElse (g.withLeaves leaf) (h.withLeaves leaf)
  | .optional g => .optional (g.withLeaves leaf)
  | .many g => .many (g.withLeaves leaf)
  | .many1 g => .many1 (g.withLeaves leaf)

end Grammar

def Rules.withLeaves (leaf : ∀ {κ ε α}, S.Leaf κ ε α → Leaf κ ε α) (rules : Rules S) :
    Rules (S.withLeaves Leaf) :=
  fun _ _ _ r => (rules _ _ _ r).withLeaves leaf

namespace Grammar

variable {M : Model (S.withLeaves Leaf)} {leaf : ∀ {κ ε α}, S.Leaf κ ε α → Leaf κ ε α} {rules : Rules S}
  {κ : S.Kind} {ε α : Type}

theorem parserWith_withLeaves {calls : RuleParsers M} (g : Grammar S κ ε α) :
    (g.withLeaves leaf).parserWith M calls = g.parserWith (M.onLeaves leaf) calls := by
  induction g with
  | leaf | rule | pure | fail => rfl
  | map f _ ih => exact congrArg (Parser.map f) ih
  | mapError f _ ih => exact congrArg (Parser.mapError f) ih
  | validate check _ ih => exact congrArg (Parser.validate check) ih
  | through v _ ih => exact congrArg (Parser.through (M.into v) (M.back v)) ih
  | seq _ _ ihg ihh => exact congr (congrArg Parser.seq ihg) ihh
  | seqLeft _ _ ihg ihh => exact congr (congrArg Parser.seqLeft ihg) ihh
  | seqRight _ _ ihg ihh => exact congr (congrArg Parser.seqRight ihg) ihh
  | choice _ _ ihg ihh => exact congr (congrArg Parser.choice ihg) ihh
  | orElse _ _ ihg ihh => exact congr (congrArg Parser.orElse ihg) ihh
  | optional _ ih => exact congrArg Parser.optional ih
  | many _ ih => exact congrArg Parser.many ih
  | many1 _ ih => exact congrArg Parser.many1 ih

theorem unfolded_withLeaves (depth : Nat) :
    unfolded M (rules.withLeaves leaf) depth = unfolded (M.onLeaves leaf) rules depth := by
  induction depth with
  | zero => rfl
  | succ depth ih =>
    funext κ ε α r
    have hbody : ((rules κ ε α r).withLeaves leaf).parserWith M (unfolded M (rules.withLeaves leaf) depth) =
        (rules κ ε α r).parserWith (M.onLeaves leaf) (unfolded (M.onLeaves leaf) rules depth) := by
      rw [ih, parserWith_withLeaves]
    exact hbody

/-- To put other leaves in a grammar is to read its leaves as those. -/
theorem parser_withLeaves (g : Grammar S κ ε α) :
    (g.withLeaves leaf).parser M (rules.withLeaves leaf) = g.parser (M.onLeaves leaf) rules := by
  have hdepth (depth : Nat) :
      (g.withLeaves leaf).parserWith M (unfolded M (rules.withLeaves leaf) depth) =
        g.parserWith (M.onLeaves leaf) (unfolded (M.onLeaves leaf) rules depth) := by
    rw [parserWith_withLeaves, unfolded_withLeaves]
  exact Parser.ext_within fun s n => congrArg (fun p => (p.parse s).within n) (hdepth n)

end Grammar

/-! ### Leaves for one character -/

/-- What can be asked of one character. -/
inductive CharLeaf : Type → Type → Type where
  | char (wanted : Char) : CharLeaf (MatchError Char) Char
  | charIf (test : Char → Bool) (expected : String) : CharLeaf (MatchError Char) Char

namespace CharLeaf

variable {ε α : Type}

def text : CharLeaf ε α → TextLeaf ε α
  | char wanted => .char wanted
  | charIf test expected => .charIf test expected

def token : CharLeaf ε α → TokenLeaf Char ε α
  | char wanted => .token wanted
  | charIf test expected => .tokenIf test expected

end CharLeaf

abbrev Signature.characters (Rule : Type → Type → Type) : Signature := .ofLeaves CharLeaf Rule

variable {Rule : Type → Type → Type} {ε α : Type}

/-- The grammar written with matchers of texts. -/
def Grammar.overText (g : Grammar (.characters Rule) () ε α) : Grammar (.text Rule) () ε α :=
  g.withLeaves CharLeaf.text

def Rules.overText (rules : Rules (.characters Rule)) : Rules (.text Rule) :=
  rules.withLeaves CharLeaf.text

/-- The grammar written with matchers of tokens. -/
def Grammar.overTokens (g : Grammar (.characters Rule) () ε α) : Grammar (.tokens Char Rule) () ε α :=
  g.withLeaves CharLeaf.token

def Rules.overTokens (rules : Rules (.characters Rule)) : Rules (.tokens Char Rule) :=
  rules.withLeaves CharLeaf.token

end TracedParsers
