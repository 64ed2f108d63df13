import TracedParsers.Parser.Order

/-!
# Grammars

A grammar is a parser written down: the constructions on parsers over leaves that a signature names.
A model says what the inputs are and what each leaf and each view of an input does, so one grammar can
be read over texts, over lists of tokens or over places in a text. Rules have names and may refer to
each other and to themselves; the parser of a grammar is the limit of what its rules do when they are
unfolded more and more often.
-/

namespace TracedParsers

/-- The vocabulary of a family of grammars. An input is of some kind; leaves and rules have the kind of
    their inputs and the types of their errors and values. -/
structure Signature where
  Kind : Type
  /-- The leaves for inputs of a kind, with errors and values of two types. -/
  Leaf : Kind → Type → Type → Type
  /-- The views of inputs of one kind as inputs of another. -/
  View : Kind → Kind → Type
  Rule : Kind → Type → Type → Type

/-- Grammars over a signature, for inputs of a kind, with errors and values of two types. -/
inductive Grammar (S : Signature) : S.Kind → Type → Type → Type 1 where
  | leaf {κ : S.Kind} {ε α : Type} (l : S.Leaf κ ε α) : Grammar S κ ε α
  | rule {κ : S.Kind} {ε α : Type} (r : S.Rule κ ε α) : Grammar S κ ε α
  | pure {κ : S.Kind} {ε α : Type} (a : α) : Grammar S κ ε α
  | fail {κ : S.Kind} {ε α : Type} (e : ε) : Grammar S κ ε α
  | map {κ : S.Kind} {ε α β : Type} (f : α → β) (g : Grammar S κ ε α) : Grammar S κ ε β
  | mapError {κ : S.Kind} {ε ε' α : Type} (f : ε → ε') (g : Grammar S κ ε α) : Grammar S κ ε' α
  | validate {κ : S.Kind} {ε α β : Type} (check : α → Except ε β) (g : Grammar S κ ε α) :
      Grammar S κ ε β
  /-- The same on a view of the input. -/
  | through {κ κ' : S.Kind} {ε α : Type} (v : S.View κ κ') (g : Grammar S κ' ε α) : Grammar S κ ε α
  | seq {κ : S.Kind} {ε α β : Type} (g : Grammar S κ ε α) (h : Grammar S κ ε β) :
      Grammar S κ ε (α × β)
  | seqLeft {κ : S.Kind} {ε α β : Type} (g : Grammar S κ ε α) (h : Grammar S κ ε β) : Grammar S κ ε α
  | seqRight {κ : S.Kind} {ε α β : Type} (g : Grammar S κ ε α) (h : Grammar S κ ε β) : Grammar S κ ε β
  /-- The first, or else the second. -/
  | choice {κ : S.Kind} {ε α β : Type} (g : Grammar S κ ε α) (h : Grammar S κ ε β) :
      Grammar S κ ε (α ⊕ β)
  /-- The first, or else the second, without telling which. -/
  | orElse {κ : S.Kind} {ε α : Type} (g h : Grammar S κ ε α) : Grammar S κ ε α
  | optional {κ : S.Kind} {ε α : Type} (g : Grammar S κ ε α) : Grammar S κ ε (Option α)
  | many {κ : S.Kind} {ε α : Type} (g : Grammar S κ ε α) : Grammar S κ ε (List α)
  | many1 {κ : S.Kind} {ε α : Type} (g : Grammar S κ ε α) : Grammar S κ ε (List α)

/-- What the words of a signature stand for. -/
structure Model (S : Signature) where
  Input : S.Kind → Type
  leaf : ∀ {κ ε α}, S.Leaf κ ε α → Parser (Input κ) ε α
  /-- How a view shows an input. -/
  into : ∀ {κ κ'}, S.View κ κ' → Input κ → Input κ'
  /-- What a view makes of the input that is left. -/
  back : ∀ {κ κ'}, S.View κ κ' → Input κ' → Input κ

variable {S : Signature}

/-- The meaning of each rule as a grammar. -/
abbrev Rules (S : Signature) : Type 1 := ∀ κ ε α, S.Rule κ ε α → Grammar S κ ε α

abbrev RuleParsers (M : Model S) : Type 1 := ∀ κ ε α, S.Rule κ ε α → Parser (M.Input κ) ε α

namespace Grammar

variable {κ : S.Kind} {ε α : Type}

/-- The parser of a grammar, given one for each rule. -/
def parserWith (M : Model S) (calls : RuleParsers M) {κ : S.Kind} {ε α : Type} :
    Grammar S κ ε α → Parser (M.Input κ) ε α
  | leaf l => M.leaf l
  | rule r => calls _ _ _ r
  | pure a => .pure a
  | fail e => .fail e
  | map f g => (g.parserWith M calls).map f
  | mapError f g => (g.parserWith M calls).mapError f
  | validate check g => (g.parserWith M calls).validate check
  | through v g => (g.parserWith M calls).through (M.into v) (M.back v)
  | seq g h => (g.parserWith M calls).seq (h.parserWith M calls)
  | seqLeft g h => (g.parserWith M calls).seqLeft (h.parserWith M calls)
  | seqRight g h => (g.parserWith M calls).seqRight (h.parserWith M calls)
  | choice g h => (g.parserWith M calls).choice (h.parserWith M calls)
  | orElse g h => (g.parserWith M calls).orElse (h.parserWith M calls)
  | optional g => (g.parserWith M calls).optional
  | many g => (g.parserWith M calls).many
  | many1 g => (g.parserWith M calls).many1

theorem parserWith_le_parserWith {M : Model S} {calls calls' : RuleParsers M}
    (h : ∀ κ ε α r, calls κ ε α r ≤ calls' κ ε α r) (g : Grammar S κ ε α) :
    g.parserWith M calls ≤ g.parserWith M calls' := by
  induction g with
  | leaf l => exact Parser.le_refl _
  | rule r => exact h _ _ _ r
  | pure a => exact Parser.le_refl _
  | fail e => exact Parser.le_refl _
  | map f g ih => exact Parser.map_le_map f ih
  | mapError f g ih => exact Parser.mapError_le_mapError f ih
  | validate check g ih => exact Parser.validate_le_validate check ih
  | through v g ih => exact Parser.through_le_through _ _ ih
  | seq g h ihg ihh => exact Parser.seq_le_seq ihg ihh
  | seqLeft g h ihg ihh => exact Parser.seqLeft_le_seqLeft ihg ihh
  | seqRight g h ihg ihh => exact Parser.seqRight_le_seqRight ihg ihh
  | choice g h ihg ihh => exact Parser.choice_le_choice ihg ihh
  | orElse g h ihg ihh => exact Parser.orElse_le_orElse ihg ihh
  | optional g ih => exact Parser.optional_le_optional ih
  | many g ih => exact Parser.many_le_many ih
  | many1 g ih => exact Parser.many1_le_many1 ih

/-- The parsers of the rules when calls may be nested `depth` deep; a deeper call does not end. The
    parser of a rule is made anew at each call, so a rule that names itself is unfolded only as far as
    its input leads. -/
def unfolded (M : Model S) (rules : Rules S) : (depth : Nat) → RuleParsers M
  | 0, _, _, _, _ => .never
  | depth + 1, _, _, _, r =>
    ⟨fun s => ((rules _ _ _ r).parserWith M (unfolded M rules depth)).parse s⟩

theorem unfolded_le_succ (M : Model S) (rules : Rules S) (depth : Nat) :
    ∀ κ ε α r, unfolded M rules depth κ ε α r ≤ unfolded M rules (depth + 1) κ ε α r := by
  induction depth with
  | zero => exact fun _ _ _ _ => Parser.never_le _
  | succ depth ih => exact fun _ _ _ r => parserWith_le_parserWith ih (rules _ _ _ r)

theorem unfolded_le_unfolded (M : Model S) (rules : Rules S) {m n : Nat} (h : m ≤ n) :
    ∀ κ ε α r, unfolded M rules m κ ε α r ≤ unfolded M rules n κ ε α r := by
  induction h with
  | refl => exact fun _ _ _ _ => Parser.le_refl _
  | step _ ih => exact fun κ ε α r => Parser.le_trans (ih κ ε α r) (unfolded_le_succ M rules _ κ ε α r)

def parser (M : Model S) (rules : Rules S) (g : Grammar S κ ε α) : Parser (M.Input κ) ε α :=
  .limit (fun depth => g.parserWith M (unfolded M rules depth)) fun depth =>
    parserWith_le_parserWith (unfolded_le_succ M rules depth) g

/-- What the parser of a grammar yields, it yields with calls of bounded depth. -/
theorem yields_parser_iff {M : Model S} {rules : Rules S} {g : Grammar S κ ε α} {s : M.Input κ}
    {o : Outcome (M.Input κ) ε α} {t : Trace} :
    (g.parser M rules).Yields s o t ↔
      ∃ depth, (g.parserWith M (unfolded M rules depth)).Yields s o t :=
  Parser.yields_limit _

end Grammar
end TracedParsers
