import TracedParsers.Grammar.Basic

/-!
# Mapping the errors of grammars

`g.mapErrors h` maps every error of `g` where it arises: at the leaves, at the failures and where a check
refuses a value. A part whose errors are mapped already gets a mapping that goes one step further, and is
left alone otherwise, since its own errors are of another type. A rule is replaced by a rule that says
the same with mapped errors.
-/

namespace TracedParsers

variable {S : Signature} {Rule : S.Kind → Type → Type → Type}

/-- The same words but for the names of rules. -/
abbrev Signature.withRules (S : Signature) (Rule : S.Kind → Type → Type → Type) : Signature :=
  { S with Rule := Rule }

/-- Names of rules do not matter to a model. -/
abbrev Model.withRules (M : Model S) (Rule : S.Kind → Type → Type → Type) : Model (S.withRules Rule) where
  Input := M.Input
  leaf := M.leaf
  into := M.into
  back := M.back

/-- The names of rules, and for each rule with errors `E` one more name for what it says with errors mapped
    to `E'`. -/
inductive MappedRule (S : Signature) (E E' : Type) (κ : S.Kind) (ε α : Type) : Type where
  | same (r : S.Rule κ ε α)
  | mapped (r : S.Rule κ E α) (h : ε = E')

abbrev Signature.withMapped (S : Signature) (E E' : Type) : Signature := S.withRules (MappedRule S E E')

abbrev Model.withMapped (M : Model S) (E E' : Type) : Model (S.withMapped E E') :=
  M.withRules (MappedRule S E E')

namespace Grammar

/-- The grammar with its rules under other names. -/
def rename (name : ∀ {κ ε α}, S.Rule κ ε α → Rule κ ε α) {κ : S.Kind} {ε α : Type} :
    Grammar S κ ε α → Grammar (S.withRules Rule) κ ε α
  | leaf l => leaf l
  | rule r => rule (name r)
  | pure a => pure a
  | fail e => fail e
  | map f g => map f (g.rename name)
  | mapError f g => mapError f (g.rename name)
  | validate check g => validate check (g.rename name)
  | through v g => through v (g.rename name)
  | seq g h => seq (g.rename name) (h.rename name)
  | seqLeft g h => seqLeft (g.rename name) (h.rename name)
  | seqRight g h => seqRight (g.rename name) (h.rename name)
  | choice g h => choice (g.rename name) (h.rename name)
  | orElse g h => orElse (g.rename name) (h.rename name)
  | optional g => optional (g.rename name)
  | many g => many (g.rename name)
  | many1 g => many1 (g.rename name)

/-- The grammar with each error mapped where it arises. -/
def mapErrors {ε ε' : Type} (h : ε → ε') {κ : S.Kind} {α : Type} :
    Grammar S κ ε α → Grammar (S.withMapped ε ε') κ ε' α
  | leaf l => mapError h (leaf l)
  | rule r => rule (.mapped r rfl)
  | pure a => pure a
  | fail e => fail (h e)
  | map f g => map f (g.mapErrors h)
  | mapError f g => mapError (h ∘ f) (g.rename .same)
  | validate check g => validate (fun a => (check a).mapError h) (g.mapErrors h)
  | through v g => through v (g.mapErrors h)
  | seq g g' => seq (g.mapErrors h) (g'.mapErrors h)
  | seqLeft g g' => seqLeft (g.mapErrors h) (g'.mapErrors h)
  | seqRight g g' => seqRight (g.mapErrors h) (g'.mapErrors h)
  | choice g g' => choice (g.mapErrors h) (g'.mapErrors h)
  | orElse g g' => orElse (g.mapErrors h) (g'.mapErrors h)
  | optional g => optional (g.mapErrors h)
  | many g => many (g.mapErrors h)
  | many1 g => many1 (g.mapErrors h)

theorem parserWith_rename {M : Model S} {name : ∀ {κ ε α}, S.Rule κ ε α → Rule κ ε α}
    {calls : RuleParsers (M.withRules Rule)} {κ : S.Kind} {ε α : Type} (g : Grammar S κ ε α) :
    (g.rename name).parserWith (M.withRules Rule) calls =
      g.parserWith M fun κ ε α r => calls κ ε α (name r) := by
  induction g with
  | leaf | rule | pure | fail => rfl
  | map f _ ih => exact congrArg (Parser.map f) ih
  | mapError f _ ih => exact congrArg (Parser.mapError f) ih
  | validate check _ ih => exact congrArg (Parser.validate check) ih
  | through v _ ih => exact congrArg (Parser.through (M.into v) (M.back v)) ih
  | seq _ _ ihg ihh => exact congr (congrArg Parser.seq ihg) ihh
  | seqLeft _ _ ihg ihh => exact congr (congrArg Parser.seqLeft ihg) ihh
  | seqRight _ _ ihg ihh => exact congr (congrArg Parser.seqRight ihg) ihh
  | choice _ _ ihg ihh => exact congr (congrArg Parser.choice ihg) ihh
  | orElse _ _ ihg ihh => exact congr (congrArg Parser.orElse ihg) ihh
  | optional _ ih => exact congrArg Parser.optional ih
  | many _ ih => exact congrArg Parser.many ih
  | many1 _ ih => exact congrArg Parser.many1 ih

end Grammar

/-- Each rule as it was, and with each of its errors mapped where it arises. -/
def Rules.withMapped {E E' : Type} (h : E → E') (rules : Rules S) : Rules (S.withMapped E E')
  | _, _, _, .same r => (rules _ _ _ r).rename .same
  | _, _, _, .mapped r rfl => (rules _ _ _ r).mapErrors h

end TracedParsers
