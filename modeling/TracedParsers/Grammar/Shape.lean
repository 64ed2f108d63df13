import TracedParsers.Grammar.Errors

/-!
# Grammars of one shape

Two grammars have the same shape when they are built in the same way from the same leaves, failures,
mappings of errors and views, and differ at most in the values that they make: in the functions that map
values and in the values that are given without reading. A check is not a part of such a grammar, since it
looks into a value. Rules may have other names and values of other types, as long as what they say has the
same shape.
-/

namespace TracedParsers
namespace Grammar

variable {S : Signature} {Rule : S.Kind → Type → Type → Type}

/-- The same but for the values, where `named` tells which rules correspond. -/
inductive SameShape (named : ∀ κ ε α β, S.Rule κ ε α → Rule κ ε β → Prop) :
    {κ : S.Kind} → {ε α β : Type} → Grammar S κ ε α → Grammar (S.withRules Rule) κ ε β → Prop where
  | leaf {κ ε α} (l : S.Leaf κ ε α) : SameShape named (.leaf l) (.leaf l)
  | rule {κ ε α β} {r : S.Rule κ ε α} {r' : Rule κ ε β} (h : named κ ε α β r r') :
      SameShape named (.rule r) (.rule r')
  /-- Two values of any two types. -/
  | pure {κ ε α β} (a : α) (b : β) :
      SameShape named (.pure a : Grammar S κ ε α) (.pure b : Grammar (S.withRules Rule) κ ε β)
  | fail {κ ε α β} (e : ε) :
      SameShape named (.fail e : Grammar S κ ε α) (.fail e : Grammar (S.withRules Rule) κ ε β)
  /-- Two functions on the values. -/
  | map {κ ε α α' β β'} (f : α → α') (f' : β → β') {g : Grammar S κ ε α}
      {g' : Grammar (S.withRules Rule) κ ε β} (h : SameShape named g g') :
      SameShape named (.map f g) (.map f' g')
  | mapError {κ ε ε' α β} (f : ε → ε') {g : Grammar S κ ε α} {g' : Grammar (S.withRules Rule) κ ε β}
      (h : SameShape named g g') : SameShape named (.mapError f g) (.mapError f g')
  | through {κ κ' ε α β} (v : S.View κ κ') {g : Grammar S κ' ε α} {g' : Grammar (S.withRules Rule) κ' ε β}
      (h : SameShape named g g') : SameShape named (.through v g) (.through v g')
  | seq {κ ε α α₁ β β₁} {g : Grammar S κ ε α} {g₁ : Grammar S κ ε α₁}
      {g' : Grammar (S.withRules Rule) κ ε β} {g₁' : Grammar (S.withRules Rule) κ ε β₁}
      (h : SameShape named g g') (h₁ : SameShape named g₁ g₁') :
      SameShape named (.seq g g₁) (.seq g' g₁')
  | seqLeft {κ ε α α₁ β β₁} {g : Grammar S κ ε α} {g₁ : Grammar S κ ε α₁}
      {g' : Grammar (S.withRules Rule) κ ε β} {g₁' : Grammar (S.withRules Rule) κ ε β₁}
      (h : SameShape named g g') (h₁ : SameShape named g₁ g₁') :
      SameShape named (.seqLeft g g₁) (.seqLeft g' g₁')
  | seqRight {κ ε α α₁ β β₁} {g : Grammar S κ ε α} {g₁ : Grammar S κ ε α₁}
      {g' : Grammar (S.withRules Rule) κ ε β} {g₁' : Grammar (S.withRules Rule) κ ε β₁}
      (h : SameShape named g g') (h₁ : SameShape named g₁ g₁') :
      SameShape named (.seqRight g g₁) (.seqRight g' g₁')
  | choice {κ ε α α₁ β β₁} {g : Grammar S κ ε α} {g₁ : Grammar S κ ε α₁}
      {g' : Grammar (S.withRules Rule) κ ε β} {g₁' : Grammar (S.withRules Rule) κ ε β₁}
      (h : SameShape named g g') (h₁ : SameShape named g₁ g₁') :
      SameShape named (.choice g g₁) (.choice g' g₁')
  | orElse {κ ε α β} {g g₁ : Grammar S κ ε α} {g' g₁' : Grammar (S.withRules Rule) κ ε β}
      (h : SameShape named g g') (h₁ : SameShape named g₁ g₁') :
      SameShape named (.orElse g g₁) (.orElse g' g₁')
  | optional {κ ε α β} {g : Grammar S κ ε α} {g' : Grammar (S.withRules Rule) κ ε β}
      (h : SameShape named g g') : SameShape named (.optional g) (.optional g')
  | many {κ ε α β} {g : Grammar S κ ε α} {g' : Grammar (S.withRules Rule) κ ε β}
      (h : SameShape named g g') : SameShape named (.many g) (.many g')
  | many1 {κ ε α β} {g : Grammar S κ ε α} {g' : Grammar (S.withRules Rule) κ ε β}
      (h : SameShape named g g') : SameShape named (.many1 g) (.many1 g')

/-- The grammars differ at most in their values, and so do the rules that they lead to. -/
def DifferInValues (rules : Rules S) (rules' : Rules (S.withRules Rule)) {κ : S.Kind} {ε α β : Type}
    (g : Grammar S κ ε α) (g' : Grammar (S.withRules Rule) κ ε β) : Prop :=
  ∃ named : ∀ κ ε α β, S.Rule κ ε α → Rule κ ε β → Prop,
    (∀ {κ ε α β} {r : S.Rule κ ε α} {r' : Rule κ ε β}, named κ ε α β r r' →
      SameShape named (rules κ ε α r) (rules' κ ε β r')) ∧ SameShape named g g'

end Grammar
end TracedParsers
