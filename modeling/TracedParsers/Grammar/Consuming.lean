import TracedParsers.Grammar.Calls
import TracedParsers.Grammar.Leaves

/-!
# Consuming grammars

A grammar is consuming when its form alone shows that no success leaves the whole input. It is bounded when
only consuming grammars are repeated and no rule leads back to itself. Both look into the rules that a grammar
leads to, and a view stands in the way of both.
-/

namespace TracedParsers

/-- Every matcher of texts reads something, but for the literal of the empty text. -/
def TextLeaf.Consuming {ε α : Type} : TextLeaf ε α → Prop
  | literal wanted => wanted ≠ ""
  | _ => True

namespace Grammar

variable {S : Signature}

/-- No success leaves the whole input, as the form of the grammar shows, given the leaves for which none does. -/
inductive Consuming (leaves : ∀ κ ε α, S.Leaf κ ε α → Prop) (rules : Rules S) :
    {κ : S.Kind} → {ε α : Type} → Grammar S κ ε α → Prop where
  | leaf {κ ε α} {l : S.Leaf κ ε α} (h : leaves κ ε α l) : Consuming leaves rules (.leaf l)
  | rule {κ ε α} {r : S.Rule κ ε α} (h : Consuming leaves rules (rules κ ε α r)) :
      Consuming leaves rules (.rule r)
  | fail {κ ε α} {e : ε} : Consuming leaves rules (.fail e : Grammar S κ ε α)
  | map {κ ε α β} {f : α → β} {g : Grammar S κ ε α} (h : Consuming leaves rules g) :
      Consuming leaves rules (.map f g)
  | mapError {κ ε ε' α} {f : ε → ε'} {g : Grammar S κ ε α} (h : Consuming leaves rules g) :
      Consuming leaves rules (.mapError f g)
  | validate {κ ε α β} {check : α → Except ε β} {g : Grammar S κ ε α} (h : Consuming leaves rules g) :
      Consuming leaves rules (.validate check g)
  -- Of a sequence one part is enough, of a choice both have to be consuming.
  | seq_first {κ ε α β} {g : Grammar S κ ε α} {h : Grammar S κ ε β} (hg : Consuming leaves rules g) :
      Consuming leaves rules (.seq g h)
  | seq_second {κ ε α β} {g : Grammar S κ ε α} {h : Grammar S κ ε β} (hh : Consuming leaves rules h) :
      Consuming leaves rules (.seq g h)
  | seqLeft_first {κ ε α β} {g : Grammar S κ ε α} {h : Grammar S κ ε β} (hg : Consuming leaves rules g) :
      Consuming leaves rules (.seqLeft g h)
  | seqLeft_second {κ ε α β} {g : Grammar S κ ε α} {h : Grammar S κ ε β} (hh : Consuming leaves rules h) :
      Consuming leaves rules (.seqLeft g h)
  | seqRight_first {κ ε α β} {g : Grammar S κ ε α} {h : Grammar S κ ε β} (hg : Consuming leaves rules g) :
      Consuming leaves rules (.seqRight g h)
  | seqRight_second {κ ε α β} {g : Grammar S κ ε α} {h : Grammar S κ ε β} (hh : Consuming leaves rules h) :
      Consuming leaves rules (.seqRight g h)
  | choice {κ ε α β} {g : Grammar S κ ε α} {h : Grammar S κ ε β} (hg : Consuming leaves rules g)
      (hh : Consuming leaves rules h) : Consuming leaves rules (.choice g h)
  | orElse {κ ε α} {g h : Grammar S κ ε α} (hg : Consuming leaves rules g) (hh : Consuming leaves rules h) :
      Consuming leaves rules (.orElse g h)
  | many1 {κ ε α} {g : Grammar S κ ε α} (h : Consuming leaves rules g) : Consuming leaves rules (.many1 g)

/-- Only consuming grammars are repeated, and no rule leads back to itself. -/
inductive Bounded (leaves : ∀ κ ε α, S.Leaf κ ε α → Prop) (rules : Rules S) :
    {κ : S.Kind} → {ε α : Type} → Grammar S κ ε α → Prop where
  | leaf {κ ε α} {l : S.Leaf κ ε α} : Bounded leaves rules (.leaf l)
  | rule {κ ε α} {r : S.Rule κ ε α} (h : Bounded leaves rules (rules κ ε α r)) :
      Bounded leaves rules (.rule r)
  | pure {κ ε α} {a : α} : Bounded leaves rules (.pure a : Grammar S κ ε α)
  | fail {κ ε α} {e : ε} : Bounded leaves rules (.fail e : Grammar S κ ε α)
  | map {κ ε α β} {f : α → β} {g : Grammar S κ ε α} (h : Bounded leaves rules g) : Bounded leaves rules (.map f g)
  | mapError {κ ε ε' α} {f : ε → ε'} {g : Grammar S κ ε α} (h : Bounded leaves rules g) :
      Bounded leaves rules (.mapError f g)
  | validate {κ ε α β} {check : α → Except ε β} {g : Grammar S κ ε α} (h : Bounded leaves rules g) :
      Bounded leaves rules (.validate check g)
  | seq {κ ε α β} {g : Grammar S κ ε α} {h : Grammar S κ ε β} (hg : Bounded leaves rules g)
      (hh : Bounded leaves rules h) : Bounded leaves rules (.seq g h)
  | seqLeft {κ ε α β} {g : Grammar S κ ε α} {h : Grammar S κ ε β} (hg : Bounded leaves rules g)
      (hh : Bounded leaves rules h) : Bounded leaves rules (.seqLeft g h)
  | seqRight {κ ε α β} {g : Grammar S κ ε α} {h : Grammar S κ ε β} (hg : Bounded leaves rules g)
      (hh : Bounded leaves rules h) : Bounded leaves rules (.seqRight g h)
  | choice {κ ε α β} {g : Grammar S κ ε α} {h : Grammar S κ ε β} (hg : Bounded leaves rules g)
      (hh : Bounded leaves rules h) : Bounded leaves rules (.choice g h)
  | orElse {κ ε α} {g h : Grammar S κ ε α} (hg : Bounded leaves rules g) (hh : Bounded leaves rules h) :
      Bounded leaves rules (.orElse g h)
  | optional {κ ε α} {g : Grammar S κ ε α} (h : Bounded leaves rules g) : Bounded leaves rules (.optional g)
  | many {κ ε α} {g : Grammar S κ ε α} (h : Bounded leaves rules g) (consuming : Consuming leaves rules g) :
      Bounded leaves rules (.many g)
  | many1 {κ ε α} {g : Grammar S κ ε α} (h : Bounded leaves rules g) (consuming : Consuming leaves rules g) :
      Bounded leaves rules (.many1 g)

/-! ### What is said of the parts -/

variable {leaves : ∀ κ ε α, S.Leaf κ ε α → Prop} {rules : Rules S} {κ : S.Kind} {ε α ε' α' : Type}

/-- What makes a grammar consuming, said of its parts. -/
def ConsumingParts (leaves : ∀ κ ε α, S.Leaf κ ε α → Prop) (rules : Rules S) : Grammar S κ ε α → Prop
  | .leaf l => leaves κ ε α l
  | .rule r => Consuming leaves rules (rules κ ε α r)
  | .fail _ => True
  | .pure _ | .through _ _ | .optional _ | .many _ => False
  | .map _ g | .mapError _ g | .validate _ g | .many1 g => Consuming leaves rules g
  | .seq g h | .seqLeft g h | .seqRight g h => Consuming leaves rules g ∨ Consuming leaves rules h
  | .choice g h | .orElse g h => Consuming leaves rules g ∧ Consuming leaves rules h

theorem Consuming.parts {g : Grammar S κ ε α} (hg : Consuming leaves rules g) : ConsumingParts leaves rules g := by
  cases hg with
  | leaf h | rule h | map h | mapError h | validate h | many1 h => exact h
  | seq_first hg | seqLeft_first hg | seqRight_first hg => exact .inl hg
  | seq_second hh | seqLeft_second hh | seqRight_second hh => exact .inr hh
  | choice hg hh | orElse hg hh => exact ⟨hg, hh⟩
  | fail => trivial

/-- What makes a grammar bounded, said of its parts. -/
def BoundedParts (leaves : ∀ κ ε α, S.Leaf κ ε α → Prop) (rules : Rules S) : Grammar S κ ε α → Prop
  | .leaf _ | .pure _ | .fail _ => True
  | .rule r => Bounded leaves rules (rules κ ε α r)
  | .through _ _ => False
  | .map _ g | .mapError _ g | .validate _ g | .optional g => Bounded leaves rules g
  | .seq g h | .seqLeft g h | .seqRight g h => Bounded leaves rules g ∧ Bounded leaves rules h
  | .choice g h | .orElse g h => Bounded leaves rules g ∧ Bounded leaves rules h
  | .many g | .many1 g => Bounded leaves rules g ∧ Consuming leaves rules g

theorem Bounded.parts {g : Grammar S κ ε α} (hg : Bounded leaves rules g) : BoundedParts leaves rules g := by
  cases hg with
  | leaf | pure | fail => trivial
  | rule h | map h | mapError h | validate h | optional h => exact h
  | seq hg hh | seqLeft hg hh | seqRight hg hh | choice hg hh | orElse hg hh => exact ⟨hg, hh⟩
  | many h consuming | many1 h consuming => exact ⟨h, consuming⟩

/-- What is read on the way is bounded too. -/
theorem Calls.bounded {M : Model S} {g : Grammar S κ ε α} {c : Grammar S κ ε' α'} {s u : M.Input κ}
    (h : Calls M rules g s c u) (hg : Bounded leaves rules g) : Bounded leaves rules c := by
  induction h with
  | self => exact hg
  | rule _ ih | map _ ih | mapError _ ih | validate _ ih | optional _ ih => exact ih hg.parts
  | seq_first _ ih | seqLeft_first _ ih | seqRight_first _ ih | choice_first _ ih | orElse_first _ ih
  | many_first _ ih | many1_first _ ih => exact ih hg.parts.1
  | seq_second _ _ ih | seqLeft_second _ _ ih | seqRight_second _ _ ih | choice_second _ _ ih
  | orElse_second _ _ ih => exact ih hg.parts.2
  | many_next _ _ ih => exact ih hg
  | many1_next _ _ ih =>
    obtain ⟨hg, consuming⟩ := hg.parts
    exact ih (.many hg consuming)

end Grammar
end TracedParsers
