import TracedParsers.Grammar.Derivation

/-!
# Calls

Reading a grammar on an input means reading its parts, each on an input of its own, also those parts
whose result is given up later. `Calls M rules g s g' s'` says that reading `g` on `s` involves reading
`g'` on `s'`, whether or not either reading ends. Parts behind a view are left out, since they read
other inputs.
-/

namespace TracedParsers
namespace Grammar

variable {S : Signature}

/-- The readings that the reading of a grammar is made of, itself included. -/
inductive Calls (M : Model S) (rules : Rules S) {κ : S.Kind} :
    {ε α : Type} → Grammar S κ ε α → M.Input κ → {ε' α' : Type} → Grammar S κ ε' α' → M.Input κ → Prop where
  | self {ε α} {g : Grammar S κ ε α} {s} : Calls M rules g s g s
  | rule {ε α ε' α'} {n : S.Rule κ ε α} {c : Grammar S κ ε' α'} {s s'}
      (h : Calls M rules (rules κ ε α n) s c s') : Calls M rules (.rule n) s c s'
  | map {ε α β ε' α'} {f : α → β} {g : Grammar S κ ε α} {c : Grammar S κ ε' α'} {s s'}
      (h : Calls M rules g s c s') : Calls M rules (.map f g) s c s'
  | mapError {ε ε₁ α ε' α'} {f : ε → ε₁} {g : Grammar S κ ε α} {c : Grammar S κ ε' α'} {s s'}
      (h : Calls M rules g s c s') : Calls M rules (.mapError f g) s c s'
  | validate {ε α β ε' α'} {check : α → Except ε β} {g : Grammar S κ ε α} {c : Grammar S κ ε' α'} {s s'}
      (h : Calls M rules g s c s') : Calls M rules (.validate check g) s c s'
  | seq_first {ε α β ε' α'} {g : Grammar S κ ε α} {h : Grammar S κ ε β} {c : Grammar S κ ε' α'} {s s'}
      (hg : Calls M rules g s c s') : Calls M rules (.seq g h) s c s'
  -- A second part is read on what the first leaves, or after a failure on the same input.
  | seq_second {ε α β ε' α'} {g : Grammar S κ ε α} {h : Grammar S κ ε β} {c : Grammar S κ ε' α'}
      {s r s' a t} (hg : Derives M rules g s (.success a r) t) (hh : Calls M rules h r c s') :
      Calls M rules (.seq g h) s c s'
  | seqLeft_first {ε α β ε' α'} {g : Grammar S κ ε α} {h : Grammar S κ ε β} {c : Grammar S κ ε' α'}
      {s s'} (hg : Calls M rules g s c s') : Calls M rules (.seqLeft g h) s c s'
  | seqLeft_second {ε α β ε' α'} {g : Grammar S κ ε α} {h : Grammar S κ ε β} {c : Grammar S κ ε' α'}
      {s r s' a t} (hg : Derives M rules g s (.success a r) t) (hh : Calls M rules h r c s') :
      Calls M rules (.seqLeft g h) s c s'
  | seqRight_first {ε α β ε' α'} {g : Grammar S κ ε α} {h : Grammar S κ ε β} {c : Grammar S κ ε' α'}
      {s s'} (hg : Calls M rules g s c s') : Calls M rules (.seqRight g h) s c s'
  | seqRight_second {ε α β ε' α'} {g : Grammar S κ ε α} {h : Grammar S κ ε β} {c : Grammar S κ ε' α'}
      {s r s' a t} (hg : Derives M rules g s (.success a r) t) (hh : Calls M rules h r c s') :
      Calls M rules (.seqRight g h) s c s'
  | choice_first {ε α β ε' α'} {g : Grammar S κ ε α} {h : Grammar S κ ε β} {c : Grammar S κ ε' α'}
      {s s'} (hg : Calls M rules g s c s') : Calls M rules (.choice g h) s c s'
  | choice_second {ε α β ε' α'} {g : Grammar S κ ε α} {h : Grammar S κ ε β} {c : Grammar S κ ε' α'}
      {s s' e t} (hg : Derives M rules g s (.failure e) t) (hh : Calls M rules h s c s') :
      Calls M rules (.choice g h) s c s'
  | orElse_first {ε α ε' α'} {g h : Grammar S κ ε α} {c : Grammar S κ ε' α'} {s s'}
      (hg : Calls M rules g s c s') : Calls M rules (.orElse g h) s c s'
  | orElse_second {ε α ε' α'} {g h : Grammar S κ ε α} {c : Grammar S κ ε' α'} {s s' e t}
      (hg : Derives M rules g s (.failure e) t) (hh : Calls M rules h s c s') :
      Calls M rules (.orElse g h) s c s'
  | optional {ε α ε' α'} {g : Grammar S κ ε α} {c : Grammar S κ ε' α'} {s s'}
      (h : Calls M rules g s c s') : Calls M rules (.optional g) s c s'
  | many_first {ε α ε' α'} {g : Grammar S κ ε α} {c : Grammar S κ ε' α'} {s s'}
      (h : Calls M rules g s c s') : Calls M rules (.many g) s c s'
  -- The attempts after a success are those of the repetition on what the success leaves.
  | many_next {ε α ε' α'} {g : Grammar S κ ε α} {c : Grammar S κ ε' α'} {s r s' a t}
      (hg : Derives M rules g s (.success a r) t) (hm : Calls M rules (.many g) r c s') :
      Calls M rules (.many g) s c s'
  | many1_first {ε α ε' α'} {g : Grammar S κ ε α} {c : Grammar S κ ε' α'} {s s'}
      (h : Calls M rules g s c s') : Calls M rules (.many1 g) s c s'
  | many1_next {ε α ε' α'} {g : Grammar S κ ε α} {c : Grammar S κ ε' α'} {s r s' a t}
      (hg : Derives M rules g s (.success a r) t) (hm : Calls M rules (.many g) r c s') :
      Calls M rules (.many1 g) s c s'

/-- The readings that belong to the parts of a grammar. -/
def PartCalls (M : Model S) (rules : Rules S) {κ : S.Kind} {ε α : Type} (g : Grammar S κ ε α) (s : M.Input κ)
    {ε' α' : Type} (c : Grammar S κ ε' α') (s' : M.Input κ) : Prop :=
  match g with
  | .leaf _ | .pure _ | .fail _ | .through _ _ => False
  | .rule n => Calls M rules (rules κ ε α n) s c s'
  | .map _ g | .mapError _ g | .validate _ g | .optional g => Calls M rules g s c s'
  | .seq g h | .seqLeft g h | .seqRight g h =>
    Calls M rules g s c s' ∨ ∃ a r t, Derives M rules g s (.success a r) t ∧ Calls M rules h r c s'
  | .choice g h | .orElse g h =>
    Calls M rules g s c s' ∨ ∃ e t, Derives M rules g s (.failure e) t ∧ Calls M rules h s c s'
  | .many g | .many1 g =>
    Calls M rules g s c s' ∨
      ∃ a r t, Derives M rules g s (.success a r) t ∧ Calls M rules (.many g) r c s'

/-- A reading is the whole reading or belongs to a part. -/
theorem Calls.self_or_part {M : Model S} {rules : Rules S} {κ : S.Kind} {ε α ε' α' : Type}
    {g : Grammar S κ ε α} {c : Grammar S κ ε' α'} {s s' : M.Input κ} (h : Calls M rules g s c s') :
    (⟨ε', α', c, s'⟩ : (ε : Type) × (α : Type) × Grammar S κ ε α × M.Input κ) = ⟨ε, α, g, s⟩ ∨
      PartCalls M rules g s c s' := by
  cases h with
  | self => exact .inl rfl
  | rule h | map h | mapError h | validate h | optional h => exact .inr h
  | seq_first h | seqLeft_first h | seqRight_first h => exact .inr (.inl h)
  | choice_first h | orElse_first h => exact .inr (.inl h)
  | many_first h | many1_first h => exact .inr (.inl h)
  | seq_second hg hh | seqLeft_second hg hh | seqRight_second hg hh => exact .inr (.inr ⟨_, _, _, hg, hh⟩)
  | choice_second hg hh | orElse_second hg hh => exact .inr (.inr ⟨_, _, hg, hh⟩)
  | many_next hg hm | many1_next hg hm => exact .inr (.inr ⟨_, _, _, hg, hm⟩)

end Grammar
end TracedParsers
