import TracedParsers.Proofs.Leaves
import TracedParsers.Proofs.Simulation

/-!
# Other representations of the input

Inputs `σ` may be shown by inputs of another type, `back` giving the one that shows an input and `into` the
input that it shows. A grammar can then be read on the other inputs in two ways: every leaf looks through
the representation, or the grammar as a whole does. Both do on `back s` what the grammar does on `s`, and
leave what shows the input that it leaves. Nothing is asked of other inputs than those that `back` gives.
-/

namespace TracedParsers

variable {σ σ' : Type} {ε α : Type} {into : σ' → σ} {back : σ → σ'}

theorem Parser.yields_through_back_iff (shows : ∀ s, into (back s) = s) {p : Parser σ ε α} {s : σ}
    {o' : Outcome σ' ε α} {t : Trace} :
    (p.through into back).Yields (back s) o' t ↔ ∃ o, p.Yields s o t ∧ o' = o.mapRest back := by
  rw [yields_through, shows]

namespace Grammar

variable {Leaf Rule : Type → Type → Type} {leaf : ∀ {ε α}, Leaf ε α → Parser σ ε α}
  {rules : Rules (.ofLeaves Leaf Rule)} {g : Grammar (.ofLeaves Leaf Rule) () ε α} {s : σ} {t : Trace}

theorem yields_of_leaves_through (shows : ∀ s, into (back s) = s) {o' : Outcome σ' ε α}
    (h : (g.parser (.ofLeaves σ' fun l => (leaf l).through into back) rules).Yields (back s) o' t) :
    ∃ o, (g.parser (.ofLeaves σ leaf) rules).Yields s o t ∧ o' = o.mapRest back :=
  (yields_image_iff (.ofLeaves σ leaf) (.ofLeaves σ' fun l => (leaf l).through into back) Signature.noViews
    (fun _ => back) fun _ => Parser.yields_through_back_iff shows).mp h

theorem yields_leaves_through (shows : ∀ s, into (back s) = s) {o : Outcome σ ε α}
    (h : (g.parser (.ofLeaves σ leaf) rules).Yields s o t) :
    (g.parser (.ofLeaves σ' fun l => (leaf l).through into back) rules).Yields (back s) (o.mapRest back) t :=
  (yields_image_iff (.ofLeaves σ leaf) (.ofLeaves σ' fun l => (leaf l).through into back) Signature.noViews
    (fun _ => back) fun _ => Parser.yields_through_back_iff shows).mpr ⟨o, h, rfl⟩

/-- Looking through a representation at every leaf and looking through it once at the root are the same on
    inputs that show something: both do what the grammar does on the input that is shown, ending where
    it ends, with its value or error and its trace, and leave what shows the input that it leaves. -/
theorem yields_through_leaves_or_root (leaf : ∀ {ε α}, Leaf ε α → Parser σ ε α)
    (rules : Rules (.ofLeaves Leaf Rule)) (g : Grammar (.ofLeaves Leaf Rule) () ε α) (into : σ' → σ)
    (back : σ → σ') (shows : ∀ s, into (back s) = s) (s : σ) (o' : Outcome σ' ε α) (t : Trace) :
    ((g.parser (.ofLeaves σ' fun l => (leaf l).through into back) rules).Yields (back s) o' t ↔
      ∃ o, (g.parser (.ofLeaves σ leaf) rules).Yields s o t ∧ o' = o.mapRest back) ∧
    (((g.parser (.ofLeaves σ leaf) rules).through into back).Yields (back s) o' t ↔
      ∃ o, (g.parser (.ofLeaves σ leaf) rules).Yields s o t ∧ o' = o.mapRest back) := by
  refine ⟨⟨yields_of_leaves_through shows, ?_⟩, Parser.yields_through_back_iff shows⟩
  rintro ⟨o, h, rfl⟩
  exact yields_leaves_through shows h

/-- A row of one character behind a sign that may be missing. -/
def signedRow (sign c : Char) : Grammar (.text fun _ _ => Empty) () (MatchError Char) (Option Char × List Char) :=
  .seq (.optional (.ofText (.char sign))) (.many (.ofText (.char c)))

def counted (s : Text) : Nat × Text := (s.chars.length, s)

/-- A text with its number of characters: the sign is missing, and the attempt to read it leaves the count
    as it was. -/
theorem yields_signedRow_counted :
    (∀ s, Prod.snd (counted s) = s) ∧
      ((signedRow '-' 'a').parser (.ofLeaves (Nat × Text) fun l => l.parser.through Prod.snd counted)
        .none).Yields (3, .ofString "aab") (.success (none, ['a', 'a']) (1, .ofString "b"))
        [.fallback, .stopped 2] ∧
      (((signedRow '-' 'a').parser .text .none).through Prod.snd counted).Yields (3, .ofString "aab")
        (.success (none, ['a', 'a']) (1, .ofString "b")) [.fallback, .stopped 2] := by
  have hshows (s : Text) : Prod.snd (counted s) = s := rfl
  have hsign : Derives .text .none (.optional (.ofText (.char '-'))) (.ofList ['a', 'a', 'b'])
      (.success none (.ofList ['a', 'a', 'b'])) ([] ++ [.fallback]) :=
    .optional_none (.leaf (TextLeaf.yields_char_other '-' 'a' ['a', 'b'] rfl))
  have hend : Derives .text .none (.many (.ofText (.char 'a'))) (.ofList ['b'])
      (.success [] (.ofList ['b'])) ([] ++ [.stopped 0]) :=
    .many_nil (.leaf (TextLeaf.yields_char_other 'a' 'b' [] rfl))
  have hone : Derives .text .none (.many (.ofText (.char 'a'))) (.ofList ['a', 'b'])
      (.success ['a'] (.ofList ['b'])) ([] ++ [] ++ [.stopped 1]) :=
    .many_cons (.leaf (TextLeaf.yields_char 'a' ['b'])) hend
  have hrow : Derives .text .none (.many (.ofText (.char 'a'))) (.ofList ['a', 'a', 'b'])
      (.success ['a', 'a'] (.ofList ['b'])) ([] ++ [] ++ [.stopped 2]) :=
    .many_cons (.leaf (TextLeaf.yields_char 'a' ['a', 'b'])) hone
  have hread := (Derives.seq_success hsign hrow).yields
  obtain ⟨hleaves, hroot⟩ := yields_through_leaves_or_root TextLeaf.parser .none (signedRow '-' 'a') Prod.snd
    counted hshows (.ofString "aab") (.success (none, ['a', 'a']) (1, .ofString "b")) [.fallback, .stopped 2]
  exact ⟨hshows, hleaves.mpr ⟨_, hread, rfl⟩, hroot.mpr ⟨_, hread, rfl⟩⟩

end Grammar
end TracedParsers
