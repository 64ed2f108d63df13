import TracedParsers.Grammar.Media
import TracedParsers.Proofs.Extension
import TracedParsers.Proofs.Remainder

/-!
# Only suffixes are read

Whatever a grammar over inputs of any sort does, it does on suffixes of its input: a success leaves one, and
every part that is read on the way is read on one, also where its result is given up later. Only behind a
view other inputs are read. A number is read by its digits, and each of these is read on a suffix too.
-/

namespace TracedParsers
namespace Grammar

section
variable {U : Media} {Rule : U.Kind → Type → Type → Type}

/-- No leaf and no view gives back anything but a suffix of what it was given. -/
theorem media_shrinks :
    Shrinks (Media.model : Model (U.signature Rule)) fun κ => Suffixed.IsSuffix (σ := κ.Input) where
  refl {κ} := Suffixed.refl (σ := κ.Input)
  trans {κ _ _ _} := Suffixed.trans (σ := κ.Input)
  leaf {_ _ _ l _ o _} h := by
    cases l with
    | text l => exact TextLeaf.leaves_suffix h
    | token l => exact TokenLeaf.leaves_suffix h
    | reader p =>
      cases o with
      | success a r => exact p.isSuffix h
      | failure e => trivial
  view {_ _ v _ _} := v.isSuffix

/-- Successes leave suffixes, and every part that is read on the way, the digits of a number included, is
    read on a suffix. -/
theorem reads_only_suffixes (U : Media) {Rule : U.Kind → Type → Type → Type}
    (rules : Rules (U.signature Rule)) :
    (∀ {κ : U.Kind} {ε α : Type} (g : Grammar (U.signature Rule) κ ε α) (s : κ.Input),
      (∀ (a : α) (r : κ.Input) (t : Trace), (g.parser Media.model rules).Yields s (.success a r) t →
        Suffixed.IsSuffix r s) ∧
      ∀ {ε' α' : Type} (c : Grammar (U.signature Rule) κ ε' α') (u : κ.Input),
        Calls Media.model rules g s c u → Suffixed.IsSuffix u s) ∧
    ∀ {ε α ε₁ α₁ ε₂ α₂ : Type} (g : Grammar (U.signature Rule) .text ε α) (s u v : Text)
      (l : TextLeaf ε₁ α₁) (c : Grammar (.text fun _ _ => Empty) () ε₂ α₂),
        Calls Media.model rules g s (.leaf (.text l)) u → Calls .text .none (parts l) u c v →
          Source.IsSuffix v s := by
  constructor
  · intro κ ε α g s
    constructor
    · intro a r t h
      exact (derives_of_yields h).leaves media_shrinks
    · intro ε' α' c u h
      exact h.input_le media_shrinks
  · intro ε α ε₁ α₁ ε₂ α₂ g s u v l c hl hc
    have hu : Source.IsSuffix u s := hl.input_le media_shrinks
    have hv : Source.IsSuffix v u := hc.input_le text_shrinks
    exact hv.trans hu

end

/-! ### A view that skips blanks -/

def texts : Media where
  TokenSort := Empty
  Token := nofun
  beq := nofun
  inspect := nofun
  OtherSort := Empty
  Input := nofun
  suffixed := nofun

/-- Matchers, readers and views of texts, and no rules. -/
abbrev readingTexts : Signature := texts.signature fun _ _ _ => Empty

abbrev ReadingTexts (α : Type) : Type 1 := Grammar readingTexts .text (MatchError Char) α

def textRules : Rules readingTexts := fun _ _ _ r => nomatch r

def char (c : Char) : ReadingTexts Char := .leaf (.text (.char c))

/-- Looks at a text without the blanks in front of it. -/
def skipBlanks : SuffixView Text Text where
  into s := .ofList (s.chars.dropWhile (· == ' '))
  back r := r
  isSuffix {s _} hr := Source.IsSuffix.trans hr (List.dropWhile_suffix (l := s.chars) _)

def remaining : SuffixReader Text (MatchError Char) (List Char) :=
  .ofFn (fun s => .ok (s.chars, .empty)) fun h => by
    cases h
    exact List.nil_suffix

def behindBlanks : ReadingTexts (List Char) :=
  @through readingTexts .text .text _ _ skipBlanks (.leaf (.reader remaining))

/-- A blank and the character `c`, or else all that stands behind the blanks. -/
def blankThen (c : Char) : ReadingTexts (Char × Char ⊕ List Char) :=
  .choice (.seq (char ' ') (char c)) behindBlanks

/-- The character behind the blank is another one, so the reading is given up and the view skips the
    blank. -/
theorem reads_only_suffixes_blankThen :
    ((blankThen 'b').parser Media.model textRules).Yields (.ofString " ac")
        (.success (.inr ['a', 'c']) .empty) [.fallback] ∧
      Source.IsSuffix Text.empty (.ofString " ac") ∧
      Calls Media.model textRules (blankThen 'b') (.ofString " ac") (char 'b') (.ofString "ac") ∧
      Source.IsSuffix (Text.ofString "ac") (.ofString " ac") := by
  have hblank : Derives Media.model textRules (char ' ') (.ofList [' ', 'a', 'c'])
      (.success ' ' (.ofList ['a', 'c'])) [] :=
    .leaf (TextLeaf.yields_char ' ' ['a', 'c'])
  have hother : Derives Media.model textRules (char 'b') (.ofList ['a', 'c'])
      (.failure (.unexpected (inspect 'b') 'a')) [] :=
    .leaf (TextLeaf.yields_char_other 'b' 'a' ['c'] rfl)
  have hremaining : Derives Media.model textRules (.leaf (.reader remaining) : ReadingTexts (List Char))
      (.ofList ['a', 'c']) (.success ['a', 'c'] .empty) [] :=
    .leaf (Parser.yields_ofFn.mpr ⟨rfl, rfl⟩)
  have hbehind : Derives Media.model textRules behindBlanks (.ofList [' ', 'a', 'c'])
      (.success ['a', 'c'] .empty) [] :=
    @Derives.through readingTexts Media.model textRules .text .text _ _ skipBlanks _ (.ofList [' ', 'a', 'c'])
      (.success ['a', 'c'] Text.empty) _ hremaining
  have hyields := (Derives.choice_right (.seq_success hblank hother) hbehind).yields
  have hcall : Calls Media.model textRules (blankThen 'b') (.ofString " ac") (char 'b') (.ofString "ac") :=
    .choice_first (.seq_second hblank .self)
  obtain ⟨hleaves, hcalls⟩ := (reads_only_suffixes texts textRules).1 (blankThen 'b') (.ofString " ac")
  exact ⟨hyields, hleaves _ _ _ hyields, hcall, hcalls _ _ hcall⟩

end Grammar
end TracedParsers
