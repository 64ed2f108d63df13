import TracedParsers.Proofs.Remainder
import TracedParsers.Proofs.Simulation

/-!
# Reading by offsets

A grammar of texts that is read over the byte offsets of a text does what it does on the text itself, and
what it leaves is told by its offset. On the way no matcher is asked to read at an offset inside a
character or beyond the end of the text.
-/

namespace TracedParsers
namespace Text

/-- A character starts or the text ends at this offset. -/
def IsBoundary (s : Text) (offset : Nat) : Prop :=
  ∃ before rest, s = before ++ rest ∧ offset = before.utf8Size

theorem IsBoundary.le_utf8Size {s : Text} {offset : Nat} (h : s.IsBoundary offset) :
    offset ≤ s.utf8Size := by
  obtain ⟨before, rest, rfl, rfl⟩ := h
  exact Nat.le_add_right _ _

theorem suffixAt?_zero (s : Text) : s.suffixAt? 0 = some s :=
  suffixAt?_eq_some_iff.mpr ⟨.empty, Text.ext rfl, rfl⟩

theorem utf8Size_of_suffixAt? {s r : Text} {offset : Nat} (h : s.suffixAt? offset = some r) :
    s.utf8Size = offset + r.utf8Size := by
  obtain ⟨before, rfl, rfl⟩ := suffixAt?_eq_some_iff.mp h
  rfl

/-- What is left of the text at an offset stands at the offset that the sizes tell. -/
theorem suffixAt?_of_isSuffix {s r q : Text} {offset : Nat} (h : s.suffixAt? offset = some r)
    (hq : Source.IsSuffix q r) : s.suffixAt? (s.utf8Size - q.utf8Size) = some q := by
  obtain ⟨before, rfl, -⟩ := suffixAt?_eq_some_iff.mp h
  obtain ⟨middle, hr⟩ := hq
  obtain rfl : r = .ofList middle ++ q := Text.ext hr.symm
  refine suffixAt?_eq_some_iff.mpr ⟨before ++ .ofList middle, (append_assoc ..).symm, ?_⟩
  simp only [utf8Size_append]
  omega

end Text

namespace Grammar

variable {Rule : Type → Type → Type} {ε α : Type} {whole : Text}

/-- A matcher that starts at a boundary does on the offset what it does on the text that stands there. -/
theorem offsets_leaf {l : TextLeaf ε α} {s : Text} {offset : Nat} {o : Outcome Text ε α} {t : Trace}
    (hs : whole.suffixAt? offset = some s) (h : l.parser.Yields s o t) :
    ∃ o' : Outcome Nat ε α, ((.offsets whole : Model (.text Rule)).leaf (κ := ()) l).Yields offset o' t ∧
      o.Related (fun r n => whole.suffixAt? n = some r) o' := by
  refine ⟨o.mapRest fun r => whole.utf8Size - r.utf8Size, Parser.yields_through.mpr ⟨o, ?_, rfl⟩, ?_⟩
  · rwa [hs]
  · have hsuffix := TextLeaf.leaves_suffix h
    cases o with
    | success a r => exact .success (Text.suffixAt?_of_isSuffix hs hsuffix)
    | failure e => exact .failure

/-- From a boundary, matchers lead to boundaries. -/
theorem offsets_shrinks : Shrinks (.offsets whole : Model (.text Rule))
    fun _ m n => whole.IsBoundary n → whole.IsBoundary m where
  refl _ := id
  trans hqr hrs h := hqr (hrs h)
  leaf {_ _ _ l s o t} h := by
    obtain ⟨o', h', rfl⟩ := Parser.yields_through.mp h
    cases o' with
    | failure e => trivial
    | success a r =>
      intro hs
      obtain ⟨before, rest, hwhole, hn⟩ := hs
      have hrest : whole.suffixAt? s = some rest := Text.suffixAt?_eq_some_iff.mpr ⟨before, hwhole, hn⟩
      rw [hrest] at h'
      obtain ⟨before', hwhole', hn'⟩ :=
        Text.suffixAt?_eq_some_iff.mp (Text.suffixAt?_of_isSuffix hrest (TextLeaf.leaves_suffix h'))
      exact ⟨before', r, hwhole', hn'⟩
  view {_ _ v} := nomatch v

/-- Reading by offsets refines reading texts: it ends as the text does, at the offset of what the text
    leaves, and every matcher on the way is given a boundary of the whole text. -/
theorem read_by_offsets (rules : Rules (.text Rule)) (g : Grammar (.text Rule) () ε α) (whole : Text) :
    (∀ (o : Outcome Text ε α) (t : Trace), (g.parser .text rules).Yields whole o t →
      (g.parser (.offsets whole) rules).Yields (0 : Nat)
        (o.mapRest fun r => whole.utf8Size - r.utf8Size) t ∧
      ∀ a r, o = .success a r → r.utf8Size ≤ whole.utf8Size ∧
        whole.suffixAt? (whole.utf8Size - r.utf8Size) = some r) ∧
    ∀ {ε' α' : Type} (l : TextLeaf ε' α') (n : Nat),
      Calls (.offsets whole) rules g (0 : Nat) (.ofText l) n → n ≤ whole.utf8Size ∧ whole.IsBoundary n := by
  constructor
  · intro o t h
    have hleaves : LeavesFollow .text (.offsets whole) rules
        (fun _ (r : Text) (n : Nat) => whole.suffixAt? n = some r) g whole :=
      ⟨fun _ hs hl => offsets_leaf hs hl⟩
    have hsize (r : Text) (n : Nat) (hr : whole.suffixAt? n = some r) : n = whole.utf8Size - r.utf8Size :=
      Nat.eq_sub_of_add_eq (Text.utf8Size_of_suffixAt? hr).symm
    obtain ⟨h', ho⟩ :=
      yields_of_leavesFollow Signature.noViews h hleaves (Text.suffixAt?_zero whole) hsize
    refine ⟨h', ?_⟩
    rintro a r rfl
    cases ho with
    | success hr =>
      have hwhole := Text.utf8Size_of_suffixAt? hr
      exact ⟨by omega, hr⟩
  · intro ε' α' l n h
    have hzero : whole.IsBoundary 0 := ⟨.empty, whole, Text.ext rfl, rfl⟩
    have hn := h.input_le offsets_shrinks hzero
    exact ⟨hn.le_utf8Size, hn⟩

/-- An é with a b behind it, or else any character. -/
def accentOrAny : Grammar (.text fun _ _ => Empty) () (MatchError Char) Char :=
  .orElse (.seqLeft (.ofText (.char 'é')) (.ofText (.char 'b'))) (.ofText .anyChar)

/-- The first alternative reads the two bytes of é, so the b is looked for at the offset 2. There it gives up, and the
    second alternative reads at the offset 0 again. -/
theorem read_by_offsets_accent :
    (accentOrAny.parser .text .none).Yields (.ofString "éa") (.success 'é' (.ofString "a")) [.fallback] ∧
      (accentOrAny.parser (.offsets (.ofString "éa")) .none).Yields (0 : Nat) (.success 'é' (2 : Nat)) [.fallback] ∧
      (Text.ofString "éa").suffixAt? 2 = some (.ofString "a") ∧
      Calls (.offsets (.ofString "éa")) .none accentOrAny (0 : Nat) (.ofText (.char 'b')) (2 : Nat) ∧
      (Text.ofString "éa").IsBoundary 2 := by
  have haccent : (TextLeaf.char 'é').parser.Yields (.ofString "éa") (.success 'é' (.ofString "a")) [] :=
    TextLeaf.yields_char 'é' ['a']
  have hfirst : Derives .text .none (.ofText (.char 'é')) (.ofString "éa") (.success 'é' (.ofString "a")) [] :=
    .leaf haccent
  have hsecond : Derives .text .none (.ofText (.char 'b')) (.ofString "a")
      (.failure (.unexpected (inspect 'b') 'a')) [] := .leaf (TextLeaf.yields_char_other 'b' 'a' [] rfl)
  have hany : Derives .text .none (.ofText .anyChar) (.ofString "éa") (.success 'é' (.ofString "a")) [] :=
    .leaf ((TextLeaf.yields_iff .anyChar).mpr (.success rfl))
  have hread := (Derives.orElse_right (hfirst.seqLeft_success hsecond) hany).yields
  have hoffset : Derives (.offsets (.ofString "éa")) .none (.ofText (.char 'é')) (0 : Nat)
      (.success 'é' (2 : Nat)) [] := .leaf (Parser.yields_through.mpr ⟨_, haccent, rfl⟩)
  have hcall : Calls (.offsets (.ofString "éa")) .none accentOrAny (0 : Nat) (.ofText (.char 'b')) (2 : Nat) :=
    .orElse_first (.seqLeft_second hoffset .self)
  obtain ⟨hruns, hcalls⟩ := read_by_offsets .none accentOrAny (.ofString "éa")
  obtain ⟨hoffsets, hrest⟩ := hruns _ _ hread
  exact ⟨hread, hoffsets, (hrest _ _ rfl).2, hcall, (hcalls _ _ hcall).2⟩

end Grammar
end TracedParsers
