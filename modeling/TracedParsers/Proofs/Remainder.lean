import TracedParsers.Grammar.Calls
import TracedParsers.Proofs.Leaves

/-!
# What is left of an input

If no leaf and no view ever gives back more than it was given, by some order on inputs, then no grammar
does, and every part that is read on the way is read on an input below the first one. The matchers leave
a suffix of what they are given.
-/

namespace TracedParsers

/-- If it succeeds, what it leaves is as stated. -/
def Outcome.Leaves {σ ε α : Type} (P : σ → Prop) : Outcome σ ε α → Prop
  | .success _ rest => P rest
  | .failure _ => True

namespace Outcome

variable {σ σ' ε ε' α β : Type} {P Q : σ → Prop}

@[simp] theorem leaves_map {o : Outcome σ ε α} {f : α → β} : (o.map f).Leaves P ↔ o.Leaves P := by
  cases o <;> rfl

@[simp] theorem leaves_mapError {o : Outcome σ ε α} {f : ε → ε'} :
    (o.mapError f).Leaves P ↔ o.Leaves P := by
  cases o <;> rfl

theorem Leaves.imp {o : Outcome σ ε α} (h : o.Leaves P) (hPQ : ∀ r, P r → Q r) : o.Leaves Q := by
  cases o with
  | success a r => exact hPQ r h
  | failure e => trivial

theorem Leaves.mapRest {P : σ' → Prop} {o : Outcome σ ε α} {f : σ → σ'} (h : o.Leaves fun r => P (f r)) :
    (o.mapRest f).Leaves P := by
  cases o with
  | success a r => exact h
  | failure e => trivial

end Outcome

namespace Grammar

variable {S : Signature} {M : Model S} {rules : Rules S}

/-- An order on the inputs of each kind by which no leaf and no view gives back more than it was given. -/
structure Shrinks (M : Model S) (le : ∀ κ, M.Input κ → M.Input κ → Prop) : Prop where
  refl : ∀ {κ} (s : M.Input κ), le κ s s
  trans : ∀ {κ} {q r s : M.Input κ}, le κ q r → le κ r s → le κ q s
  leaf : ∀ {κ ε α} {l : S.Leaf κ ε α} {s o t}, (M.leaf l).Yields s o t → o.Leaves (le κ · s)
  view : ∀ {κ κ'} {v : S.View κ κ'} {s r}, le κ' r (M.into v s) → le κ (M.back v r) s

variable {le : ∀ κ, M.Input κ → M.Input κ → Prop} {κ : S.Kind} {ε α ε' α' : Type}

theorem Derives.leaves (sh : Shrinks M le) {g : Grammar S κ ε α} {s : M.Input κ} {o t}
    (h : Derives M rules g s o t) : o.Leaves (le κ · s) := by
  induction h with
  | leaf h => exact sh.leaf h
  | rule _ ih => exact ih
  | pure => exact sh.refl _
  | fail => trivial
  | map _ ih => exact Outcome.leaves_map.mpr ih
  | mapError _ ih => exact Outcome.leaves_mapError.mpr ih
  | through _ ih => exact (ih.imp fun _ => sh.view).mapRest
  | validate_failure => trivial
  | validate_ok _ _ ih => exact ih
  | validate_error => trivial
  | seq_failure => trivial
  | seq_success _ _ ihg ihh => exact Outcome.leaves_map.mpr (ihh.imp fun _ hr => sh.trans hr ihg)
  | seqLeft_failure => trivial
  | seqLeft_success _ _ ihg ihh => exact Outcome.leaves_map.mpr (ihh.imp fun _ hr => sh.trans hr ihg)
  | seqRight_failure => trivial
  | seqRight_success _ _ ihg ihh => exact ihh.imp fun _ hr => sh.trans hr ihg
  | choice_left _ ih => exact ih
  | choice_right _ _ _ ihh => exact Outcome.leaves_map.mpr ihh
  | orElse_left _ ih => exact ih
  | orElse_right _ _ _ ihh => exact ihh
  | optional_some _ ih => exact ih
  | optional_none => exact sh.refl _
  | many_nil => exact sh.refl _
  | many_cons _ _ ihg ihm => exact sh.trans ihm ihg
  | many1_failure => trivial
  | many1_success _ _ ihg ihm => exact sh.trans ihm ihg

/-- A part is read on an input below that of the whole. -/
theorem Calls.input_le (sh : Shrinks M le) {g : Grammar S κ ε α} {c : Grammar S κ ε' α'} {s s' : M.Input κ}
    (h : Calls M rules g s c s') : le κ s' s := by
  -- Whatever a first part leaves is below its input, and the calls of the second part are below that.
  have next {ε α : Type} {g : Grammar S κ ε α} {s r s' : M.Input κ} {a t}
      (hg : Derives M rules g s (.success a r) t) (hs' : le κ s' r) : le κ s' s :=
    sh.trans hs' (hg.leaves sh)
  induction h with
  | self => exact sh.refl _
  | rule _ ih | map _ ih | mapError _ ih | validate _ ih | seq_first _ ih | seqLeft_first _ ih
  | seqRight_first _ ih | choice_first _ ih | choice_second _ _ ih | orElse_first _ ih
  | orElse_second _ _ ih | optional _ ih | many_first _ ih | many1_first _ ih => exact ih
  | seq_second hg _ ih | seqLeft_second hg _ ih | seqRight_second hg _ ih | many_next hg _ ih
  | many1_next hg _ ih => exact next hg ih

end Grammar

/-! ### The matchers -/

section Matchers
variable {ε α : Type} {t : Trace}

theorem Matcher.ReadsElement.suffix {τ : Type} {test : τ → Bool} {expected : String} {xs : List τ}
    {o : Outcome (List τ) (MatchError τ) τ} (h : ReadsElement test expected xs o t) :
    o.Leaves (· <:+ xs) := by
  cases h with
  | success => exact List.suffix_cons _ _
  | other => trivial
  | atEnd => trivial

theorem Matcher.ReadsLiteral.suffix {wanted : String} {cs : List Char}
    {o : Outcome (List Char) (MatchError Char) String} (h : ReadsLiteral wanted cs o t) :
    o.Leaves (· <:+ cs) := by
  cases h with
  | success => exact List.suffix_append _ _
  | other => trivial
  | atEnd => trivial

theorem Matcher.ReadsUnsigned.suffix {cs : List Char} {o : Outcome (List Char) (MatchError Char) UInt64}
    (h : ReadsUnsigned cs o t) : o.Leaves (· <:+ cs) := by
  cases h with
  | value => exact List.dropWhile_suffix _
  | tooLarge => trivial
  | other => trivial
  | atEnd => trivial

theorem TextLeaf.Reads.suffix {l : TextLeaf ε α} {cs : List Char} {o : Outcome (List Char) ε α}
    (h : l.Reads cs o t) : o.Leaves (· <:+ cs) := by
  cases l with
  | anyChar => exact Matcher.ReadsElement.suffix h
  | char wanted => exact Matcher.ReadsElement.suffix h
  | charIf test expected => exact Matcher.ReadsElement.suffix h
  | digit =>
    obtain ⟨o', h', rfl⟩ := h
    exact Outcome.leaves_map.mpr h'.suffix
  | literal wanted => exact Matcher.ReadsLiteral.suffix h
  | unsigned => exact Matcher.ReadsUnsigned.suffix h

theorem TextLeaf.leaves_suffix {l : TextLeaf ε α} {s : Text} {o : Outcome Text ε α}
    (h : l.parser.Yields s o t) : o.Leaves (Source.IsSuffix · s) := by
  have hr := (l.yields_iff.mp h).suffix
  cases o with
  | success a r => exact hr
  | failure e => trivial

theorem TokenLeaf.leaves_suffix {τ : Type} [BEq τ] [Inspect τ] {l : TokenLeaf τ ε α} {xs : List τ}
    {o : Outcome (List τ) ε α} (h : l.parser.Yields xs o t) : o.Leaves (Source.IsSuffix · xs) := by
  have hreads := l.yields_iff.mp h
  cases l with
  | anyToken => exact Matcher.ReadsElement.suffix hreads
  | token wanted => exact Matcher.ReadsElement.suffix hreads
  | tokenIf test expected => exact Matcher.ReadsElement.suffix hreads

end Matchers

/-! ### Grammars of matchers -/

namespace Grammar

variable {Rule : Type → Type → Type}

theorem text_shrinks : Shrinks (.text : Model (.text Rule)) fun _ => Source.IsSuffix (σ := Text) where
  refl := Source.IsSuffix.refl (σ := Text)
  trans := Source.IsSuffix.trans (σ := Text)
  leaf := TextLeaf.leaves_suffix
  view {_ _ v} := nomatch v

theorem tokens_shrinks {τ : Type} [BEq τ] [Inspect τ] :
    Shrinks (.tokens τ : Model (.tokens τ Rule)) fun _ => Source.IsSuffix (σ := List τ) where
  refl := Source.IsSuffix.refl (σ := List τ)
  trans := Source.IsSuffix.trans (σ := List τ)
  leaf := TokenLeaf.leaves_suffix
  view {_ _ v} := nomatch v

end Grammar
end TracedParsers
