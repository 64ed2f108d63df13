import TracedParsers.Grammar.Nodes
import TracedParsers.Proofs.Extension
import TracedParsers.Proofs.Remainder
import TracedParsers.Token.Spanned

/-!
# Where errors come from

A grammar that maps no errors fails with the error of one of its nodes: of a leaf that fails, of a failure,
or of a check that refuses what its part has read. The node is read on the way, so on a suffix of the
input.
-/

namespace TracedParsers

/-! ### What the errors of matchers show -/

namespace Matcher

variable {τ : Type} {test : τ → Bool} {expected expected' reason : String} {found : τ} {xs : List τ} {t : Trace}

theorem ReadsElement.found_mem
    (h : ReadsElement test expected xs (.failure (.unexpected expected' found)) t) : found ∈ xs := by
  cases h with
  | other => exact List.mem_cons_self

theorem ReadsElement.not_invalid (h : ReadsElement test expected xs (.failure (.invalid reason)) t) : False :=
  nomatch h

theorem ReadsLiteral.found_mem {wanted : String} {cs : List Char} {found : Char}
    (h : ReadsLiteral wanted cs (.failure (.unexpected expected found)) t) : found ∈ cs := by
  cases h with
  | other => exact List.mem_append_right _ List.mem_cons_self

theorem ReadsUnsigned.found_mem {cs : List Char} {found : Char}
    (h : ReadsUnsigned cs (.failure (.unexpected expected found)) t) : found ∈ cs := by
  cases h with
  | other => exact List.mem_cons_self

theorem ReadsLiteral.not_invalid {wanted : String} {cs : List Char}
    (h : ReadsLiteral wanted cs (.failure (.invalid reason)) t) : False :=
  nomatch h

theorem ReadsUnsigned.of_invalid {cs : List Char} (h : ReadsUnsigned cs (.failure (.invalid reason)) t) :
    reason = "integer does not fit in u64" ∧
      UInt64.size ≤ decimal ((cs.takeWhile Char.isDigit).map digitValue) := by
  cases h with
  | tooLarge _ large => exact ⟨rfl, large⟩

end Matcher

-- A digit is shown as it was found, and only a success has its value taken.
theorem TextLeaf.Reads.digit_failure {cs : List Char} {e : MatchError Char} {t : Trace}
    (h : TextLeaf.digit.Reads cs (.failure e) t) :
    Matcher.ReadsElement Char.isDigit "ASCII digit" cs (.failure e) t := by
  obtain ⟨o, ho, heq⟩ := h
  have hfailure : o = .failure e := Outcome.map_eq_failure_iff.mp heq.symm
  rw [hfailure] at ho
  exact ho

theorem TextLeaf.Reads.found_mem {α : Type} {l : TextLeaf (MatchError Char) α} {cs : List Char}
    {expected : String} {found : Char} {t : Trace}
    (h : l.Reads cs (.failure (.unexpected expected found)) t) : found ∈ cs := by
  cases l with
  | anyChar => exact Matcher.ReadsElement.found_mem h
  | char wanted => exact Matcher.ReadsElement.found_mem h
  | charIf test expected => exact Matcher.ReadsElement.found_mem h
  | digit => exact h.digit_failure.found_mem
  | literal wanted => exact Matcher.ReadsLiteral.found_mem h
  | unsigned => exact Matcher.ReadsUnsigned.found_mem h

theorem TokenLeaf.Reads.found_mem {τ α : Type} [BEq τ] [Inspect τ] {l : TokenLeaf τ (MatchError τ) α}
    {xs : List τ} {expected : String} {found : τ} {t : Trace}
    (h : l.Reads xs (.failure (.unexpected expected found)) t) : found ∈ xs := by
  cases l with
  | anyToken => exact Matcher.ReadsElement.found_mem h
  | token wanted => exact Matcher.ReadsElement.found_mem h
  | tokenIf test expected => exact Matcher.ReadsElement.found_mem h

/-- The only matcher that finds a text invalid reads a number, and the number is too large. -/
theorem TextLeaf.Reads.of_invalid {α : Type} {l : TextLeaf (MatchError Char) α} {cs : List Char}
    {reason : String} {t : Trace} (h : l.Reads cs (.failure (.invalid reason)) t) :
    α = UInt64 ∧ l ≍ TextLeaf.unsigned ∧
      reason = "integer does not fit in u64" ∧
      UInt64.size ≤ Matcher.decimal ((cs.takeWhile Char.isDigit).map Matcher.digitValue) := by
  cases l with
  | anyChar => exact (Matcher.ReadsElement.not_invalid h).elim
  | char wanted => exact (Matcher.ReadsElement.not_invalid h).elim
  | charIf test expected => exact (Matcher.ReadsElement.not_invalid h).elim
  | digit => exact h.digit_failure.not_invalid.elim
  | literal wanted => exact (Matcher.ReadsLiteral.not_invalid h).elim
  | unsigned => exact ⟨rfl, .rfl, Matcher.ReadsUnsigned.of_invalid h⟩

theorem TokenLeaf.Reads.not_invalid {τ α : Type} [BEq τ] [Inspect τ] {l : TokenLeaf τ (MatchError τ) α}
    {xs : List τ} {reason : String} {t : Trace} (h : l.Reads xs (.failure (.invalid reason)) t) : False := by
  cases l with
  | anyToken => exact Matcher.ReadsElement.not_invalid h
  | token wanted => exact Matcher.ReadsElement.not_invalid h
  | tokenIf test expected => exact Matcher.ReadsElement.not_invalid h

namespace Grammar

variable {S : Signature}

/-- The node itself makes the error when it is read. -/
inductive Raises (M : Model S) (rules : Rules S) {κ : S.Kind} {ε : Type} :
    {α : Type} → Grammar S κ ε α → M.Input κ → ε → Prop where
  | leaf {α} {l : S.Leaf κ ε α} {u e t} (h : (M.leaf l).Yields u (.failure e) t) : Raises M rules (.leaf l) u e
  | fail {α u e} : Raises M rules (.fail e : Grammar S κ ε α) u e
  /-- The check refuses what its part has read. -/
  | check {α β} {check : α → Except ε β} {g : Grammar S κ ε α} {u r : M.Input κ} {a e t}
      (h : (g.parser M rules).Yields u (.success a r) t) (refused : check a = .error e) :
      Raises M rules (.validate check g) u e

variable {M : Model S} {rules : Rules S} {κ : S.Kind} {ε α α' : Type}

/-- A node that is read on the way makes the error. -/
def Originates (M : Model S) (rules : Rules S) (g : Grammar S κ ε α) (s : M.Input κ) (e : ε) : Prop :=
  ∃ (β : Type) (c : Grammar S κ ε β) (u : M.Input κ), Calls M rules g s c u ∧ Raises M rules c u e

theorem Originates.part {g : Grammar S κ ε α} {g' : Grammar S κ ε α'} {s s' : M.Input κ} {e : ε}
    (h : Originates M rules g' s' e)
    (hc : ∀ {β} {c : Grammar S κ ε β} {u}, Calls M rules g' s' c u → Calls M rules g s c u) :
    Originates M rules g s e := by
  obtain ⟨β, c, u, call, hraises⟩ := h
  exact ⟨β, c, u, hc call, hraises⟩

/-- A grammar that maps no errors fails with the error of a node that is read on the way. -/
theorem Derives.originates (noViews : ∀ {κ κ'}, S.View κ κ' → False)
    {node : ∀ {κ ε α}, Grammar S κ ε α → Prop} {named : ∀ {κ ε α}, S.Rule κ ε α → Prop}
    (noErrorMap : ∀ {κ ε α} {c : Grammar S κ ε α}, node c → ¬ c.IsErrorMap)
    (closed : RulesAll node named rules) {g : Grammar S κ ε α} {s : M.Input κ} {o t}
    (h : Derives M rules g s o t) (hg : g.All node named) {e : ε} (he : o = .failure e) :
    Originates M rules g s e := by
  induction h with
  | leaf h =>
    subst he
    exact ⟨_, _, _, .self, .leaf h⟩
  | rule _ ih => exact (ih (closed hg.2) he).part .rule
  | pure => nomatch he
  | fail =>
    cases he
    exact ⟨_, _, _, .self, .fail⟩
  | map _ ih => exact (ih hg.2 (Outcome.map_eq_failure_iff.mp he)).part .map
  | mapError => exact absurd trivial (noErrorMap hg.1)
  | @through _ _ _ _ v => exact (noViews v).elim
  | validate_failure _ ih =>
    cases he
    exact (ih hg.2 rfl).part .validate
  | validate_ok => nomatch he
  | validate_error h refused =>
    cases he
    exact ⟨_, _, _, .self, .check h.yields refused⟩
  | seq_failure _ ih =>
    cases he
    exact (ih hg.2.1 rfl).part .seq_first
  | seq_success hg' _ _ ih => exact (ih hg.2.2 (Outcome.map_eq_failure_iff.mp he)).part (.seq_second hg')
  | seqLeft_failure _ ih =>
    cases he
    exact (ih hg.2.1 rfl).part .seqLeft_first
  | seqLeft_success hg' _ _ ih =>
    exact (ih hg.2.2 (Outcome.map_eq_failure_iff.mp he)).part (.seqLeft_second hg')
  | seqRight_failure _ ih =>
    cases he
    exact (ih hg.2.1 rfl).part .seqRight_first
  | seqRight_success hg' _ _ ih => exact (ih hg.2.2 he).part (.seqRight_second hg')
  | choice_left => nomatch he
  | choice_right hg' _ _ ih =>
    -- The error of the first part is given up with its attempt.
    exact (ih hg.2.2 (Outcome.map_eq_failure_iff.mp he)).part (.choice_second hg')
  | orElse_left => nomatch he
  | orElse_right hg' _ _ ih => exact (ih hg.2.2 he).part (.orElse_second hg')
  | optional_some => nomatch he
  | optional_none => nomatch he
  | many_nil => nomatch he
  | many_cons => nomatch he
  | many1_failure _ ih =>
    cases he
    exact (ih hg.2 rfl).part .many1_first
  | many1_success => nomatch he

theorem Throughout.originates (noViews : ∀ {κ κ'}, S.View κ κ' → False)
    {node : ∀ {κ ε α}, Grammar S κ ε α → Prop}
    (noErrorMap : ∀ {κ ε α} {c : Grammar S κ ε α}, node c → ¬ c.IsErrorMap) {g : Grammar S κ ε α}
    (hg : Throughout rules node g) {s : M.Input κ} {e : ε} {t : Trace}
    (h : (g.parser M rules).Yields s (.failure e) t) : Originates M rules g s e := by
  obtain ⟨named, closed, hg⟩ := hg
  exact (derives_of_yields h).originates noViews noErrorMap closed hg rfl

/-! ### Texts -/

section Texts
variable {Rule : Type → Type → Type} {rules : Rules (.text Rule)} {g : Grammar (.text Rule) () ε α} {s : Text}

/-- A node of a grammar of texts that is read on the way, where a matcher stands for what it reads with. -/
def ReadsNode (rules : Rules (.text Rule)) {ε α ε' α' : Type} (g : Grammar (.text Rule) () ε α) (s : Text)
    (c : Grammar (.text Rule) () ε' α') (u : Text) : Prop :=
  (¬ c.IsLeaf ∧ Calls .text rules g s c u) ∨
    ∃ (ε₁ α₁ : Type) (l : TextLeaf ε₁ α₁) (v : Text),
      Calls .text rules g s (.ofText l) v ∧ Calls .text rules (parts l) v c u

theorem ReadsNode.isSuffix {ε' α' : Type} {c : Grammar (.text Rule) () ε' α'} {u : Text}
    (h : ReadsNode rules g s c u) : Source.IsSuffix u s := by
  rcases h with ⟨-, call⟩ | ⟨ε₁, α₁, l, v, call, part⟩
  · exact call.input_le text_shrinks
  · have hv : Source.IsSuffix v s := call.input_le text_shrinks
    have hu : Source.IsSuffix u v := part.input_le text_shrinks
    exact hu.trans hv

theorem parts_all (l : TextLeaf ε α) : (parts l : Grammar (.text Rule) () ε α).All
    (fun c => ¬ c.IsErrorMap) (fun _ => False) := by
  cases l with
  | anyChar | char | charIf | digit | literal => exact id
  | unsigned => exact ⟨id, id, id⟩

theorem Originates.readsNode {e : ε} (h : Originates .text rules g s e) :
    ∃ (β : Type) (c : Grammar (.text Rule) () ε β) (u : Text),
      ReadsNode rules g s c u ∧ Raises .text rules c u e := by
  obtain ⟨β, c, u, call, hraises⟩ := h
  cases hraises with
  | leaf h =>
    have hparts : Derives .text rules (parts _) u (.failure e) _ :=
      derives_of_yields ((yields_parts_iff _).mpr h)
    obtain ⟨β', c', u', call', hraises⟩ :=
      hparts.originates Signature.noViews id (fun h => h.elim) (parts_all _) rfl
    exact ⟨β', c', u', .inr ⟨_, _, _, u, call, call'⟩, hraises⟩
  | fail => exact ⟨β, _, u, .inl ⟨id, call⟩, .fail⟩
  | check h refused => exact ⟨β, _, u, .inl ⟨id, call⟩, .check h refused⟩

end Texts

/-! ### Grammars whose errors all come from matchers -/

/-- The grammar neither makes nor maps an error. -/
def PassesErrors (c : Grammar S κ ε α) : Prop := ¬ c.IsErrorMap ∧ ¬ c.IsFailure ∧ ¬ c.IsCheck

/-- Where all errors come from the leaves, some leaf is read on the way and fails with the error. -/
theorem exists_leaf_of_passesErrors (noViews : ∀ {κ κ'}, S.View κ κ' → False) {g : Grammar S κ ε α}
    (hg : Throughout rules (fun c => c.PassesErrors) g) {s : M.Input κ} {e : ε} {t : Trace}
    (h : (g.parser M rules).Yields s (.failure e) t) :
    ∃ (β : Type) (l : S.Leaf κ ε β) (u : M.Input κ) (t' : Trace),
      Calls M rules g s (.leaf l) u ∧ (M.leaf l).Yields u (.failure e) t' := by
  obtain ⟨β, c, u, call, hraises⟩ := hg.originates noViews And.left h
  obtain ⟨-, noFailure, noCheck⟩ := hg.of_calls id call
  cases hraises with
  | leaf h => exact ⟨β, _, u, _, call, h⟩
  | fail => exact absurd trivial noFailure
  | check => exact absurd trivial noCheck

section Matchers
variable {Rule : Type → Type → Type}

theorem text_error_shown {rules : Rules (.text Rule)} {g : Grammar (.text Rule) () (MatchError Char) α}
    (hg : Throughout rules (fun c => c.PassesErrors) g) {s : Text} {e : MatchError Char} {t : Trace}
    (h : (g.parser .text rules).Yields s (.failure e) t) :
    (∀ expected found, e = .unexpected expected found → found ∈ s.chars) ∧
    ∀ reason, e = .invalid reason → reason = "integer does not fit in u64" ∧
      ∃ before digits rest : List Char, s.chars = before ++ (digits ++ rest) ∧
        (∀ c ∈ digits, c.isDigit = true) ∧
        UInt64.size ≤ Matcher.decimal (digits.map Matcher.digitValue) ∧
        Calls .text rules g s (.ofText .unsigned) (.ofList (digits ++ rest)) := by
  obtain ⟨β, (l : TextLeaf (MatchError Char) β), (u : Text), t', call, hl⟩ :=
    exists_leaf_of_passesErrors Signature.noViews hg h
  have hreads : l.Reads u.chars (.failure e) t' := l.yields_iff.mp hl
  have hsuffix : Source.IsSuffix u s := call.input_le text_shrinks
  constructor
  · rintro expected found rfl
    exact hsuffix.subset hreads.found_mem
  · rintro reason rfl
    obtain ⟨rfl, hunsigned, rfl, hlarge⟩ := hreads.of_invalid
    obtain rfl := eq_of_heq hunsigned
    obtain ⟨before, hbefore⟩ := hsuffix
    have hdigits : ∀ c ∈ u.chars.takeWhile Char.isDigit, c.isDigit = true :=
      List.all_eq_true.mp List.all_takeWhile
    have hu : u.chars.takeWhile Char.isDigit ++ u.chars.dropWhile Char.isDigit = u.chars :=
      List.takeWhile_append_dropWhile
    have hs : s.chars = before ++ u.chars := hbefore.symm
    have hof : Text.ofList u.chars = u := Text.ext rfl
    refine ⟨rfl, before, _, u.chars.dropWhile Char.isDigit, ?_, hdigits, hlarge, ?_⟩
    · rw [hu, hs]
    · rw [hu, hof]
      exact call

/-- An error of matchers of tokens shows a token of the list, whatever tokens count as equal. -/
theorem token_error_shown {τ : Type} [BEq τ] [Inspect τ] {rules : Rules (.tokens τ Rule)}
    {g : Grammar (.tokens τ Rule) () (MatchError τ) α}
    (hg : Throughout rules (fun c => c.PassesErrors) g) {s : List τ} {e : MatchError τ} {t : Trace}
    (h : (g.parser (.tokens τ) rules).Yields s (.failure e) t) :
    (∀ expected found, e = .unexpected expected found → found ∈ s) ∧ ∀ reason, e ≠ .invalid reason := by
  obtain ⟨β, (l : TokenLeaf τ (MatchError τ) β), (u : List τ), t', call, hl⟩ :=
    exists_leaf_of_passesErrors Signature.noViews hg h
  have hreads : l.Reads u (.failure e) t' := l.yields_iff.mp hl
  have hsuffix : Source.IsSuffix u s := call.input_le tokens_shrinks
  constructor
  · rintro expected found rfl
    exact hsuffix.subset hreads.found_mem
  · rintro reason rfl
    exact hreads.not_invalid

end Matchers

/-- An error is made by a node that is read on a suffix of the input. Where only matchers make errors, it
    shows an element of the input, or it tells that digits of the text stand for too large a number. -/
theorem errors_have_origins :
    (∀ {Rule : Type → Type → Type} (rules : Rules (.text Rule)) {ε α : Type} (g : Grammar (.text Rule) () ε α)
      (s : Text) (e : ε) (t : Trace), Throughout rules (fun c => ¬ c.IsErrorMap) g →
        (g.parser .text rules).Yields s (.failure e) t →
          ∃ (β : Type) (c : Grammar (.text Rule) () ε β) (u : Text),
            ReadsNode rules g s c u ∧ Source.IsSuffix u s ∧ Raises .text rules c u e) ∧
    (∀ {Rule : Type → Type → Type} {τ : Type} [BEq τ] [Inspect τ] (rules : Rules (.tokens τ Rule))
      {ε α : Type} (g : Grammar (.tokens τ Rule) () ε α) (s : List τ) (e : ε) (t : Trace),
        Throughout rules (fun c => ¬ c.IsErrorMap) g →
        (g.parser (.tokens τ) rules).Yields s (.failure e) t →
          ∃ (β : Type) (c : Grammar (.tokens τ Rule) () ε β) (u : List τ),
            Calls (.tokens τ) rules g s c u ∧ Source.IsSuffix u s ∧ Raises (.tokens τ) rules c u e) ∧
    (∀ {Rule : Type → Type → Type} (rules : Rules (.text Rule)) {α : Type}
      (g : Grammar (.text Rule) () (MatchError Char) α) (s : Text) (e : MatchError Char) (t : Trace),
        Throughout rules (fun c => c.PassesErrors) g → (g.parser .text rules).Yields s (.failure e) t →
          (∀ expected found, e = .unexpected expected found → found ∈ s.chars) ∧
          ∀ reason, e = .invalid reason → reason = "integer does not fit in u64" ∧
            ∃ before digits rest : List Char, s.chars = before ++ (digits ++ rest) ∧
              (∀ c ∈ digits, c.isDigit = true) ∧
              UInt64.size ≤ Matcher.decimal (digits.map Matcher.digitValue) ∧
              Calls .text rules g s (.ofText .unsigned) (.ofList (digits ++ rest))) ∧
    ∀ {Rule : Type → Type → Type} {τ : Type} [BEq τ] [Inspect τ] (rules : Rules (.tokens τ Rule)) {α : Type}
      (g : Grammar (.tokens τ Rule) () (MatchError τ) α) (s : List τ) (e : MatchError τ) (t : Trace),
        Throughout rules (fun c => c.PassesErrors) g → (g.parser (.tokens τ) rules).Yields s (.failure e) t →
          (∀ expected found, e = .unexpected expected found → found ∈ s) ∧ ∀ reason, e ≠ .invalid reason := by
  refine ⟨?_, ?_, ?_, ?_⟩
  · intro Rule rules ε α g s e t hg h
    obtain ⟨β, c, u, hread, hraises⟩ := (hg.originates Signature.noViews id h).readsNode
    exact ⟨β, c, u, hread, hread.isSuffix, hraises⟩
  · intro Rule τ _ _ rules ε α g s e t hg h
    obtain ⟨β, c, u, call, hraises⟩ := hg.originates Signature.noViews id h
    exact ⟨β, c, u, call, call.input_le tokens_shrinks, hraises⟩
  · intro Rule rules α g s e t hg h
    exact text_error_shown hg h
  · intro Rule τ _ _ rules α g s e t hg h
    exact token_error_shown hg h

def signedNumber : Grammar (.text fun _ _ => Empty) () (MatchError Char) UInt64 :=
  .seqRight (.optional (.ofText (.char '-'))) (.ofText .unsigned)

def twoKinds (a b : String) :
    Grammar (.tokens Spanned fun _ _ => Empty) () (MatchError Spanned) (Spanned × Spanned) :=
  .seq (.ofToken (.token ⟨a, 0⟩)) (.ofToken (.token ⟨b, 0⟩))

/-- A number that is too large behind its sign, and a token of a kind that is not looked for behind one that
    counts as equal to the one that is. -/
theorem errors_have_origins_signedNumber :
    Throughout .none (fun c => c.PassesErrors) signedNumber ∧
      (signedNumber.parser .text .none).Yields (.ofString "-18446744073709551616")
        (.failure (.invalid "integer does not fit in u64")) [.rejected] ∧
      (∃ before digits rest : List Char, "-18446744073709551616".toList = before ++ (digits ++ rest) ∧
        UInt64.size ≤ Matcher.decimal (digits.map Matcher.digitValue) ∧
        Calls .text .none signedNumber (.ofString "-18446744073709551616") (.ofText .unsigned)
          (.ofList (digits ++ rest))) ∧
      Throughout .none (fun c => c.PassesErrors) (twoKinds "a" "b") ∧
      ((twoKinds "a" "b").parser (.tokens Spanned) .none).Yields [⟨"a", 7⟩, ⟨"c", 8⟩]
        (.failure (.unexpected (inspect (⟨"b", 0⟩ : Spanned)) ⟨"c", 8⟩)) [] ∧
      (⟨"c", 8⟩ : Spanned) ∈ [(⟨"a", 7⟩ : Spanned), ⟨"c", 8⟩] := by
  have hnumber : Throughout .none (fun c => c.PassesErrors) signedNumber :=
    ⟨fun _ => False, fun h => h.elim, ⟨id, id, id⟩, ⟨⟨id, id, id⟩, ⟨id, id, id⟩⟩, ⟨id, id, id⟩⟩
  have hkinds : Throughout .none (fun c => c.PassesErrors) (twoKinds "a" "b") :=
    ⟨fun _ => False, fun h => h.elim, ⟨id, id, id⟩, ⟨id, id, id⟩, ⟨id, id, id⟩⟩
  have hsign : Derives .text .none (.optional (.ofText (.char '-'))) (.ofString "-18446744073709551616")
      (.success (some '-') (.ofString "18446744073709551616")) [] :=
    .optional_some (.leaf (TextLeaf.yields_char '-' _))
  have hlarge : Derives .text .none (.ofText .unsigned) (.ofString "18446744073709551616")
      (.failure (.invalid "integer does not fit in u64")) [.rejected] :=
    .leaf ((TextLeaf.yields_iff .unsigned).mpr (.tooLarge (by decide) (by decide)))
  have hfirst : Derives (.tokens Spanned) .none (.ofToken (.token ⟨"a", 0⟩)) [⟨"a", 7⟩, ⟨"c", 8⟩]
      (.success ⟨"a", 7⟩ [⟨"c", 8⟩]) [] :=
    .leaf (TokenLeaf.yields_token (⟨"a", 0⟩ : Spanned) ⟨"a", 7⟩ _ (Spanned.beq_iff.mpr rfl))
  have hsecond : Derives (.tokens Spanned) .none (.ofToken (.token ⟨"b", 0⟩)) [⟨"c", 8⟩]
      (.failure (.unexpected (inspect (⟨"b", 0⟩ : Spanned)) ⟨"c", 8⟩)) [] :=
    .leaf (TokenLeaf.yields_token_other (⟨"b", 0⟩ : Spanned) ⟨"c", 8⟩ _ (by decide))
  have hfails := (Derives.seqRight_success hsign hlarge).yields
  have hfails' := (Derives.seq_success hfirst hsecond).yields
  obtain ⟨-, -, htext, htokens⟩ := errors_have_origins
  obtain ⟨-, before, digits, rest, hs, -, hdigits, hcall⟩ :=
    (htext .none signedNumber _ _ _ hnumber hfails).2 _ rfl
  have hmem := (htokens .none (twoKinds "a" "b") _ _ _ hkinds hfails').1 _ _ rfl
  exact ⟨hnumber, hfails, ⟨before, digits, rest, hs, hdigits, hcall⟩, hkinds, hfails', hmem⟩

end Grammar
end TracedParsers
