import TracedParsers.Grammar.Calls

/-!
# Simulation

Two models may read one grammar on inputs of their own. If the leaves that are read on the way do the
same in both, up to a relation between the inputs, then so does the grammar: it ends with the same value
or error and the same trace, and leaves related inputs. Only the leaves that are read count, each on the
input it is read on, so a reading depends on nothing else.
-/

namespace TracedParsers

variable {σ σ' ε ε' α β : Type} {R : σ → σ' → Prop}

/-- Both succeed with one value and leave related inputs, or both fail with one error. -/
inductive Outcome.Related (R : σ → σ' → Prop) : Outcome σ ε α → Outcome σ' ε α → Prop where
  | success {a : α} {r : σ} {r' : σ'} (h : R r r') : Related R (.success a r) (.success a r')
  | failure {e : ε} : Related R (.failure e) (.failure e)

namespace Outcome

theorem Related.map {o : Outcome σ ε α} {o' : Outcome σ' ε α} (h : o.Related R o') (f : α → β) :
    (o.map f).Related R (o'.map f) := by
  cases h with
  | success hr => exact .success hr
  | failure => exact .failure

theorem Related.mapError {o : Outcome σ ε α} {o' : Outcome σ' ε α} (h : o.Related R o') (f : ε → ε') :
    (o.mapError f).Related R (o'.mapError f) := by
  cases h with
  | success hr => exact .success hr
  | failure => exact .failure

/-- Where the second input is a function of the first, so is the second outcome. -/
theorem Related.eq_mapRest {f : σ → σ'} (hR : ∀ r r', R r r' → r' = f r) {o : Outcome σ ε α}
    {o' : Outcome σ' ε α} (h : o.Related R o') : o' = o.mapRest f := by
  cases h with
  | success hr => rw [hR _ _ hr, mapRest_success]
  | failure => rfl

theorem related_mapRest {f : σ → σ'} (o : Outcome σ ε α) :
    o.Related (fun r r' => r' = f r) (o.mapRest f) := by
  cases o with
  | success a r => exact .success rfl
  | failure e => exact .failure

/-- Where the first input is a function of the second, so is the first outcome. -/
theorem related_image_iff {f : σ' → σ} {o : Outcome σ ε α} {o' : Outcome σ' ε α} :
    o.Related (fun r r' => r = f r') o' ↔ o = o'.mapRest f := by
  constructor
  · intro h
    cases h with
    | success hr => rw [hr, mapRest_success]
    | failure => rfl
  · rintro rfl
    cases o' with
    | success a r => exact .success rfl
    | failure e => exact .failure

end Outcome

namespace Grammar

variable {S : Signature} {M M' : Model S} {rules : Rules S} {κ : S.Kind}

/-- Each leaf that is read on the way does in the second model what it does in the first. -/
structure LeavesFollow (M M' : Model S) (rules : Rules S) (R : ∀ κ, M.Input κ → M'.Input κ → Prop)
    {κ : S.Kind} {ε α : Type} (g : Grammar S κ ε α) (s : M.Input κ) : Prop where
  leaf : ∀ {ε' α' : Type} {l : S.Leaf κ ε' α'} {u : M.Input κ} {u' : M'.Input κ}
    {o : Outcome (M.Input κ) ε' α'} {t : Trace}, Calls M rules g s (.leaf l) u → R κ u u' →
      (M.leaf l).Yields u o t → ∃ o', (M'.leaf l).Yields u' o' t ∧ o.Related (R κ) o'

variable {R : ∀ κ, M.Input κ → M'.Input κ → Prop}

theorem LeavesFollow.part {g : Grammar S κ ε α} {g' : Grammar S κ ε' β} {s s' : M.Input κ}
    (h : LeavesFollow M M' rules R g s)
    (hc : ∀ {ε α} {c : Grammar S κ ε α} {u}, Calls M rules g' s' c u → Calls M rules g s c u) :
    LeavesFollow M M' rules R g' s' :=
  ⟨fun call => h.leaf (hc call)⟩

/-- A grammar without views does in the second model what it does in the first if its leaves do. -/
theorem Derives.simulated (noViews : ∀ {κ κ'}, S.View κ κ' → False)
    {g : Grammar S κ ε α} {s : M.Input κ} {s' : M'.Input κ} {o : Outcome (M.Input κ) ε α} {t : Trace}
    (h : Derives M rules g s o t) (leaves : LeavesFollow M M' rules R g s) (hs : R κ s s') :
    ∃ o', Derives M' rules g s' o' t ∧ o.Related (R κ) o' := by
  induction h with
  | leaf h =>
    obtain ⟨o', h', ho⟩ := leaves.leaf .self hs h
    exact ⟨o', .leaf h', ho⟩
  | rule _ ih =>
    obtain ⟨o', h', ho⟩ := ih (leaves.part .rule) hs
    exact ⟨o', .rule h', ho⟩
  | pure => exact ⟨_, .pure, .success hs⟩
  | fail => exact ⟨_, .fail, .failure⟩
  | map _ ih =>
    obtain ⟨o', h', ho⟩ := ih (leaves.part .map) hs
    exact ⟨_, .map h', ho.map _⟩
  | mapError _ ih =>
    obtain ⟨o', h', ho⟩ := ih (leaves.part .mapError) hs
    exact ⟨_, .mapError h', ho.mapError _⟩
  | @through _ _ _ _ v => exact (noViews v).elim
  | validate_failure _ ih =>
    obtain ⟨_, h', ⟨⟩⟩ := ih (leaves.part .validate) hs
    exact ⟨_, .validate_failure h', .failure⟩
  | validate_ok _ accepted ih =>
    obtain ⟨_, h', ⟨hr⟩⟩ := ih (leaves.part .validate) hs
    exact ⟨_, .validate_ok h' accepted, .success hr⟩
  | validate_error _ refused ih =>
    obtain ⟨_, h', ⟨-⟩⟩ := ih (leaves.part .validate) hs
    exact ⟨_, .validate_error h' refused, .failure⟩
  | seq_failure _ ih =>
    obtain ⟨_, h', ⟨⟩⟩ := ih (leaves.part .seq_first) hs
    exact ⟨_, .seq_failure h', .failure⟩
  | seq_success hg _ ihg ihh =>
    obtain ⟨_, hg', ⟨hr⟩⟩ := ihg (leaves.part .seq_first) hs
    obtain ⟨_, hh', ho⟩ := ihh (leaves.part (.seq_second hg)) hr
    exact ⟨_, .seq_success hg' hh', ho.map _⟩
  | seqLeft_failure _ ih =>
    obtain ⟨_, h', ⟨⟩⟩ := ih (leaves.part .seqLeft_first) hs
    exact ⟨_, .seqLeft_failure h', .failure⟩
  | seqLeft_success hg _ ihg ihh =>
    obtain ⟨_, hg', ⟨hr⟩⟩ := ihg (leaves.part .seqLeft_first) hs
    obtain ⟨_, hh', ho⟩ := ihh (leaves.part (.seqLeft_second hg)) hr
    exact ⟨_, .seqLeft_success hg' hh', ho.map _⟩
  | seqRight_failure _ ih =>
    obtain ⟨_, h', ⟨⟩⟩ := ih (leaves.part .seqRight_first) hs
    exact ⟨_, .seqRight_failure h', .failure⟩
  | seqRight_success hg _ ihg ihh =>
    obtain ⟨_, hg', ⟨hr⟩⟩ := ihg (leaves.part .seqRight_first) hs
    obtain ⟨_, hh', ho⟩ := ihh (leaves.part (.seqRight_second hg)) hr
    exact ⟨_, .seqRight_success hg' hh', ho⟩
  | choice_left _ ih =>
    obtain ⟨_, h', ⟨hr⟩⟩ := ih (leaves.part .choice_first) hs
    exact ⟨_, .choice_left h', .success hr⟩
  | choice_right hg _ ihg ihh =>
    -- The second part starts from the input of the first in both models.
    obtain ⟨_, hg', ⟨⟩⟩ := ihg (leaves.part .choice_first) hs
    obtain ⟨_, hh', ho⟩ := ihh (leaves.part (.choice_second hg)) hs
    exact ⟨_, .choice_right hg' hh', ho.map _⟩
  | orElse_left _ ih =>
    obtain ⟨_, h', ⟨hr⟩⟩ := ih (leaves.part .orElse_first) hs
    exact ⟨_, .orElse_left h', .success hr⟩
  | orElse_right hg _ ihg ihh =>
    obtain ⟨_, hg', ⟨⟩⟩ := ihg (leaves.part .orElse_first) hs
    obtain ⟨_, hh', ho⟩ := ihh (leaves.part (.orElse_second hg)) hs
    exact ⟨_, .orElse_right hg' hh', ho⟩
  | optional_some _ ih =>
    obtain ⟨_, h', ⟨hr⟩⟩ := ih (leaves.part .optional) hs
    exact ⟨_, .optional_some h', .success hr⟩
  | optional_none _ ih =>
    obtain ⟨_, h', ⟨⟩⟩ := ih (leaves.part .optional) hs
    exact ⟨_, .optional_none h', .success hs⟩
  | many_nil _ ih =>
    obtain ⟨_, h', ⟨⟩⟩ := ih (leaves.part .many_first) hs
    exact ⟨_, .many_nil h', .success hs⟩
  | many_cons hg _ ihg ihm =>
    obtain ⟨_, hg', ⟨hr⟩⟩ := ihg (leaves.part .many_first) hs
    obtain ⟨_, hm', ⟨hr'⟩⟩ := ihm (leaves.part (.many_next hg)) hr
    exact ⟨_, .many_cons hg' hm', .success hr'⟩
  | many1_failure _ ih =>
    obtain ⟨_, h', ⟨⟩⟩ := ih (leaves.part .many1_first) hs
    exact ⟨_, .many1_failure h', .failure⟩
  | many1_success hg _ ihg ihm =>
    obtain ⟨_, hg', ⟨hr⟩⟩ := ihg (leaves.part .many1_first) hs
    obtain ⟨_, hm', ⟨hr'⟩⟩ := ihm (leaves.part (.many1_next hg)) hr
    exact ⟨_, .many1_success hg' hm', .success hr'⟩

/-- The same for parsers, where the second input is a function of the first. -/
theorem yields_of_leavesFollow (noViews : ∀ {κ κ'}, S.View κ κ' → False) {g : Grammar S κ ε α}
    {s : M.Input κ} {s' : M'.Input κ} {o : Outcome (M.Input κ) ε α} {t : Trace}
    (h : (g.parser M rules).Yields s o t) (leaves : LeavesFollow M M' rules R g s) (hs : R κ s s')
    {f : M.Input κ → M'.Input κ} (hR : ∀ r r', R κ r r' → r' = f r) :
    (g.parser M' rules).Yields s' (o.mapRest f) t ∧ o.Related (R κ) (o.mapRest f) := by
  obtain ⟨o', h', ho⟩ := (derives_of_yields h).simulated noViews leaves hs
  rw [← ho.eq_mapRest hR]
  exact ⟨h'.yields, ho⟩

/-- If the leaves of the second model do on the image of an input what those of the first do on the input,
    then so does every grammar. -/
theorem yields_image_iff (M M' : Model S) (noViews : ∀ {κ κ'}, S.View κ κ' → False)
    (f : ∀ κ, M.Input κ → M'.Input κ)
    (leaves : ∀ {ε' α' : Type} (l : S.Leaf κ ε' α') {u : M.Input κ} {o' : Outcome (M'.Input κ) ε' α'}
      {t : Trace}, (M'.leaf l).Yields (f κ u) o' t ↔
        ∃ o, (M.leaf l).Yields u o t ∧ o' = o.mapRest (f κ))
    {g : Grammar S κ ε α} {s : M.Input κ} {o' : Outcome (M'.Input κ) ε α} {t : Trace} :
    (g.parser M' rules).Yields (f κ s) o' t ↔
      ∃ o, (g.parser M rules).Yields s o t ∧ o' = o.mapRest (f κ) := by
  constructor
  · intro h
    have hleaves : LeavesFollow M' M rules (fun κ r' r => r' = f κ r) g (f κ s) := by
      refine ⟨fun {_ _ l _ _ _ _} _ hu hl => ?_⟩
      subst hu
      obtain ⟨o, hl, ho⟩ := (leaves l).mp hl
      exact ⟨o, hl, Outcome.related_image_iff.mpr ho⟩
    obtain ⟨o, h', ho⟩ := (derives_of_yields h).simulated noViews hleaves rfl
    exact ⟨o, h'.yields, Outcome.related_image_iff.mp ho⟩
  · rintro ⟨o, h, rfl⟩
    have hleaves : LeavesFollow M M' rules (fun κ r r' => r' = f κ r) g s := by
      refine ⟨fun {_ _ l _ _ _ _} _ hu hl => ?_⟩
      subst hu
      exact ⟨_, (leaves l).mpr ⟨_, hl, rfl⟩, Outcome.related_mapRest _⟩
    exact (yields_of_leavesFollow noViews h hleaves rfl fun _ _ hr => hr).1

end Grammar
end TracedParsers
