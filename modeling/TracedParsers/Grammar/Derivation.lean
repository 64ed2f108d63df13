import TracedParsers.Grammar.Basic

/-!
# Derivations

What a grammar means, said by rules and without a parser: `Derives M rules g s o t` holds when the
grammar `g`, read on the input `s`, has outcome `o` with trace `t`. Sequence stops at the first failure,
choice is ordered and tries its second part on the input of the first, and repetition takes all it can
get and gives back nothing of it.
-/

namespace TracedParsers
namespace Grammar

variable {S : Signature}

inductive Derives (M : Model S) (rules : Rules S) :
    {κ : S.Kind} → {ε α : Type} → Grammar S κ ε α → M.Input κ → Outcome (M.Input κ) ε α → Trace → Prop where
  | leaf {κ ε α} {l : S.Leaf κ ε α} {s : M.Input κ} {o t} (h : (M.leaf l).Yields s o t) :
      Derives M rules (.leaf l) s o t
  | rule {κ ε α} {r : S.Rule κ ε α} {s : M.Input κ} {o t} (h : Derives M rules (rules κ ε α r) s o t) :
      Derives M rules (.rule r) s o t
  | pure {κ ε α} {a : α} {s : M.Input κ} :
      Derives M rules (.pure a : Grammar S κ ε α) s (.success a s) []
  | fail {κ ε α} {e : ε} {s : M.Input κ} :
      Derives M rules (.fail e : Grammar S κ ε α) s (.failure e) []
  | map {κ ε α β} {f : α → β} {g : Grammar S κ ε α} {s : M.Input κ} {o t} (h : Derives M rules g s o t) :
      Derives M rules (.map f g) s (o.map f) t
  | mapError {κ ε ε' α} {f : ε → ε'} {g : Grammar S κ ε α} {s : M.Input κ} {o t}
      (h : Derives M rules g s o t) : Derives M rules (.mapError f g) s (o.mapError f) t
  /-- A view shows another input and takes back what is left of it. -/
  | through {κ κ' ε α} {v : S.View κ κ'} {g : Grammar S κ' ε α} {s : M.Input κ} {o t}
      (h : Derives M rules g (M.into v s) o t) : Derives M rules (.through v g) s (o.mapRest (M.back v)) t
  | validate_failure {κ ε α β} {check : α → Except ε β} {g : Grammar S κ ε α} {s : M.Input κ} {e t}
      (h : Derives M rules g s (.failure e) t) : Derives M rules (.validate check g) s (.failure e) t
  | validate_ok {κ ε α β} {check : α → Except ε β} {g : Grammar S κ ε α} {s r : M.Input κ} {a b t}
      (h : Derives M rules g s (.success a r) t) (accepted : check a = .ok b) :
      Derives M rules (.validate check g) s (.success b r) t
  /-- A check refuses a value, and this is reported. -/
  | validate_error {κ ε α β} {check : α → Except ε β} {g : Grammar S κ ε α} {s r : M.Input κ} {a e t}
      (h : Derives M rules g s (.success a r) t) (refused : check a = .error e) :
      Derives M rules (.validate check g) s (.failure e) (t ++ [.rejected])
  | seq_failure {κ ε α β} {g : Grammar S κ ε α} {h : Grammar S κ ε β} {s : M.Input κ} {e t}
      (hg : Derives M rules g s (.failure e) t) : Derives M rules (.seq g h) s (.failure e) t
  /-- A sequence goes on with what its first part leaves. -/
  | seq_success {κ ε α β} {g : Grammar S κ ε α} {h : Grammar S κ ε β} {s r : M.Input κ} {a o t u}
      (hg : Derives M rules g s (.success a r) t) (hh : Derives M rules h r o u) :
      Derives M rules (.seq g h) s (o.map fun b => (a, b)) (t ++ u)
  | seqLeft_failure {κ ε α β} {g : Grammar S κ ε α} {h : Grammar S κ ε β} {s : M.Input κ} {e t}
      (hg : Derives M rules g s (.failure e) t) : Derives M rules (.seqLeft g h) s (.failure e) t
  | seqLeft_success {κ ε α β} {g : Grammar S κ ε α} {h : Grammar S κ ε β} {s r : M.Input κ} {a o t u}
      (hg : Derives M rules g s (.success a r) t) (hh : Derives M rules h r o u) :
      Derives M rules (.seqLeft g h) s (o.map fun _ => a) (t ++ u)
  | seqRight_failure {κ ε α β} {g : Grammar S κ ε α} {h : Grammar S κ ε β} {s : M.Input κ} {e t}
      (hg : Derives M rules g s (.failure e) t) : Derives M rules (.seqRight g h) s (.failure e) t
  | seqRight_success {κ ε α β} {g : Grammar S κ ε α} {h : Grammar S κ ε β} {s r : M.Input κ} {a o t u}
      (hg : Derives M rules g s (.success a r) t) (hh : Derives M rules h r o u) :
      Derives M rules (.seqRight g h) s o (t ++ u)
  | choice_left {κ ε α β} {g : Grammar S κ ε α} {h : Grammar S κ ε β} {s r : M.Input κ} {a t}
      (hg : Derives M rules g s (.success a r) t) :
      Derives M rules (.choice g h) s (.success (.inl a) r) t
  /-- A choice whose first part fails takes its second part, on the same input. -/
  | choice_right {κ ε α β} {g : Grammar S κ ε α} {h : Grammar S κ ε β} {s : M.Input κ} {e o t u}
      (hg : Derives M rules g s (.failure e) t) (hh : Derives M rules h s o u) :
      Derives M rules (.choice g h) s (o.map .inr) (t ++ .fallback :: u)
  | orElse_left {κ ε α} {g h : Grammar S κ ε α} {s r : M.Input κ} {a t}
      (hg : Derives M rules g s (.success a r) t) : Derives M rules (.orElse g h) s (.success a r) t
  | orElse_right {κ ε α} {g h : Grammar S κ ε α} {s : M.Input κ} {e o t u}
      (hg : Derives M rules g s (.failure e) t) (hh : Derives M rules h s o u) :
      Derives M rules (.orElse g h) s o (t ++ .fallback :: u)
  | optional_some {κ ε α} {g : Grammar S κ ε α} {s r : M.Input κ} {a t}
      (hg : Derives M rules g s (.success a r) t) :
      Derives M rules (.optional g) s (.success (some a) r) t
  /-- What is optional may be missing, and nothing is read then. -/
  | optional_none {κ ε α} {g : Grammar S κ ε α} {s : M.Input κ} {e t}
      (hg : Derives M rules g s (.failure e) t) :
      Derives M rules (.optional g) s (.success none s) (t ++ [.fallback])
  /-- A repetition stops at a failure and leaves the input of the failed attempt. -/
  | many_nil {κ ε α} {g : Grammar S κ ε α} {s : M.Input κ} {e t}
      (hg : Derives M rules g s (.failure e) t) :
      Derives M rules (.many g) s (.success [] s) (t ++ [.stopped 0])
  /-- A repetition goes on after a success; the count in its last event grows by one. -/
  | many_cons {κ ε α} {g : Grammar S κ ε α} {s r r' : M.Input κ} {a as t u}
      (hg : Derives M rules g s (.success a r) t)
      (hm : Derives M rules (.many g) r (.success as r') (u ++ [.stopped as.length])) :
      Derives M rules (.many g) s (.success (a :: as) r') (t ++ u ++ [.stopped (as.length + 1)])
  | many1_failure {κ ε α} {g : Grammar S κ ε α} {s : M.Input κ} {e t}
      (hg : Derives M rules g s (.failure e) t) : Derives M rules (.many1 g) s (.failure e) t
  /-- A repetition of at least one goes on as any does, and does not report its end. -/
  | many1_success {κ ε α} {g : Grammar S κ ε α} {s r r' : M.Input κ} {a as t u}
      (hg : Derives M rules g s (.success a r) t)
      (hm : Derives M rules (.many g) r (.success as r') (u ++ [.stopped as.length])) :
      Derives M rules (.many1 g) s (.success (a :: as) r') (t ++ u)

theorem derives_leaf_iff {M : Model S} {rules : Rules S} {κ : S.Kind} {ε α : Type} {l : S.Leaf κ ε α}
    {s : M.Input κ} {o : Outcome (M.Input κ) ε α} {t : Trace} :
    Derives M rules (.leaf l) s o t ↔ (M.leaf l).Yields s o t := by
  constructor
  · intro h
    cases h with
    | leaf h => exact h
  · exact .leaf

/-! ### Parsers and derivations agree -/

variable {M : Model S} {rules : Rules S} {κ : S.Kind} {ε α : Type} {g : Grammar S κ ε α} {s r : M.Input κ}
  {o : Outcome (M.Input κ) ε α} {as : List α} {t : Trace}

theorem derives_many_of_ends_items {p : Parser (M.Input κ) ε α}
    (derives : ∀ {s o t}, p.Yields s o t → Derives M rules g s o t) (h : (p.items s).Ends (as, r) t) :
    Derives M rules (.many g) s (.success as r) (t ++ [.stopped as.length]) := by
  induction as generalizing s t with
  | nil =>
    obtain ⟨rfl, e, hp⟩ := Parser.ends_items_nil_iff.mp h
    exact .many_nil (derives hp)
  | cons a as ih =>
    obtain ⟨rest, t₁, t₂, hp, hi, rfl⟩ := Parser.ends_items_cons_iff.mp h
    exact .many_cons (derives hp) (ih hi)

theorem derives_of_yields_parserWith {calls : RuleParsers M}
    (derives : ∀ {κ ε α} {r : S.Rule κ ε α} {s : M.Input κ} {o t}, (calls κ ε α r).Yields s o t →
      Derives M rules (rules κ ε α r) s o t)
    (h : (g.parserWith M calls).Yields s o t) : Derives M rules g s o t := by
  induction g generalizing t with
  | leaf l => exact .leaf h
  | rule r => exact .rule (derives h)
  | pure a =>
    obtain ⟨rfl, rfl⟩ := Parser.yields_pure.mp h
    exact .pure
  | fail e =>
    obtain ⟨rfl, rfl⟩ := Parser.yields_fail.mp h
    exact .fail
  | map f g ih =>
    obtain ⟨o', hg, rfl⟩ := Parser.yields_map.mp h
    exact .map (ih hg)
  | mapError f g ih =>
    obtain ⟨o', hg, rfl⟩ := Parser.yields_mapError.mp h
    exact .mapError (ih hg)
  | validate check g ih =>
    rcases Parser.yields_validate.mp h with
      ⟨e, hg, rfl⟩ | ⟨a, r, b, hg, hb, rfl⟩ | ⟨a, r, e, t', hg, he, rfl, rfl⟩
    · exact .validate_failure (ih hg)
    · exact .validate_ok (ih hg) hb
    · exact .validate_error (ih hg) he
  | through v g ih =>
    obtain ⟨o', hg, rfl⟩ := Parser.yields_through.mp h
    exact .through (ih hg)
  | seq g h ihg ihh =>
    rcases Parser.yields_seq.mp h with ⟨e, hg, rfl⟩ | ⟨a, r, o', t₁, t₂, hg, hh, rfl, rfl⟩
    · exact .seq_failure (ihg hg)
    · exact .seq_success (ihg hg) (ihh hh)
  | seqLeft g h ihg ihh =>
    rcases Parser.yields_seqLeft.mp h with ⟨e, hg, rfl⟩ | ⟨a, r, o', t₁, t₂, hg, hh, rfl, rfl⟩
    · exact .seqLeft_failure (ihg hg)
    · exact .seqLeft_success (ihg hg) (ihh hh)
  | seqRight g h ihg ihh =>
    rcases Parser.yields_seqRight.mp h with ⟨e, hg, rfl⟩ | ⟨a, r, t₁, t₂, hg, hh, rfl⟩
    · exact .seqRight_failure (ihg hg)
    · exact .seqRight_success (ihg hg) (ihh hh)
  | choice g h ihg ihh =>
    rcases Parser.yields_choice.mp h with ⟨a, r, hg, rfl⟩ | ⟨e, o', t₁, t₂, hg, hh, rfl, rfl⟩
    · exact .choice_left (ihg hg)
    · exact .choice_right (ihg hg) (ihh hh)
  | orElse g h ihg ihh =>
    rcases Parser.yields_orElse.mp h with ⟨a, r, hg, rfl⟩ | ⟨e, t₁, t₂, hg, hh, rfl⟩
    · exact .orElse_left (ihg hg)
    · exact .orElse_right (ihg hg) (ihh hh)
  | optional g ih =>
    rcases Parser.yields_optional.mp h with ⟨a, r, hg, rfl⟩ | ⟨e, t₁, hg, rfl, rfl⟩
    · exact .optional_some (ih hg)
    · exact .optional_none (ih hg)
  | many g ih =>
    obtain ⟨as, r, t', hi, rfl, rfl⟩ := Parser.yields_many.mp h
    exact derives_many_of_ends_items ih hi
  | many1 g ih =>
    rcases Parser.yields_many1.mp h with ⟨e, hg, rfl⟩ | ⟨a, r, as, r', t₁, t₂, hg, hi, rfl, rfl⟩
    · exact .many1_failure (ih hg)
    · exact .many1_success (ih hg) (derives_many_of_ends_items ih hi)

theorem derives_of_yields_unfolded {depth : Nat} {r : S.Rule κ ε α}
    (h : (unfolded M rules depth κ ε α r).Yields s o t) : Derives M rules (rules κ ε α r) s o t := by
  induction depth generalizing κ ε α t with
  | zero => exact absurd h Parser.not_yields_never
  | succ depth ih => exact derives_of_yields_parserWith (fun h => ih h) h

/-- What the parser of a grammar yields can be derived. -/
theorem derives_of_yields (h : (g.parser M rules).Yields s o t) : Derives M rules g s o t := by
  obtain ⟨depth, h⟩ := yields_parser_iff.mp h
  exact derives_of_yields_parserWith (fun h => derives_of_yields_unfolded h) h

theorem yields_deepen {m n : Nat} (hmn : m ≤ n)
    (h : (g.parserWith M (unfolded M rules m)).Yields s o t) :
    (g.parserWith M (unfolded M rules n)).Yields s o t :=
  Parser.Yields.of_le h (parserWith_le_parserWith (unfolded_le_unfolded M rules hmn) g)

/-- What can be derived is found when calls may be nested deep enough. -/
theorem Derives.yields_parserWith (h : Derives M rules g s o t) :
    ∃ depth, (g.parserWith M (unfolded M rules depth)).Yields s o t := by
  have both {κ κ' ε ε' α α'} {g : Grammar S κ ε α} {g' : Grammar S κ' ε' α'} {s s' o o' t t'}
      (h : ∃ depth, (g.parserWith M (unfolded M rules depth)).Yields s o t)
      (h' : ∃ depth, (g'.parserWith M (unfolded M rules depth)).Yields s' o' t') :
      ∃ depth, (g.parserWith M (unfolded M rules depth)).Yields s o t ∧
        (g'.parserWith M (unfolded M rules depth)).Yields s' o' t' := by
    obtain ⟨m, h⟩ := h
    obtain ⟨n, h'⟩ := h'
    exact ⟨max m n, yields_deepen (Nat.le_max_left m n) h, yields_deepen (Nat.le_max_right m n) h'⟩
  induction h with
  | leaf h => exact ⟨0, h⟩
  | rule _ ih =>
    obtain ⟨n, ih⟩ := ih
    exact ⟨n + 1, ih⟩
  | pure => exact ⟨0, Parser.yields_pure.mpr ⟨rfl, rfl⟩⟩
  | fail => exact ⟨0, Parser.yields_fail.mpr ⟨rfl, rfl⟩⟩
  | map _ ih =>
    obtain ⟨n, ih⟩ := ih
    exact ⟨n, Parser.yields_map.mpr ⟨_, ih, rfl⟩⟩
  | mapError _ ih =>
    obtain ⟨n, ih⟩ := ih
    exact ⟨n, Parser.yields_mapError.mpr ⟨_, ih, rfl⟩⟩
  | through _ ih =>
    obtain ⟨n, ih⟩ := ih
    exact ⟨n, Parser.yields_through.mpr ⟨_, ih, rfl⟩⟩
  | validate_failure _ ih =>
    obtain ⟨n, ih⟩ := ih
    exact ⟨n, Parser.yields_validate.mpr (.inl ⟨_, ih, rfl⟩)⟩
  | validate_ok _ accepted ih =>
    obtain ⟨n, ih⟩ := ih
    exact ⟨n, Parser.yields_validate.mpr (.inr (.inl ⟨_, _, _, ih, accepted, rfl⟩))⟩
  | validate_error _ refused ih =>
    obtain ⟨n, ih⟩ := ih
    exact ⟨n, Parser.yields_validate.mpr (.inr (.inr ⟨_, _, _, _, ih, refused, rfl, rfl⟩))⟩
  | seq_failure _ ih =>
    obtain ⟨n, ih⟩ := ih
    exact ⟨n, Parser.yields_seq.mpr (.inl ⟨_, ih, rfl⟩)⟩
  | seq_success _ _ ihg ihh =>
    obtain ⟨n, hg, hh⟩ := both ihg ihh
    exact ⟨n, Parser.yields_seq.mpr (.inr ⟨_, _, _, _, _, hg, hh, rfl, rfl⟩)⟩
  | seqLeft_failure _ ih =>
    obtain ⟨n, ih⟩ := ih
    exact ⟨n, Parser.yields_seqLeft.mpr (.inl ⟨_, ih, rfl⟩)⟩
  | seqLeft_success _ _ ihg ihh =>
    obtain ⟨n, hg, hh⟩ := both ihg ihh
    exact ⟨n, Parser.yields_seqLeft.mpr (.inr ⟨_, _, _, _, _, hg, hh, rfl, rfl⟩)⟩
  | seqRight_failure _ ih =>
    obtain ⟨n, ih⟩ := ih
    exact ⟨n, Parser.yields_seqRight.mpr (.inl ⟨_, ih, rfl⟩)⟩
  | seqRight_success _ _ ihg ihh =>
    obtain ⟨n, hg, hh⟩ := both ihg ihh
    exact ⟨n, Parser.yields_seqRight.mpr (.inr ⟨_, _, _, _, hg, hh, rfl⟩)⟩
  | choice_left _ ih =>
    obtain ⟨n, ih⟩ := ih
    exact ⟨n, Parser.yields_choice.mpr (.inl ⟨_, _, ih, rfl⟩)⟩
  | choice_right _ _ ihg ihh =>
    obtain ⟨n, hg, hh⟩ := both ihg ihh
    exact ⟨n, Parser.yields_choice.mpr (.inr ⟨_, _, _, _, hg, hh, rfl, rfl⟩)⟩
  | orElse_left _ ih =>
    obtain ⟨n, ih⟩ := ih
    exact ⟨n, Parser.yields_orElse.mpr (.inl ⟨_, _, ih, rfl⟩)⟩
  | orElse_right _ _ ihg ihh =>
    obtain ⟨n, hg, hh⟩ := both ihg ihh
    exact ⟨n, Parser.yields_orElse.mpr (.inr ⟨_, _, _, hg, hh, rfl⟩)⟩
  | optional_some _ ih =>
    obtain ⟨n, ih⟩ := ih
    exact ⟨n, Parser.yields_optional.mpr (.inl ⟨_, _, ih, rfl⟩)⟩
  | optional_none _ ih =>
    obtain ⟨n, ih⟩ := ih
    exact ⟨n, Parser.yields_optional.mpr (.inr ⟨_, _, ih, rfl, rfl⟩)⟩
  | many_nil _ ih =>
    obtain ⟨n, ih⟩ := ih
    have hi := Parser.ends_items_nil_iff.mpr ⟨rfl, _, ih⟩
    exact ⟨n, Parser.yields_many_success_iff.mpr ⟨_, hi, rfl⟩⟩
  | many_cons _ _ ihg ihm =>
    obtain ⟨n, hg, hm⟩ := both ihg ihm
    have hi := Parser.ends_items_cons_iff.mpr ⟨_, _, _, hg, Parser.ends_items_of_yields_many hm, rfl⟩
    exact ⟨n, Parser.yields_many_success_iff.mpr ⟨_, hi, rfl⟩⟩
  | many1_failure _ ih =>
    obtain ⟨n, ih⟩ := ih
    exact ⟨n, Parser.yields_many1.mpr (.inl ⟨_, ih, rfl⟩)⟩
  | many1_success _ _ ihg ihm =>
    obtain ⟨n, hg, hm⟩ := both ihg ihm
    have hi := Parser.ends_items_of_yields_many hm
    exact ⟨n, Parser.yields_many1.mpr (.inr ⟨_, _, _, _, _, _, hg, hi, rfl, rfl⟩)⟩

/-- What can be derived is what the parser of a grammar yields. -/
theorem Derives.yields (h : Derives M rules g s o t) : (g.parser M rules).Yields s o t :=
  yields_parser_iff.mpr h.yields_parserWith

/-- At most one outcome and trace can be derived for a grammar and an input. -/
theorem Derives.unique {o' : Outcome (M.Input κ) ε α} {t' : Trace} (h : Derives M rules g s o t)
    (h' : Derives M rules g s o' t') : o = o' ∧ t = t' :=
  h.yields.unique h'.yields

end Grammar
end TracedParsers
