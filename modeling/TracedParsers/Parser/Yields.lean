import TracedParsers.Parser.Repetition

/-!
# What a parser yields

`p.Yields s o t` says that `p` on input `s` ends with outcome `o` after the events `t`. Each
construction has one statement here that says exactly what it yields in terms of its parts.
-/

namespace TracedParsers
namespace Parser

variable {σ σ' ε ε' α β : Type} {s : σ} {t : Trace}

/-- On input `s` the parser ends with outcome `o` after the events `t`. -/
def Yields (p : Parser σ ε α) (s : σ) (o : Outcome σ ε α) (t : Trace) : Prop :=
  (p.parse s).Ends o t

/-- A parser yields at most one outcome and trace. -/
theorem Yields.unique {p : Parser σ ε α} {o o' : Outcome σ ε α} {t' : Trace} (h : p.Yields s o t)
    (h' : p.Yields s o' t') : o = o' ∧ t = t' :=
  Run.Ends.unique h h'

/-! ### Parsers that read nothing -/

@[simp] theorem yields_pure {a : α} {o : Outcome σ ε α} :
    (Parser.pure a : Parser σ ε α).Yields s o t ↔ o = .success a s ∧ t = [] :=
  Run.ends_pure

@[simp] theorem yields_blank [Blank α] {o : Outcome σ ε α} :
    (blank : Parser σ ε α).Yields s o t ↔ o = .success Blank.blank s ∧ t = [] :=
  Run.ends_pure

@[simp] theorem yields_fail {e : ε} {o : Outcome σ ε α} :
    (fail e : Parser σ ε α).Yields s o t ↔ o = .failure e ∧ t = [] :=
  Run.ends_pure

@[simp] theorem not_yields_never {o : Outcome σ ε α} : ¬(never : Parser σ ε α).Yields s o t :=
  Run.not_ends_never

@[simp] theorem yields_ofFn {read : σ → Except ε (α × σ)} {o : Outcome σ ε α} :
    (ofFn read).Yields s o t ↔ o = .ofExcept (read s) ∧ t = [] :=
  Run.ends_pure

/-! ### Transformations -/

theorem yields_map {f : α → β} {p : Parser σ ε α} {o : Outcome σ ε β} :
    (p.map f).Yields s o t ↔ ∃ o', p.Yields s o' t ∧ o = o'.map f :=
  Run.ends_map

theorem yields_map_success_iff {f : α → β} {p : Parser σ ε α} {b : β} {r : σ} :
    (p.map f).Yields s (.success b r) t ↔ ∃ a, p.Yields s (.success a r) t ∧ f a = b := by
  rw [yields_map]
  constructor
  · rintro ⟨o, hp, ho⟩
    obtain ⟨a, rfl, hb⟩ := Outcome.map_eq_success_iff.mp ho.symm
    exact ⟨a, hp, hb⟩
  · rintro ⟨a, hp, rfl⟩
    exact ⟨_, hp, rfl⟩

theorem yields_map_failure_iff {f : α → β} {p : Parser σ ε α} {e : ε} :
    (p.map f).Yields s (.failure e) t ↔ p.Yields s (.failure e) t := by
  rw [yields_map]
  constructor
  · rintro ⟨o, hp, ho⟩
    obtain rfl := Outcome.map_eq_failure_iff.mp ho.symm
    exact hp
  · intro hp
    exact ⟨_, hp, rfl⟩

theorem yields_mapError {f : ε → ε'} {p : Parser σ ε α} {o : Outcome σ ε' α} :
    (p.mapError f).Yields s o t ↔ ∃ o', p.Yields s o' t ∧ o = o'.mapError f :=
  Run.ends_map

theorem yields_through {into : σ → σ'} {back : σ' → σ} {p : Parser σ' ε α} {o : Outcome σ ε α} :
    (p.through into back).Yields s o t ↔ ∃ o', p.Yields (into s) o' t ∧ o = o'.mapRest back :=
  Run.ends_map

theorem yields_validate {check : α → Except ε β} {p : Parser σ ε α} {o : Outcome σ ε β} :
    (p.validate check).Yields s o t ↔
      (∃ e, p.Yields s (.failure e) t ∧ o = .failure e) ∨
      (∃ a rest b, p.Yields s (.success a rest) t ∧ check a = .ok b ∧ o = .success b rest) ∨
      ∃ a rest e t', p.Yields s (.success a rest) t' ∧ check a = .error e ∧ o = .failure e ∧
        t = t' ++ [.rejected] := by
  simp only [Yields, validate, Run.ends_bind]
  constructor
  · rintro ⟨x, t₁, t₂, hp, h, rfl⟩
    cases x with
    | failure e =>
      obtain ⟨rfl, rfl⟩ := Run.ends_pure.mp h
      exact Or.inl ⟨e, by rwa [List.append_nil], rfl⟩
    | success a rest =>
      simp only at h
      split at h
      next b hb =>
        obtain ⟨rfl, rfl⟩ := Run.ends_pure.mp h
        exact Or.inr (Or.inl ⟨a, rest, b, by rwa [List.append_nil], hb, rfl⟩)
      next e he =>
        simp only [Run.ends_bind, Run.ends_emit, Run.ends_pure] at h
        obtain ⟨_, _, _, rfl, ⟨rfl, rfl⟩, rfl⟩ := h
        exact Or.inr (Or.inr ⟨a, rest, e, t₁, hp, he, rfl, rfl⟩)
  · rintro (⟨e, hp, rfl⟩ | ⟨a, rest, b, hp, hb, rfl⟩ | ⟨a, rest, e, t', hp, he, rfl, rfl⟩)
    · exact ⟨_, t, [], hp, Run.ends_pure.mpr ⟨rfl, rfl⟩, (List.append_nil t).symm⟩
    · exact ⟨_, t, [], hp, by simp [hb], (List.append_nil t).symm⟩
    · exact ⟨_, t', [.rejected], hp, by simp [he], rfl⟩

/-! ### Sequence -/

theorem yields_seq {p : Parser σ ε α} {q : Parser σ ε β} {o : Outcome σ ε (α × β)} :
    (p.seq q).Yields s o t ↔
      (∃ e, p.Yields s (.failure e) t ∧ o = .failure e) ∨
      ∃ a rest o' t₁ t₂, p.Yields s (.success a rest) t₁ ∧ q.Yields rest o' t₂ ∧
        o = o'.map (a, ·) ∧ t = t₁ ++ t₂ := by
  simp only [Yields, Parser.seq, Run.ends_bind]
  constructor
  · rintro ⟨x, t₁, t₂, hp, h, rfl⟩
    cases x with
    | failure e =>
      obtain ⟨rfl, rfl⟩ := Run.ends_pure.mp h
      exact Or.inl ⟨e, by rwa [List.append_nil], rfl⟩
    | success a rest =>
      obtain ⟨o', hq, rfl⟩ := Run.ends_map.mp h
      exact Or.inr ⟨a, rest, o', t₁, t₂, hp, hq, rfl, rfl⟩
  · rintro (⟨e, hp, rfl⟩ | ⟨a, rest, o', t₁, t₂, hp, hq, rfl, rfl⟩)
    · exact ⟨_, t, [], hp, Run.ends_pure.mpr ⟨rfl, rfl⟩, (List.append_nil t).symm⟩
    · exact ⟨_, t₁, t₂, hp, Run.ends_map.mpr ⟨o', hq, rfl⟩, rfl⟩

theorem yields_seq_success_iff {p : Parser σ ε α} {q : Parser σ ε β} {a : α} {b : β} {r : σ} :
    (p.seq q).Yields s (.success (a, b) r) t ↔
      ∃ rest t₁ t₂, p.Yields s (.success a rest) t₁ ∧ q.Yields rest (.success b r) t₂ ∧ t = t₁ ++ t₂ := by
  rw [yields_seq]
  constructor
  · rintro (⟨_, _, ho⟩ | ⟨a', rest, o, t₁, t₂, hp, hq, ho, ht⟩)
    · nomatch ho
    · obtain ⟨b', rfl, hb⟩ := Outcome.map_eq_success_iff.mp ho.symm
      cases hb
      exact ⟨rest, t₁, t₂, hp, hq, ht⟩
  · rintro ⟨rest, t₁, t₂, hp, hq, ht⟩
    exact .inr ⟨a, rest, _, t₁, t₂, hp, hq, rfl, ht⟩

theorem yields_seq_failure_iff {p : Parser σ ε α} {q : Parser σ ε β} {e : ε} :
    (p.seq q).Yields s (.failure e) t ↔
      p.Yields s (.failure e) t ∨
      ∃ a rest t₁ t₂, p.Yields s (.success a rest) t₁ ∧ q.Yields rest (.failure e) t₂ ∧ t = t₁ ++ t₂ := by
  rw [yields_seq]
  constructor
  · rintro (⟨_, hp, ho⟩ | ⟨a, rest, o, t₁, t₂, hp, hq, ho, ht⟩)
    · cases ho
      exact .inl hp
    · obtain rfl := Outcome.map_eq_failure_iff.mp ho.symm
      exact .inr ⟨a, rest, t₁, t₂, hp, hq, ht⟩
  · rintro (hp | ⟨a, rest, t₁, t₂, hp, hq, ht⟩)
    · exact .inl ⟨e, hp, rfl⟩
    · exact .inr ⟨a, rest, _, t₁, t₂, hp, hq, rfl, ht⟩

theorem yields_seqLeft {p : Parser σ ε α} {q : Parser σ ε β} {o : Outcome σ ε α} :
    (p.seqLeft q).Yields s o t ↔
      (∃ e, p.Yields s (.failure e) t ∧ o = .failure e) ∨
      ∃ a rest o' t₁ t₂, p.Yields s (.success a rest) t₁ ∧ q.Yields rest o' t₂ ∧
        o = o'.map (fun _ => a) ∧ t = t₁ ++ t₂ := by
  simp only [Parser.seqLeft, yields_map, yields_seq]
  constructor
  · rintro ⟨_, ⟨e, hp, rfl⟩ | ⟨a, rest, o', t₁, t₂, hp, hq, rfl, ht⟩, rfl⟩
    · exact Or.inl ⟨e, hp, rfl⟩
    · exact Or.inr ⟨a, rest, o', t₁, t₂, hp, hq, Outcome.map_map .., ht⟩
  · rintro (⟨e, hp, rfl⟩ | ⟨a, rest, o', t₁, t₂, hp, hq, rfl, ht⟩)
    · exact ⟨_, Or.inl ⟨e, hp, rfl⟩, rfl⟩
    · exact ⟨_, Or.inr ⟨a, rest, o', t₁, t₂, hp, hq, rfl, ht⟩, by rw [Outcome.map_map]⟩

theorem yields_seqRight {p : Parser σ ε α} {q : Parser σ ε β} {o : Outcome σ ε β} :
    (p.seqRight q).Yields s o t ↔
      (∃ e, p.Yields s (.failure e) t ∧ o = .failure e) ∨
      ∃ a rest t₁ t₂, p.Yields s (.success a rest) t₁ ∧ q.Yields rest o t₂ ∧ t = t₁ ++ t₂ := by
  simp only [Parser.seqRight, yields_map, yields_seq]
  constructor
  · rintro ⟨_, ⟨e, hp, rfl⟩ | ⟨a, rest, o', t₁, t₂, hp, hq, rfl, ht⟩, rfl⟩
    · exact Or.inl ⟨e, hp, rfl⟩
    · exact Or.inr ⟨a, rest, t₁, t₂, hp, by rwa [Outcome.map_map, Outcome.map_id], ht⟩
  · rintro (⟨e, hp, rfl⟩ | ⟨a, rest, t₁, t₂, hp, hq, ht⟩)
    · exact ⟨_, Or.inl ⟨e, hp, rfl⟩, rfl⟩
    · exact ⟨_, Or.inr ⟨a, rest, o, t₁, t₂, hp, hq, rfl, ht⟩, by rw [Outcome.map_map, Outcome.map_id]⟩

theorem yields_seqRight_success_iff {p : Parser σ ε α} {q : Parser σ ε β} {b : β} {r : σ} :
    (p.seqRight q).Yields s (.success b r) t ↔
      ∃ a rest t₁ t₂, p.Yields s (.success a rest) t₁ ∧ q.Yields rest (.success b r) t₂ ∧ t = t₁ ++ t₂ := by
  rw [yields_seqRight]
  constructor
  · rintro (⟨_, _, ho⟩ | h)
    · nomatch ho
    · exact h
  · exact .inr

theorem yields_seqRight_failure_iff {p : Parser σ ε α} {q : Parser σ ε β} {e : ε} :
    (p.seqRight q).Yields s (.failure e) t ↔
      p.Yields s (.failure e) t ∨
      ∃ a rest t₁ t₂, p.Yields s (.success a rest) t₁ ∧ q.Yields rest (.failure e) t₂ ∧ t = t₁ ++ t₂ := by
  rw [Parser.seqRight, yields_map_failure_iff, yields_seq_failure_iff]

/-! ### Choice -/

theorem yields_choice {p : Parser σ ε α} {q : Parser σ ε β} {o : Outcome σ ε (α ⊕ β)} :
    (p.choice q).Yields s o t ↔
      (∃ a rest, p.Yields s (.success a rest) t ∧ o = .success (.inl a) rest) ∨
      ∃ e o' t₁ t₂, p.Yields s (.failure e) t₁ ∧ q.Yields s o' t₂ ∧ o = o'.map .inr ∧
        t = t₁ ++ .fallback :: t₂ := by
  simp only [Yields, Parser.choice, Run.ends_bind]
  constructor
  · rintro ⟨x, t₁, t₂, hp, h, rfl⟩
    cases x with
    | success a rest =>
      obtain ⟨rfl, rfl⟩ := Run.ends_pure.mp h
      exact Or.inl ⟨a, rest, by rwa [List.append_nil], rfl⟩
    | failure e =>
      simp only [Run.ends_bind, Run.ends_emit, Run.ends_map] at h
      obtain ⟨_, _, t₂, rfl, ⟨o', hq, rfl⟩, rfl⟩ := h
      exact Or.inr ⟨e, o', t₁, t₂, hp, hq, rfl, rfl⟩
  · rintro (⟨a, rest, hp, rfl⟩ | ⟨e, o', t₁, t₂, hp, hq, rfl, rfl⟩)
    · exact ⟨_, t, [], hp, Run.ends_pure.mpr ⟨rfl, rfl⟩, (List.append_nil t).symm⟩
    · refine ⟨_, t₁, _, hp, ?_, rfl⟩
      simp only [Run.ends_bind, Run.ends_emit, Run.ends_map]
      exact ⟨(), _, t₂, rfl, ⟨o', hq, rfl⟩, rfl⟩

theorem yields_choice_inl_iff {p : Parser σ ε α} {q : Parser σ ε β} {a : α} {r : σ} :
    (p.choice q).Yields s (.success (.inl a) r) t ↔ p.Yields s (.success a r) t := by
  rw [yields_choice]
  constructor
  · rintro (⟨_, _, hp, ho⟩ | ⟨_, o, _, _, _, _, ho, _⟩)
    · cases ho
      exact hp
    · obtain ⟨b, -, hb⟩ := Outcome.map_eq_success_iff.mp ho.symm
      nomatch hb
  · intro hp
    exact .inl ⟨a, r, hp, rfl⟩

theorem yields_choice_inr_iff {p : Parser σ ε α} {q : Parser σ ε β} {b : β} {r : σ} :
    (p.choice q).Yields s (.success (.inr b) r) t ↔
      ∃ e t₁ t₂, p.Yields s (.failure e) t₁ ∧ q.Yields s (.success b r) t₂ ∧ t = t₁ ++ .fallback :: t₂ := by
  rw [yields_choice]
  constructor
  · rintro (⟨_, _, _, ho⟩ | ⟨e, o, t₁, t₂, hp, hq, ho, ht⟩)
    · nomatch ho
    · obtain ⟨b', rfl, hb⟩ := Outcome.map_eq_success_iff.mp ho.symm
      cases hb
      exact ⟨e, t₁, t₂, hp, hq, ht⟩
  · rintro ⟨e, t₁, t₂, hp, hq, ht⟩
    exact .inr ⟨e, _, t₁, t₂, hp, hq, rfl, ht⟩

theorem yields_choice_failure_iff {p : Parser σ ε α} {q : Parser σ ε β} {e : ε} :
    (p.choice q).Yields s (.failure e) t ↔
      ∃ e' t₁ t₂, p.Yields s (.failure e') t₁ ∧ q.Yields s (.failure e) t₂ ∧ t = t₁ ++ .fallback :: t₂ := by
  rw [yields_choice]
  constructor
  · rintro (⟨_, _, _, ho⟩ | ⟨e', o, t₁, t₂, hp, hq, ho, ht⟩)
    · nomatch ho
    · obtain rfl := Outcome.map_eq_failure_iff.mp ho.symm
      exact ⟨e', t₁, t₂, hp, hq, ht⟩
  · rintro ⟨e', t₁, t₂, hp, hq, ht⟩
    exact .inr ⟨e', _, t₁, t₂, hp, hq, rfl, ht⟩

theorem yields_orElse {p q : Parser σ ε α} {o : Outcome σ ε α} :
    (p.orElse q).Yields s o t ↔
      (∃ a rest, p.Yields s (.success a rest) t ∧ o = .success a rest) ∨
      ∃ e t₁ t₂, p.Yields s (.failure e) t₁ ∧ q.Yields s o t₂ ∧ t = t₁ ++ .fallback :: t₂ := by
  simp only [Parser.orElse, yields_map, yields_choice]
  constructor
  · rintro ⟨_, ⟨a, rest, hp, rfl⟩ | ⟨e, o', t₁, t₂, hp, hq, rfl, ht⟩, rfl⟩
    · exact Or.inl ⟨a, rest, hp, rfl⟩
    · exact Or.inr ⟨e, t₁, t₂, hp, by simpa using hq, ht⟩
  · rintro (⟨a, rest, hp, rfl⟩ | ⟨e, t₁, t₂, hp, hq, ht⟩)
    · exact ⟨_, Or.inl ⟨a, rest, hp, rfl⟩, rfl⟩
    · exact ⟨_, Or.inr ⟨e, o, t₁, t₂, hp, hq, rfl, ht⟩, by simp⟩

theorem yields_orElse_success_iff {p q : Parser σ ε α} {a : α} {r : σ} :
    (p.orElse q).Yields s (.success a r) t ↔
      p.Yields s (.success a r) t ∨
      ∃ e t₁ t₂, p.Yields s (.failure e) t₁ ∧ q.Yields s (.success a r) t₂ ∧ t = t₁ ++ .fallback :: t₂ := by
  rw [yields_orElse]
  refine or_congr_left ?_
  constructor
  · rintro ⟨_, _, hp, ho⟩
    cases ho
    exact hp
  · intro hp
    exact ⟨a, r, hp, rfl⟩

theorem yields_orElse_failure_iff {p q : Parser σ ε α} {e : ε} :
    (p.orElse q).Yields s (.failure e) t ↔
      ∃ e' t₁ t₂, p.Yields s (.failure e') t₁ ∧ q.Yields s (.failure e) t₂ ∧ t = t₁ ++ .fallback :: t₂ := by
  rw [yields_orElse]
  constructor
  · rintro (⟨_, _, _, ho⟩ | h)
    · nomatch ho
    · exact h
  · exact .inr

theorem yields_optional {p : Parser σ ε α} {o : Outcome σ ε (Option α)} :
    p.optional.Yields s o t ↔
      (∃ a rest, p.Yields s (.success a rest) t ∧ o = .success (some a) rest) ∨
      ∃ e t₁, p.Yields s (.failure e) t₁ ∧ o = .success none s ∧ t = t₁ ++ [.fallback] := by
  simp only [Parser.optional, yields_orElse, yields_map, yields_blank]
  constructor
  · rintro (⟨_, _, ⟨_ | _, hp, ho⟩, rfl⟩ | ⟨_, t₁, _, ⟨_ | e, hp, ho⟩, ⟨rfl, rfl⟩, rfl⟩)
    · cases ho
      exact Or.inl ⟨_, _, hp, rfl⟩
    · cases ho
    · cases ho
    · exact Or.inr ⟨e, t₁, hp, rfl, rfl⟩
  · rintro (⟨a, rest, hp, rfl⟩ | ⟨e, t₁, hp, rfl, rfl⟩)
    · exact Or.inl ⟨_, _, ⟨_, hp, rfl⟩, rfl⟩
    · exact Or.inr ⟨e, t₁, [], ⟨_, hp, rfl⟩, ⟨rfl, rfl⟩, rfl⟩

/-! ### Repetition -/

theorem ends_items {p : Parser σ ε α} {as : List α} {r : σ} :
    (p.items s).Ends (as, r) t ↔
      (∃ e, p.Yields s (.failure e) t ∧ as = [] ∧ r = s) ∨
      ∃ a rest as' t₁ t₂, p.Yields s (.success a rest) t₁ ∧ (p.items rest).Ends (as', r) t₂ ∧
        as = a :: as' ∧ t = t₁ ++ t₂ := by
  rw [items_eq, Run.ends_later, Run.ends_bind]
  constructor
  · rintro ⟨x, t₁, t₂, hp, h, rfl⟩
    cases x with
    | failure e =>
      simp only [Run.ends_pure, Prod.mk.injEq] at h
      obtain ⟨⟨rfl, rfl⟩, rfl⟩ := h
      exact Or.inl ⟨e, by rwa [List.append_nil], rfl, rfl⟩
    | success a rest =>
      simp only [Run.ends_bind, Run.ends_pure, Prod.mk.injEq] at h
      obtain ⟨⟨as', _⟩, t₂, _, hi, ⟨⟨rfl, rfl⟩, rfl⟩, rfl⟩ := h
      exact Or.inr ⟨a, rest, as', t₁, t₂, hp, hi, rfl, by rw [List.append_nil]⟩
  · rintro (⟨e, hp, rfl, rfl⟩ | ⟨a, rest, as', t₁, t₂, hp, hi, rfl, rfl⟩)
    · exact ⟨_, t, [], hp, Run.ends_pure.mpr ⟨rfl, rfl⟩, (List.append_nil t).symm⟩
    · refine ⟨_, t₁, t₂, hp, ?_, rfl⟩
      simp only [Run.ends_bind, Run.ends_pure]
      exact ⟨_, t₂, [], hi, ⟨rfl, rfl⟩, (List.append_nil t₂).symm⟩

theorem ends_items_nil_iff {p : Parser σ ε α} {r : σ} :
    (p.items s).Ends ([], r) t ↔ r = s ∧ ∃ e, p.Yields s (.failure e) t := by
  rw [ends_items]
  constructor
  · rintro (⟨e, hp, -, hr⟩ | ⟨_, _, _, _, _, -, -, has, -⟩)
    · exact ⟨hr, e, hp⟩
    · nomatch has
  · rintro ⟨hr, e, hp⟩
    exact .inl ⟨e, hp, rfl, hr⟩

theorem ends_items_cons_iff {p : Parser σ ε α} {a : α} {as : List α} {r : σ} :
    (p.items s).Ends (a :: as, r) t ↔
      ∃ rest t₁ t₂, p.Yields s (.success a rest) t₁ ∧ (p.items rest).Ends (as, r) t₂ ∧ t = t₁ ++ t₂ := by
  rw [ends_items]
  constructor
  · rintro (⟨_, -, has, -⟩ | ⟨_, rest, _, t₁, t₂, hp, hi, has, ht⟩)
    · nomatch has
    · cases has
      exact ⟨rest, t₁, t₂, hp, hi, ht⟩
  · rintro ⟨rest, t₁, t₂, hp, hi, ht⟩
    exact .inr ⟨a, rest, as, t₁, t₂, hp, hi, rfl, ht⟩

/-- The loop that starts with a value ends where the loop that starts with none does. -/
theorem ends_loop_singleton_iff {p : Parser σ ε α} {a : α} {as : List α} {r : σ} :
    (p.loop [a] s).Ends (as, r) t ↔ ∃ as', (p.items s).Ends (as', r) t ∧ as = a :: as' := by
  rw [loop_eq, Run.ends_map]
  constructor
  · rintro ⟨⟨as', _⟩, hi, h⟩
    cases h
    exact ⟨as', hi, rfl⟩
  · rintro ⟨as', hi, rfl⟩
    exact ⟨(as', r), hi, rfl⟩

theorem yields_many {p : Parser σ ε α} {o : Outcome σ ε (List α)} :
    p.many.Yields s o t ↔
      ∃ as rest t', (p.items s).Ends (as, rest) t' ∧ o = .success as rest ∧
        t = t' ++ [.stopped as.length] := by
  simp only [Yields, Parser.many, Run.ends_bind, Run.ends_emit, Run.ends_pure]
  constructor
  · rintro ⟨⟨as, rest⟩, t', _, hi, ⟨_, _, _, rfl, ⟨rfl, rfl⟩, rfl⟩, rfl⟩
    exact ⟨as, rest, t', hi, rfl, rfl⟩
  · rintro ⟨as, rest, t', hi, rfl, rfl⟩
    exact ⟨(as, rest), t', _, hi, ⟨(), _, [], rfl, ⟨rfl, rfl⟩, rfl⟩, rfl⟩

theorem yields_many_success_iff {p : Parser σ ε α} {as : List α} {r : σ} :
    p.many.Yields s (.success as r) t ↔ ∃ u, (p.items s).Ends (as, r) u ∧ t = u ++ [.stopped as.length] := by
  rw [yields_many]
  constructor
  · rintro ⟨_, _, u, hi, ho, rfl⟩
    cases ho
    exact ⟨u, hi, rfl⟩
  · rintro ⟨u, hi, rfl⟩
    exact ⟨as, r, u, hi, rfl, rfl⟩

theorem not_yields_many_failure {p : Parser σ ε α} {e : ε} : ¬p.many.Yields s (.failure e) t := by
  intro h
  obtain ⟨_, _, _, _, ho, _⟩ := yields_many.mp h
  nomatch ho

/-- A repetition shows its last event, and before it the events of the attempts. -/
theorem ends_items_of_yields_many {p : Parser σ ε α} {as : List α} {r : σ}
    (h : p.many.Yields s (.success as r) (t ++ [.stopped as.length])) : (p.items s).Ends (as, r) t := by
  obtain ⟨t', hi, ht⟩ := yields_many_success_iff.mp h
  rwa [List.append_cancel_right ht]

/-- A repetition of at least one is a first success, and then the loop that starts with its value. -/
theorem yields_many1_loop {p : Parser σ ε α} {o : Outcome σ ε (List α)} :
    p.many1.Yields s o t ↔
      (∃ e, p.Yields s (.failure e) t ∧ o = .failure e) ∨
      ∃ a r as rest t₁ t₂, p.Yields s (.success a r) t₁ ∧ (p.loop [a] r).Ends (as, rest) t₂ ∧
        o = .success as rest ∧ t = t₁ ++ t₂ := by
  simp only [Yields, Parser.many1, Run.ends_bind]
  constructor
  · rintro ⟨x, t₁, t₂, hp, h, rfl⟩
    cases x with
    | failure e =>
      obtain ⟨rfl, rfl⟩ := Run.ends_pure.mp h
      exact Or.inl ⟨e, by rwa [List.append_nil], rfl⟩
    | success a r =>
      simp only [Run.ends_bind, Run.ends_pure] at h
      obtain ⟨⟨as, rest⟩, t₂, _, hloop, ⟨rfl, rfl⟩, rfl⟩ := h
      exact Or.inr ⟨a, r, as, rest, t₁, t₂, hp, hloop, rfl, by rw [List.append_nil]⟩
  · rintro (⟨e, hp, rfl⟩ | ⟨a, r, as, rest, t₁, t₂, hp, hloop, rfl, rfl⟩)
    · exact ⟨_, t, [], hp, Run.ends_pure.mpr ⟨rfl, rfl⟩, (List.append_nil t).symm⟩
    · refine ⟨_, t₁, t₂, hp, ?_, rfl⟩
      simp only [Run.ends_bind, Run.ends_pure]
      exact ⟨(as, rest), t₂, [], hloop, ⟨rfl, rfl⟩, (List.append_nil t₂).symm⟩

/-- The same about the loop of a repetition of any number. -/
theorem yields_many1 {p : Parser σ ε α} {o : Outcome σ ε (List α)} :
    p.many1.Yields s o t ↔
      (∃ e, p.Yields s (.failure e) t ∧ o = .failure e) ∨
      ∃ a r as rest t₁ t₂, p.Yields s (.success a r) t₁ ∧ (p.items r).Ends (as, rest) t₂ ∧
        o = .success (a :: as) rest ∧ t = t₁ ++ t₂ := by
  rw [yields_many1_loop]
  refine or_congr_right ?_
  constructor
  · rintro ⟨a, r, _, rest, t₁, t₂, hp, hloop, rfl, ht⟩
    obtain ⟨as, hi, rfl⟩ := ends_loop_singleton_iff.mp hloop
    exact ⟨a, r, as, rest, t₁, t₂, hp, hi, rfl, ht⟩
  · rintro ⟨a, r, as, rest, t₁, t₂, hp, hi, rfl, ht⟩
    have hloop : (p.loop [a] r).Ends (a :: as, rest) t₂ := ends_loop_singleton_iff.mpr ⟨as, hi, rfl⟩
    exact ⟨a, r, a :: as, rest, t₁, t₂, hp, hloop, rfl, ht⟩

theorem yields_many1_failure_iff {p : Parser σ ε α} {e : ε} :
    p.many1.Yields s (.failure e) t ↔ p.Yields s (.failure e) t := by
  rw [yields_many1]
  constructor
  · rintro (⟨e', hp, he⟩ | ⟨_, _, _, _, _, _, _, _, ho, _⟩)
    · cases he
      exact hp
    · nomatch ho
  · intro hp
    exact .inl ⟨e, hp, rfl⟩

/-- Where it succeeds, a repetition of at least one is the loop of a repetition of any number. -/
theorem yields_many1_cons_iff {p : Parser σ ε α} {a : α} {as : List α} {rest : σ} :
    p.many1.Yields s (.success (a :: as) rest) t ↔ (p.items s).Ends (a :: as, rest) t := by
  rw [yields_many1, ends_items_cons_iff]
  constructor
  · rintro (⟨_, _, ho⟩ | ⟨_, r, _, _, t₁, t₂, hp, hi, ho, ht⟩)
    · nomatch ho
    · cases ho
      exact ⟨r, t₁, t₂, hp, hi, ht⟩
  · rintro ⟨r, t₁, t₂, hp, hi, ht⟩
    exact .inr ⟨a, r, as, rest, t₁, t₂, hp, hi, rfl, ht⟩

theorem not_yields_many1_nil {p : Parser σ ε α} {rest : σ} : ¬p.many1.Yields s (.success [] rest) t := by
  intro h
  rcases yields_many1.mp h with ⟨_, _, ho⟩ | ⟨_, _, _, _, _, _, _, _, ho, _⟩
  · nomatch ho
  · nomatch ho

end Parser
end TracedParsers
