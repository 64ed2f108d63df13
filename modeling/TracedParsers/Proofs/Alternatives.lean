import TracedParsers.Parser.Bracketing
import TracedParsers.Parser.Values
import TracedParsers.Proofs.Leaves

/-!
# Nested choices

Parsers in ordered choice are tried one after the other on the same input, until one succeeds or all have failed.
How the choice is nested does not matter: the nest tries its leaves in order and reports a fallback between any two
that it tries, and the brackets show only in the sides of the value. A parser that stands in front of every
alternative may be taken out of the choice.
-/

namespace TracedParsers

variable {σ ε : Type}

/-- All parsers of a list fail on `s`, with these errors and traces. -/
inductive Refused (s : σ) : List (AnyParser σ ε) → List ε → List Trace → Prop where
  | nil : Refused s [] [] []
  | cons {p ps e t es ts} (fails : p.2.Yields s (.failure e) t) (others : Refused s ps es ts) :
      Refused s (p :: ps) (e :: es) (t :: ts)

/-- The first parser of a list that succeeds on `s` has `k` others before it, and gives this value and rest. The
    traces are those of the parsers that are tried. -/
inductive Selects (s : σ) : List (AnyParser σ ε) → (k : Nat) → AnyValue → σ → List Trace → Prop where
  | here {p ps a r t} (succeeds : p.2.Yields s (.success a r) t) : Selects s (p :: ps) 0 ⟨p.1, a⟩ r [t]
  | later {p ps e t k v r ts} (fails : p.2.Yields s (.failure e) t) (others : Selects s ps k v r ts) :
      Selects s (p :: ps) (k + 1) v r (t :: ts)

/-- The traces of parsers that are tried one after the other, with a fallback between any two. -/
def withFallbacks (traces : List Trace) : Trace :=
  [Event.fallback].intercalate traces

variable {ps qs : List (AnyParser σ ε)} {s r : σ} {k : Nat} {v : AnyValue} {es : List ε} {t : Trace}
  {ts us : List Trace}

/-! ### Fallbacks -/

@[simp] theorem withFallbacks_singleton (t : Trace) : withFallbacks [t] = t :=
  List.intercalate_singleton

theorem withFallbacks_cons (t : Trace) (h : ts ≠ []) :
    withFallbacks (t :: ts) = t ++ .fallback :: withFallbacks ts := by
  rw [withFallbacks, List.intercalate_cons_of_ne_nil h, List.append_assoc, List.singleton_append, withFallbacks]

theorem withFallbacks_append (hts : ts ≠ []) (hus : us ≠ []) :
    withFallbacks (ts ++ us) = withFallbacks ts ++ .fallback :: withFallbacks us := by
  induction ts with
  | nil => exact absurd rfl hts
  | cons t ts ih =>
    cases ts with
    | nil => rw [List.singleton_append, withFallbacks_cons t hus, withFallbacks_singleton]
    | cons u ts =>
      have hrest : u :: ts ≠ [] := List.cons_ne_nil u ts
      have hboth : u :: ts ++ us ≠ [] := List.append_ne_nil_of_left_ne_nil hrest us
      rw [List.cons_append, withFallbacks_cons t hboth, ih hrest, withFallbacks_cons t hrest, List.append_assoc,
        List.cons_append]

/-- There is one fallback less than there are traces. -/
theorem length_withFallbacks (h : ts.length = k + 1) : (withFallbacks ts).length = ts.flatten.length + k := by
  induction ts generalizing k with
  | nil => nomatch h
  | cons t ts ih =>
    cases ts with
    | nil =>
      obtain rfl : 0 = k := Nat.succ.inj h
      rw [withFallbacks_singleton, List.flatten_singleton, Nat.add_zero]
    | cons u ts =>
      obtain rfl : ts.length + 1 = k := Nat.succ.inj h
      have hflatten : (t :: u :: ts).flatten.length = t.length + (u :: ts).flatten.length := by
        rw [List.flatten_cons, List.length_append]
      rw [withFallbacks_cons t (List.cons_ne_nil u ts), List.length_append, List.length_cons, ih rfl, hflatten]
      omega

/-! ### Lists one after the other -/

theorem Refused.length (h : Refused s ps es ts) : es.length = ps.length ∧ ts.length = ps.length := by
  induction h with
  | nil => exact ⟨rfl, rfl⟩
  | cons _ _ ih => exact ⟨congrArg (· + 1) ih.1, congrArg (· + 1) ih.2⟩

theorem Refused.ne_nil (h : Refused s ps es ts) (hps : ps ≠ []) : es ≠ [] ∧ ts ≠ [] := by
  cases h with
  | nil => exact absurd rfl hps
  | cons _ _ => exact ⟨List.cons_ne_nil _ _, List.cons_ne_nil _ _⟩

theorem Selects.length (h : Selects s ps k v r ts) : ts.length = k + 1 := by
  induction h with
  | here _ => rfl
  | later _ _ ih => exact congrArg (· + 1) ih

theorem Selects.ne_nil (h : Selects s ps k v r ts) : ts ≠ [] := by
  cases h <;> exact List.cons_ne_nil _ _

theorem Selects.lt (h : Selects s ps k v r ts) : k < ps.length := by
  induction h with
  | here _ => exact Nat.succ_pos _
  | later _ _ ih => exact Nat.succ_lt_succ ih

/-- Each parser of a refused list fails. -/
theorem Refused.fails (h : Refused s ps es ts) {p : AnyParser σ ε} (hp : p ∈ ps) :
    ∃ e t, p.2.Yields s (.failure e) t := by
  induction h with
  | nil => nomatch hp
  | cons fails _ ih =>
    rcases List.mem_cons.mp hp with rfl | hp
    · exact ⟨_, _, fails⟩
    · exact ih hp

/-- The last error is that of the last parser. -/
theorem Refused.last_fails (h : Refused s ps es ts) {e : ε} (he : es.getLast? = some e) :
    ∃ p t, ps.getLast? = some p ∧ p.2.Yields s (.failure e) t := by
  induction h with
  | nil => nomatch he
  | @cons p _ _ t _ _ fails others ih =>
    cases others with
    | nil =>
      cases he
      exact ⟨p, t, rfl, fails⟩
    | cons _ _ => exact ih he

/-- The parser that is selected is one of the list. -/
theorem Selects.succeeds (h : Selects s ps k v r ts) :
    ∃ p ∈ ps, ∃ a t, p.2.Yields s (.success a r) t ∧ v = ⟨p.1, a⟩ := by
  induction h with
  | @here p _ a _ t succeeds => exact ⟨p, List.mem_cons_self, a, t, succeeds, rfl⟩
  | later _ _ ih =>
    obtain ⟨p, hp, a, t, succeeds, hv⟩ := ih
    exact ⟨p, List.mem_cons_of_mem _ hp, a, t, succeeds, hv⟩

/-- Where each parser of a list ends, one is selected or all are refused. -/
theorem selects_or_refused (ends : ∀ p ∈ ps, ∃ o t, p.2.Yields s o t) :
    (∃ k v r ts, Selects s ps k v r ts) ∨ ∃ es ts, Refused s ps es ts := by
  induction ps with
  | nil => exact .inr ⟨[], [], .nil⟩
  | cons p ps ih =>
    rw [List.forall_mem_cons] at ends
    obtain ⟨⟨o, t, hp⟩, others⟩ := ends
    cases o with
    | success a r => exact .inl ⟨0, _, r, _, .here hp⟩
    | failure e =>
      rcases ih others with ⟨k, v, r, ts, selects⟩ | ⟨es, ts, refused⟩
      · exact .inl ⟨k + 1, v, r, _, .later hp selects⟩
      · exact .inr ⟨_, _, .cons hp refused⟩

theorem refused_append_iff : Refused s (ps ++ qs) es ts ↔
    ∃ es₁ es₂ ts₁ ts₂, Refused s ps es₁ ts₁ ∧ Refused s qs es₂ ts₂ ∧ es = es₁ ++ es₂ ∧ ts = ts₁ ++ ts₂ := by
  induction ps generalizing es ts with
  | nil =>
    constructor
    · intro h
      exact ⟨[], es, [], ts, .nil, h, rfl, rfl⟩
    · rintro ⟨_, _, _, _, h₁, h₂, rfl, rfl⟩
      cases h₁
      exact h₂
  | cons p ps ih =>
    constructor
    · intro h
      cases h with
      | cons fails others =>
        obtain ⟨es₁, es₂, ts₁, ts₂, h₁, h₂, rfl, rfl⟩ := ih.mp others
        exact ⟨_, es₂, _, ts₂, .cons fails h₁, h₂, rfl, rfl⟩
    · rintro ⟨_, es₂, _, ts₂, h₁, h₂, rfl, rfl⟩
      cases h₁ with
      | cons fails others => exact .cons fails (ih.mpr ⟨_, es₂, _, ts₂, others, h₂, rfl, rfl⟩)

theorem selects_append_iff : Selects s (ps ++ qs) k v r ts ↔
    Selects s ps k v r ts ∨
      ∃ es ts₁ j ts₂, Refused s ps es ts₁ ∧ Selects s qs j v r ts₂ ∧ k = ps.length + j ∧ ts = ts₁ ++ ts₂ := by
  induction ps generalizing k ts with
  | nil =>
    constructor
    · intro h
      exact .inr ⟨[], [], k, ts, .nil, h, (Nat.zero_add k).symm, rfl⟩
    · rintro (h | ⟨_, _, j, ts₂, h₁, h₂, rfl, rfl⟩)
      · nomatch h
      · cases h₁
        rwa [List.length_nil, Nat.zero_add]
  | cons p ps ih =>
    constructor
    · intro h
      cases h with
      | here succeeds => exact .inl (.here succeeds)
      | later fails others =>
        rcases ih.mp others with h | ⟨es, ts₁, j, ts₂, h₁, h₂, rfl, rfl⟩
        · exact .inl (.later fails h)
        · exact .inr ⟨_, _, j, ts₂, .cons fails h₁, h₂, Nat.add_right_comm .., rfl⟩
    · rintro (h | ⟨_, _, j, ts₂, h₁, h₂, rfl, rfl⟩)
      · cases h with
        | here succeeds => exact .here succeeds
        | later fails others => exact .later fails (ih.mpr (.inl others))
      · cases h₁ with
        | cons fails others =>
          rw [List.length_cons, Nat.add_right_comm]
          exact .later fails (ih.mpr (.inr ⟨_, _, j, ts₂, others, h₂, rfl, rfl⟩))

/-- The events that a choice adds are one fewer than the parsers it tries. -/
theorem Selects.eq_withFallbacks_iff (h : Selects s ps k v r ts) :
    t = withFallbacks ts ↔ t = withFallbacks ts ∧ t.length = ts.flatten.length + k := by
  constructor
  · rintro rfl
    exact ⟨rfl, length_withFallbacks h.length⟩
  · exact And.left

theorem Refused.eq_withFallbacks_iff (h : Refused s ps es ts) (hps : ps ≠ []) :
    t = withFallbacks ts ↔ t = withFallbacks ts ∧ t.length + 1 = ts.flatten.length + ps.length := by
  obtain ⟨k, hk⟩ := Nat.exists_eq_succ_of_ne_zero (mt List.length_eq_zero_iff.mp hps)
  constructor
  · rintro rfl
    rw [length_withFallbacks (h.length.2.trans hk), hk]
    exact ⟨rfl, rfl⟩
  · exact And.left

/-! ### Bracketings -/

namespace Bracketing

variable {α : Type} {b b' : Bracketing (AnyParser σ ε)} {c c' : Bracketing (Parser σ ε α)} {e : ε}

theorem choice_yields_failure_iff : b.choice.Yields s (.failure e) t ↔
    ∃ es ts, Refused s b.leaves es ts ∧ es.getLast? = some e ∧ t = withFallbacks ts := by
  induction b generalizing e t with
  | one p =>
    constructor
    · intro h
      exact ⟨[e], [t], .cons h .nil, rfl, (withFallbacks_singleton t).symm⟩
    · rintro ⟨_, _, h, he, rfl⟩
      cases h with
      | cons fails others =>
        cases others
        cases he
        rwa [withFallbacks_singleton]
  | two left right ihl ihr =>
    refine Parser.yields_choice_failure_iff.trans ?_
    simp only [ihl, ihr, leaves, refused_append_iff]
    constructor
    · rintro ⟨_, _, _, ⟨es₁, ts₁, h₁, he₁, rfl⟩, ⟨es₂, ts₂, h₂, he₂, rfl⟩, rfl⟩
      refine ⟨_, _, ⟨es₁, es₂, ts₁, ts₂, h₁, h₂, rfl, rfl⟩, ?_, ?_⟩
      · rw [List.getLast?_append, he₂, Option.some_or]
      · rw [withFallbacks_append (h₁.ne_nil left.leaves_ne_nil).2 (h₂.ne_nil right.leaves_ne_nil).2]
    · rintro ⟨_, _, ⟨es₁, es₂, ts₁, ts₂, h₁, h₂, rfl, rfl⟩, he, rfl⟩
      obtain ⟨hes₁, hts₁⟩ := h₁.ne_nil left.leaves_ne_nil
      obtain ⟨hes₂, hts₂⟩ := h₂.ne_nil right.leaves_ne_nil
      have hlast := List.getLast?_eq_some_getLast hes₂
      rw [List.getLast?_append, hlast, Option.some_or, ← hlast] at he
      exact ⟨_, _, _, ⟨es₁, ts₁, h₁, List.getLast?_eq_some_getLast hes₁, rfl⟩, ⟨es₂, ts₂, h₂, he, rfl⟩,
        withFallbacks_append hts₁ hts₂⟩

theorem choice_yields_success_iff {a : b.Sides} : b.choice.Yields s (.success a r) t ↔
    ∃ ts, Selects s b.leaves (b.chosen a).1 (b.chosen a).2 r ts ∧ t = withFallbacks ts := by
  induction b generalizing r t with
  | one p =>
    constructor
    · intro h
      exact ⟨[t], .here h, (withFallbacks_singleton t).symm⟩
    · rintro ⟨_, h, rfl⟩
      cases h with
      | here succeeds => rwa [withFallbacks_singleton]
  | two left right ihl ihr =>
    simp only [leaves, selects_append_iff]
    cases a with
    | inl a =>
      refine Parser.yields_choice_inl_iff.trans (ihl.trans ?_)
      constructor
      · rintro ⟨ts, h, rfl⟩
        exact ⟨ts, .inl h, rfl⟩
      · rintro ⟨ts, h | ⟨_, _, j, _, -, -, hk, -⟩, rfl⟩
        · exact ⟨ts, h, rfl⟩
        · -- The sides lead to a leaf on the left.
          have hlt := left.chosen_lt a
          have hge : (left.chosen a).1 = left.leaves.length + j := hk
          omega
    | inr a =>
      refine Parser.yields_choice_inr_iff.trans ?_
      simp only [choice_yields_failure_iff, ihr]
      constructor
      · rintro ⟨_, _, _, ⟨es, ts₁, h₁, -, rfl⟩, ⟨ts₂, h₂, rfl⟩, rfl⟩
        refine ⟨ts₁ ++ ts₂, .inr ⟨es, ts₁, _, ts₂, h₁, h₂, rfl, rfl⟩, ?_⟩
        rw [withFallbacks_append (h₁.ne_nil left.leaves_ne_nil).2 h₂.ne_nil]
      · rintro ⟨_, h | ⟨es, ts₁, j, ts₂, h₁, h₂, hk, rfl⟩, rfl⟩
        · have hlt : left.leaves.length + (right.chosen a).1 < left.leaves.length := h.lt
          omega
        · obtain rfl : (right.chosen a).1 = j := Nat.add_left_cancel hk
          obtain ⟨hes₁, hts₁⟩ := h₁.ne_nil left.leaves_ne_nil
          exact ⟨_, _, _, ⟨es, ts₁, h₁, List.getLast?_eq_some_getLast hes₁, rfl⟩, ⟨ts₂, h₂, rfl⟩,
            withFallbacks_append hts₁ h₂.ne_nil⟩

theorem exists_chosen (h : Selects s b.leaves k v r ts) : ∃ a, b.chosen a = (k, v) := by
  induction b generalizing k ts with
  | one p =>
    cases h with
    | here _ => exact ⟨_, rfl⟩
    | later _ others => nomatch others
  | two left right ihl ihr =>
    rcases selects_append_iff.mp h with hleft | ⟨_, _, _, _, -, hright, rfl, -⟩
    · obtain ⟨a, ha⟩ := ihl hleft
      exact ⟨.inl a, ha⟩
    · obtain ⟨a, ha⟩ := ihr hright
      refine ⟨.inr a, ?_⟩
      rw [chosen, ha]

/-- A nest succeeds exactly where a leaf is selected, with its value under the sides that lead to it. -/
theorem exists_choice_yields_iff : (∃ a, b.chosen a = (k, v) ∧ b.choice.Yields s (.success a r) t) ↔
    ∃ ts, Selects s b.leaves k v r ts ∧ t = withFallbacks ts := by
  constructor
  · rintro ⟨a, ha, h⟩
    rw [choice_yields_success_iff, ha] at h
    exact h
  · rintro ⟨ts, h, rfl⟩
    obtain ⟨a, ha⟩ := exists_chosen h
    refine ⟨a, ha, choice_yields_success_iff.mpr ⟨ts, ?_, rfl⟩⟩
    rwa [ha]

/-- The choice without sides is the choice whose value has lost its sides. -/
theorem orElse_eq_map_choice (c : Bracketing (Parser σ ε α)) :
    c.orElse = (c.map Parser.any).choice.map c.plain := by
  induction c with
  | one p => exact Parser.map_id.symm
  | two left right ihl ihr =>
    rw [Bracketing.orElse, ihl, ihr, Parser.orElse, Parser.choice_map, Parser.map_map]
    refine congrArg (Parser.map · _) (funext fun a => ?_)
    cases a <;> rfl

theorem orElse_yields_failure_iff : c.orElse.Yields s (.failure e) t ↔
    ∃ es ts, Refused s (c.leaves.map Parser.any) es ts ∧ es.getLast? = some e ∧ t = withFallbacks ts := by
  rw [orElse_eq_map_choice, Parser.yields_map_failure_iff, choice_yields_failure_iff, leaves_map]

theorem orElse_yields_success_iff {a : α} : c.orElse.Yields s (.success a r) t ↔
    ∃ k ts, Selects s (c.leaves.map Parser.any) k ⟨α, a⟩ r ts ∧ t = withFallbacks ts := by
  rw [orElse_eq_map_choice, Parser.yields_map_success_iff, ← leaves_map]
  constructor
  · rintro ⟨sides, h, rfl⟩
    obtain ⟨ts, selects, rfl⟩ := choice_yields_success_iff.mp h
    rw [chosen_eq_plain] at selects
    exact ⟨_, ts, selects, rfl⟩
  · rintro ⟨k, ts, selects, rfl⟩
    obtain ⟨sides, hchosen, h⟩ := exists_choice_yields_iff.mpr ⟨ts, selects, rfl⟩
    have hplain : ((c.map Parser.any).chosen sides).2 = ⟨α, a⟩ := congrArg Prod.snd hchosen
    rw [chosen_eq_plain] at hplain
    cases hplain
    exact ⟨sides, h, rfl⟩

/-- Nests of the same parsers in the same order choose alike on every input. They select the first parser that
    succeeds on it and give its value, under the sides that lead to this parser or bare, and its rest. If there is
    none, their error is that of the last parser. They report what the parsers report that were tried, in order,
    with one fallback between any two, so their own events are one fewer than these parsers. -/
theorem choice_nesting_is_irrelevant (same : b.leaves = b'.leaves) (same' : c.leaves = c'.leaves) (s : σ) :
    ((∀ (k : Nat) (v : AnyValue) (r : σ) (t : Trace),
        (∃ a, b.chosen a = (k, v) ∧ b.choice.Yields s (.success a r) t) ↔
          ∃ a', b'.chosen a' = (k, v) ∧ b'.choice.Yields s (.success a' r) t) ∧
      (∀ (e : ε) (t : Trace), b.choice.Yields s (.failure e) t ↔ b'.choice.Yields s (.failure e) t) ∧
      (∀ (k : Nat) (v : AnyValue) (r : σ) (t : Trace),
        (∃ a, b.chosen a = (k, v) ∧ b.choice.Yields s (.success a r) t) ↔
          ∃ ts, Selects s b.leaves k v r ts ∧ t = withFallbacks ts ∧ t.length = ts.flatten.length + k) ∧
      ∀ (e : ε) (t : Trace), b.choice.Yields s (.failure e) t ↔
        ∃ es ts, Refused s b.leaves es ts ∧ es.getLast? = some e ∧ t = withFallbacks ts ∧
          t.length + 1 = ts.flatten.length + b.leaves.length) ∧
    (∀ (o : Outcome σ ε α) (t : Trace), c.orElse.Yields s o t ↔ c'.orElse.Yields s o t) ∧
    (∀ (a : α) (r : σ) (t : Trace), c.orElse.Yields s (.success a r) t ↔
      ∃ k ts, Selects s (c.leaves.map Parser.any) k ⟨α, a⟩ r ts ∧ t = withFallbacks ts ∧
        t.length = ts.flatten.length + k) ∧
    ∀ (e : ε) (t : Trace), c.orElse.Yields s (.failure e) t ↔
      ∃ es ts, Refused s (c.leaves.map Parser.any) es ts ∧ es.getLast? = some e ∧ t = withFallbacks ts ∧
        t.length + 1 = ts.flatten.length + c.leaves.length := by
  have hleaves : c.leaves.map Parser.any ≠ [] := mt List.map_eq_nil_iff.mp c.leaves_ne_nil
  refine ⟨⟨?_, ?_, ?_, ?_⟩, ?_, ?_, ?_⟩
  · intro k v r t
    rw [exists_choice_yields_iff, exists_choice_yields_iff, same]
  · intro e t
    rw [choice_yields_failure_iff, choice_yields_failure_iff, same]
  · intro k v r t
    rw [exists_choice_yields_iff]
    exact exists_congr fun ts => and_congr_right fun selects => selects.eq_withFallbacks_iff
  · intro e t
    rw [choice_yields_failure_iff]
    refine exists_congr fun es => exists_congr fun ts => and_congr_right fun refused => and_congr_right fun _ => ?_
    exact refused.eq_withFallbacks_iff b.leaves_ne_nil
  · intro o t
    cases o with
    | success a r => rw [orElse_yields_success_iff, orElse_yields_success_iff, same']
    | failure e => rw [orElse_yields_failure_iff, orElse_yields_failure_iff, same']
  · intro a r t
    rw [orElse_yields_success_iff]
    exact exists_congr fun k => exists_congr fun ts => and_congr_right fun selects => selects.eq_withFallbacks_iff
  · intro e t
    rw [orElse_yields_failure_iff]
    refine exists_congr fun es => exists_congr fun ts => and_congr_right fun refused => and_congr_right fun _ => ?_
    have hevents := refused.eq_withFallbacks_iff (t := t) hleaves
    rwa [List.length_map] at hevents

/-- A sign or a digit, or else a word. -/
def markElseWord : Bracketing (AnyParser Text (MatchError Char)) :=
  two (two (one (Matcher.char '-').any) (one Matcher.digit.any)) (one (Matcher.literal "none").any)

/-- A sign, or else a digit or a word. -/
def signElseOther : Bracketing (AnyParser Text (MatchError Char)) :=
  two (one (Matcher.char '-').any) (two (one Matcher.digit.any) (one (Matcher.literal "none").any))

/-- Three signs, the first two in brackets. -/
def signsFromLeft : Bracketing (Parser Text (MatchError Char) Char) :=
  two (two (one (Matcher.char '+')) (one (Matcher.char '-'))) (one (Matcher.char '~'))

/-- Three signs, the last two in brackets. -/
def signsFromRight : Bracketing (Parser Text (MatchError Char) Char) :=
  two (one (Matcher.char '+')) (two (one (Matcher.char '-')) (one (Matcher.char '~')))

/-- The word is read after two fallbacks under either brackets, and stands under one side or under two. Where no
    sign is read, the error is that of the last sign under either brackets. -/
theorem choice_nesting_is_irrelevant_word :
    markElseWord.leaves = signElseOther.leaves ∧ signsFromLeft.leaves = signsFromRight.leaves ∧
      markElseWord.choice.Yields (.ofString "none!") (.success (.inr "none") (.ofString "!")) [.fallback, .fallback] ∧
      signElseOther.choice.Yields (.ofString "none!") (.success (.inr (.inr "none")) (.ofString "!"))
        [.fallback, .fallback] ∧
      signsFromLeft.orElse.Yields (.ofString "7") (.failure (.unexpected (inspect '~') '7')) [.fallback, .fallback] ∧
      signsFromRight.orElse.Yields (.ofString "7") (.failure (.unexpected (inspect '~') '7'))
        [.fallback, .fallback] := by
  have same : markElseWord.leaves = signElseOther.leaves := rfl
  have same' : signsFromLeft.leaves = signsFromRight.leaves := rfl
  have hdigit : (TextLeaf.digit).parser.Yields (.ofString "none!") (.failure (.unexpected "ASCII digit" 'n')) [] :=
    (TextLeaf.digit).yields_iff.mpr ⟨_, .other rfl, rfl⟩
  have hword : (TextLeaf.literal "none").parser.Yields (.ofString "none!") (.success "none" (.ofString "!")) [] :=
    (TextLeaf.literal "none").yields_iff.mpr .success
  have hread : markElseWord.choice.Yields (.ofString "none!") (.success (.inr "none") (.ofString "!"))
      [.fallback, .fallback] :=
    Parser.yields_choice_inr_iff.mpr ⟨_, _, _, Parser.yields_choice_failure_iff.mpr ⟨_, _, _,
      TextLeaf.yields_char_other '-' 'n' ['o', 'n', 'e', '!'] rfl, hdigit, rfl⟩, hword, rfl⟩
  have hfail : signsFromLeft.orElse.Yields (.ofString "7") (.failure (.unexpected (inspect '~') '7'))
      [.fallback, .fallback] :=
    Parser.yields_orElse_failure_iff.mpr ⟨_, _, _, Parser.yields_orElse_failure_iff.mpr ⟨_, _, _,
      TextLeaf.yields_char_other '+' '7' [] rfl, TextLeaf.yields_char_other '-' '7' [] rfl, rfl⟩,
      TextLeaf.yields_char_other '~' '7' [] rfl, rfl⟩
  obtain ⟨⟨hsides, -⟩, -⟩ := choice_nesting_is_irrelevant same same' (.ofString "none!")
  obtain ⟨-, hplain, -⟩ := choice_nesting_is_irrelevant same same' (.ofString "7")
  refine ⟨same, same', hread, ?_, hfail, (hplain _ _).mp hfail⟩
  obtain ⟨a, ha, h⟩ := (hsides 2 ⟨String, "none"⟩ _ _).mp ⟨_, rfl, hread⟩
  rcases a with sign | digit | word
  · nomatch ha
  · nomatch ha
  · cases ha
    exact h

end Bracketing

/-! ### Left factoring -/

namespace Parser

variable {α β : Type} {p : Parser σ ε α} {q q' d d' : Parser σ ε β}

/-- On every input both end with the same outcome, or neither ends. What they report may differ. -/
def SameOutcomes (q q' : Parser σ ε β) : Prop :=
  ∀ (s : σ) (o : Outcome σ ε β), (∃ t, q.Yields s o t) ↔ ∃ t, q'.Yields s o t

theorem SameOutcomes.trans {q'' : Parser σ ε β} (h : SameOutcomes q q') (h' : SameOutcomes q' q'') :
    SameOutcomes q q'' :=
  fun s o => (h s o).trans (h' s o)

theorem SameOutcomes.symm (h : SameOutcomes q q') : SameOutcomes q' q :=
  fun s o => (h s o).symm

/-- A choice keeps its outcomes when its first alternative does. -/
theorem SameOutcomes.orElse (h : SameOutcomes q q') : SameOutcomes (q.orElse d) (q'.orElse d) := by
  have hone {q q' : Parser σ ε β} (h : SameOutcomes q q') {s : σ} {o : Outcome σ ε β} {t : Trace}
      (hchoice : (q.orElse d).Yields s o t) : ∃ u, (q'.orElse d).Yields s o u := by
    rcases yields_orElse.mp hchoice with ⟨a, r, hq, rfl⟩ | ⟨e, t₁, t₂, hq, hd, -⟩
    · obtain ⟨u, hq'⟩ := (h s _).mp ⟨t, hq⟩
      exact ⟨u, yields_orElse.mpr (.inl ⟨a, r, hq', rfl⟩)⟩
    · obtain ⟨u, hq'⟩ := (h s _).mp ⟨t₁, hq⟩
      exact ⟨_, yields_orElse.mpr (.inr ⟨e, u, t₂, hq', hd, rfl⟩)⟩
  intro s o
  constructor
  · rintro ⟨t, hchoice⟩
    exact hone h hchoice
  · rintro ⟨t, hchoice⟩
    exact hone h.symm hchoice

/-- A parser in front of both alternatives may be run once. Where it is run twice, it does the same twice. -/
theorem seq_orElse_seq : SameOutcomes ((p.seq d).orElse (p.seq q)) (p.seq (d.orElse q)) := by
  intro s o
  constructor
  · rintro ⟨t, h⟩
    rcases yields_orElse.mp h with ⟨x, r, hfirst, rfl⟩ | ⟨e, t₁, t₂, hfirst, hsecond, -⟩
    · obtain ⟨m, u₁, u₂, hp, hd, -⟩ := yields_seq_success_iff.mp hfirst
      have hor := yields_orElse_success_iff (q := q).mpr (.inl hd)
      exact ⟨_, yields_seq_success_iff.mpr ⟨m, u₁, u₂, hp, hor, rfl⟩⟩
    · rcases yields_seq.mp hsecond with ⟨e', hp, rfl⟩ | ⟨a, m, o', u₁, u₂, hp, hq, rfl, -⟩
      · exact ⟨_, yields_seq_failure_iff.mpr (.inl hp)⟩
      · rcases yields_seq_failure_iff.mp hfirst with hp' | ⟨a', m', v₁, v₂, hp', hd, -⟩
        · nomatch (hp.unique hp').1
        · cases (hp.unique hp').1
          have hor := yields_orElse.mpr (.inr ⟨e, v₂, u₂, hd, hq, rfl⟩)
          exact ⟨_, yields_seq.mpr (.inr ⟨a, m, o', u₁, _, hp, hor, rfl, rfl⟩)⟩
  · rintro ⟨t, h⟩
    rcases yields_seq.mp h with ⟨e, hp, rfl⟩ | ⟨a, m, o', u₁, u₂, hp, hor, rfl, -⟩
    · have hfirst := yields_seq_failure_iff (q := d).mpr (.inl hp)
      have hsecond := yields_seq_failure_iff (q := q).mpr (.inl hp)
      exact ⟨_, yields_orElse_failure_iff.mpr ⟨e, t, t, hfirst, hsecond, rfl⟩⟩
    · rcases yields_orElse.mp hor with ⟨b, r, hd, rfl⟩ | ⟨e, v₁, v₂, hd, hq, -⟩
      · have hfirst := yields_seq_success_iff.mpr ⟨m, u₁, u₂, hp, hd, rfl⟩
        exact ⟨_, yields_orElse_success_iff.mpr (.inl hfirst)⟩
      · have hfirst := yields_seq_failure_iff.mpr (.inr ⟨a, m, u₁, v₁, hp, hd, rfl⟩)
        have hsecond := yields_seq.mpr (.inr ⟨a, m, o', u₁, v₂, hp, hq, rfl, rfl⟩)
        exact ⟨_, yields_orElse.mpr (.inr ⟨e, _, _, hfirst, hsecond, rfl⟩)⟩

/-- Taking the parser out of a choice keeps the outcomes of the choice, one alternative after the other. -/
theorem SameOutcomes.firstOf (qs : List (Parser σ ε β)) {c : Parser σ ε (α × β)} (h : SameOutcomes c (p.seq q)) :
    SameOutcomes (firstOf c (qs.map p.seq)) (p.seq (firstOf q qs)) := by
  induction qs generalizing c q with
  | nil => exact h
  | cons q' qs ih => exact ih (h.orElse.trans seq_orElse_seq)

/-- A chain of alternatives is a nest of choices, so it fails where all of them do, with the error of the last. -/
theorem firstOf_yields_failure_iff {qs : List (Parser σ ε β)} {s : σ} {e : ε} {t : Trace} :
    (firstOf q qs).Yields s (.failure e) t ↔
      ∃ es ts, Refused s ((q :: qs).map any) es ts ∧ es.getLast? = some e ∧ t = withFallbacks ts := by
  rw [← Bracketing.orElse_fromLeft, Bracketing.orElse_yields_failure_iff, Bracketing.leaves_fromLeft]

/-- A chain of alternatives succeeds where one of them is selected. -/
theorem firstOf_yields_success_iff {qs : List (Parser σ ε β)} {s r : σ} {b : β} {t : Trace} :
    (firstOf q qs).Yields s (.success b r) t ↔
      ∃ k ts, Selects s ((q :: qs).map any) k ⟨β, b⟩ r ts ∧ t = withFallbacks ts := by
  rw [← Bracketing.orElse_fromLeft, Bracketing.orElse_yields_success_iff, Bracketing.leaves_fromLeft]

end Parser
end TracedParsers
