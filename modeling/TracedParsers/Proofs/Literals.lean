import TracedParsers.Proofs.Offsets
import TracedParsers.Proofs.Sequences

/-!
# Literals

A literal takes its text where the input starts with it. Elsewhere it fails as the matchers of its characters do
in sequence: at the first character of the input that differs, or at the end of the input if none does. What the
error says to be expected is the whole text, and not the one character.
-/

namespace TracedParsers

/-! ### The longest common prefix -/

section
variable {τ : Type} [BEq τ]

/-- The longest list with which both lists start. -/
def commonPrefix : List τ → List τ → List τ
  | x :: xs, y :: ys => if x == y then x :: commonPrefix xs ys else []
  | _, _ => []

variable [LawfulBEq τ] {xs ys zs : List τ}

theorem prefix_commonPrefix_iff :
    zs.IsPrefix (commonPrefix xs ys) ↔ zs.IsPrefix xs ∧ zs.IsPrefix ys := by
  induction zs generalizing xs ys with
  | nil => simp only [List.nil_prefix, and_self]
  | cons z zs ih =>
    cases xs with
    | nil => simp [commonPrefix]
    | cons x xs =>
      cases ys with
      | nil => simp [commonPrefix]
      | cons y ys =>
        simp only [commonPrefix, List.cons_prefix_cons]
        by_cases hxy : x = y
        · subst hxy
          simp only [beq_self_eq_true, if_true, List.cons_prefix_cons, ih]
          exact and_and_left
        · rw [if_neg (mt eq_of_beq hxy)]
          constructor
          · intro h
            nomatch List.prefix_nil.mp h
          · rintro ⟨⟨rfl, -⟩, rfl, -⟩
            exact absurd rfl hxy

/-- What follows the longest common prefix does not start with the same element in both lists. -/
theorem exists_commonPrefix_append (xs ys : List τ) : ∃ us vs, xs = commonPrefix xs ys ++ us ∧
    ys = commonPrefix xs ys ++ vs ∧ ∀ u ∈ us.head?, vs.head? ≠ some u := by
  obtain ⟨⟨us, hxs⟩, vs, hys⟩ := prefix_commonPrefix_iff.mp (List.prefix_refl (commonPrefix xs ys))
  refine ⟨us, vs, hxs.symm, hys.symm, ?_⟩
  intro u hu hv
  obtain ⟨us, rfl⟩ := List.head?_eq_some_iff.mp hu
  obtain ⟨vs, rfl⟩ := List.head?_eq_some_iff.mp hv
  have hlonger : (commonPrefix xs ys ++ [u]).IsPrefix (commonPrefix xs ys) :=
    prefix_commonPrefix_iff.mpr ⟨⟨us, by simpa using hxs⟩, vs, by simpa using hys⟩
  have hlength := hlonger.length_le
  rw [List.length_append, List.length_singleton] at hlength
  omega

end

/-! ### What is found instead -/

namespace MatchError

variable {τ : Type}

/-- The error of a matcher that finds the given element, or the end of the input, instead of what it expects. -/
def instead (expected : String) : Option τ → MatchError τ
  | none => unexpectedEnd expected
  | some found => unexpected expected found

/-- The same error of a matcher that expects something else. -/
def expecting (expected : String) : MatchError τ → MatchError τ
  | unexpectedEnd _ => unexpectedEnd expected
  | unexpected _ found => unexpected expected found
  | invalid reason => invalid reason

theorem expecting_instead (expected other : String) (found? : Option τ) :
    (instead other found?).expecting expected = instead expected found? := by
  cases found? <;> rfl

end MatchError

namespace Matcher

variable {wanted : String} {cs : List Char} {c d : Char} {found? : Option Char} {s r : Text} {e : MatchError Char}
  {t : Trace}

/-- The input starts like `cs`, up to a character `c` of it, and has `found?` in place of that character. -/
def DiffersAt (cs : List Char) (c : Char) (s : Text) (found? : Option Char) : Prop :=
  ∃ before after rest, cs = before ++ c :: after ∧ s.chars = before ++ rest ∧ rest.head? = found? ∧
    found? ≠ some c

/-- An input that does not start with `cs` has another character, or ends, behind what the two have in common. -/
theorem exists_differsAt (h : ¬ cs.IsPrefix s.chars) :
    ∃ c, DiffersAt cs c s s.chars[(commonPrefix cs s.chars).length]? := by
  obtain ⟨us, vs, hcs, hs, hparts⟩ := exists_commonPrefix_append cs s.chars
  have hfound : s.chars[(commonPrefix cs s.chars).length]? = vs.head? := by
    conv => lhs; lhs; rw [hs]
    rw [List.getElem?_append_right (Nat.le_refl _), Nat.sub_self, List.head?_eq_getElem?]
  rw [hfound]
  cases us with
  | nil =>
    rw [List.append_nil] at hcs
    exact absurd ⟨vs, by rw [hcs, ← hs]⟩ h
  | cons c us => exact ⟨c, _, us, vs, hcs, hs, rfl, hparts c rfl⟩

/-! ### One character -/

theorem yields_char_success_iff :
    (char c).Yields s (.success d r) t ↔ d = c ∧ s.chars = c :: r.chars ∧ t = [] := by
  refine (TextLeaf.char c).yields_iff.trans ?_
  generalize s.chars = cs
  constructor
  · intro h
    cases h with
    | success hd =>
      obtain rfl := eq_of_beq hd
      exact ⟨rfl, rfl, rfl⟩
  · rintro ⟨rfl, rfl, rfl⟩
    exact .success (beq_self_eq_true d)

theorem yields_char_failure_iff :
    (char c).Yields s (.failure e) t ↔ s.chars.head? ≠ some c ∧ e = .instead (inspect c) s.chars.head? ∧ t = [] := by
  refine (TextLeaf.char c).yields_iff.trans ?_
  generalize s.chars = cs
  constructor
  · intro h
    cases h with
    | other hd => exact ⟨fun h => Bool.eq_false_iff.mp hd (beq_iff_eq.mpr (Option.some.inj h)), rfl, rfl⟩
    | atEnd => exact ⟨nofun, rfl, rfl⟩
  · rintro ⟨hne, rfl, rfl⟩
    cases cs with
    | nil => exact .atEnd
    | cons d cs => exact .other (beq_false_of_ne fun h => hne (congrArg some h))

/-! ### The characters in sequence -/

/-- The matchers of the characters of a list. -/
def characters (cs : List Char) : List (AnyParser Text (MatchError Char)) :=
  cs.map fun c => (char c).any

theorem passes_characters_iff {as : List AnyValue} : Passes (characters cs) s as r t ↔
    as = cs.map (fun c => ⟨Char, c⟩) ∧ s.chars = cs ++ r.chars ∧ t = [] := by
  induction cs generalizing s as t with
  | nil =>
    constructor
    · intro h
      cases h
      exact ⟨rfl, rfl, rfl⟩
    · rintro ⟨rfl, hs, rfl⟩
      obtain rfl := Text.ext hs
      exact .nil
  | cons c cs ih =>
    constructor
    · intro h
      cases h with
      | cons first others =>
        obtain ⟨hvalue, hs, rfl⟩ := yields_char_success_iff.mp first
        obtain ⟨rfl, hm, rfl⟩ := ih.mp others
        have hvalues := congrArg (fun d => (⟨Char, d⟩ : AnyValue) :: cs.map fun c => ⟨Char, c⟩) hvalue
        exact ⟨hvalues, by rw [hs, hm, List.cons_append], rfl⟩
    · rintro ⟨rfl, hs, rfl⟩
      have hfirst : (char c).any.2.Yields s (.success c (.ofList (cs ++ r.chars))) [] :=
        yields_char_success_iff.mpr ⟨rfl, hs, rfl⟩
      exact .cons hfirst (ih.mpr ⟨rfl, rfl, rfl⟩)

theorem breaks_characters_iff : Breaks (characters cs) s e t ↔
    ∃ c found?, DiffersAt cs c s found? ∧ e = .instead (inspect c) found? ∧ t = [] := by
  rw [breaks_iff_exists_first]
  constructor
  · rintro ⟨ps, p, qs, as, m, t₁, t₂, hcs, passes, fails, rfl⟩
    obtain ⟨before, more, rfl, rfl, hmore⟩ := List.map_eq_append_iff.mp hcs
    obtain ⟨c, after, rfl, rfl, -⟩ := List.map_eq_cons_iff.mp hmore
    obtain ⟨-, hs, rfl⟩ := passes_characters_iff.mp passes
    obtain ⟨hne, rfl, rfl⟩ := yields_char_failure_iff.mp fails
    exact ⟨c, _, ⟨before, after, _, rfl, hs, rfl, hne⟩, rfl, rfl⟩
  · rintro ⟨c, _, ⟨before, after, rest, rfl, hs, rfl, hne⟩, rfl, rfl⟩
    have hpasses : Passes (characters before) s (before.map fun c => ⟨Char, c⟩) (.ofList rest) [] :=
      passes_characters_iff.mpr ⟨rfl, hs, rfl⟩
    have hfails : (char c).any.2.Yields (.ofList rest) (.failure (.instead (inspect c) rest.head?)) [] :=
      yields_char_failure_iff.mpr ⟨hne, rfl, rfl⟩
    exact ⟨_, _, characters after, _, _, _, _, List.map_append, hpasses, hfails, rfl⟩

/-! ### The whole text -/

theorem yields_literal_success_iff {v : String} :
    (literal wanted).Yields s (.success v r) t ↔ v = wanted ∧ s.chars = wanted.toList ++ r.chars ∧ t = [] := by
  refine yields_literal_iff.trans ?_
  generalize s.chars = cs
  constructor
  · intro h
    cases h
    exact ⟨rfl, rfl, rfl⟩
  · rintro ⟨rfl, rfl, rfl⟩
    exact .success

theorem yields_literal_failure_iff : (literal wanted).Yields s (.failure e) t ↔
    ∃ c found?, DiffersAt wanted.toList c s found? ∧ e = .instead (inspect wanted) found? ∧ t = [] := by
  refine yields_literal_iff.trans ?_
  unfold DiffersAt
  generalize s.chars = cs
  constructor
  · intro h
    cases h with
    | @other before c after found rest hw hne =>
      exact ⟨c, some found, ⟨before, after, found :: rest, hw, rfl, rfl, fun h => hne (Option.some.inj h)⟩, rfl, rfl⟩
    | @atEnd _ c after hw =>
      exact ⟨c, none, ⟨cs, after, [], hw, (List.append_nil cs).symm, rfl, nofun⟩, rfl, rfl⟩
  · rintro ⟨c, _, ⟨before, after, rest, hw, rfl, rfl, hne⟩, rfl, rfl⟩
    cases rest with
    | nil =>
      rw [List.append_nil]
      exact .atEnd hw
    | cons found rest => exact .other hw fun h => hne (congrArg some h)

/-! ### The text and its characters -/

section
variable {b : Bracketing (AnyParser Text (MatchError Char))} (hleaves : b.leaves = characters cs)
include hleaves

theorem seq_characters_yields_success_iff {a : b.Pairs} : b.seq.Yields s (.success a r) t ↔
    b.values a = cs.map (fun c => ⟨Char, c⟩) ∧ s.chars = cs ++ r.chars ∧ t = [] := by
  rw [Bracketing.seq_yields_success_iff, hleaves, passes_characters_iff]

theorem seq_characters_yields_failure_iff : b.seq.Yields s (.failure e) t ↔
    ∃ c found?, DiffersAt cs c s found? ∧ e = .instead (inspect c) found? ∧ t = [] := by
  rw [Bracketing.seq_yields_failure_iff, hleaves, breaks_characters_iff]

theorem exists_seq_characters_yields (hs : s.chars = cs ++ r.chars) :
    ∃ a, b.seq.Yields s (.success a r) [] := by
  have hpasses := passes_characters_iff.mpr ⟨rfl, hs, rfl⟩
  rw [← hleaves] at hpasses
  obtain ⟨a, ha⟩ := Bracketing.exists_values hpasses
  exact ⟨a, Bracketing.seq_yields_success_iff.mpr (ha ▸ hpasses)⟩

end

/-- A literal does what the matchers of its characters do in sequence; it gives its text and expects its text. -/
theorem yields_literal_iff_seq {b : Bracketing (AnyParser Text (MatchError Char))}
    {o : Outcome Text (MatchError Char) String} (hleaves : b.leaves = characters wanted.toList) :
    (literal wanted).Yields s o t ↔
      ∃ o', b.seq.Yields s o' t ∧ o = (o'.map fun _ => wanted).mapError (.expecting (inspect wanted)) := by
  constructor
  · intro h
    cases o with
    | success v r =>
      obtain ⟨rfl, hs, rfl⟩ := yields_literal_success_iff.mp h
      obtain ⟨a, ha⟩ := exists_seq_characters_yields hleaves hs
      exact ⟨.success a r, ha, rfl⟩
    | failure e =>
      obtain ⟨c, found?, hc, rfl, rfl⟩ := yields_literal_failure_iff.mp h
      have hfails := (seq_characters_yields_failure_iff hleaves).mpr ⟨c, found?, hc, rfl, rfl⟩
      exact ⟨_, hfails, congrArg Outcome.failure (MatchError.expecting_instead ..).symm⟩
  · rintro ⟨o', h, rfl⟩
    cases o' with
    | success a r =>
      obtain ⟨-, hs, rfl⟩ := (seq_characters_yields_success_iff hleaves).mp h
      exact yields_literal_success_iff.mpr ⟨rfl, hs, rfl⟩
    | failure e =>
      obtain ⟨c, found?, hc, rfl, rfl⟩ := (seq_characters_yields_failure_iff hleaves).mp h
      exact yields_literal_failure_iff.mpr ⟨c, found?, hc, MatchError.expecting_instead .., rfl⟩

/-- A literal succeeds exactly where its text stands first, takes that much and leaves the rest. Where the input starts
    with the bytes of the text, the place behind them is a boundary of characters, and the split there, which gives
    both the value and the rest, cannot go wrong. Elsewhere the literal tells of the end of the input, if the input
    ends with what the two have in common, and otherwise of the character of the input that follows it. The matchers
    of its characters in sequence, however nested, do the same and give its characters; their error differs in what
    it expects only. -/
theorem literal_reads_its_characters (wanted : String) (s : Text) :
    (∀ (v : String) (r : Text) (t : Trace), (literal wanted).Yields s (.success v r) t ↔
      v = wanted ∧ s = .ofString wanted ++ r ∧ t = []) ∧
    ((∃ v r t, (literal wanted).Yields s (.success v r) t) ↔ wanted.toList.IsPrefix s.chars) ∧
    (s.startsWith (.ofString wanted) = true → s.IsBoundary (Text.ofString wanted).utf8Size ∧
      ∃ found rest : Text, s.splitAt? (Text.ofString wanted).utf8Size = some (found, rest) ∧
        (literal wanted).Yields s (.success found.toString rest) []) ∧
    (∀ k : Nat, k = (commonPrefix wanted.toList s.chars).length → ¬ wanted.toList.IsPrefix s.chars →
      (s.chars.length = k ∧ (literal wanted).Yields s (.failure (.unexpectedEnd (inspect wanted))) []) ∨
      ∃ more : k < s.chars.length,
        (literal wanted).Yields s (.failure (.unexpected (inspect wanted) s.chars[k])) []) ∧
    ∀ b : Bracketing (AnyParser Text (MatchError Char)), b.leaves = characters wanted.toList →
      (∀ (o : Outcome Text (MatchError Char) String) (t : Trace), (literal wanted).Yields s o t ↔
        ∃ o', b.seq.Yields s o' t ∧ o = (o'.map fun _ => wanted).mapError (.expecting (inspect wanted))) ∧
      ∀ (a : b.Pairs) (r : Text) (t : Trace), b.seq.Yields s (.success a r) t →
        b.values a = wanted.toList.map fun c => ⟨Char, c⟩ := by
  have hstarts (r : Text) : s = .ofString wanted ++ r ↔ s.chars = wanted.toList ++ r.chars :=
    ⟨fun h => congrArg Text.chars h, fun h => Text.ext h⟩
  refine ⟨?_, ?_, ?_, ?_, ?_⟩
  · intro v r t
    rw [yields_literal_success_iff, hstarts]
  · constructor
    · rintro ⟨v, r, t, h⟩
      obtain ⟨-, hs, -⟩ := yields_literal_success_iff.mp h
      exact ⟨r.chars, hs.symm⟩
    · rintro ⟨cs, hs⟩
      exact ⟨wanted, .ofList cs, [], yields_literal_success_iff.mpr ⟨rfl, hs.symm, rfl⟩⟩
  · intro hbytes
    obtain ⟨cs, hs⟩ := Text.startsWith_iff.mp hbytes
    have hsplit : s = .ofString wanted ++ .ofList cs := (hstarts (.ofList cs)).mpr hs.symm
    refine ⟨⟨_, _, hsplit, rfl⟩, .ofString wanted, .ofList cs, Text.splitAt?_eq_some_iff.mpr ⟨hsplit, rfl⟩, ?_⟩
    exact yields_literal_success_iff.mpr ⟨Text.toString_ofString wanted, hs.symm, rfl⟩
  · rintro k rfl hdiffers
    obtain ⟨c, hc⟩ := exists_differsAt hdiffers
    have hfails := yields_literal_failure_iff.mpr ⟨c, _, hc, rfl, rfl⟩
    obtain ⟨-, hcommon⟩ := prefix_commonPrefix_iff.mp (List.prefix_refl (commonPrefix wanted.toList s.chars))
    rcases Nat.lt_or_eq_of_le hcommon.length_le with hmore | hend
    · rw [List.getElem?_eq_getElem hmore] at hfails
      exact .inr ⟨hmore, hfails⟩
    · rw [List.getElem?_eq_none (Nat.le_of_eq hend.symm)] at hfails
      exact .inl ⟨hend.symm, hfails⟩
  · intro b hleaves
    refine ⟨fun o t => yields_literal_iff_seq hleaves, ?_⟩
    intro a r t h
    exact ((seq_characters_yields_success_iff hleaves).mp h).1

/-- A text with a character of two bytes: read in front of another character, refused for another character and for
    the end of the input, and read by its two characters. -/
theorem literal_reads_its_characters_accent :
    (literal "né").Yields (.ofString "née") (.success "né" (.ofString "e")) [] ∧
      (Text.ofString "née").IsBoundary 3 ∧
      (literal "né").Yields (.ofString "nez") (.failure (.unexpected (inspect "né") 'e')) [] ∧
      (literal "né").Yields (.ofString "n") (.failure (.unexpectedEnd (inspect "né"))) [] ∧
      ∃ e, ((char 'n').seq (char 'é')).Yields (.ofString "nez") (.failure e) [] ∧
        e.expecting (inspect "né") = .unexpected (inspect "né") 'e' := by
  have hread : Text.ofString "née" = .ofString "né" ++ .ofString "e" := Text.ext rfl
  have hbytes : (Text.ofString "née").startsWith (.ofString "né") = true :=
    Text.startsWith_iff.mpr ⟨['e'], rfl⟩
  obtain ⟨hsuccess, -, hboundary, -, -⟩ := literal_reads_its_characters "né" (.ofString "née")
  obtain ⟨-, -, -, hother, hchars⟩ := literal_reads_its_characters "né" (.ofString "nez")
  obtain ⟨-, -, -, hend, -⟩ := literal_reads_its_characters "né" (.ofString "n")
  have hunexpected : (literal "né").Yields (.ofString "nez") (.failure (.unexpected (inspect "né") 'e')) [] := by
    rcases hother 1 rfl (by decide) with ⟨hlength, -⟩ | ⟨_, h⟩
    · nomatch hlength
    · exact h
  refine ⟨(hsuccess _ _ _).mpr ⟨rfl, hread, rfl⟩, (hboundary hbytes).1, hunexpected, ?_, ?_⟩
  · rcases hend 1 rfl (by decide) with ⟨-, h⟩ | ⟨hmore, -⟩
    · exact h
    · exact absurd hmore (by decide)
  · obtain ⟨hsame, -⟩ := hchars (.two (.one (char 'n').any) (.one (char 'é').any)) rfl
    obtain ⟨o', h, ho⟩ := (hsame _ _).mp hunexpected
    cases o' with
    | success a r => nomatch ho
    | failure e => exact ⟨e, h, (Outcome.failure.inj ho).symm⟩

end Matcher
end TracedParsers
