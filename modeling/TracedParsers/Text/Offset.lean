import TracedParsers.Text.Basic

/-!
# Byte offsets

A place in a text can be told by the number of bytes before it. `splitAt?` gives the two parts of a text before an
offset and from it on, where the offset is at a character boundary, and `suffixAt?` gives the second part.
-/

namespace TracedParsers
namespace Text

/-- The characters before a byte offset, behind those in `front`, which are latest first, and the characters from the
    offset on, if a character starts or the text ends there. -/
def splitChars? (front : List Char) : List Char → Nat → Option (List Char × List Char)
  | cs, 0 => some (front.reverse, cs)
  | [], _ + 1 => none
  | c :: cs, n + 1 => if c.utf8Size ≤ n + 1 then splitChars? (c :: front) cs (n + 1 - c.utf8Size) else none

theorem splitChars?_eq_some_iff {front cs before rest : List Char} {offset : Nat} :
    splitChars? front cs offset = some (before, rest) ↔
      ∃ more, cs = more ++ rest ∧ before = front.reverse ++ more ∧ offset = utf8Length more := by
  induction cs generalizing front offset with
  | nil =>
    constructor
    · intro h
      cases offset with
      | zero =>
        cases h
        exact ⟨[], rfl, (List.append_nil _).symm, rfl⟩
      | succ n => cases h
    · rintro ⟨more, hs, rfl, rfl⟩
      obtain ⟨rfl, rfl⟩ := List.append_eq_nil_iff.mp hs.symm
      rw [List.append_nil]
      rfl
  | cons c cs ih =>
    have hpos := c.utf8Size_pos
    constructor
    · intro h
      cases offset with
      | zero =>
        cases h
        exact ⟨[], rfl, (List.append_nil _).symm, rfl⟩
      | succ n =>
        rw [splitChars?] at h
        split at h
        next hle =>
          obtain ⟨more, rfl, rfl, hn⟩ := ih.mp h
          refine ⟨c :: more, rfl, by simp, ?_⟩
          rw [utf8Length_cons]
          omega
        next => cases h
    · rintro ⟨more, hs, rfl, hn⟩
      cases more with
      | nil =>
        subst hn hs
        rw [List.append_nil]
        rfl
      | cons d more =>
        obtain ⟨rfl, rfl⟩ := List.cons.inj hs
        rw [utf8Length_cons] at hn
        obtain ⟨n, rfl⟩ : ∃ n, offset = n + 1 := ⟨offset - 1, by omega⟩
        rw [splitChars?, if_pos (by omega)]
        exact ih.mpr ⟨more, rfl, by simp, by omega⟩

theorem utf8Size_of_splitChars? {s : Text} {x : List Char × List Char} {offset : Nat}
    (h : splitChars? [] s.chars offset = some x) :
    offset = utf8Length x.1 ∧ s.utf8Size - offset = utf8Length x.2 := by
  obtain ⟨more, hs, hbefore, hoffset⟩ := splitChars?_eq_some_iff.mp h
  have hsize : s.utf8Size = utf8Length more + utf8Length x.2 := by
    rw [s.utf8Size_eq, hs, utf8Length_append]
  rw [hbefore]
  exact ⟨hoffset, by omega⟩

/-- The parts of a text before a byte offset and from it on, if a character starts or the text ends there. -/
def splitAt? (s : Text) (offset : Nat) : Option (Text × Text) :=
  (splitChars? [] s.chars offset).pmap
    (fun x h => (⟨x.1, offset, And.left h⟩, ⟨x.2, s.utf8Size - offset, And.right h⟩))
    fun _ h => utf8Size_of_splitChars? h

/-- The text from a byte offset on, if a character starts or the text ends there. -/
def suffixAt? (s : Text) (offset : Nat) : Option Text :=
  (s.splitAt? offset).map Prod.snd

/-- A split gives the two parts that make up the text, of which the first has as many bytes as the offset says. -/
theorem splitAt?_eq_some_iff {s before rest : Text} {offset : Nat} :
    s.splitAt? offset = some (before, rest) ↔ s = before ++ rest ∧ offset = before.utf8Size := by
  rw [splitAt?, Option.pmap_eq_some_iff]
  constructor
  · rintro ⟨⟨cs, ds⟩, hsizes, hsplit, hparts⟩
    obtain ⟨rfl, rfl⟩ := Prod.mk.inj hparts
    obtain ⟨more, hs, rfl, -⟩ := splitChars?_eq_some_iff.mp hsplit
    exact ⟨Text.ext hs, rfl⟩
  · rintro ⟨rfl, rfl⟩
    have hsplit : splitChars? [] (before ++ rest).chars before.utf8Size = some (before.chars, rest.chars) :=
      splitChars?_eq_some_iff.mpr ⟨before.chars, rfl, rfl, before.utf8Size_eq⟩
    exact ⟨_, utf8Size_of_splitChars? hsplit, hsplit, Prod.ext (Text.ext rfl) (Text.ext rfl)⟩

theorem suffixAt?_eq_some_iff {s r : Text} {offset : Nat} :
    s.suffixAt? offset = some r ↔ ∃ before, s = before ++ r ∧ offset = before.utf8Size := by
  rw [suffixAt?, Option.map_eq_some_iff]
  constructor
  · rintro ⟨⟨before, _⟩, h, rfl⟩
    exact ⟨before, splitAt?_eq_some_iff.mp h⟩
  · rintro ⟨before, h⟩
    exact ⟨(before, r), splitAt?_eq_some_iff.mpr h, rfl⟩

end Text
end TracedParsers
