import TracedParsers.Matcher.Text

/-!
# Lists of digits

The format of a list of digits with commas between them, and the written form of such lists.
-/

namespace TracedParsers

namespace Text

/-- The text starts with a comma and a digit behind it. -/
def HasNextDigit (s : Text) : Prop :=
  ∃ c cs, s.chars = ',' :: c :: cs ∧ c.isDigit = true

theorem not_hasNextDigit_comma {s : Text} (h : ∀ c ∈ s.chars.head?, c.isDigit = false) :
    ¬(Text.ofString "," ++ s).HasNextDigit := by
  rintro ⟨c, cs, hs, hc⟩
  have hchars : s.chars = c :: cs := (List.cons.inj hs).2
  rw [hchars] at h
  nomatch hc.symm.trans (h c rfl)

end Text

namespace Formats

open Matcher

/-- Digits with commas between them. -/
def digitList : Parser Text (MatchError Char) (Nat × List Nat) :=
  digit.seq ((char ',').seqRight digit).many

/-! ### Written lists -/

/-- The digits of a list with a comma between any two. -/
def written (ds : List Nat) : List Char :=
  (ds.map Nat.digitChar).intersperse ','

/-- The digits of a list with a comma before each. -/
def continuation (ds : List Nat) : List Char :=
  ds.flatMap fun d => [',', Nat.digitChar d]

theorem written_cons (d : Nat) (ds : List Nat) : written (d :: ds) = Nat.digitChar d :: continuation ds := by
  induction ds generalizing d with
  | nil => rfl
  | cons d' ds ih =>
    have hwritten : written (d :: d' :: ds) = Nat.digitChar d :: ',' :: written (d' :: ds) :=
      List.intersperse_cons_cons
    rw [hwritten, ih]
    rfl

end Formats
end TracedParsers
