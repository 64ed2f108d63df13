import TracedParsers.MatchError
import TracedParsers.Text.Forms

/-!
# Messages

The message of a matcher of texts tells its error: errors with one message are equal. What was expected may be any text,
also one that reads like the rest of a message. Still it is told where it ends, since a message about a character ends
with that character between quotes, and no character between quotes ends like another one.
-/

namespace TracedParsers

/-! ### Characters behind a text -/

/-- Every character is shown by one of its forms, between single quotes. -/
def Inspect.Quotes (shown : Inspect Char) : Prop :=
  ∀ c, ∃ cs, Text.QuotedForm c cs ∧ shown.inspect c = String.ofList ('\'' :: cs ++ ['\''])

theorem quotes_char : Inspect.Quotes (inferInstance : Inspect Char) := by
  intro c
  refine ⟨_, Text.escape_quotedForm c, ?_⟩
  show Text.quoted '\'' [c] = _
  rw [Text.quoted, List.flatMap_singleton]

/-- A text and the character shown behind it are both told from what they make together. -/
theorem Inspect.Quotes.append_injective [shown : Inspect Char] (quotes : shown.Quotes) {before before' : String}
    {c d : Char} (h : before ++ inspect c = before' ++ inspect d) : before = before' ∧ c = d := by
  obtain ⟨cs, hc, hcs⟩ := quotes c
  obtain ⟨ds, hd, hds⟩ := quotes d
  have hlists : (before.toList ++ '\'' :: cs) ++ ['\''] = (before'.toList ++ '\'' :: ds) ++ ['\''] := by
    have hstrings := congrArg String.toList h
    rw [hcs, hds] at hstrings
    simpa using hstrings
  obtain ⟨hbefore, hforms⟩ := hc.append_injective hd (List.append_cancel_right hlists)
  exact ⟨String.toList_inj.mp hbefore, hc.injective hd hforms⟩

namespace MatchError

/-! ### Errors by their messages -/

/-- The letter with which the message of an error starts. -/
def initial {τ : Type} : MatchError τ → Char
  | unexpectedEnd _ => 'u'
  | unexpected _ _ => 'e'
  | invalid _ => 'i'

theorem message_head? {τ : Type} [Inspect τ] (e : MatchError τ) : e.message.toList.head? = some e.initial := by
  cases e <;> unfold message <;> simp [initial]

theorem message_injective [shown : Inspect Char] (quotes : shown.Quotes) {e e' : MatchError Char}
    (h : e.message = e'.message) : e = e' := by
  -- The kind of an error shows in the first letter of its message, so that two kinds need not be compared further.
  have hinitial : some e.initial = some e'.initial := by
    rw [← message_head?, ← message_head?, h]
  cases e with
  | unexpectedEnd expected =>
    cases e' with
    | unexpectedEnd expected' => rw [(String.append_right_inj _).mp h]
    | unexpected => nomatch hinitial
    | invalid => nomatch hinitial
  | unexpected expected found =>
    cases e' with
    | unexpectedEnd => nomatch hinitial
    | unexpected expected' found' =>
      obtain ⟨hbefore, rfl⟩ := quotes.append_injective h
      have hexpected := (String.append_left_inj _).mp hbefore
      rw [(String.append_right_inj _).mp hexpected]
    | invalid => nomatch hinitial
  | invalid reason =>
    cases e' with
    | unexpectedEnd => nomatch hinitial
    | unexpected => nomatch hinitial
    | invalid reason' => rw [(String.append_right_inj _).mp h]

/-- Two errors of matchers of texts have the same message exactly if they are equal, whatever they expect, find or
    give as a reason. This does not depend on the table of unprintable characters, nor on which characters are escaped
    otherwise: it holds for every way to show characters by their forms between quotes. -/
theorem message_identifies_error :
    (∀ e e' : MatchError Char, e.message = e'.message ↔ e = e') ∧
    (∀ e e' : MatchError Char, e.message = e'.message ↔ (e == e') = true) ∧
    ∀ [shown : Inspect Char], shown.Quotes → ∀ e e' : MatchError Char, e.message = e'.message ↔ e = e' := by
  have hiff [shown : Inspect Char] (quotes : shown.Quotes) (e e' : MatchError Char) :
      e.message = e'.message ↔ e = e' := ⟨message_injective quotes, congrArg message⟩
  refine ⟨hiff quotes_char, ?_, hiff⟩
  intro e e'
  rw [beq_iff_eq]
  exact hiff quotes_char e e'

/-- All characters shown by their numbers. -/
abbrev byNumber : Inspect Char where
  inspect c := String.ofList ('\'' :: Text.numericEscape c ++ ['\''])

/-- Where all characters are shown by their numbers, something expected that reads like the rest of a message is not
    taken for it. -/
theorem message_identifies_error_imitation : byNumber.Quotes ∧
    @message Char byNumber (.unexpected "digit, found '\\u\x7b62\x7d'" 'c') ≠
      @message Char byNumber (.unexpected "digit" 'b') := by
  have hquotes : byNumber.Quotes := fun c => ⟨_, .number c, rfl⟩
  refine ⟨hquotes, ?_⟩
  intro h
  obtain ⟨-, -, hidentifies⟩ := message_identifies_error
  obtain ⟨-, hfound⟩ := MatchError.unexpected.inj ((@hidentifies byNumber hquotes _ _).mp h)
  exact absurd hfound (by decide)

end MatchError
end TracedParsers
