import TracedParsers.Matcher.Basic
import TracedParsers.Text.Offset
import TracedParsers.Text.Utf8
import TracedParsers.Checked

/-!
# Matchers of texts

Matchers of single characters, decimal digits, fixed texts and natural numbers of 64 bits.
-/

namespace TracedParsers
namespace Matcher

def anyChar : Parser Text (MatchError Char) Char :=
  element (fun _ => true) "any character"

def char (wanted : Char) : Parser Text (MatchError Char) Char :=
  exactly wanted

def charIf (test : Char → Bool) (expected : String) : Parser Text (MatchError Char) Char :=
  element test expected

/-- The number that a decimal digit stands for. -/
def digitValue (c : Char) : Nat := c.toNat - '0'.toNat

/-- Reads one of the digits from 0 to 9. -/
def digit : Parser Text (MatchError Char) Nat :=
  (charIf Char.isDigit "ASCII digit").map digitValue

/-- The first two elements that differ where two lists have the same place, if there are such. -/
def mismatch? {τ : Type} [BEq τ] (xs ys : List τ) : Option (τ × τ) :=
  (xs.zip ys).find? fun x => x.1 != x.2

/-- Reads a fixed text. Where the input starts with its bytes, the input is split behind them. Elsewhere the error
    shows the first character of the input that differs, if one does. -/
def literal (wanted : String) : Parser Text (MatchError Char) String where
  parse s :=
    if s.startsWith (.ofString wanted) then
      match s.splitAt? (Text.ofString wanted).utf8Size with
      | some (found, rest) => pure (.success found.toString rest)
      -- A split inside a character gives no answer at all.
      | none => Run.never
    else
      match mismatch? wanted.toList s.chars with
      | some (_, found) => pure (.failure (.unexpected (inspect wanted) found))
      | none => pure (.failure (.unexpectedEnd (inspect wanted)))

/-- Writes one more decimal digit behind a number, unless the result needs more than 64 bits. -/
def pushDigit? (n : UInt64) (d : Nat) : Option UInt64 :=
  (Checked.mul? n 10).bind fun tens => Checked.add? tens (.ofNat d)

/-- The number that a list of decimal digits stands for, unless it needs more than 64 bits. -/
def ofDigits? (ds : List Nat) : Option UInt64 :=
  ds.foldlM pushDigit? 0

/-- The number of a list of decimal digits; a number of more than 64 bits is refused. -/
def numberOf (ds : List Nat) : Except (MatchError Char) UInt64 :=
  match ofDigits? ds with
  | some n => .ok n
  | none => .error (.invalid "integer does not fit in u64")

/-- Reads a row of decimal digits, as long as there is, and refuses it if its number needs more than
    64 bits. -/
def unsigned : Parser Text (MatchError Char) UInt64 :=
  digit.many1.validate numberOf

end Matcher
end TracedParsers
