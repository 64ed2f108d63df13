import TracedParsers.Text.Unprintable

/-!
# Quoted characters and texts

The quoted form of a text stands between quotes, holds no quote and no backslash that is not escaped,
and shows every unprintable character by its number. A character is quoted in the same way.
-/

namespace TracedParsers
namespace Text

/-- The escape of a character by its number, in lower-case hexadecimal digits without padding. -/
def numericEscape (c : Char) : List Char :=
  ['\\', 'u', '\x7b'] ++ Nat.toDigits 16 c.toNat ++ ['\x7d']

/-- How a character is written between quotes. Of the two quotes only the one in use is escaped. -/
def escape (quote c : Char) : List Char :=
  if c = quote ∨ c = '\\' then ['\\', c]
  else if c = '\x00' then ['\\', '0']
  else if c = '\t' then ['\\', 't']
  else if c = '\n' then ['\\', 'n']
  else if c = '\r' then ['\\', 'r']
  else if isUnprintable c then numericEscape c
  else [c]

/-- A text between quotes. -/
def quoted (quote : Char) (cs : List Char) : String :=
  String.ofList (quote :: cs.flatMap (escape quote) ++ [quote])

end Text
end TracedParsers
