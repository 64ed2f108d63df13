import TracedParsers.Matcher.Basic

/-!
# Matchers of tokens

Matchers over lists of tokens of any type. Whether two tokens are equal is up to the type of tokens.
-/

namespace TracedParsers
namespace Matcher

variable {τ : Type}

def anyToken : Parser (List τ) (MatchError τ) τ :=
  element (fun _ => true) "any token"

def token [BEq τ] [Inspect τ] (wanted : τ) : Parser (List τ) (MatchError τ) τ :=
  exactly wanted

def tokenIf (test : τ → Bool) (expected : String) : Parser (List τ) (MatchError τ) τ :=
  element test expected

end Matcher
end TracedParsers
