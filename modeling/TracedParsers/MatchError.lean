import TracedParsers.Inspect

/-!
# Errors of matchers

A matcher fails because the input ended, because the input holds another element than the one it looks
for, or because what it read has no value. `MatchError.message` is the one wording of these errors.
-/

namespace TracedParsers

/-- Why a matcher over elements `τ` failed. -/
inductive MatchError (τ : Type) where
  /-- The input ended where `expected` was looked for. -/
  | unexpectedEnd (expected : String)
  /-- The input holds `found` where `expected` was looked for. -/
  | unexpected (expected : String) (found : τ)
  /-- The input was read and has no value, for the given reason. -/
  | invalid (reason : String)
  deriving DecidableEq, BEq, ReflBEq, LawfulBEq

namespace MatchError

variable {τ υ : Type}

def map (f : τ → υ) : MatchError τ → MatchError υ
  | unexpectedEnd expected => unexpectedEnd expected
  | unexpected expected found => unexpected expected (f found)
  | invalid reason => invalid reason

/-- What is told of an error. -/
def message [Inspect τ] : MatchError τ → String
  | unexpectedEnd expected => "unexpected end of input, expected " ++ expected
  | unexpected expected found => "expected " ++ expected ++ ", found " ++ inspect found
  | invalid reason => "invalid value: " ++ reason

/-- An error is shown as the name of its kind with its fields. -/
instance [Inspect τ] : Inspect (MatchError τ) where
  inspect
    | unexpectedEnd expected => "UnexpectedEnd \x7b expected: " ++ inspect expected ++ " \x7d"
    | unexpected expected found =>
      "Unexpected \x7b expected: " ++ inspect expected ++ ", found: " ++ inspect found ++ " \x7d"
    | invalid reason => "Invalid \x7b message: " ++ inspect reason ++ " \x7d"

end MatchError
end TracedParsers
