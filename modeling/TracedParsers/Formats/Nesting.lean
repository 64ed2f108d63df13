import TracedParsers.Grammar.Leaves

/-!
# Nested parentheses

The grammar of nested parentheses: a pair of parentheses holds any number of such pairs. Its value is
how deep the nesting goes.
-/

namespace TracedParsers
namespace Nesting

inductive Rule : Type → Type → Type where
  | nested : Rule (MatchError Char) Nat

/-- The depth of a pair that holds pairs of the given depths. -/
def height (depths : List Nat) : Nat := 1 + depths.foldl max 0

def nested : Grammar (.text Rule) () (MatchError Char) Nat :=
  .map height
    (((Grammar.ofText (.char '(')).seqRight (.many (.call .nested))).seqLeft (.ofText (.char ')')))

def rules : Rules (.text Rule)
  | _, _, _, .nested => nested

def depth : Parser Text (MatchError Char) Nat := nested.parser .text rules

end Nesting
end TracedParsers
