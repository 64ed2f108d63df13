import TracedParsers.Inspect

/-!
# Tokens with a place

A token that remembers where it came from. Two such tokens count as equal when they are of one kind,
wherever they stand, so a token that is matched need not be the token that was asked for.
-/

namespace TracedParsers

/-- A token of some kind at some place. -/
structure Spanned where
  kind : String
  pos : Int

/-- Equality looks at the kind only. -/
instance : BEq Spanned where
  beq a b := a.kind == b.kind

instance : Inspect Spanned where
  inspect t := "Sp \x7b kind: " ++ inspect t.kind ++ ", pos: " ++ inspect t.pos ++ " \x7d"

theorem Spanned.beq_iff {a b : Spanned} : (a == b) = true ↔ a.kind = b.kind :=
  beq_iff_eq (α := String)

end TracedParsers
