import TracedParsers.Inspect

/-!
# Lexemes

The tokens of a small list language: names, numbers and the comma between them.
-/

namespace TracedParsers

/-- A token of the list language. -/
inductive Lexeme where
  | ident (name : String)
  | number (value : Int)
  | comma
  deriving DecidableEq

instance : Inspect Lexeme where
  inspect
    | .ident name => "Ident(" ++ inspect name ++ ")"
    | .number value => "Number(" ++ inspect value ++ ")"
    | .comma => "Comma"

def Lexeme.isNumber : Lexeme → Bool
  | .number _ => true
  | _ => false

end TracedParsers
