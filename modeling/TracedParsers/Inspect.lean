import TracedParsers.Text.Quoted

/-!
# Inspection

The text by which an error message shows a value. Characters stand in single quotes, strings in double
quotes, and numbers in decimal.
-/

namespace TracedParsers

/-- Values that an error message can show. -/
class Inspect (α : Type) where
  /-- The text that shows a value. -/
  inspect : α → String

export Inspect (inspect)

instance : Inspect Char where
  inspect c := Text.quoted '\'' [c]

instance : Inspect String where
  inspect s := Text.quoted '"' s.toList

instance : Inspect Nat where
  inspect n := String.ofList (Nat.toDigits 10 n)

instance : Inspect Int where
  inspect
    | .ofNat n => inspect n
    | .negSucc n => "-" ++ inspect (n + 1)

end TracedParsers
