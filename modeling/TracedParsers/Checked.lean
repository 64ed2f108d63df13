/-!
# Checked arithmetic

Sums and products of natural numbers of 64 bits that fail where the result needs more bits.
-/

namespace TracedParsers
namespace Checked

/-- The number of 64 bits equal to `n`, if there is one. -/
def ofNat? (n : Nat) : Option UInt64 :=
  if h : n < UInt64.size then some (UInt64.ofNatLT n h) else none

/-- The sum, if it fits. -/
def add? (a b : UInt64) : Option UInt64 := ofNat? (a.toNat + b.toNat)

/-- The product, if it fits. -/
def mul? (a b : UInt64) : Option UInt64 := ofNat? (a.toNat * b.toNat)

theorem ofNat?_eq_some_iff {n : Nat} {a : UInt64} : ofNat? n = some a ↔ a.toNat = n := by
  unfold ofNat?
  split
  next h =>
    rw [Option.some.injEq]
    constructor
    · rintro rfl
      exact UInt64.toNat_ofNatLT
    · rintro rfl
      exact UInt64.ofNatLT_toNat a
  next h =>
    constructor
    · exact fun h' => nomatch h'
    · rintro rfl
      exact absurd a.toNat_lt h

theorem ofNat?_eq_none_iff {n : Nat} : ofNat? n = none ↔ UInt64.size ≤ n := by
  unfold ofNat?
  split
  next h => simpa using h
  next h => simpa using h

end Checked
end TracedParsers
