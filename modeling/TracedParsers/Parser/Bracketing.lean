import TracedParsers.Parser.Yields

/-!
# Bracketings

Sequence and choice join two parsers, and more than two are joined by nesting. A bracketing is one way to nest: a
binary tree with the parsers as leaves, in order. The parsers may give values of different types, so the value of
the nest is built as the tree is: pairs in pairs for sequences, sides in sides for choices. Both kinds of values
can be read without the tree's shape, as a list of plain values or as the number of a leaf with a plain value.
-/

namespace TracedParsers

universe u v

/-- A way to join things two at a time: a binary tree with the things as leaves. -/
inductive Bracketing (P : Type u) where
  | one (part : P)
  | two (left right : Bracketing P)

/-- A parser with the type of its values. -/
abbrev AnyParser (σ ε : Type) := (α : Type) × Parser σ ε α

/-- A value with its type. -/
abbrev AnyValue := (α : Type) × α

/-- A parser whose values may be of another type than those of its neighbours. -/
def Parser.any {σ ε α : Type} (p : Parser σ ε α) : AnyParser σ ε := ⟨α, p⟩

/-- The ordered choice of a parser and any number of others, each put behind all that come before it. -/
def Parser.firstOf {σ ε α : Type} (p : Parser σ ε α) (others : List (Parser σ ε α)) : Parser σ ε α :=
  others.foldl Parser.orElse p

namespace Bracketing

variable {P : Type u} {Q : Type v} {σ ε α : Type}

/-- The things that are joined, from left to right. -/
def leaves : Bracketing P → List P
  | one part => [part]
  | two left right => left.leaves ++ right.leaves

theorem leaves_ne_nil (b : Bracketing P) : b.leaves ≠ [] := by
  induction b with
  | one part => exact List.cons_ne_nil part []
  | two left right ihl _ => exact List.append_ne_nil_of_left_ne_nil ihl right.leaves

/-- The same nest of other things. -/
protected def map (f : P → Q) : Bracketing P → Bracketing Q
  | one part => one (f part)
  | two left right => two (left.map f) (right.map f)

theorem leaves_map (f : P → Q) (b : Bracketing P) : (b.map f).leaves = b.leaves.map f := by
  induction b with
  | one part => rfl
  | two left right ihl ihr => rw [Bracketing.map, leaves, leaves, ihl, ihr, List.map_append]

/-- The nest in which each thing is put behind all that come before it. -/
def fromLeft (part : P) (others : List P) : Bracketing P :=
  others.foldl (fun b other => two b (one other)) (one part)

theorem leaves_fromLeft (part : P) (others : List P) : (fromLeft part others).leaves = part :: others := by
  have hfold (b : Bracketing P) :
      (others.foldl (fun b other => two b (one other)) b).leaves = b.leaves ++ others := by
    induction others generalizing b with
    | nil => exact (List.append_nil b.leaves).symm
    | cons other others ih => rw [List.foldl_cons, ih, leaves, leaves, List.append_assoc, List.singleton_append]
  exact hfold (one part)

/-! ### Sequence -/

/-- The values of nested sequences: pairs, nested in the same way. -/
def Pairs : Bracketing (AnyParser σ ε) → Type
  | one part => part.1
  | two left right => left.Pairs × right.Pairs

/-- The parsers in sequence. -/
protected def seq : (b : Bracketing (AnyParser σ ε)) → Parser σ ε b.Pairs
  | one part => part.2
  | two left right => left.seq.seq right.seq

/-- The plain values in nested pairs, from left to right. -/
def values : (b : Bracketing (AnyParser σ ε)) → b.Pairs → List AnyValue
  | one part, a => [⟨part.1, a⟩]
  | two left right, (a, c) => left.values a ++ right.values c

theorem length_values (b : Bracketing (AnyParser σ ε)) (a : b.Pairs) : (b.values a).length = b.leaves.length := by
  induction b with
  | one part => rfl
  | two left right ihl ihr =>
    obtain ⟨a, c⟩ := a
    rw [values, leaves, List.length_append, List.length_append, ihl, ihr]

/-! ### Choice -/

/-- The values of nested choices: sides, nested in the same way. -/
def Sides : Bracketing (AnyParser σ ε) → Type
  | one part => part.1
  | two left right => left.Sides ⊕ right.Sides

/-- The parsers in ordered choice. -/
protected def choice : (b : Bracketing (AnyParser σ ε)) → Parser σ ε b.Sides
  | one part => part.2
  | two left right => left.choice.choice right.choice

/-- The leaf to which the sides of a value lead, by the number of leaves before it, and the plain value. -/
def chosen : (b : Bracketing (AnyParser σ ε)) → b.Sides → Nat × AnyValue
  | one part, a => (0, ⟨part.1, a⟩)
  | two left _, .inl a => left.chosen a
  | two left right, .inr a => (left.leaves.length + (right.chosen a).1, (right.chosen a).2)

theorem chosen_lt (b : Bracketing (AnyParser σ ε)) (a : b.Sides) : (b.chosen a).1 < b.leaves.length := by
  induction b with
  | one part => exact Nat.one_pos
  | two left right ihl ihr =>
    rw [leaves, List.length_append]
    cases a with
    | inl a => exact Nat.lt_add_right _ (ihl a)
    | inr a => exact Nat.add_lt_add_left (ihr a) _

/-- Parsers of the same values in ordered choice, without the sides. -/
protected def orElse : Bracketing (Parser σ ε α) → Parser σ ε α
  | one part => part
  | two left right => left.orElse.orElse right.orElse

theorem orElse_fromLeft (p : Parser σ ε α) (others : List (Parser σ ε α)) :
    (fromLeft p others).orElse = Parser.firstOf p others :=
  (List.foldl_hom Bracketing.orElse fun _ _ => rfl).symm

/-- The value without its sides. -/
def plain : (c : Bracketing (Parser σ ε α)) → (c.map Parser.any).Sides → α
  | one _, a => a
  | two left _, .inl a => left.plain a
  | two _ right, .inr a => right.plain a

theorem chosen_eq_plain (c : Bracketing (Parser σ ε α)) (a : (c.map Parser.any).Sides) :
    ((c.map Parser.any).chosen a).2 = ⟨α, c.plain a⟩ := by
  induction c with
  | one part => rfl
  | two left right ihl ihr =>
    cases a with
    | inl a => exact ihl a
    | inr a => exact ihr a

end Bracketing
end TracedParsers
