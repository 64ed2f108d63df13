/-!
# Trees of nested parentheses

Finite ordered trees, each written as a pair of parentheses around its children. A tree has a height,
and its nodes have numbers of children, listed here with children before their parents. A tree is told by
this list: taken in turn, the numbers build it again from its leaves up.
-/

namespace TracedParsers
namespace Nesting

/-- A node with its children in order. -/
inductive Tree where
  | node (children : List Tree)

namespace Tree

mutual

/-- A tree written as parentheses. -/
def render : Tree → List Char
  | node children => '(' :: (renderAll children ++ [')'])

def renderAll : List Tree → List Char
  | [] => []
  | tree :: trees => tree.render ++ renderAll trees

end

mutual

/-- The number of nodes on the longest way down. -/
def height : Tree → Nat
  | node children => 1 + greatestHeight children

/-- The height of the highest tree, or 0 if there is none. -/
def greatestHeight : List Tree → Nat
  | [] => 0
  | tree :: trees => max tree.height (greatestHeight trees)

end

mutual

/-- The numbers of children of all nodes, each node after its descendants. -/
def arities : Tree → List Nat
  | node children => aritiesAll children ++ [children.length]

def aritiesAll : List Tree → List Nat
  | [] => []
  | tree :: trees => tree.arities ++ aritiesAll trees

end

theorem render_node_append (children : List Tree) (tail : List Char) :
    (node children).render ++ tail = '(' :: (renderAll children ++ ')' :: tail) := by
  rw [render, List.cons_append, List.append_assoc, List.singleton_append]

/-- The greatest height, found by going through the trees from the left. -/
theorem foldl_max_height (trees : List Tree) (n : Nat) :
    (trees.map height).foldl max n = max n (greatestHeight trees) := by
  induction trees generalizing n with
  | nil => exact (Nat.max_zero n).symm
  | cons tree trees ih => rw [List.map_cons, List.foldl_cons, ih, greatestHeight, Nat.max_assoc]

/-! ### A tree from its numbers of children -/

/-- Makes the last `n` of some trees the children of a new one. The trees are listed last to first. -/
def adopt (trees : List Tree) (n : Nat) : List Tree :=
  node (trees.take n).reverse :: trees.drop n

theorem adopt_length (children trees : List Tree) :
    adopt (children.reverse ++ trees) children.length = node children :: trees := by
  rw [adopt, List.take_left' List.length_reverse, List.drop_left' List.length_reverse, List.reverse_reverse]

mutual

/-- The numbers of children of a tree add this tree to those that are there, and change none of them. -/
theorem foldl_adopt_arities : ∀ (tree : Tree) (trees : List Tree),
    tree.arities.foldl adopt trees = tree :: trees
  | node children, trees => by
    rw [arities, List.foldl_append, foldl_adopt_aritiesAll children trees, List.foldl_cons, List.foldl_nil,
      adopt_length]

theorem foldl_adopt_aritiesAll : ∀ (children trees : List Tree),
    (aritiesAll children).foldl adopt trees = children.reverse ++ trees
  | [], trees => by rw [aritiesAll, List.foldl_nil, List.reverse_nil, List.nil_append]
  | tree :: children, trees => by
    rw [aritiesAll, List.foldl_append, foldl_adopt_arities tree trees, foldl_adopt_aritiesAll children,
      List.reverse_cons, List.append_assoc, List.singleton_append]

end

theorem arities_injective {tree tree' : Tree} (h : tree.arities = tree'.arities) : tree = tree' := by
  have hbuilt := congrArg (List.foldl adopt []) h
  rw [foldl_adopt_arities, foldl_adopt_arities] at hbuilt
  exact (List.cons.inj hbuilt).1

end Tree
end Nesting
end TracedParsers
