import TracedParsers.Formats.Nesting
import TracedParsers.Formats.Nesting.Tree
import TracedParsers.Grammar.Derivation
import TracedParsers.Proofs.Leaves

/-!
# Nested parentheses are trees

The parser of nested parentheses ends on every text. It succeeds exactly where a tree is written at the front of
the text, whatever follows the tree, and gives the height of the tree. Its events are the numbers of children of
the nodes, children before their parents, and they tell the tree.
-/

namespace TracedParsers
namespace Nesting

open Grammar Nesting.Tree

variable {cs tail : List Char} {depths : List Nat} {t : Trace}

/-! ### One pair of parentheses -/

/-- Behind an opening parenthesis, what comes after the pairs inside decides. -/
theorem derives_nested_opened {rest : Text} {o : Outcome Text (MatchError Char) Char}
    (inside : Derives .text rules (.many (.call .nested)) (.ofList cs) (.success depths rest) t)
    (close : Derives .text rules (.ofText (.char ')')) rest o []) :
    Derives .text rules nested (.ofList ('(' :: cs)) (o.map fun _ => height depths) t := by
  have opened : Derives .text rules (.ofText (.char '(')) (.ofList ('(' :: cs)) (.success '(' (.ofList cs)) [] :=
    .leaf (TextLeaf.yields_char '(' cs)
  have pair := Derives.map (f := height) (.seqLeft_success (.seqRight_success opened inside) close)
  rw [List.nil_append, List.append_nil] at pair
  cases o with
  | success c rest => exact pair
  | failure e => exact pair

theorem derives_nested_closed
    (inside : Derives .text rules (.many (.call .nested)) (.ofList cs)
      (.success depths (.ofList (')' :: tail))) t) :
    Derives .text rules nested (.ofList ('(' :: cs)) (.success (height depths) (.ofList tail)) t :=
  derives_nested_opened inside (.leaf (TextLeaf.yields_char ')' tail))

theorem derives_nested_unclosed
    (inside : Derives .text rules (.many (.call .nested)) (.ofList cs) (.success depths (.ofList tail)) t)
    (h : tail.head? ≠ some ')') : ∃ e, Derives .text rules nested (.ofList ('(' :: cs)) (.failure e) t := by
  obtain ⟨e, hclose⟩ := TextLeaf.yields_char_refused ')' h
  exact ⟨e, derives_nested_opened inside (.leaf hclose)⟩

theorem derives_nested_unopened (h : cs.head? ≠ some '(') :
    ∃ e, Derives .text rules nested (.ofList cs) (.failure e) [] := by
  obtain ⟨e, hopen⟩ := TextLeaf.yields_char_refused '(' h
  have unopened : Derives .text rules (.ofText (.char '(')) (.ofList cs) (.failure e) [] := .leaf hopen
  exact ⟨e, .map (.seqLeft_failure (.seqRight_failure unopened))⟩

/-! ### Written trees are read -/

theorem height_map (children : List Tree) : height (children.map Tree.height) = (node children).height := by
  rw [height, foldl_max_height, Nat.zero_max, Tree.height]

mutual

/-- A written tree is read to its end and no further. -/
theorem derives_render : ∀ (tree : Tree) (tail : List Char),
    Derives .text rules nested (.ofList (tree.render ++ tail)) (.success tree.height (.ofList tail))
      (tree.arities.map .stopped)
  | node children, tail => by
    -- The repetition inside stops at the closing parenthesis, before it has read anything of it.
    have hclosing : (')' :: tail).head? ≠ some '(' := by simp
    obtain ⟨e, stops⟩ := derives_nested_unopened hclosing
    have inside := derives_renderAll children stops
    have pair := derives_nested_closed inside
    rwa [height_map, List.append_nil, ← List.map_singleton, ← List.map_append, ← arities,
      ← render_node_append] at pair

/-- A row of written trees is read as far as no tree follows. -/
theorem derives_renderAll : ∀ (trees : List Tree) {tail : List Char} {e : MatchError Char} {t : Trace},
    Derives .text rules nested (.ofList tail) (.failure e) t →
      Derives .text rules (.many (.call .nested)) (.ofList (renderAll trees ++ tail))
        (.success (trees.map Tree.height) (.ofList tail))
        ((aritiesAll trees).map .stopped ++ t ++ [.stopped trees.length])
  | [], tail, e, t, stops => .many_nil (.rule stops)
  | tree :: trees, tail, e, t, stops => by
    have first := derives_render tree (renderAll trees ++ tail)
    have others := derives_renderAll trees stops
    rw [← List.length_map (f := Tree.height)] at others
    have row := Derives.many_cons (.rule first) others
    rwa [List.length_map, ← List.append_assoc, ← List.append_assoc, ← List.map_append, ← aritiesAll,
      ← renderAll] at row

end

/-! ### Nothing else is read -/

/-- Every text is a row of written trees with a rest at which no tree is read. -/
theorem exists_renderAll_append (cs : List Char) :
    ∃ trees tail, cs = renderAll trees ++ tail ∧
      ∃ e t, Derives .text rules nested (.ofList tail) (.failure e) t := by
  -- Both the inside of a pair and what follows the pair are shorter than the whole.
  generalize hn : cs.length = n
  induction n using Nat.strongRecOn generalizing cs with
  | ind n ih =>
    by_cases hopen : cs.head? = some '('
    · obtain ⟨inner, rfl⟩ := List.head?_eq_some_iff.mp hopen
      rw [List.length_cons] at hn
      obtain ⟨children, tail, rfl, e, t, stops⟩ := ih inner.length (by omega) inner rfl
      rw [List.length_append] at hn
      have inside := derives_renderAll children stops
      by_cases hclose : tail.head? = some ')'
      · obtain ⟨after, rfl⟩ := List.head?_eq_some_iff.mp hclose
        rw [List.length_cons] at hn
        obtain ⟨trees, rest, rfl, refused⟩ := ih after.length (by omega) after rfl
        refine ⟨node children :: trees, rest, ?_, refused⟩
        rw [renderAll, List.append_assoc, render_node_append]
      · obtain ⟨e, unclosed⟩ := derives_nested_unclosed inside hclose
        exact ⟨[], _, rfl, e, _, unclosed⟩
    · obtain ⟨e, unopened⟩ := derives_nested_unopened hopen
      exact ⟨[], cs, rfl, e, _, unopened⟩

/-! ### The parser -/

theorem depth_yields_of_derives {o : Outcome Text (MatchError Char) Nat}
    (h : Derives .text rules nested (.ofList cs) o t) : depth.Yields (.ofList cs) o t :=
  h.yields

theorem depth_yields_render (tree : Tree) (tail : Text) :
    depth.Yields (.ofList tree.render ++ tail) (.success tree.height tail) (tree.arities.map .stopped) := by
  have hread := depth_yields_of_derives (derives_render tree tail.chars)
  rwa [Text.ofList_chars, ← Text.ofList_append] at hread

/-- At the front of a text there is a written tree, or the parser fails. -/
theorem render_or_refused (s : Text) :
    (∃ (tree : Tree) (tail : Text), s = .ofList tree.render ++ tail) ∨ ∃ e t, depth.Yields s (.failure e) t := by
  obtain ⟨trees, tail, hs, e, t, refused⟩ := exists_renderAll_append s.chars
  cases trees with
  | nil =>
    have hfail := depth_yields_of_derives refused
    rw [(Text.ext hs.symm : .ofList tail = s)] at hfail
    exact .inr ⟨e, t, hfail⟩
  | cons tree trees =>
    rw [renderAll, List.append_assoc] at hs
    exact .inl ⟨tree, .ofList (renderAll trees ++ tail), Text.ext hs⟩

theorem depth_ends (s : Text) : ∃ o t, depth.Yields s o t := by
  rcases render_or_refused s with ⟨tree, tail, rfl⟩ | ⟨e, t, hfail⟩
  · exact ⟨_, _, depth_yields_render tree tail⟩
  · exact ⟨_, t, hfail⟩

theorem depth_yields_success_iff {s r : Text} {d : Nat} :
    (∃ t, depth.Yields s (.success d r) t) ↔ ∃ tree : Tree, s = .ofList tree.render ++ r ∧ d = tree.height := by
  constructor
  · rintro ⟨t, h⟩
    rcases render_or_refused s with ⟨tree, tail, rfl⟩ | ⟨e, u, hfail⟩
    · obtain ⟨ho, -⟩ := h.unique (depth_yields_render tree tail)
      cases ho
      exact ⟨tree, rfl, rfl⟩
    · obtain ⟨ho, -⟩ := h.unique hfail
      nomatch ho
  · rintro ⟨tree, rfl, rfl⟩
    exact ⟨_, depth_yields_render tree r⟩

/-! ### One tree for a text, and one for a trace -/

theorem eq_of_map_arities {tree tree' : Tree}
    (h : tree.arities.map Event.stopped = tree'.arities.map .stopped) : tree = tree' := by
  refine arities_injective ((List.map_inj_right ?_).mp h)
  rintro m n ⟨⟩
  rfl

/-- Two runs on written trees that report the same events have read the same tree. -/
theorem eq_of_same_trace {tree tree' : Tree} {tail tail' : Text} {o o' : Outcome Text (MatchError Char) Nat}
    (h : depth.Yields (.ofList tree.render ++ tail) o t) (h' : depth.Yields (.ofList tree'.render ++ tail') o' t) :
    tree = tree' := by
  obtain ⟨-, ht⟩ := (depth_yields_render tree tail).unique h
  obtain ⟨-, ht'⟩ := (depth_yields_render tree' tail').unique h'
  exact eq_of_map_arities (ht.trans ht'.symm)

/-- No text starts with two trees. -/
theorem eq_of_render_append {tree tree' : Tree} {tail tail' : Text}
    (h : Text.ofList tree.render ++ tail = .ofList tree'.render ++ tail') : tree = tree' := by
  have hread := depth_yields_render tree tail
  rw [h] at hread
  obtain ⟨-, ht⟩ := hread.unique (depth_yields_render tree' tail')
  exact eq_of_map_arities ht

/-! ### Main statements -/

/-- The parser ends on every text. It succeeds exactly where a tree is written at the front, leaves what follows
    the tree and gives its height, and there is one such tree at most. Whatever follows a written tree, the tree
    is read. -/
theorem depth_reads_trees :
    (∀ s : Text,
      (∃ o t, depth.Yields s o t) ∧
      (∀ (d : Nat) (r : Text), (∃ t, depth.Yields s (.success d r) t) ↔
        ∃ tree : Tree, s = .ofList tree.render ++ r ∧ d = tree.height) ∧
      ∀ (tree tree' : Tree) (r r' : Text),
        s = .ofList tree.render ++ r → s = .ofList tree'.render ++ r' → tree = tree') ∧
    ∀ (tree : Tree) (tail : Text), ∃ t,
      depth.Yields (.ofList tree.render ++ tail) (.success tree.height tail) t := by
  refine ⟨fun s => ⟨depth_ends s, fun d r => depth_yields_success_iff, ?_⟩, ?_⟩
  · intro tree tree' r r' hs hs'
    exact eq_of_render_append (hs.symm.trans hs')
  · intro tree tail
    exact ⟨_, depth_yields_render tree tail⟩

/-- A tree of height 3 with letters behind it, and a text with no tree at its front. -/
theorem depth_reads_trees_rest :
    (∃ t, depth.Yields (.ofString "(()(()))rest") (.success 3 (.ofString "rest")) t) ∧
      (∀ (tree : Tree) (r : Text), Text.ofString "(()(()))rest" = .ofList tree.render ++ r →
        tree = node [node [], node [node []]]) ∧
      ∃ e t, depth.Yields (.ofString ")(") (.failure e) t := by
  obtain ⟨hread, -⟩ := depth_reads_trees
  have hrest : Text.ofString "(()(()))rest" =
      .ofList (node [node [], node [node []]]).render ++ .ofString "rest" := Text.ext rfl
  refine ⟨?_, ?_, ?_⟩
  · exact ((hread _).2.1 3 _).mpr ⟨_, hrest, rfl⟩
  · intro tree r hs
    exact (hread _).2.2 tree _ r _ hs hrest
  · obtain ⟨hends, hsuccess, -⟩ := hread (.ofString ")(")
    obtain ⟨o, t, h⟩ := hends
    cases o with
    | failure e => exact ⟨e, t, h⟩
    | success d r =>
      obtain ⟨⟨children⟩, hs, -⟩ := (hsuccess d r).mp ⟨t, h⟩
      nomatch congrArg Text.chars hs

/-- On a written tree the parser reports one event for each node, after those of the descendants of the node, with
    the number of its children, and nothing else. So runs on different trees report different events. -/
theorem depth_reports_arities :
    (∀ (tree : Tree) (tail : Text) (o : Outcome Text (MatchError Char) Nat) (t : Trace),
      depth.Yields (.ofList tree.render ++ tail) o t ↔
        o = .success tree.height tail ∧ t = tree.arities.map .stopped) ∧
    ∀ (tree tree' : Tree) (tail tail' : Text) (o o' : Outcome Text (MatchError Char) Nat) (t t' : Trace),
      depth.Yields (.ofList tree.render ++ tail) o t → depth.Yields (.ofList tree'.render ++ tail') o' t' →
        tree ≠ tree' → t ≠ t' := by
  refine ⟨?_, ?_⟩
  · intro tree tail o t
    constructor
    · intro h
      exact h.unique (depth_yields_render tree tail)
    · rintro ⟨rfl, rfl⟩
      exact depth_yields_render tree tail
  · rintro tree tree' tail tail' o o' t _ h h' hne rfl
    exact hne (eq_of_same_trace h h')

/-- Two leaves in a tree, and three trees in each other, have as many nodes and different events. -/
theorem depth_reports_arities_wide_deep :
    depth.Yields (.ofString "(()())x") (.success 2 (.ofString "x")) [.stopped 0, .stopped 0, .stopped 2] ∧
      depth.Yields (.ofString "((()))") (.success 3 .empty) [.stopped 0, .stopped 1, .stopped 1] ∧
      [Event.stopped 0, .stopped 0, .stopped 2] ≠ [.stopped 0, .stopped 1, .stopped 1] := by
  obtain ⟨hreport, hdiffer⟩ := depth_reports_arities
  have hwide := (hreport (node [node [], node []]) (.ofString "x") _ _).mpr ⟨rfl, rfl⟩
  have hdeep := (hreport (node [node [node []]]) .empty _ _).mpr ⟨rfl, rfl⟩
  have hne : node [node [], node []] ≠ node [node [node []]] := nofun
  exact ⟨hwide, hdeep, hdiffer _ _ _ _ _ _ _ _ hwide hdeep hne⟩

end Nesting
end TracedParsers
