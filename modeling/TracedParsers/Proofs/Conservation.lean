import TracedParsers.Grammar.Derivation
import TracedParsers.Proofs.Leaves

/-!
# Nothing is lost

Some grammars keep what they read: the elements in their value, first to last, and the input they leave
make up the whole input. What an attempt has read before it fails is given back with nothing missing, and
nothing of it gets into the value.
-/

namespace TracedParsers

/-- Where a type of values keeps the elements that were read. -/
inductive Shape : Type → Type → Type 1 where
  /-- Values without elements. -/
  | plain {τ : Type} (α : Type) : Shape τ α
  /-- One element. -/
  | element {τ : Type} : Shape τ τ
  /-- The characters of a string. -/
  | string : Shape Char String
  | pair {τ α β : Type} (c : Shape τ α) (d : Shape τ β) : Shape τ (α × β)
  | sum {τ α β : Type} (c : Shape τ α) (d : Shape τ β) : Shape τ (α ⊕ β)
  | option {τ α : Type} (c : Shape τ α) : Shape τ (Option α)
  | list {τ α : Type} (c : Shape τ α) : Shape τ (List α)

namespace Shape

variable {τ α β : Type}

/-- The elements in a value, from left to right. -/
def flatten {τ α : Type} : Shape τ α → α → List τ
  | plain _, _ => []
  | element, x => [x]
  | string, w => w.toList
  | pair c d, (a, b) => c.flatten a ++ d.flatten b
  | sum c _, .inl a => c.flatten a
  | sum _ d, .inr b => d.flatten b
  | option _, none => []
  | option c, some a => c.flatten a
  | list c, as => as.flatMap c.flatten

@[simp] theorem flatten_list_nil (c : Shape τ α) : c.list.flatten [] = [] := rfl

@[simp] theorem flatten_list_cons (c : Shape τ α) (a : α) (as : List α) :
    c.list.flatten (a :: as) = c.flatten a ++ c.list.flatten as := rfl

@[simp] theorem flatten_pair (c : Shape τ α) (d : Shape τ β) (a : α) (b : β) :
    (c.pair d).flatten (a, b) = c.flatten a ++ d.flatten b := rfl

end Shape

/-! ### Parsers -/

namespace Parser

variable {σ τ ε ε' α β : Type} [Source σ τ]

/-- Every success splits the input into the elements of the value and what is left. -/
def Conserves (c : Shape τ α) (p : Parser σ ε α) : Prop :=
  ∀ s a r t, p.Yields s (.success a r) t → Source.toList s = c.flatten a ++ Source.toList r

variable {c : Shape τ α} {d : Shape τ β} {p : Parser σ ε α}

theorem conserves_never : (never : Parser σ ε α).Conserves c :=
  fun _ _ _ _ h => absurd h not_yields_never

theorem conserves_pure {a : α} (h : c.flatten a = []) : (Parser.pure a : Parser σ ε α).Conserves c := by
  intro s b r t hp
  obtain ⟨heq, -⟩ := yields_pure.mp hp
  cases heq
  rw [h, List.nil_append]

theorem conserves_fail {e : ε} : (fail e : Parser σ ε α).Conserves c := by
  intro s a r t hp
  nomatch (yields_fail.mp hp).1

theorem Conserves.mapError (h : p.Conserves c) (f : ε → ε') : (p.mapError f).Conserves c := by
  intro s a r t hp
  obtain ⟨o, hp, ho⟩ := yields_mapError.mp hp
  cases o with
  | success b r =>
    cases ho
    exact h s _ _ t hp
  | failure e => nomatch ho

/-- A check that accepts values as they are. -/
theorem Conserves.validate (h : p.Conserves c) {check : α → Except ε α}
    (unchanged : ∀ a b, check a = .ok b → b = a) : (p.validate check).Conserves c := by
  intro s b r t hp
  rcases yields_validate.mp hp with ⟨e, -, ho⟩ | ⟨a, r, b, hp, hb, ho⟩ | ⟨a, r, e, t', -, -, ho, -⟩
  · nomatch ho
  · cases ho
    rw [unchanged a _ hb]
    exact h s a _ t hp
  · nomatch ho

theorem Conserves.seq {q : Parser σ ε β} (hp : p.Conserves c) (hq : q.Conserves d) :
    (p.seq q).Conserves (c.pair d) := by
  intro s ab r t h
  rcases yields_seq.mp h with ⟨e, -, ho⟩ | ⟨a, r₁, o, t₁, t₂, h₁, h₂, ho, -⟩
  · nomatch ho
  · cases o with
    | success b r₂ =>
      cases ho
      calc Source.toList s = c.flatten a ++ Source.toList r₁ := hp s a r₁ t₁ h₁
        _ = c.flatten a ++ (d.flatten b ++ Source.toList r) := by rw [hq r₁ b r t₂ h₂]
        _ = (c.pair d).flatten (a, b) ++ Source.toList r := by
          rw [Shape.flatten_pair, List.append_assoc]
    | failure e => nomatch ho

theorem Conserves.choice {q : Parser σ ε β} (hp : p.Conserves c) (hq : q.Conserves d) :
    (p.choice q).Conserves (c.sum d) := by
  intro s ab r t h
  rcases yields_choice.mp h with ⟨a, r₁, h₁, ho⟩ | ⟨e, o, t₁, t₂, -, h₂, ho, -⟩
  · cases ho
    exact hp s a r t h₁
  · -- What the first part has read before it failed is read by the second part again.
    cases o with
    | success b r₂ =>
      cases ho
      exact hq s b r t₂ h₂
    | failure e => nomatch ho

theorem Conserves.orElse {q : Parser σ ε α} (hp : p.Conserves c) (hq : q.Conserves c) :
    (p.orElse q).Conserves c := by
  intro s a r t h
  rcases yields_orElse.mp h with ⟨a, r, h₁, ho⟩ | ⟨e, t₁, t₂, -, h₂, -⟩
  · cases ho
    exact hp s _ _ t h₁
  · exact hq s a r t₂ h₂

theorem Conserves.optional (hp : p.Conserves c) : p.optional.Conserves c.option := by
  intro s a r t h
  rcases yields_optional.mp h with ⟨a, r, h, ho⟩ | ⟨e, t₁, -, ho, -⟩
  · cases ho
    exact hp s _ _ t h
  · cases ho
    rfl

/-- The last attempt of a repetition fails and leaves its whole input. -/
theorem Conserves.items (hp : p.Conserves c) {s r : σ} {as : List α} {t : Trace}
    (h : (p.items s).Ends (as, r) t) : Source.toList s = c.list.flatten as ++ Source.toList r := by
  induction as generalizing s t with
  | nil =>
    obtain ⟨rfl, -⟩ := ends_items_nil_iff.mp h
    rfl
  | cons a as ih =>
    obtain ⟨r₁, t₁, t₂, h₁, h₂, -⟩ := ends_items_cons_iff.mp h
    rw [hp s a r₁ t₁ h₁, ih h₂, Shape.flatten_list_cons, List.append_assoc]

theorem Conserves.many (hp : p.Conserves c) : p.many.Conserves c.list := by
  intro s as r t h
  obtain ⟨t', hi, -⟩ := yields_many_success_iff.mp h
  exact hp.items hi

theorem Conserves.many1 (hp : p.Conserves c) : p.many1.Conserves c.list := by
  intro s as r t h
  cases as with
  | nil => exact absurd h not_yields_many1_nil
  | cons a as => exact hp.items (yields_many1_cons_iff.mp h)

end Parser

/-! ### Grammars -/

/-- A matcher of texts whose value is what it reads. -/
inductive TextLeaf.Keeps : {ε α : Type} → TextLeaf ε α → Shape Char α → Prop where
  | anyChar : Keeps .anyChar .element
  | char (wanted : Char) : Keeps (.char wanted) .element
  | charIf (test : Char → Bool) (expected : String) : Keeps (.charIf test expected) .element
  | literal (wanted : String) : Keeps (.literal wanted) .string

/-- A matcher of tokens keeps the token it reads. -/
inductive TokenLeaf.Keeps {τ : Type} : {ε α : Type} → TokenLeaf τ ε α → Shape τ α → Prop where
  | anyToken : Keeps .anyToken .element
  | token (wanted : τ) : Keeps (.token wanted) .element
  | tokenIf (test : τ → Bool) (expected : String) : Keeps (.tokenIf test expected) .element

theorem TextLeaf.Keeps.conserves {ε α : Type} {l : TextLeaf ε α} {c : Shape Char α} (h : l.Keeps c) :
    l.parser.Conserves c := by
  intro s a r t hl
  have hreads := l.yields_iff.mp hl
  rw [Text.toList_eq_chars, Text.toList_eq_chars]
  generalize s.chars = cs at hreads
  cases h with
  | anyChar | char | charIf =>
    cases hreads
    rfl
  | literal wanted =>
    cases hreads
    rfl

theorem TokenLeaf.Keeps.conserves {τ ε α : Type} [BEq τ] [Inspect τ] {l : TokenLeaf τ ε α} {c : Shape τ α}
    (h : l.Keeps c) : l.parser.Conserves c := by
  intro s a r t hl
  have hreads := l.yields_iff.mp hl
  cases h with
  | anyToken | token | tokenIf =>
    cases hreads
    rfl

namespace Grammar

section
variable {Leaf Rule : Type → Type → Type} {τ : Type}

/-- A grammar that keeps what it reads, given the leaves that do and what is asked of the rules. -/
inductive Keeps (leaves : ∀ ε α, Leaf ε α → Shape τ α → Prop) (named : ∀ ε α, Rule ε α → Shape τ α → Prop) :
    {ε α : Type} → Grammar (.ofLeaves Leaf Rule) () ε α → Shape τ α → Prop where
  | leaf {ε α} {l : Leaf ε α} {c} (h : leaves ε α l c) : Keeps leaves named (.leaf l) c
  | rule {ε α} {r : Rule ε α} {c} (h : named ε α r c) : Keeps leaves named (.rule r) c
  /-- A value without elements. -/
  | pure {ε α} {a : α} {c : Shape τ α} (h : c.flatten a = []) :
      Keeps leaves named (.pure a : Grammar (.ofLeaves Leaf Rule) () ε α) c
  | fail {ε α} {e : ε} {c : Shape τ α} : Keeps leaves named (.fail e) c
  | mapError {ε ε' α} {f : ε → ε'} {g : Grammar (.ofLeaves Leaf Rule) () ε α} {c}
      (h : Keeps leaves named g c) : Keeps leaves named (.mapError f g) c
  /-- A check that returns what it accepts unchanged. -/
  | validate {ε α} {check : α → Except ε α} {g : Grammar (.ofLeaves Leaf Rule) () ε α} {c}
      (unchanged : ∀ a b, check a = .ok b → b = a) (h : Keeps leaves named g c) :
      Keeps leaves named (.validate check g) c
  | seq {ε α β} {g : Grammar (.ofLeaves Leaf Rule) () ε α} {h : Grammar (.ofLeaves Leaf Rule) () ε β} {c d}
      (hg : Keeps leaves named g c) (hh : Keeps leaves named h d) : Keeps leaves named (.seq g h) (c.pair d)
  | choice {ε α β} {g : Grammar (.ofLeaves Leaf Rule) () ε α} {h : Grammar (.ofLeaves Leaf Rule) () ε β}
      {c d} (hg : Keeps leaves named g c) (hh : Keeps leaves named h d) :
      Keeps leaves named (.choice g h) (c.sum d)
  | orElse {ε α} {g h : Grammar (.ofLeaves Leaf Rule) () ε α} {c} (hg : Keeps leaves named g c)
      (hh : Keeps leaves named h c) : Keeps leaves named (.orElse g h) c
  | optional {ε α} {g : Grammar (.ofLeaves Leaf Rule) () ε α} {c} (h : Keeps leaves named g c) :
      Keeps leaves named (.optional g) c.option
  | many {ε α} {g : Grammar (.ofLeaves Leaf Rule) () ε α} {c} (h : Keeps leaves named g c) :
      Keeps leaves named (.many g) c.list
  | many1 {ε α} {g : Grammar (.ofLeaves Leaf Rule) () ε α} {c} (h : Keeps leaves named g c) :
      Keeps leaves named (.many1 g) c.list

/-- Together with the rules it refers to, a grammar keeps what it reads. -/
def IsKeeping (leaves : ∀ ε α, Leaf ε α → Shape τ α → Prop) (rules : Rules (.ofLeaves Leaf Rule)) {ε α : Type}
    (g : Grammar (.ofLeaves Leaf Rule) () ε α) (c : Shape τ α) : Prop :=
  ∃ named : ∀ ε α, Rule ε α → Shape τ α → Prop,
    (∀ {ε α} {r : Rule ε α} {d}, named ε α r d → Keeps leaves named (rules () ε α r) d) ∧
      Keeps leaves named g c

variable {leaves : ∀ ε α, Leaf ε α → Shape τ α → Prop} {named : ∀ ε α, Rule ε α → Shape τ α → Prop}
  {rules : Rules (.ofLeaves Leaf Rule)} {σ : Type} [Source σ τ] {leaf : ∀ {ε α}, Leaf ε α → Parser σ ε α}
  {ε α : Type} {g : Grammar (.ofLeaves Leaf Rule) () ε α} {c : Shape τ α}

instance : Source ((Model.ofLeaves σ leaf : Model (.ofLeaves Leaf Rule)).Input ()) τ :=
  inferInstanceAs (Source σ τ)

theorem Keeps.conserves_parserWith
    (hleaves : ∀ {ε α} {l : Leaf ε α} {c}, leaves ε α l c → (leaf l).Conserves c)
    {calls : RuleParsers (.ofLeaves σ leaf : Model (.ofLeaves Leaf Rule))}
    (hcalls : ∀ {ε α} {r : Rule ε α} {c}, named ε α r c → (calls () ε α r).Conserves c)
    (h : Keeps leaves named g c) : (g.parserWith (.ofLeaves σ leaf) calls).Conserves c := by
  induction h with
  | leaf h => exact hleaves h
  | rule h => exact hcalls h
  | pure h => exact Parser.conserves_pure h
  | fail => exact Parser.conserves_fail
  | mapError _ ih => exact ih.mapError _
  | validate unchanged _ ih => exact ih.validate unchanged
  | seq _ _ ihg ihh => exact ihg.seq ihh
  | choice _ _ ihg ihh => exact ihg.choice ihh
  | orElse _ _ ihg ihh => exact ihg.orElse ihh
  | optional _ ih => exact ih.optional
  | many _ ih => exact ih.many
  | many1 _ ih => exact ih.many1

/-- A parser that gets its successes from parsers that conserve the input does so itself. -/
theorem IsKeeping.conserves
    (hleaves : ∀ {ε α} {l : Leaf ε α} {c}, leaves ε α l c → (leaf l).Conserves c)
    (h : IsKeeping leaves rules g c) : (g.parser (.ofLeaves σ leaf) rules).Conserves c := by
  obtain ⟨named, closed, hg⟩ := h
  have hrules (depth : Nat) : ∀ {ε α} {r : Rule ε α} {d}, named ε α r d →
      (unfolded (.ofLeaves σ leaf) rules depth () ε α r).Conserves d := by
    induction depth with
    | zero => exact fun _ => Parser.conserves_never
    | succ depth ih => exact fun h => (closed h).conserves_parserWith hleaves ih
  intro s a r t hyields
  obtain ⟨depth, hyields⟩ := yields_parser_iff.mp hyields
  exact hg.conserves_parserWith hleaves (hrules depth) s a r t hyields

end

/-- A grammar that keeps what it reads loses nothing: on success the elements of the value, from left to
    right, and then what is left make up the input. -/
theorem flatten_append_rest :
    (∀ {Rule : Type → Type → Type} (rules : Rules (.text Rule)) {ε α : Type} (g : Grammar (.text Rule) () ε α)
      (c : Shape Char α), IsKeeping (@TextLeaf.Keeps) rules g c → ∀ (s r : Text) (v : α) (t : Trace),
        (g.parser .text rules).Yields s (.success v r) t → c.flatten v ++ r.chars = s.chars) ∧
    ∀ {Rule : Type → Type → Type} {τ : Type} [BEq τ] [Inspect τ] (rules : Rules (.tokens τ Rule)) {ε α : Type}
      (g : Grammar (.tokens τ Rule) () ε α) (c : Shape τ α), IsKeeping (@TokenLeaf.Keeps τ) rules g c →
        ∀ (s r : List τ) (v : α) (t : Trace),
          (g.parser (.tokens τ) rules).Yields s (.success v r) t → c.flatten v ++ r = s := by
  constructor
  · intro Rule rules ε α g c hg s r v t h
    exact (hg.conserves TextLeaf.Keeps.conserves s v r t h).symm
  · intro Rule τ _ _ rules ε α g c hg s r v t h
    exact (hg.conserves TokenLeaf.Keeps.conserves s v r t h).symm

/-- Two different characters, or else a row of the first. -/
def pairOrRow (a b : Char) :
    Grammar (.text fun _ _ => Empty) () (MatchError Char) (Char × Char ⊕ List Char) :=
  .choice (.seq (.ofText (.char a)) (.ofText (.char b))) (.many (.ofText (.char a)))

/-- The first part reads a character before it fails, and the second part reads it again. -/
theorem flatten_append_rest_pairOrRow :
    IsKeeping (@TextLeaf.Keeps) .none (pairOrRow 'a' 'b')
        ((Shape.element.pair .element).sum Shape.element.list) ∧
      ((pairOrRow 'a' 'b').parser .text .none).Yields (.ofString "aac")
        (.success (.inr ['a', 'a']) (.ofString "c")) [.fallback, .stopped 2] ∧
      ((Shape.element.pair .element).sum Shape.element.list).flatten (.inr ['a', 'a']) ++ ['c'] =
        ['a', 'a', 'c'] := by
  have hkeeps : IsKeeping (@TextLeaf.Keeps) .none (pairOrRow 'a' 'b')
      ((Shape.element.pair .element).sum Shape.element.list) := by
    refine ⟨fun _ _ _ _ => False, False.elim, ?_⟩
    exact .choice (.seq (.leaf (.char 'a')) (.leaf (.char 'b'))) (.many (.leaf (.char 'a')))
  have read (c : Char) (cs : List Char) :
      Derives .text .none (.ofText (.char c)) (.ofList (c :: cs)) (.success c (.ofList cs)) [] :=
    .leaf ((TextLeaf.char c).yields_iff.mpr (.success (beq_self_eq_true c)))
  have refuse (c d : Char) (cs : List Char) (h : (d == c) = false) :
      Derives .text .none (.ofText (.char c)) (.ofList (d :: cs))
        (.failure (.unexpected (inspect c) d)) [] :=
    .leaf ((TextLeaf.char c).yields_iff.mpr (.other h))
  have row : Derives .text .none (.many (.ofText (.char 'a'))) (.ofList ['a', 'a', 'c'])
      (.success ['a', 'a'] (.ofList ['c'])) ([] ++ [] ++ [.stopped 2]) := by
    have h₀ : Derives .text .none (.many (.ofText (.char 'a'))) (.ofList ['c'])
        (.success [] (.ofList ['c'])) ([] ++ [.stopped 0]) := .many_nil (refuse 'a' 'c' [] rfl)
    have h₁ : Derives .text .none (.many (.ofText (.char 'a'))) (.ofList ['a', 'c'])
        (.success ['a'] (.ofList ['c'])) ([] ++ [] ++ [.stopped 1]) := .many_cons (read 'a' ['c']) h₀
    exact .many_cons (read 'a' ['a', 'c']) h₁
  have hyields := (Derives.choice_right (.seq_success (read 'a' _) (refuse 'b' 'a' ['c'] rfl)) row).yields
  exact ⟨hkeeps, hyields, flatten_append_rest.1 .none _ _ hkeeps _ _ _ _ hyields⟩

end Grammar
end TracedParsers
