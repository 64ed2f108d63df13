import TracedParsers.Grammar.Calls

/-!
# Nodes

The nodes of a grammar are its parts at any depth, itself and the parts of the rules that it leads to
included. A statement about all nodes is made by naming the rules that a grammar leads to: `Throughout`
asks for rules that lead only to each other, and for the statement at every node of their bodies and of the
grammar itself. Whatever is read on the way is a node.
-/

namespace TracedParsers
namespace Grammar

variable {S : Signature} {κ : S.Kind} {ε α : Type}

/-- `node` holds of the grammar and its parts, and `named` of the rules that these refer to. -/
def All (node : ∀ {κ ε α}, Grammar S κ ε α → Prop) (named : ∀ {κ ε α}, S.Rule κ ε α → Prop) {κ : S.Kind}
    {ε α : Type} : Grammar S κ ε α → Prop
  | leaf l => node (leaf l)
  | rule r => node (rule r) ∧ named r
  | pure a => node (pure a : Grammar S κ ε α)
  | fail e => node (fail e : Grammar S κ ε α)
  | map f g => node (map f g) ∧ g.All node named
  | mapError f g => node (mapError f g) ∧ g.All node named
  | validate check g => node (validate check g) ∧ g.All node named
  | through v g => node (through v g) ∧ g.All node named
  | seq g h => node (seq g h) ∧ g.All node named ∧ h.All node named
  | seqLeft g h => node (seqLeft g h) ∧ g.All node named ∧ h.All node named
  | seqRight g h => node (seqRight g h) ∧ g.All node named ∧ h.All node named
  | choice g h => node (choice g h) ∧ g.All node named ∧ h.All node named
  | orElse g h => node (orElse g h) ∧ g.All node named ∧ h.All node named
  | optional g => node (optional g) ∧ g.All node named
  | many g => node (many g) ∧ g.All node named
  | many1 g => node (many1 g) ∧ g.All node named

/-- The bodies of the named rules have what is asked of all nodes. -/
def RulesAll (node : ∀ {κ ε α}, Grammar S κ ε α → Prop) (named : ∀ {κ ε α}, S.Rule κ ε α → Prop)
    (rules : Rules S) : Prop :=
  ∀ {κ ε α} {r : S.Rule κ ε α}, named r → (rules κ ε α r).All node named

/-- Every node has the property. -/
def Throughout (rules : Rules S) (node : ∀ {κ ε α}, Grammar S κ ε α → Prop) (g : Grammar S κ ε α) : Prop :=
  ∃ named : ∀ {κ ε α}, S.Rule κ ε α → Prop, RulesAll node named rules ∧ g.All node named

def IsLeaf : Grammar S κ ε α → Prop
  | leaf _ => True
  | _ => False

def IsFailure : Grammar S κ ε α → Prop
  | fail _ => True
  | _ => False

def IsErrorMap : Grammar S κ ε α → Prop
  | mapError _ _ => True
  | _ => False

def IsCheck : Grammar S κ ε α → Prop
  | validate _ _ => True
  | _ => False

variable {node : ∀ {κ ε α}, Grammar S κ ε α → Prop} {named : ∀ {κ ε α}, S.Rule κ ε α → Prop}
  {M : Model S} {rules : Rules S} {g : Grammar S κ ε α}

theorem All.self (h : g.All node named) : node g := by
  cases g with
  | leaf | pure | fail => exact h
  | rule | map | mapError | validate | through | seq | seqLeft | seqRight | choice | orElse | optional | many
  | many1 => exact h.1

section Calls
-- After its first success a repetition of at least one is read as any repetition.
variable (rest : ∀ {κ ε α} {g : Grammar S κ ε α}, node (many1 g) → node (many g))
include rest

theorem Calls.all (closed : RulesAll node named rules) {ε' α' : Type} {c : Grammar S κ ε' α'} {s u : M.Input κ}
    (h : Calls M rules g s c u) (hg : g.All node named) : c.All node named := by
  induction h with
  | self => exact hg
  | rule _ ih => exact ih (closed hg.2)
  | map _ ih | mapError _ ih | validate _ ih | optional _ ih | many_first _ ih | many1_first _ ih =>
    exact ih hg.2
  | seq_first _ ih | seqLeft_first _ ih | seqRight_first _ ih | choice_first _ ih | orElse_first _ ih =>
    exact ih hg.2.1
  | seq_second _ _ ih | seqLeft_second _ _ ih | seqRight_second _ _ ih | choice_second _ _ ih
  | orElse_second _ _ ih => exact ih hg.2.2
  | many_next _ _ ih => exact ih hg
  | many1_next _ _ ih => exact ih ⟨rest hg.1, hg.2⟩

theorem Throughout.of_calls (hg : Throughout rules node g) {ε' α' : Type} {c : Grammar S κ ε' α'}
    {s u : M.Input κ} (h : Calls M rules g s c u) : node c := by
  obtain ⟨named, closed, hg⟩ := hg
  exact (h.all rest closed hg).self

end Calls

end Grammar
end TracedParsers
