import TracedParsers.Run.Order
import TracedParsers.Parser.Yields

/-!
# Parsers that show more

`p ≤ q` says that on every input `q` shows what `p` shows within the same number of steps. Every
construction keeps this order, and a growing sequence of parsers has a limit.
-/

namespace TracedParsers
namespace Parser

variable {σ σ' ε ε' α β : Type}

instance : LE (Parser σ ε α) where
  le p q := ∀ s, p.parse s ≤ q.parse s

protected theorem le_refl (p : Parser σ ε α) : p ≤ p := fun s => Run.le_refl (p.parse s)

protected theorem le_trans {p q r : Parser σ ε α} (h : p ≤ q) (h' : q ≤ r) : p ≤ r :=
  fun s => Run.le_trans (h s) (h' s)

theorem never_le (p : Parser σ ε α) : never ≤ p := fun s => Run.never_le (p.parse s)

theorem Yields.of_le {p q : Parser σ ε α} {s : σ} {o : Outcome σ ε α} {t : Trace}
    (hp : p.Yields s o t) (h : p ≤ q) : q.Yields s o t :=
  Run.Ends.of_le hp (h s)

section Constructions

variable {p p' : Parser σ ε α} {q q' : Parser σ ε β}

theorem map_le_map (f : α → β) (h : p ≤ p') : p.map f ≤ p'.map f :=
  fun s => Run.map_le_map _ (h s)

theorem mapError_le_mapError (f : ε → ε') (h : p ≤ p') : p.mapError f ≤ p'.mapError f :=
  fun s => Run.map_le_map _ (h s)

theorem through_le_through (into : σ' → σ) (back : σ → σ') (h : p ≤ p') :
    p.through into back ≤ p'.through into back :=
  fun s => Run.map_le_map _ (h (into s))

theorem validate_le_validate (check : α → Except ε β) (h : p ≤ p') :
    p.validate check ≤ p'.validate check :=
  fun s => Run.bind_le_bind (h s) fun _ => Run.le_refl _

theorem seq_le_seq (hp : p ≤ p') (hq : q ≤ q') : p.seq q ≤ p'.seq q' :=
  fun s => Run.bind_le_bind (hp s) fun
    | .failure _ => Run.le_refl _
    | .success _ rest => Run.map_le_map _ (hq rest)

theorem seqLeft_le_seqLeft (hp : p ≤ p') (hq : q ≤ q') : p.seqLeft q ≤ p'.seqLeft q' :=
  map_le_map _ (seq_le_seq hp hq)

theorem seqRight_le_seqRight (hp : p ≤ p') (hq : q ≤ q') : p.seqRight q ≤ p'.seqRight q' :=
  map_le_map _ (seq_le_seq hp hq)

theorem choice_le_choice (hp : p ≤ p') (hq : q ≤ q') : p.choice q ≤ p'.choice q' :=
  fun s => Run.bind_le_bind (hp s) fun
    | .success _ _ => Run.le_refl _
    | .failure _ => Run.bind_le_bind (Run.le_refl _) fun _ => Run.map_le_map _ (hq s)

theorem orElse_le_orElse {r r' : Parser σ ε α} (hp : p ≤ p') (hr : r ≤ r') :
    p.orElse r ≤ p'.orElse r' :=
  map_le_map _ (choice_le_choice hp hr)

theorem optional_le_optional (h : p ≤ p') : p.optional ≤ p'.optional :=
  orElse_le_orElse (map_le_map _ h) (Parser.le_refl _)

theorem collect_le_collect (h : p ≤ p') {n : Nat} {s : σ} {values : List α} {log : Trace}
    {x : (List α × σ) × Trace} (hx : p.collect n s values log = some x) :
    p'.collect n s values log = some x := by
  induction n generalizing s values log with
  | zero => cases hx
  | succ n ih =>
    rw [collect] at hx ⊢
    cases hp : (p.parse s).within n with
    | none => rw [hp] at hx; cases hx
    | some y =>
      rw [h s n y hp]
      rw [hp] at hx
      obtain ⟨o, t⟩ := y
      cases o with
      | failure e => exact hx
      | success a rest => exact ih hx

theorem loop_le_loop (h : p ≤ p') (values : List α) (s : σ) : p.loop values s ≤ p'.loop values s :=
  fun _ _ hx => collect_le_collect h hx

theorem many_le_many (h : p ≤ p') : p.many ≤ p'.many :=
  fun s => Run.bind_le_bind (loop_le_loop h [] s) fun _ => Run.le_refl _

theorem many1_le_many1 (h : p ≤ p') : p.many1 ≤ p'.many1 :=
  fun s => Run.bind_le_bind (h s) fun
    | .failure _ => Run.le_refl _
    | .success a rest => Run.bind_le_bind (loop_le_loop h [a] rest) fun _ => Run.le_refl _

end Constructions

/-! ### Limits -/

/-- The parser that shows within `n` steps what the `n`-th of a growing sequence shows. -/
def limit (p : Nat → Parser σ ε α) (growing : ∀ n, p n ≤ p (n + 1)) : Parser σ ε α where
  parse s := Run.limit (fun n => (p n).parse s) fun n => growing n s

theorem yields_limit {p : Nat → Parser σ ε α} (growing : ∀ n, p n ≤ p (n + 1)) {s : σ}
    {o : Outcome σ ε α} {t : Trace} :
    (limit p growing).Yields s o t ↔ ∃ n, (p n).Yields s o t :=
  Run.ends_limit fun n => growing n s

end Parser
end TracedParsers
