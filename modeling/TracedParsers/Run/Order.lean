import TracedParsers.Run.Basic

/-!
# Runs that show more

`r ≤ r'` says that `r'` shows whatever `r` shows within the same number of steps. The constructions on
runs keep this order, and a growing sequence of runs has a limit, which ends as soon as one of its
members does. This is what gives meaning to grammars that refer to themselves.
-/

namespace TracedParsers
namespace Run

variable {α β : Type}

instance : LE (Run α) where
  le r r' := ∀ n x, r.within n = some x → r'.within n = some x

protected theorem le_refl (r : Run α) : r ≤ r := fun _ _ h => h

protected theorem le_trans {r s t : Run α} (h : r ≤ s) (h' : s ≤ t) : r ≤ t :=
  fun n x hx => h' n x (h n x hx)

theorem never_le (r : Run α) : never ≤ r := fun _ _ h => nomatch h

theorem bind_le_bind {r r' : Run α} {f f' : α → Run β} (h : r ≤ r') (hf : ∀ a, f a ≤ f' a) :
    r >>= f ≤ r' >>= f' := by
  intro n x hx
  rw [within_bind] at hx ⊢
  obtain ⟨y, hy, hx⟩ := Option.bind_eq_some_iff.mp hx
  obtain ⟨z, hz, rfl⟩ := Option.map_eq_some_iff.mp hx
  rw [h n y hy, Option.bind_some, hf y.1 n z hz, Option.map_some]

theorem map_le_map (f : α → β) {r r' : Run α} (h : r ≤ r') : f <$> r ≤ f <$> r' := by
  intro n x hx
  rw [within_map] at hx ⊢
  obtain ⟨y, hy, rfl⟩ := Option.map_eq_some_iff.mp hx
  rw [h n y hy, Option.map_some]

theorem Ends.of_le {r r' : Run α} {a : α} {t : Trace} (hr : r.Ends a t) (h : r ≤ r') : r'.Ends a t :=
  hr.imp fun n hn => h n _ hn

/-! ### Limits -/

/-- Each member of a growing sequence shows at most what the later ones show. -/
theorem le_of_growing {r : Nat → Run α} (growing : ∀ n, r n ≤ r (n + 1)) {m n : Nat} (h : m ≤ n) :
    r m ≤ r n := by
  induction h with
  | refl => exact Run.le_refl _
  | step _ ih => exact Run.le_trans ih (growing _)

/-- What the members of a growing sequence have in common: within `n` steps, what the `n`-th shows. -/
def limit (r : Nat → Run α) (growing : ∀ n, r n ≤ r (n + 1)) : Run α where
  within n := (r n).within n
  mono h hx := le_of_growing growing h _ _ ((r _).mono h hx)

theorem ends_limit {r : Nat → Run α} (growing : ∀ n, r n ≤ r (n + 1)) {a : α} {t : Trace} :
    (limit r growing).Ends a t ↔ ∃ n, (r n).Ends a t := by
  constructor
  · rintro ⟨n, h⟩
    exact ⟨n, n, h⟩
  · rintro ⟨m, n, h⟩
    exact ⟨max m n, le_of_growing growing (Nat.le_max_left m n) _ _ ((r m).mono (Nat.le_max_right m n) h)⟩

end Run
end TracedParsers
