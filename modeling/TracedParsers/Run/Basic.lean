import TracedParsers.Event

/-!
# Runs

A run is a computation that reports events and may fail to end. It is given by what it has to show
within each number of steps, and a run that has ended stays as it is when more steps are allowed.
`Ends r a t` says that `r` ends with value `a` after the events `t`; a run ends in at most one way.
Runs form a monad whose bind puts the events of the first part before those of the second.
-/

namespace TracedParsers

variable {α β γ : Type}

/-- A computation with a trace, seen through the number of steps it is allowed. -/
structure Run (α : Type) where
  /-- The value and the trace, if the run ends within this many steps. -/
  within : Nat → Option (α × Trace)
  /-- More steps change nothing about a run that has ended. -/
  mono : ∀ {m n : Nat} {x : α × Trace}, m ≤ n → within m = some x → within n = some x

namespace Run

/-- Two runs are equal when they show the same within every number of steps. -/
@[ext] theorem ext {r r' : Run α} (h : ∀ n, r.within n = r'.within n) : r = r' := by
  cases r; cases r'
  simp only [mk.injEq]
  exact funext h

/-- The run that ends at once and reports nothing. -/
protected def pure (a : α) : Run α where
  within _ := some (a, [])
  mono _ h := h

/-- The run that reports one event. -/
def emit (e : Event) : Run Unit where
  within _ := some ((), [e])
  mono _ h := h

def never : Run α where
  within _ := none
  mono _ h := nomatch h

protected def map (f : α → β) (r : Run α) : Run β where
  within n := (r.within n).map fun x => (f x.1, x.2)
  mono h hx := by
    obtain ⟨y, hy, rfl⟩ := Option.map_eq_some_iff.mp hx
    rw [r.mono h hy, Option.map_some]

/-- Goes on with the run that a function makes of the value. -/
protected def bind (r : Run α) (f : α → Run β) : Run β where
  within n := (r.within n).bind fun x => ((f x.1).within n).map fun y => (y.1, x.2 ++ y.2)
  mono h hx := by
    obtain ⟨x, hr, hx⟩ := Option.bind_eq_some_iff.mp hx
    obtain ⟨y, hf, rfl⟩ := Option.map_eq_some_iff.mp hx
    rw [r.mono h hr, Option.bind_some, (f x.1).mono h hf, Option.map_some]

/-- The same run, one step later. -/
def later (r : Run α) : Run α where
  within
    | 0 => none
    | n + 1 => r.within n
  mono {m n x} h hx := by
    match m, n with
    | 0, _ => nomatch hx
    | m + 1, n + 1 => exact r.mono (Nat.le_of_succ_le_succ h) hx

instance : Monad Run where
  pure := Run.pure
  bind := Run.bind
  map := Run.map

@[simp] theorem within_pure (a : α) (n : Nat) : (pure a : Run α).within n = some (a, []) := rfl

@[simp] theorem within_emit (e : Event) (n : Nat) : (emit e).within n = some ((), [e]) := rfl

@[simp] theorem within_never (n : Nat) : (never : Run α).within n = none := rfl

theorem within_bind (r : Run α) (f : α → Run β) (n : Nat) :
    (r >>= f).within n = (r.within n).bind fun x => ((f x.1).within n).map fun y => (y.1, x.2 ++ y.2) :=
  rfl

@[simp] theorem within_later_zero (r : Run α) : r.later.within 0 = none := rfl

@[simp] theorem within_later_succ (r : Run α) (n : Nat) : r.later.within (n + 1) = r.within n := rfl

@[simp] theorem within_map (f : α → β) (r : Run α) (n : Nat) :
    (f <$> r).within n = (r.within n).map fun x => (f x.1, x.2) := rfl

protected theorem pure_bind (a : α) (f : α → Run β) : (pure a >>= f) = f a := by
  ext1 n
  rw [within_bind, within_pure, Option.bind_some]
  simp

protected theorem bind_assoc (r : Run α) (f : α → Run β) (g : β → Run γ) :
    r >>= f >>= g = r >>= fun a => f a >>= g := by
  ext1 n
  simp only [within_bind]
  cases r.within n with
  | none => rfl
  | some x =>
    simp only [Option.bind_some]
    cases (f x.1).within n with
    | none => rfl
    | some y => simp [Option.map_map, Function.comp_def, List.append_assoc]

protected theorem bind_pure_comp (f : α → β) (r : Run α) : (r >>= fun a => pure (f a)) = f <$> r := by
  ext1 n
  rw [within_bind, within_map]
  cases r.within n <;> simp

instance : LawfulMonad Run :=
  LawfulMonad.mk' Run (fun r => by ext1 n; simp) Run.pure_bind Run.bind_assoc (fun _ _ => rfl)
    (fun _ _ => rfl) (fun _ _ => rfl) Run.bind_pure_comp (fun _ _ => rfl)

/-! ### How a run ends -/

/-- The run ends with value `a` after the events `t`. -/
def Ends (r : Run α) (a : α) (t : Trace) : Prop :=
  ∃ n, r.within n = some (a, t)

theorem Ends.unique {r : Run α} {a b : α} {t u : Trace} (ha : r.Ends a t) (hb : r.Ends b u) :
    a = b ∧ t = u := by
  obtain ⟨m, hm⟩ := ha
  obtain ⟨n, hn⟩ := hb
  have hm' := r.mono (Nat.le_max_left m n) hm
  have hn' := r.mono (Nat.le_max_right m n) hn
  simpa using hm'.symm.trans hn'

@[simp] theorem ends_pure {a b : α} {t : Trace} : (pure a : Run α).Ends b t ↔ b = a ∧ t = [] := by
  simp [Ends, eq_comm]

@[simp] theorem ends_emit {e : Event} {u : Unit} {t : Trace} : (emit e).Ends u t ↔ t = [e] := by
  simp [Ends, eq_comm]

@[simp] theorem not_ends_never {a : α} {t : Trace} : ¬(never : Run α).Ends a t := by
  simp [Ends]

@[simp] theorem ends_map {f : α → β} {r : Run α} {b : β} {t : Trace} :
    (f <$> r).Ends b t ↔ ∃ a, r.Ends a t ∧ b = f a := by
  simp only [Ends, within_map, Option.map_eq_some_iff, Prod.mk.injEq, Prod.exists]
  constructor
  · rintro ⟨n, a, u, h, rfl, rfl⟩
    exact ⟨a, ⟨n, h⟩, rfl⟩
  · rintro ⟨a, ⟨n, h⟩, rfl⟩
    exact ⟨n, a, t, h, rfl, rfl⟩

@[simp] theorem ends_bind {r : Run α} {f : α → Run β} {b : β} {t : Trace} :
    (r >>= f).Ends b t ↔ ∃ a t₁ t₂, r.Ends a t₁ ∧ (f a).Ends b t₂ ∧ t = t₁ ++ t₂ := by
  simp only [Ends, within_bind, Option.bind_eq_some_iff, Option.map_eq_some_iff, Prod.mk.injEq,
    Prod.exists]
  constructor
  · rintro ⟨n, a, t₁, hr, b, t₂, hf, rfl, rfl⟩
    exact ⟨a, t₁, t₂, ⟨n, hr⟩, ⟨n, hf⟩, rfl⟩
  · rintro ⟨a, t₁, t₂, ⟨m, hr⟩, ⟨n, hf⟩, rfl⟩
    exact ⟨max m n, a, t₁, r.mono (Nat.le_max_left m n) hr, b, t₂,
      (f a).mono (Nat.le_max_right m n) hf, rfl, rfl⟩

@[simp] theorem ends_later {r : Run α} {a : α} {t : Trace} : r.later.Ends a t ↔ r.Ends a t := by
  constructor
  · rintro ⟨n, h⟩
    match n with
    | n + 1 => exact ⟨n, h⟩
  · rintro ⟨n, h⟩
    exact ⟨n + 1, h⟩

end Run
end TracedParsers
