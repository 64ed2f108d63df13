/-!
# Outcomes

What a parser answers when it ends: a value together with the input that is left, or an error.
-/

namespace TracedParsers

/-- The answer of a parser over inputs `σ`, with errors `ε` and values `α`. -/
inductive Outcome (σ ε α : Type) where
  /-- The parser succeeded with `value` and left `rest`. -/
  | success (value : α) (rest : σ)
  | failure (error : ε)
  deriving DecidableEq

namespace Outcome

variable {σ σ' ε ε' α β γ : Type}

/-- Changes the value of a success. -/
def map (f : α → β) : Outcome σ ε α → Outcome σ ε β
  | success a rest => success (f a) rest
  | failure e => failure e

def mapError (f : ε → ε') : Outcome σ ε α → Outcome σ ε' α
  | success a rest => success a rest
  | failure e => failure (f e)

def mapRest (f : σ → σ') : Outcome σ ε α → Outcome σ' ε α
  | success a rest => success a (f rest)
  | failure e => failure e

/-- A value with what is left of the input, or an error. -/
def ofExcept : Except ε (α × σ) → Outcome σ ε α
  | .ok (a, rest) => success a rest
  | .error e => failure e

@[simp] theorem map_success (f : α → β) (a : α) (rest : σ) :
    (success a rest : Outcome σ ε α).map f = success (f a) rest := rfl

@[simp] theorem map_failure (f : α → β) (e : ε) :
    (failure e : Outcome σ ε α).map f = failure e := rfl

@[simp] theorem mapError_success (f : ε → ε') (a : α) (rest : σ) :
    (success a rest : Outcome σ ε α).mapError f = success a rest := rfl

@[simp] theorem mapError_failure (f : ε → ε') (e : ε) :
    (failure e : Outcome σ ε α).mapError f = failure (f e) := rfl

@[simp] theorem mapRest_success (f : σ → σ') (a : α) (rest : σ) :
    (success a rest : Outcome σ ε α).mapRest f = success a (f rest) := rfl

@[simp] theorem mapRest_failure (f : σ → σ') (e : ε) :
    (failure e : Outcome σ ε α).mapRest f = failure e := rfl

theorem map_eq_success_iff {f : α → β} {o : Outcome σ ε α} {b : β} {r : σ} :
    o.map f = success b r ↔ ∃ a, o = success a r ∧ f a = b := by
  constructor
  · intro h
    cases o with
    | success a r' =>
      cases h
      exact ⟨a, rfl, rfl⟩
    | failure e => nomatch h
  · rintro ⟨a, rfl, rfl⟩
    rfl

theorem map_eq_failure_iff {f : α → β} {o : Outcome σ ε α} {e : ε} :
    o.map f = failure e ↔ o = failure e := by
  cases o <;> simp [map]

theorem mapRest_eq_success_iff {f : σ → σ'} {o : Outcome σ ε α} {a : α} {r' : σ'} :
    o.mapRest f = success a r' ↔ ∃ r, o = success a r ∧ f r = r' := by
  cases o <;> simp [mapRest, and_assoc]

theorem mapRest_eq_failure_iff {f : σ → σ'} {o : Outcome σ ε α} {e : ε} :
    o.mapRest f = failure e ↔ o = failure e := by
  cases o <;> simp [mapRest]

theorem mapRest_injective {f : σ → σ'} (hf : ∀ {r r'}, f r = f r' → r = r') {o o' : Outcome σ ε α}
    (h : o.mapRest f = o'.mapRest f) : o = o' := by
  cases o' with
  | success a r' =>
    obtain ⟨r, rfl, hr⟩ := mapRest_eq_success_iff.mp h
    rw [hf hr]
  | failure e => exact mapRest_eq_failure_iff.mp h

@[simp] theorem mapRest_id (o : Outcome σ ε α) : (o.mapRest fun r => r) = o := by
  cases o <;> rfl

theorem mapRest_mapRest {σ'' : Type} (g : σ' → σ'') (f : σ → σ') (o : Outcome σ ε α) :
    (o.mapRest f).mapRest g = o.mapRest fun r => g (f r) := by
  cases o <;> rfl

theorem mapRest_map (g : σ → σ') (f : α → β) (o : Outcome σ ε α) :
    (o.map f).mapRest g = (o.mapRest g).map f := by
  cases o <;> rfl

@[simp] theorem map_map (g : β → γ) (f : α → β) (o : Outcome σ ε α) :
    (o.map f).map g = o.map fun a => g (f a) := by
  cases o <;> rfl

@[simp] theorem map_id (o : Outcome σ ε α) : (o.map fun a => a) = o := by
  cases o <;> rfl

theorem mapError_map (h : ε → ε') (f : α → β) (o : Outcome σ ε α) :
    (o.map f).mapError h = (o.mapError h).map f := by
  cases o <;> rfl

theorem mapError_mapRest (h : ε → ε') (f : σ → σ') (o : Outcome σ ε α) :
    (o.mapRest f).mapError h = (o.mapError h).mapRest f := by
  cases o <;> rfl

theorem mapError_mapError {ε'' : Type} (h : ε' → ε'') (f : ε → ε') (o : Outcome σ ε α) :
    (o.mapError f).mapError h = o.mapError (h ∘ f) := by
  cases o <;> rfl

end Outcome
end TracedParsers
