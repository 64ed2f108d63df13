import TracedParsers.Parser.Errors
import TracedParsers.Parser.Values

/-!
# Pipelines of transformations

A pipeline puts any number of transformations behind a parser, each on top of the ones before it: functions on the
value, checks of the value and functions on the error. What comes of it can be told without the parser. An error
passes the functions on errors. A value passes the functions on values and the checks until a check refuses it, and
the refusal goes on as an error. So a pipeline is one function on errors with one check behind it.
-/

namespace TracedParsers

/-- Transformations in the order in which they are put on, from errors `ε` and values `α` to errors `ε'` and
    values `β`. -/
inductive Pipeline : (ε α ε' β : Type) → Type 1 where
  | done {ε α : Type} : Pipeline ε α ε α
  | map {ε α α₁ ε' β : Type} (f : α → α₁) (later : Pipeline ε α₁ ε' β) : Pipeline ε α ε' β
  | validate {ε α α₁ ε' β : Type} (check : α → Except ε α₁) (later : Pipeline ε α₁ ε' β) : Pipeline ε α ε' β
  | mapError {ε ε₁ α ε' β : Type} (h : ε → ε₁) (later : Pipeline ε₁ α ε' β) : Pipeline ε α ε' β

/-! ### Laws of checks -/

namespace Parser

variable {σ ε α β γ : Type} {p : Parser σ ε α}

theorem mapError_id : (p.mapError fun e => e) = p := by
  ext1
  funext s
  have hid : Outcome.mapError (fun e => e) = (id : Outcome σ ε α → Outcome σ ε α) :=
    funext fun o => by cases o <;> rfl
  simp only [mapError, hid, id_map]

/-- A check that refuses nothing. -/
theorem validate_ok : p.validate .ok = p := by
  ext1
  funext s
  rw [← bind_pure (p.parse s)]
  refine bind_congr fun o => ?_
  cases o <;> rfl

theorem validate_map {f : α → β} {check : β → Except ε γ} :
    (p.map f).validate check = p.validate fun a => check (f a) := by
  ext1
  funext s
  simp only [Parser.map, validate, bind_map_left]
  refine bind_congr fun o => ?_
  cases o <;> rfl

/-- What one check has refused is no value for the next, and is not reported again. -/
theorem validate_validate {check : α → Except ε β} {check' : β → Except ε γ} :
    (p.validate check).validate check' = p.validate fun a => check a >>= check' := by
  ext1
  funext s
  simp only [validate, bind_assoc]
  refine bind_congr fun o => ?_
  cases o with
  | failure e => simp only [pure_bind]
  | success a rest =>
    cases h : check a with
    | ok b =>
      simp only [pure_bind, h]
      rfl
    | error e =>
      simp only [bind_assoc, pure_bind, h]
      rfl

end Parser

/-! ### Pipelines -/

namespace Pipeline

variable {σ ε ε₁ ε' α α₁ β : Type}

/-- The parser with all transformations put on it. -/
def on {ε α ε' β : Type} : Pipeline ε α ε' β → Parser σ ε α → Parser σ ε' β
  | done, p => p
  | map f later, p => later.on (p.map f)
  | validate check later, p => later.on (p.validate check)
  | mapError h later, p => later.on (p.mapError h)

/-- What becomes of an error: it passes the functions on errors, in order. -/
def carryError {ε α ε' β : Type} : Pipeline ε α ε' β → ε → ε'
  | done, e => e
  | map _ later, e => later.carryError e
  | validate _ later, e => later.carryError e
  | mapError h later, e => later.carryError (h e)

/-- What becomes of a value: it passes the functions on values and the checks, in order. A check that refuses it
    makes an error of it, which goes on from there. -/
def carry {ε α ε' β : Type} : Pipeline ε α ε' β → α → Except ε' β
  | done, a => .ok a
  | map f later, a => later.carry (f a)
  | validate check later, a =>
    match check a with
    | .ok b => later.carry b
    | .error e => .error (later.carryError e)
  | mapError _ later, a => later.carry a

/-- The transformations of errors alone. -/
def onErrors {ε α ε' β : Type} : Pipeline ε α ε' β → Pipeline ε Empty ε' Empty
  | done => done
  | map _ later => later.onErrors
  | validate _ later => later.onErrors
  | mapError h later => mapError h later.onErrors

/-- One pipeline behind another. -/
def append {ε α ε₁ α₁ ε' β : Type} : Pipeline ε α ε₁ α₁ → Pipeline ε₁ α₁ ε' β → Pipeline ε α ε' β
  | done, pl => pl
  | map f later, pl => map f (later.append pl)
  | validate check later, pl => validate check (later.append pl)
  | mapError h later, pl => mapError h (later.append pl)

/-- The number of transformations. -/
def length {ε α ε' β : Type} : Pipeline ε α ε' β → Nat
  | done => 0
  | map _ later => later.length + 1
  | validate _ later => later.length + 1
  | mapError _ later => later.length + 1

theorem carryError_onErrors (pl : Pipeline ε α ε' β) : pl.onErrors.carryError = pl.carryError := by
  induction pl with
  | done => rfl
  | map f later ih => exact ih
  | validate check later ih => exact ih
  | mapError h later ih => exact funext fun e => congrFun ih (h e)

/-- A value that passes a pipeline goes on with what the pipeline makes of it. -/
theorem carry_append {before : Pipeline ε α ε₁ α₁} {pl : Pipeline ε₁ α₁ ε' β} {a : α} {c : α₁}
    (passed : before.carry a = .ok c) : (before.append pl).carry a = pl.carry c := by
  induction before with
  | done =>
    cases passed
    rfl
  | map f later ih => exact ih passed
  | validate check later ih =>
    rw [carry] at passed
    rw [append, carry]
    cases hcheck : check a with
    | ok b =>
      rw [hcheck] at passed
      exact ih passed
    | error e =>
      rw [hcheck] at passed
      nomatch passed
  | mapError h later ih => exact ih passed

/-- The transformation with `i` others before it is a check, a value gets there, and is refused. The error is that of
    the check, after the transformations behind it. -/
inductive RefusedAt {ε α ε' β : Type} : Pipeline ε α ε' β → α → (i : Nat) → ε' → Prop where
  | intro {ε₁ α₁ α₂ : Type} {a : α} {c : α₁} {e : ε₁} (before : Pipeline ε α ε₁ α₁) (check : α₁ → Except ε₁ α₂)
      (after : Pipeline ε₁ α₂ ε' β) (passed : before.carry a = .ok c) (refused : check c = .error e) :
      RefusedAt (before.append (.validate check after)) a before.length (after.carryError e)

theorem RefusedAt.carry_eq {pl : Pipeline ε α ε' β} {a : α} {i : Nat} {e : ε'} (h : pl.RefusedAt a i e) :
    pl.carry a = .error e := by
  cases h with
  | intro before check after passed refused => rw [carry_append passed, carry, refused]

theorem exists_refusedAt {pl : Pipeline ε α ε' β} {a : α} {e : ε'} (h : pl.carry a = .error e) :
    ∃ i, pl.RefusedAt a i e := by
  induction pl with
  | done => nomatch h
  | map f later ih =>
    obtain ⟨_, ⟨before, check, after, passed, refused⟩⟩ := ih h
    exact ⟨_, .intro (map f before) check after passed refused⟩
  | validate check later ih =>
    rw [carry] at h
    cases hcheck : check a with
    | ok b =>
      rw [hcheck] at h
      obtain ⟨_, ⟨before, check', after, passed, refused⟩⟩ := ih h
      have hfirst : (validate check before).carry a = before.carry b := by rw [carry, hcheck]
      exact ⟨_, .intro (validate check before) check' after (hfirst.trans passed) refused⟩
    | error e' =>
      rw [hcheck] at h
      cases h
      exact ⟨0, .intro done check later rfl hcheck⟩
  | mapError h' later ih =>
    obtain ⟨_, ⟨before, check, after, passed, refused⟩⟩ := ih h
    exact ⟨_, .intro (mapError h' before) check after passed refused⟩

/-- A pipeline comes to one function on errors and one check behind it. -/
theorem on_eq_validate (pl : Pipeline ε α ε' β) (p : Parser σ ε α) :
    pl.on p = (p.mapError pl.carryError).validate pl.carry := by
  induction pl with
  | done =>
    show p = (p.mapError fun e => e).validate .ok
    rw [Parser.mapError_id, Parser.validate_ok]
  | map f later ih =>
    show later.on (p.map f) = _
    rw [ih, Parser.mapError_map, Parser.validate_map]
    rfl
  | validate check later ih =>
    show later.on (p.validate check) = _
    rw [ih, Parser.mapError_validate, Parser.validate_validate]
    refine congrArg (Parser.validate · _) (funext fun a => ?_)
    show (check a).mapError later.carryError >>= later.carry = (validate check later).carry a
    rw [carry]
    cases check a <;> rfl
  | mapError h later ih =>
    show later.on (p.mapError h) = _
    rw [ih, Parser.mapError_mapError]
    rfl

end Pipeline
end TracedParsers
