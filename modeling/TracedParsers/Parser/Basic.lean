import TracedParsers.Run.Basic
import TracedParsers.Outcome

/-!
# Parsers

A parser runs on an input and ends, if it ends, with an outcome. The constructions of this module
combine parsers in sequence and in ordered choice and transform their inputs, values and errors;
repetition has a module of its own. No construction makes an error or looks into one.
-/

namespace TracedParsers

variable {σ σ' ε ε' α β γ : Type}

/-- A parser over inputs `σ`, with errors `ε` and values `α`. -/
@[ext] structure Parser (σ ε α : Type) where
  /-- Runs the parser on an input. -/
  parse : σ → Run (Outcome σ ε α)

theorem Parser.ext_within {p q : Parser σ ε α} (h : ∀ s n, (p.parse s).within n = (q.parse s).within n) : p = q := by
  ext1
  funext s
  ext1 n
  exact h s n

/-- A type with a value that stands for nothing having been read. -/
class Blank (α : Type) where
  /-- Stands for nothing having been read. -/
  blank : α

instance : Blank Unit := ⟨()⟩
instance : Blank Bool := ⟨false⟩
instance : Blank Nat := ⟨0⟩
instance : Blank UInt64 := ⟨0⟩
instance : Blank Char := ⟨'\x00'⟩
instance : Blank String := ⟨""⟩
instance : Blank (List α) := ⟨[]⟩
instance : Blank (Option α) := ⟨none⟩

namespace Parser

/-! ### Parsers that read nothing -/

/-- Succeeds with `a` and leaves the input as it is. -/
protected def pure (a : α) : Parser σ ε α where
  parse s := pure (.success a s)

/-- Fails with `e`. -/
def fail (e : ε) : Parser σ ε α where
  parse _ := pure (.failure e)

/-- Succeeds with the blank value and leaves the input as it is. -/
def blank [Blank α] : Parser σ ε α :=
  .pure Blank.blank

/-- The parser that never ends. -/
def never : Parser σ ε α where
  parse _ := Run.never

/-- Reads as a function does. -/
def ofFn (read : σ → Except ε (α × σ)) : Parser σ ε α where
  parse s := pure (.ofExcept (read s))

/-! ### Transformations -/

/-- Applies a function to the value. -/
protected def map (f : α → β) (p : Parser σ ε α) : Parser σ ε β where
  parse s := Outcome.map f <$> p.parse s

/-- Applies a function to the error. -/
def mapError (f : ε → ε') (p : Parser σ ε α) : Parser σ ε' α where
  parse s := Outcome.mapError f <$> p.parse s

/-- Passes the value through a check. A refusal is the error of the whole, and is reported. -/
def validate (check : α → Except ε β) (p : Parser σ ε α) : Parser σ ε β where
  parse s := p.parse s >>= fun
    | .failure e => pure (.failure e)
    | .success a rest =>
      match check a with
      | .ok b => pure (.success b rest)
      | .error e => Run.emit .rejected >>= fun _ => pure (.failure e)

/-- Runs a parser of other inputs on the input seen through `into`, and takes what it leaves `back`. -/
def through (into : σ → σ') (back : σ' → σ) (p : Parser σ' ε α) : Parser σ ε α where
  parse s := Outcome.mapRest back <$> p.parse (into s)

/-! ### Sequence -/

/-- Runs `p`, then `q` on what `p` left; the first failure is the failure of the whole. -/
protected def seq (p : Parser σ ε α) (q : Parser σ ε β) : Parser σ ε (α × β) where
  parse s := p.parse s >>= fun
    | .failure e => pure (.failure e)
    | .success a rest => Outcome.map (a, ·) <$> q.parse rest

/-- Runs `p`, then `q`, and keeps the value of `p`. -/
protected def seqLeft (p : Parser σ ε α) (q : Parser σ ε β) : Parser σ ε α :=
  (p.seq q).map Prod.fst

/-- Runs `p`, then `q`, and keeps the value of `q`. -/
protected def seqRight (p : Parser σ ε α) (q : Parser σ ε β) : Parser σ ε β :=
  (p.seq q).map Prod.snd

/-! ### Choice -/

/-- Runs `p` and, if it fails, reports that and runs `q` on the same input. The value tells which of
    the two succeeded; if neither does, the error is that of `q`. -/
protected def choice (p : Parser σ ε α) (q : Parser σ ε β) : Parser σ ε (α ⊕ β) where
  parse s := p.parse s >>= fun
    | .success a rest => pure (.success (.inl a) rest)
    | .failure _ => Run.emit .fallback >>= fun _ => Outcome.map .inr <$> q.parse s

/-- A choice between parsers of the same values, which forgets which of the two succeeded. -/
protected def orElse (p q : Parser σ ε α) : Parser σ ε α :=
  (p.choice q).map (Sum.elim id id)

/-- Runs `p`, and succeeds with `none` and the input as it was where `p` fails. -/
protected def optional (p : Parser σ ε α) : Parser σ ε (Option α) :=
  (p.map some).orElse blank

end Parser
end TracedParsers
