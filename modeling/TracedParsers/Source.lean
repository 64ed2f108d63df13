/-!
# Sources

A source is an input that gives its elements one at a time. It stands for the list of its elements and
is determined by it, so a statement about what is read can be made about lists. A list is a source of
its own elements.
-/

namespace TracedParsers

/-- Inputs `σ` made of elements `τ`. -/
class Source (σ : Type) (τ : outParam Type) where
  /-- The first element and what follows it, unless the input is at its end. -/
  next? : σ → Option (τ × σ)
  /-- All elements, first to last. -/
  toList : σ → List τ
  toList_of_none : ∀ {s : σ}, next? s = none → toList s = []
  toList_of_some : ∀ {s r : σ} {x : τ}, next? s = some (x, r) → toList s = x :: toList r
  toList_injective : ∀ {s r : σ}, toList s = toList r → s = r

namespace Source

variable {σ τ : Type} [Source σ τ] {s r : σ} {x : τ}

@[simp] theorem next?_eq_none_iff : next? s = none ↔ toList s = [] := by
  constructor
  · exact toList_of_none
  · intro h
    match hs : next? s with
    | none => rfl
    | some (x, r) => rw [toList_of_some hs] at h; nomatch h

theorem exists_next?_of_toList {xs : List τ} (h : toList s = x :: xs) :
    ∃ r, next? s = some (x, r) ∧ toList r = xs := by
  match hs : next? s with
  | none => rw [toList_of_none hs] at h; nomatch h
  | some (y, r) =>
    rw [toList_of_some hs] at h
    obtain ⟨rfl, hr⟩ := List.cons.inj h
    exact ⟨r, rfl, hr⟩

/-- The input `r` is what is left of `s` after some of its elements. -/
def IsSuffix (r s : σ) : Prop := (toList r).IsSuffix (toList s)

theorem IsSuffix.refl (s : σ) : IsSuffix s s := List.suffix_refl _

theorem IsSuffix.trans {s₁ s₂ s₃ : σ} (h : IsSuffix s₁ s₂) (h' : IsSuffix s₂ s₃) : IsSuffix s₁ s₃ :=
  List.IsSuffix.trans h h'

/-- Whatever the elements of an input end with is an input too. -/
theorem exists_of_suffix {xs : List τ} (h : xs.IsSuffix (toList s)) : ∃ r : σ, toList r = xs := by
  generalize hys : toList s = ys at h
  induction ys generalizing s with
  | nil => exact ⟨s, hys.trans (List.suffix_nil.mp h).symm⟩
  | cons y ys ih =>
    rcases List.suffix_cons_iff.mp h with rfl | h
    · exact ⟨s, hys⟩
    · obtain ⟨r, -, hr⟩ := exists_next?_of_toList hys
      exact ih hr h

/-- Passes over `xs` where the input starts with them. Otherwise gives the first element of the input
    that differs from its counterpart, or `none` where the input ends before one does. -/
def drop [BEq τ] : List τ → σ → Except (Option τ) σ
  | [], s => .ok s
  | x :: xs, s =>
    match next? s with
    | none => .error none
    | some (y, r) => if y == x then drop xs r else .error (some y)

/-- What is passed over is what the input starts with. -/
theorem drop_eq_ok_iff [BEq τ] [LawfulBEq τ] {xs : List τ} :
    drop xs s = .ok r ↔ toList s = xs ++ toList r := by
  induction xs generalizing s with
  | nil => exact ⟨fun h => by cases h; rfl, fun h => by rw [drop, toList_injective h]⟩
  | cons x xs ih =>
    rw [drop]
    match hs : next? s with
    | none => simp [toList_of_none hs]
    | some (y, r') =>
      rw [toList_of_some hs, List.cons_append, List.cons.injEq, ← ih]
      by_cases hyx : y = x
      · simp [hyx]
      · simp [hyx]

section Drop
variable [BEq τ] [LawfulBEq τ] {xs : List τ}

/-- The input ends too early exactly where it is a part of what is to be passed over. -/
theorem drop_eq_error_none_iff : drop xs s = .error none ↔ ∃ y ys, xs = toList s ++ y :: ys := by
  induction xs generalizing s with
  | nil => simp [drop]
  | cons x xs ih =>
    rw [drop]
    match hs : next? s with
    | none => simp [toList_of_none hs]
    | some (y, r) =>
      rw [toList_of_some hs]
      by_cases hyx : y = x
      · simp [hyx, ih]
      · simp [hyx, Ne.symm hyx]

/-- The element shown stands where the input first differs from what is to be passed over. -/
theorem drop_eq_error_some_iff {y : τ} : drop xs s = .error (some y) ↔
    ∃ before x ys zs, xs = before ++ x :: ys ∧ toList s = before ++ y :: zs ∧ y ≠ x := by
  induction xs generalizing s with
  | nil => simp [drop]
  | cons x xs ih =>
    rw [drop]
    match hs : next? s with
    | none => simp [toList_of_none hs]
    | some (z, r) =>
      rw [toList_of_some hs]
      by_cases hzx : z = x
      · subst hzx
        simp only [beq_self_eq_true, if_true, ih]
        constructor
        · rintro ⟨before, x, ys, zs, rfl, hr, hne⟩
          exact ⟨z :: before, x, ys, zs, rfl, by rw [hr, List.cons_append], hne⟩
        · rintro ⟨before, x, ys, zs, hxs, hr, hne⟩
          cases before with
          | nil =>
            obtain ⟨rfl, -⟩ := List.cons.inj hxs
            obtain ⟨rfl, -⟩ := List.cons.inj hr
            exact absurd rfl hne
          | cons w before =>
            obtain ⟨rfl, rfl⟩ := List.cons.inj hxs
            exact ⟨before, x, ys, zs, rfl, (List.cons.inj hr).2, hne⟩
      · simp only [beq_iff_eq, hzx, if_false, Except.error.injEq, Option.some.injEq]
        constructor
        · rintro rfl
          exact ⟨[], x, xs, toList r, rfl, rfl, hzx⟩
        · rintro ⟨before, x', ys, zs, hxs, hr, hne⟩
          cases before with
          | nil => exact (List.cons.inj hr).1
          | cons w before =>
            exact absurd ((List.cons.inj hr).1.trans (List.cons.inj hxs).1.symm) hzx

end Drop

end Source

instance (τ : Type) : Source (List τ) τ where
  next?
    | [] => none
    | x :: xs => some (x, xs)
  toList xs := xs
  toList_of_none {s} h := by cases s with
    | nil => rfl
    | cons => nomatch h
  toList_of_some {s r x} h := by cases s with
    | nil => nomatch h
    | cons => cases h; rfl
  toList_injective h := h

end TracedParsers
