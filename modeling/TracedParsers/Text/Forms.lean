import TracedParsers.Text.Quoted

/-!
# Forms of a quoted character

Between single quotes a character stands as it is or as an escape: a backslash with a letter, or with the number of
the character. Which of these forms it takes is left open here, except that a quote and a backslash are always escaped.
A form belongs to one character only, and a quote in it is its last character. So a quoted character that ends a text
is told from all that stands before it.
-/

namespace TracedParsers

/-! ### Digits -/

/-- The digits up to the base 16 are told apart. -/
theorem digitChar_injective : ∀ d < 16, ∀ d' < 16, Nat.digitChar d = Nat.digitChar d' → d = d' := by
  decide

theorem exists_digitChar_of_mem_toDigits {base n : Nat} (hbase : 1 < base) {c : Char} (h : c ∈ Nat.toDigits base n) :
    ∃ d, c = Nat.digitChar d := by
  induction n using Nat.strongRecOn with
  | ind n ih =>
    rw [Nat.toDigits_eq_if hbase] at h
    split at h
    · exact ⟨n, List.mem_singleton.mp h⟩
    next hn =>
      rcases List.mem_append.mp h with h | h
      · exact ih (n / base) (Nat.div_lt_self (by omega) hbase) h
      · exact ⟨n % base, List.mem_singleton.mp h⟩

/-- One digit is not the digits of a number with another one behind them. -/
theorem singleton_ne_toDigits_append {base n : Nat} {c d : Char} : [c] ≠ Nat.toDigits base n ++ [d] := by
  intro h
  obtain ⟨hnil, -⟩ := List.append_inj' (show [] ++ [c] = _ ++ [d] from h) rfl
  exact Nat.toDigits_ne_nil hnil.symm

/-- A number is told by its digits: the last one is the remainder, and the others stand for the quotient. -/
theorem toDigits_injective {base n m : Nat} (hbase : 1 < base) (hdigits : base ≤ 16)
    (h : Nat.toDigits base n = Nat.toDigits base m) : n = m := by
  induction n using Nat.strongRecOn generalizing m with
  | ind n ih =>
    have hinj {d d' : Nat} (hd : d < base) (hd' : d' < base) (h : [Nat.digitChar d] = [Nat.digitChar d']) : d = d' :=
      digitChar_injective d (by omega) d' (by omega) (List.singleton_inj.mp h)
    have hpos : 0 < base := by omega
    rw [Nat.toDigits_eq_if hbase, Nat.toDigits_eq_if (n := m) hbase] at h
    split at h <;> split at h
    next hn hm => exact hinj hn hm h
    next => exact absurd h singleton_ne_toDigits_append
    next => exact absurd h.symm singleton_ne_toDigits_append
    next hn hm =>
      obtain ⟨hquotient, hremainder⟩ := List.append_inj' h rfl
      have hdiv := ih (n / base) (Nat.div_lt_self (by omega) hbase) hquotient
      have hmod := hinj (Nat.mod_lt n hpos) (Nat.mod_lt m hpos) hremainder
      rw [← Nat.div_add_mod n base, ← Nat.div_add_mod m base, hdiv, hmod]

namespace Text

/-! ### Forms -/

/-- The letters of escapes, each with the character that it stands for behind a backslash. -/
def escapeLetters : List (Char × Char) :=
  [('0', '\x00'), ('t', '\t'), ('n', '\n'), ('r', '\r'), ('\\', '\\'), ('\'', '\'')]

/-- What may stand for a character between single quotes. -/
inductive QuotedForm : Char → List Char → Prop where
  | plain {c : Char} : c ≠ '\'' → c ≠ '\\' → QuotedForm c [c]
  | letter {l c : Char} : (l, c) ∈ escapeLetters → QuotedForm c ['\\', l]
  | number (c : Char) : QuotedForm c (numericEscape c)

theorem escapeLetters_functional : ∀ p ∈ escapeLetters, ∀ q ∈ escapeLetters, p.1 = q.1 → p.2 = q.2 := by
  decide

theorem numericEscape_eq (c : Char) :
    numericEscape c = '\\' :: 'u' :: '\x7b' :: (Nat.toDigits 16 c.toNat ++ ['\x7d']) := rfl

theorem numericEscape_injective {c d : Char} (h : numericEscape c = numericEscape d) : c = d := by
  have hdigits := List.append_cancel_left (List.append_cancel_right h)
  exact Char.toNat_inj.mp (toDigits_injective (by decide) (by decide) hdigits)

theorem quote_not_mem_numericEscape (c : Char) : '\'' ∉ numericEscape c := by
  have hdigits : '\'' ∉ Nat.toDigits 16 c.toNat := by
    intro h
    obtain ⟨d, hd⟩ := exists_digitChar_of_mem_toDigits (by decide) h
    exact Nat.digitChar_ne '\'' rfl hd.symm
  simp [numericEscape_eq, hdigits]

/-- The way in which a character is written between single quotes is one of its forms. -/
theorem escape_quotedForm (c : Char) : QuotedForm c (escape '\'' c) := by
  unfold escape
  split
  next h =>
    rcases h with rfl | rfl
    · exact .letter (by simp [escapeLetters])
    · exact .letter (by simp [escapeLetters])
  next hother =>
    obtain ⟨hquote, hbackslash⟩ := not_or.mp hother
    split
    next hc => exact .letter (by simp [escapeLetters, hc])
    split
    next hc => exact .letter (by simp [escapeLetters, hc])
    split
    next hc => exact .letter (by simp [escapeLetters, hc])
    split
    next hc => exact .letter (by simp [escapeLetters, hc])
    split
    · exact .number c
    · exact .plain hquote hbackslash

namespace QuotedForm

variable {c d : Char} {cs ds : List Char}

theorem ne_nil (h : QuotedForm c cs) : cs ≠ [] := by
  cases h <;> exact List.cons_ne_nil _ _

theorem quote_not_mem_dropLast (h : QuotedForm c cs) : '\'' ∉ cs.dropLast := by
  cases h with
  | plain => exact List.not_mem_nil
  | letter => simp
  | number => exact fun h => quote_not_mem_numericEscape c (List.dropLast_subset _ h)

/-- A form belongs to one character only. -/
theorem injective (hc : QuotedForm c cs) (hd : QuotedForm d ds) (h : cs = ds) : c = d := by
  cases hc with
  | plain _ hbackslash =>
    cases hd with
    | plain => exact List.singleton_inj.mp h
    | letter => nomatch h
    | number => nomatch h
  | letter hl =>
    cases hd with
    | plain => nomatch h
    | letter hl' =>
      obtain rfl := List.singleton_inj.mp (List.cons.inj h).2
      exact escapeLetters_functional _ hl _ hl' rfl
    | number => nomatch h
  | number =>
    cases hd with
    | plain => nomatch h
    | letter => nomatch h
    | number => exact numericEscape_injective h

/-- No form between quotes ends like another that is shorter: the quote in front of the shorter one would stand in the
    longer one, before its last character. -/
theorem eq_nil_of_append {before : List Char} (hc : QuotedForm c cs) (hd : QuotedForm d ds)
    (h : '\'' :: ds = before ++ '\'' :: cs) : before = [] := by
  cases before with
  | nil => rfl
  | cons b before =>
    have hds : ds = before ++ '\'' :: cs := (List.cons.inj h).2
    refine absurd ?_ hd.quote_not_mem_dropLast
    rw [hds, List.dropLast_append_cons, List.dropLast_cons_of_ne_nil hc.ne_nil]
    exact List.mem_append_right _ List.mem_cons_self

/-- The form behind the last quote but one is told from whatever stands in front of that quote. -/
theorem append_injective {before before' : List Char} (hc : QuotedForm c cs) (hd : QuotedForm d ds)
    (h : before ++ '\'' :: cs = before' ++ '\'' :: ds) : before = before' ∧ cs = ds := by
  rcases List.append_eq_append_iff.mp h with ⟨more, rfl, hmore⟩ | ⟨more, rfl, hmore⟩
  · obtain rfl := hd.eq_nil_of_append hc hmore
    exact ⟨(List.append_nil before).symm, (List.cons.inj hmore).2⟩
  · obtain rfl := hc.eq_nil_of_append hd hmore
    exact ⟨List.append_nil before', (List.cons.inj hmore).2.symm⟩

end QuotedForm
end Text
end TracedParsers
