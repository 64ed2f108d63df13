import TracedParsers.Source

/-!
# Texts

A text is a sequence of characters that knows how many bytes its UTF-8 form has, so the place of what
is left within a longer text can be told without walking through it. Two texts with the same
characters are equal.
-/

namespace TracedParsers

/-- The number of bytes of the UTF-8 form of a list of characters. -/
def utf8Length (cs : List Char) : Nat := cs.foldr (fun c n => c.utf8Size + n) 0

@[simp] theorem utf8Length_nil : utf8Length [] = 0 := rfl

@[simp] theorem utf8Length_cons (c : Char) (cs : List Char) :
    utf8Length (c :: cs) = c.utf8Size + utf8Length cs := rfl

theorem utf8Length_append (cs ds : List Char) : utf8Length (cs ++ ds) = utf8Length cs + utf8Length ds := by
  induction cs with
  | nil => simp
  | cons c cs ih => rw [List.cons_append, utf8Length_cons, ih, utf8Length_cons, Nat.add_assoc]

/-- A sequence of characters with the length of its UTF-8 form. -/
structure Text where
  /-- The characters, first to last. -/
  chars : List Char
  /-- The number of bytes of the UTF-8 form. -/
  utf8Size : Nat
  utf8Size_eq : utf8Size = utf8Length chars

namespace Text

@[ext] theorem ext {s r : Text} (h : s.chars = r.chars) : s = r := by
  obtain ⟨cs, n, hn⟩ := s
  obtain ⟨ds, m, hm⟩ := r
  subst h hn hm
  rfl

instance : DecidableEq Text := fun s r =>
  decidable_of_iff (s.chars = r.chars) ⟨Text.ext, fun h => h ▸ rfl⟩

/-- The text with the given characters. -/
def ofList (cs : List Char) : Text where
  chars := cs
  utf8Size := utf8Length cs
  utf8Size_eq := rfl

/-- The text that a string holds. -/
def ofString (s : String) : Text := ofList s.toList

/-- The empty text. -/
def empty : Text := ofList []

/-- The string of the characters of a text. -/
def toString (s : Text) : String := String.ofList s.chars

/-- One text after the other. -/
def append (s r : Text) : Text where
  chars := s.chars ++ r.chars
  utf8Size := s.utf8Size + r.utf8Size
  utf8Size_eq := by rw [s.utf8Size_eq, r.utf8Size_eq, utf8Length_append]

instance : Append Text := ⟨append⟩

@[simp] theorem chars_ofList (cs : List Char) : (ofList cs).chars = cs := rfl

@[simp] theorem ofList_chars (s : Text) : ofList s.chars = s := Text.ext rfl

@[simp] theorem chars_append (s r : Text) : (s ++ r).chars = s.chars ++ r.chars := rfl

@[simp] theorem utf8Size_append (s r : Text) : (s ++ r).utf8Size = s.utf8Size + r.utf8Size := rfl

@[simp] theorem toString_ofString (s : String) : (ofString s).toString = s := String.ofList_toList

theorem ofList_append (cs : List Char) (s : Text) : ofList cs ++ s = ofList (cs ++ s.chars) :=
  Text.ext rfl

theorem append_assoc (s r q : Text) : s ++ r ++ q = s ++ (r ++ q) :=
  Text.ext (List.append_assoc ..)

/-- The first character and the text after it. -/
def next? (s : Text) : Option (Char × Text) :=
  match s with
  | ⟨[], _, _⟩ => none
  | ⟨c :: cs, n, h⟩ => some (c, ⟨cs, n - c.utf8Size, by rw [h, utf8Length_cons, Nat.add_sub_cancel_left]⟩)

theorem next?_of_cons {s r : Text} {c : Char} (h : s.chars = c :: r.chars) : s.next? = some (c, r) := by
  obtain ⟨cs, n, hn⟩ := s
  subst h
  exact congrArg some (Prod.ext rfl (Text.ext rfl))

theorem chars_of_next? {s r : Text} {c : Char} (h : s.next? = some (c, r)) : s.chars = c :: r.chars := by
  obtain ⟨cs, n, hn⟩ := s
  cases cs with
  | nil => nomatch h
  | cons d ds =>
    obtain ⟨rfl, rfl⟩ := Prod.mk.inj (Option.some.inj h)
    rfl

instance : Source Text Char where
  next? := next?
  toList := chars
  toList_of_none {s} h := by
    match hs : s.chars with
    | [] => rfl
    | c :: cs => rw [next?_of_cons (r := ofList cs) hs] at h; nomatch h
  toList_of_some := chars_of_next?
  toList_injective := Text.ext

@[simp] theorem toList_eq_chars (s : Text) : Source.toList s = s.chars := rfl

end Text
end TracedParsers
