import TracedParsers.Text.Basic

/-!
# Bytes of texts

The UTF-8 form of a text is that of its characters, one after the other. No character's form starts another
one's, so a text that starts with the bytes of another text starts with its characters.
-/

namespace TracedParsers

/-- The UTF-8 form of a list of characters. -/
def utf8 (cs : List Char) : List UInt8 := cs.flatMap String.utf8EncodeChar

theorem utf8_cons (c : Char) (cs : List Char) : utf8 (c :: cs) = String.utf8EncodeChar c ++ utf8 cs := rfl

theorem utf8_append (cs ds : List Char) : utf8 (cs ++ ds) = utf8 cs ++ utf8 ds :=
  List.flatMap_append

/-- The first character is told by the bytes, whatever follows them. -/
theorem utf8EncodeChar_append_injective {c d : Char} {bs bs' : List UInt8}
    (h : String.utf8EncodeChar c ++ bs = String.utf8EncodeChar d ++ bs') : c = d ∧ bs = bs' := by
  have hbytes := congrArg (fun bytes => bytes.toByteArray.utf8DecodeChar? 0) h
  simp only [List.toByteArray_append, ByteArray.utf8DecodeChar?_utf8EncodeChar_append] at hbytes
  obtain rfl := Option.some.inj hbytes
  exact ⟨rfl, List.append_cancel_left h⟩

theorem utf8_prefix_iff {cs ds : List Char} : (utf8 cs).IsPrefix (utf8 ds) ↔ cs.IsPrefix ds := by
  constructor
  · intro h
    induction cs generalizing ds with
    | nil => exact List.nil_prefix
    | cons c cs ih =>
      obtain ⟨bs, hbs⟩ := h
      rw [utf8_cons, List.append_assoc] at hbs
      cases ds with
      | nil => exact absurd (List.append_eq_nil_iff.mp hbs).1 String.utf8EncodeChar_ne_nil
      | cons d ds =>
        obtain ⟨rfl, hrest⟩ := utf8EncodeChar_append_injective hbs
        exact List.cons_prefix_cons.mpr ⟨rfl, ih ⟨bs, hrest⟩⟩
  · rintro ⟨es, rfl⟩
    exact ⟨utf8 es, (utf8_append cs es).symm⟩

namespace Text

/-- The first bytes of the text are those of `front`. Each character has a byte at least, so no more characters are
    looked at than `front` has bytes. -/
def startsWith (s front : Text) : Bool :=
  (utf8 front.chars).isPrefixOf (utf8 (s.chars.take front.utf8Size))

theorem length_le_utf8Length (cs : List Char) : cs.length ≤ utf8Length cs := by
  induction cs with
  | nil => exact Nat.le_refl 0
  | cons c cs ih =>
    have hpos := c.utf8Size_pos
    rw [List.length_cons, utf8Length_cons]
    omega

theorem startsWith_iff {s front : Text} : s.startsWith front = true ↔ front.chars.IsPrefix s.chars := by
  rw [startsWith, List.isPrefixOf_iff_prefix, utf8_prefix_iff, List.prefix_take_iff, front.utf8Size_eq]
  exact and_iff_left (length_le_utf8Length front.chars)

end Text
end TracedParsers
