import TracedParsers.Parser.Errors

/-!
# Mapping the values of parsers

Mapping the values of the parts of a construction comes to the same as mapping its own value: a
construction puts values together and never looks into one, but for a check, which has no law here.
The recognizer of a parser is what is left of it when its value is dropped, and the recognizer of a
construction depends on the recognizers of its parts alone.
-/

namespace TracedParsers

/-- Both succeed and leave the same, or both fail with the same error. The values do not matter. -/
inductive Outcome.Alike {σ ε α β : Type} : Outcome σ ε α → Outcome σ ε β → Prop where
  | success {a : α} {b : β} {r : σ} : Alike (.success a r) (.success b r)
  | failure {e : ε} : Alike (.failure e) (.failure e)

theorem Outcome.Alike.of_success {σ ε α β : Type} {a : α} {r : σ} {o : Outcome σ ε β}
    (h : Alike (.success a r : Outcome σ ε α) o) : ∃ b, o = .success b r := by
  cases h
  exact ⟨_, rfl⟩

theorem Outcome.alike_of_map_eq {σ ε α β : Type} {o : Outcome σ ε α} {o' : Outcome σ ε β}
    (h : (o.map fun _ => ()) = o'.map fun _ => ()) : o.Alike o' := by
  cases o <;> cases o' <;> cases h
  · exact .success
  · exact .failure

namespace Parser

variable {σ σ' ε ε' α α' β β' γ : Type} {p p' : Parser σ ε α} {q : Parser σ ε β} {f : α → α'} {g : β → β'}

theorem map_id : (p.map fun a => a) = p := by
  ext1
  funext s
  have hid : Outcome.map (fun a => a) = (id : Outcome σ ε α → Outcome σ ε α) := funext Outcome.map_id
  simp only [Parser.map, hid, id_map]

theorem map_map {f : α → β} {g : β → γ} : (p.map f).map g = p.map (g ∘ f) := by
  ext1
  funext s
  simp only [Parser.map, Functor.map_map, Outcome.map_map, Function.comp_def]

theorem through_map {into : σ' → σ} {back : σ → σ'} :
    (p.map f).through into back = (p.through into back).map f := by
  ext1
  funext s
  simp only [Parser.map, through, Functor.map_map, Outcome.mapRest_map]

theorem seq_map : (p.map f).seq (q.map g) = (p.seq q).map (Prod.map f g) := by
  ext1
  funext s
  simp only [Parser.map, Parser.seq, map_bind, bind_map_left]
  refine bind_congr fun o => ?_
  cases o with
  | failure e => rfl
  | success a rest => simp only [Outcome.map_success, Functor.map_map, Outcome.map_map, Prod.map]

theorem choice_map : (p.map f).choice (q.map g) = (p.choice q).map (Sum.map f g) := by
  ext1
  funext s
  simp only [Parser.map, Parser.choice, map_bind, bind_map_left]
  refine bind_congr fun o => ?_
  cases o with
  | success a rest => rfl
  | failure e => simp only [Outcome.map_failure, map_bind, Functor.map_map, Outcome.map_map, Sum.map_inr]

/-- The loop runs as it did, on mapped values. -/
theorem collect_map (n : Nat) (s : σ) (values : List α) (log : Trace) :
    (p.map f).collect n s (values.map f) log =
      (p.collect n s values log).map fun x => ((x.1.1.map f, x.1.2), x.2) := by
  induction n generalizing s values log with
  | zero => rfl
  | succ n ih =>
    rw [collect, collect]
    simp only [Parser.map, Run.within_map]
    cases (p.parse s).within n with
    | none => rfl
    | some x =>
      obtain ⟨o, t⟩ := x
      cases o with
      | failure e => simp
      | success a rest => exact ih rest (a :: values) (t.reverseAux log)

theorem loop_map (values : List α) (s : σ) :
    (p.map f).loop (values.map f) s = (fun x => (x.1.map f, x.2)) <$> p.loop values s := by
  ext1 n
  exact collect_map n s values []

theorem many_map : (p.map f).many = p.many.map (List.map f) := by
  ext1
  funext s
  have hloop : (p.map f).loop [] s = _ := loop_map [] s
  simp only [Parser.many, items, hloop]
  simp only [Parser.map, map_bind, bind_map_left, List.length_map, map_pure, Outcome.map_success]

theorem many1_map : (p.map f).many1 = p.many1.map (List.map f) := by
  ext1
  funext s
  have hloop (a : α) (rest : σ) : (p.map f).loop [f a] rest = _ := loop_map [a] rest
  simp only [Parser.many1]
  simp only [Parser.map, map_bind, bind_map_left]
  refine bind_congr fun o => ?_
  cases o with
  | failure e => rfl
  | success a rest =>
    show (p.map f).loop [f a] rest >>= _ = _
    simp only [hloop, map_bind, bind_map_left, map_pure, Outcome.map_success]

/-! ### Recognizers -/

/-- The parser without its value. -/
def recognizer (p : Parser σ ε α) : Parser σ ε Unit :=
  p.map fun _ => ()

@[simp] theorem recognizer_map {f : α → β} : (p.map f).recognizer = p.recognizer :=
  map_map

theorem recognizer_mapError {h : ε → ε'} : (p.mapError h).recognizer = p.recognizer.mapError h :=
  mapError_map.symm

theorem recognizer_through {into : σ' → σ} {back : σ → σ'} :
    (p.through into back).recognizer = p.recognizer.through into back :=
  through_map.symm

theorem recognizer_seq : (p.seq q).recognizer = (p.recognizer.seq q.recognizer).recognizer := by
  rw [recognizer.eq_def p, recognizer.eq_def q, seq_map, recognizer_map]

theorem recognizer_seqLeft : (p.seqLeft q).recognizer = (p.recognizer.seq q.recognizer).recognizer := by
  rw [Parser.seqLeft, recognizer_map, recognizer_seq]

theorem recognizer_seqRight : (p.seqRight q).recognizer = (p.recognizer.seq q.recognizer).recognizer := by
  rw [Parser.seqRight, recognizer_map, recognizer_seq]

theorem recognizer_choice : (p.choice q).recognizer = (p.recognizer.choice q.recognizer).recognizer := by
  rw [recognizer.eq_def p, recognizer.eq_def q, choice_map, recognizer_map]

theorem recognizer_orElse :
    (p.orElse p').recognizer = (p.recognizer.choice p'.recognizer).recognizer := by
  rw [Parser.orElse, recognizer_map, recognizer_choice]

theorem recognizer_optional :
    p.optional.recognizer = (p.recognizer.choice (.pure ())).recognizer := by
  have hblank : (blank : Parser σ ε (Option α)).recognizer = .pure () := rfl
  rw [Parser.optional, recognizer_orElse, recognizer_map, hblank]

theorem recognizer_many : p.many.recognizer = p.recognizer.many.recognizer := by
  rw [recognizer.eq_def p, many_map, recognizer_map]

theorem recognizer_many1 : p.many1.recognizer = p.recognizer.many1.recognizer := by
  rw [recognizer.eq_def p, many1_map, recognizer_map]

/-- Parsers with one recognizer end on the same inputs and differ in their values at most. -/
theorem Yields.alike_of_recognizer_eq {q : Parser σ ε β} (h : p.recognizer = q.recognizer) {s : σ}
    {o : Outcome σ ε α} {t : Trace} (hp : p.Yields s o t) : ∃ o', q.Yields s o' t ∧ o.Alike o' := by
  have hrecognizer : p.recognizer.Yields s (o.map fun _ => ()) t := yields_map.mpr ⟨o, hp, rfl⟩
  rw [h] at hrecognizer
  obtain ⟨o', hq, heq⟩ := yields_map.mp hrecognizer
  exact ⟨o', hq, Outcome.alike_of_map_eq heq⟩

end Parser
end TracedParsers
