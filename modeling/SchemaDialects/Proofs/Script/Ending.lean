import SchemaDialects.Proofs.Script.Reading

/-!
# Endings of statements

What is cut from the end of a statement and written there again does not count:
outside quotes and comments blanks are read as one, and inside them blanks and
semicolons are read as any other part.
-/

namespace SchemaDialects.Script

open Text

/-! ## Inside quotes and comments -/

/-- The characters that quotes and comments other than line comments can end
with, and the backslash. -/
def closers : List Char := ['*', '/', '\\', '\'', '"', '`']

/-- No line of a text that is read from `st` on ends inside a line comment. -/
def CutAtBreaks (st : Lexical) (s : Text) : Prop :=
  ∀ a t, s = a ++ '\n' :: t → st.run a ≠ .lineComment

theorem CutAtBreaks.tail {st : Lexical} {c : Char} {s : Text} (h : CutAtBreaks st (c :: s)) :
    CutAtBreaks (st.step c) s :=
  fun a t hs => h (c :: a) t (by simp [hs])

theorem CutAtBreaks.head {st : Lexical} {c : Char} {s : Text} (h : CutAtBreaks st (c :: s))
    (hc : c = '\n') : st ≠ .lineComment :=
  h [] s (by simp [hc])

theorem CutAtBreaks.suffix {st : Lexical} {s t : Text} (h : CutAtBreaks st (s ++ t)) :
    CutAtBreaks (st.run s) t := by
  intro a u ht
  rw [← Lexical.run_append]
  exact h (s ++ a) u (by simp [ht])

theorem CutAtBreaks.append {st : Lexical} {s t : Text} (hs : CutAtBreaks st s)
    (ht : CutAtBreaks (st.run s) t) : CutAtBreaks st (s ++ t) := by
  intro a u h
  rcases List.append_eq_append_iff.1 h with ⟨m, rfl, hm⟩ | ⟨m, rfl, hm⟩
  · rw [Lexical.run_append]
    exact ht m u hm
  · cases m with
    | nil =>
      rw [List.append_nil] at ht
      exact ht [] u hm.symm
    | cons c m =>
      obtain ⟨rfl, -⟩ := List.cons.inj hm
      exact hs a m rfl

theorem cutAtBreaks_of_line {st : Lexical} {s : Text} (h : '\n' ∉ s) : CutAtBreaks st s :=
  fun a t hs => absurd (by simp [hs]) h

namespace Reading

/-- The place after more of the same quotes or comment. -/
def held (r : Reading) : Place :=
  match r.lexical with
  | .quoted _ | .escaped _ => r.place.fill
  | _ => r.place.pass

theorem held_step {r : Reading} (h : r.lexical.isOutside = false) {c : Char} (hc : c ∉ closers)
    (hn : c = '\n' → r.lexical ≠ .lineComment) :
    (r.step c).lexical.isOutside = false ∧ (r.step c).held = r.held
      ∧ (r.step c).place = r.held := by
  simp only [closers, List.mem_cons, List.not_mem_nil, or_false, not_or] at hc
  obtain ⟨hstar, hslash, hback, hsingle, hdouble, htick⟩ := hc
  obtain ⟨l, p⟩ := r
  cases l with
  | plain => cases h
  | dash => cases h
  | slash => cases h
  | quoted q =>
    have hq : c ≠ q.char := by cases q <;> simp [Quote.char, hsingle, hdouble, htick]
    simp [step, Lexical.step, hback, hq, held, Lexical.isOutside]
  | escaped q => simp [step, Lexical.step, held, Lexical.isOutside]
  | lineComment =>
    have hb : c ≠ '\n' := fun hb => hn hb rfl
    simp [step, Lexical.step, hb, held, Lexical.isOutside]
  | blockComment => simp [step, Lexical.step, hstar, held, Lexical.isOutside]
  | blockStar => simp [step, Lexical.step, hstar, hslash, held, Lexical.isOutside]

theorem held_run {r : Reading} (h : r.lexical.isOutside = false) {s : Text}
    (hs : ∀ c ∈ s, c ∉ closers) (hb : CutAtBreaks r.lexical s) :
    (r.run s).lexical.isOutside = false ∧ (r.run s).held = r.held
      ∧ (s ≠ [] → (r.run s).place = r.held) := by
  induction s generalizing r with
  | nil => exact ⟨h, rfl, fun hne => absurd rfl hne⟩
  | cons c s ih =>
    obtain ⟨hout, hheld, hplace⟩ := held_step h (hs c (by simp)) hb.head
    obtain ⟨hout', hheld', hplace'⟩ := ih hout (fun d hd => hs d (by simp [hd])) hb.tail
    refine ⟨hout', hheld'.trans hheld, fun _ => ?_⟩
    rw [run_cons]
    by_cases hne : s = []
    · rw [hne, run_nil, hplace]
    · rw [hplace' hne, hheld]

end Reading

/-! ## Outside quotes and comments -/

theorem opening_of_isBlank {c : Char} (h : isBlank c = true) : Lexical.opening c = .plain := by
  have hne : c ≠ '-' ∧ c ≠ '/' ∧ c ≠ '\'' ∧ c ≠ '"' ∧ c ≠ '`' := by
    refine ⟨?_, ?_, ?_, ?_, ?_⟩ <;> rintro rfl <;> exact absurd h (by decide)
  obtain ⟨hdash, hslash, hsingle, hdouble, htick⟩ := hne
  simp [Lexical.opening, Quote.ofChar?, hdash, hslash, hsingle, hdouble, htick]

theorem not_mem_closers_of_isBlank {c : Char} (h : isBlank c = true) : c ∉ closers := by
  intro hc
  have hall : ∀ x ∈ closers, isBlank x = false := by decide
  simp [hall c hc] at h

namespace Reading

theorem readPlain_semicolon (p : Place) : p.readPlain ';' = p.read ';' := if_neg (by decide)

theorem step_of_isBlank {r : Reading} (h : r.lexical.isOutside = true) {c : Char}
    (hb : isBlank c = true) : r.step c = ⟨.plain, (r.step ' ').place.pass⟩ := by
  have hne : c ≠ '-' ∧ c ≠ '*' := by
    refine ⟨?_, ?_⟩ <;> rintro rfl <;> exact absurd hb (by decide)
  have hread : ∀ {x : Char}, isBlank x = true → ∀ p : Place, p.readPlain x = p.pass :=
    fun hx _ => if_pos (Or.inl hx)
  have hopen := opening_of_isBlank hb
  obtain ⟨l, p⟩ := r
  cases l with
  | plain => simp [step, Lexical.step, hopen, hread hb, hread (x := ' ') (by decide)]
  | dash => simp [step, Lexical.step, hopen, hread hb, hread (x := ' ') (by decide), hne.1]
  | slash => simp [step, Lexical.step, hopen, hread hb, hread (x := ' ') (by decide), hne.2]
  | _ => cases h

theorem run_of_blanks {r : Reading} (h : r.lexical.isOutside = true) {b : Text}
    (hb : ∀ c ∈ b, isBlank c = true) :
    (r.run b).lexical.isOutside = true ∧ (r.run b).step ' ' = r.step ' ' := by
  induction b generalizing r with
  | nil => exact ⟨h, rfl⟩
  | cons c b ih =>
    have hstep := step_of_isBlank h (hb c (by simp))
    have hout : (r.step c).lexical.isOutside = true := by rw [hstep]; rfl
    obtain ⟨hout', hspace⟩ := ih hout fun d hd => hb d (by simp [hd])
    refine ⟨hout', ?_⟩
    rw [run_cons, hspace, step_of_isBlank hout (c := ' ') (by decide), hstep,
      step_of_isBlank h (c := ' ') (by decide)]
    have hread : ∀ p : Place, p.readPlain ' ' = p.pass := fun _ => if_pos (Or.inl (by decide))
    simp [step, hread]

/-- A semicolon is read as it is behind a blank. -/
theorem step_semicolon {r : Reading} (h : r.lexical.isOutside = true)
    (he : r.place.isEnded = false) : r.step ';' = ⟨.plain, (r.step ' ').place.read ';'⟩ := by
  have hread : ∀ p : Place, p.readPlain ' ' = p.pass := fun _ => if_pos (Or.inl (by decide))
  obtain ⟨l, p⟩ := r
  have hpass : p.pass = p := Place.pass_of_not_isEnded he
  have hlex : l.step ';' = .plain := Lexical.step_semicolon h
  cases l with
  | plain => simp [step, hlex, hread, hpass, readPlain_semicolon]
  | dash => simp [step, hlex, hread, readPlain_semicolon]
  | slash => simp [step, hlex, hread, readPlain_semicolon]
  | _ => cases h

/-- Semicolons end a statement, or they break it. -/
theorem place_run_semicolons {r : Reading} (h : r.lexical.isOutside = true)
    (he : r.place.isEnded = false) {c : Char} {e : Text} (hs : ∀ d ∈ c :: e, d = ';') :
    ((r.step ';').place = .ended 0 ∧ (r.run (c :: e)).place.isEnded = true)
      ∨ ((r.step ';').place = .broken ∧ (r.run (c :: e)).place = .broken) := by
  obtain rfl := hs c (by simp)
  have hplain : (r.step ';').lexical = .plain := Lexical.step_semicolon h
  rcases place_step_semicolon h he with hp | hp
  · refine Or.inl ⟨hp, ?_⟩
    have hstep : r.step ';' = ⟨.plain, .ended 0⟩ := by rw [← hplain, ← hp]
    have hcount : ∀ (k : Nat) (e : Text), (∀ d ∈ e, d = ';') →
        (run ⟨.plain, .ended k⟩ e).place.isEnded = true := by
      intro k e
      induction e generalizing k with
      | nil => exact fun _ => rfl
      | cons d e ih =>
        intro he'
        obtain rfl := he' d (by simp)
        have hnext : step ⟨.plain, .ended k⟩ ';' = ⟨.plain, .ended (k + 1)⟩ := by
          simp only [step, readPlain_semicolon]
          rfl
        rw [run_cons, hnext]
        exact ih (k + 1) fun x hx => he' x (by simp [hx])
    rw [run_cons, hstep]
    exact hcount 0 e fun d hd => hs d (by simp [hd])
  · exact Or.inr ⟨hp, place_run_broken hp e⟩

theorem endsWith_of_ended {s : Text} (h : (start.run s).place.isEnded = true) :
    endsWith s ';' = true := by
  rcases List.eq_nil_or_concat s with rfl | ⟨t, c, rfl⟩
  · cases h
  · rw [List.concat_eq_append, run_append, run_cons, run_nil] at h
    rw [(isEnded_step h).1, List.concat_eq_append, endsWith]
    simp

theorem lexical_of_ended {s : Text} (h : (start.run s).place.isEnded = true) :
    (start.run s).lexical = .plain := by
  rcases List.eq_nil_or_concat s with rfl | ⟨t, c, rfl⟩
  · cases h
  · rw [List.concat_eq_append, run_append, run_cons, run_nil] at h ⊢
    obtain ⟨rfl, hout⟩ := isEnded_step h
    exact Lexical.step_semicolon hout

/-- One more semicolon changes nothing but the end of a statement. -/
theorem place_step_of_endsWith {s : Text} (hs : endsWith s ';' = true)
    (h : (start.run s).place.isEnded = false) :
    ((start.run s).step ';').place = (start.run s).place := by
  have hlast : s.getLast? = some ';' := by simpa [endsWith] using hs
  obtain ⟨t, rfl⟩ := List.getLast?_eq_some_iff.1 hlast
  rw [run_append, run_cons, run_nil] at h ⊢
  generalize start.run t = r at h ⊢
  cases hout : r.lexical.isOutside with
  | false =>
    obtain ⟨hout', hheld, hplace⟩ := held_step hout (c := ';') (by decide) (by simp)
    rw [(held_step hout' (c := ';') (by decide) (by simp)).2.2, hheld, hplace]
  | true =>
    have hbroken : (r.step ';').place = .broken := by
      by_cases he : r.place.isEnded = true
      · obtain ⟨l, p⟩ := r
        cases p with
        | ended k =>
          cases l with
          | plain => exact absurd h (by simp [step, readPlain_semicolon, Place.read, Place.isEnded])
          | dash => exact readPlain_semicolon .broken
          | slash => exact readPlain_semicolon .broken
          | _ => cases hout
        | _ => cases he
      · rcases place_step_semicolon hout (by simpa using he) with hp | hp
        · rw [hp] at h
          cases h
        · exact hp
    rw [hbroken, place_step_broken hbroken]

end Reading

end SchemaDialects.Script
