import SchemaDialects.Definition.Mysql
import SchemaDialects.Proofs.Script.Reading
import SchemaDialects.Text.Search

/-!
# What a statement can go without

In the middle of an item, or inside quotes or a comment, ordinary characters do
not move the reader, and neither does a group in parentheses. A text that such
parts are erased from is read as before.
-/

namespace SchemaDialects.Script

open Text Definition

/-- The characters that some state of the reader tells apart. -/
def specials : List Char := ['-', '/', '*', '\\', '\'', '"', '`', '(', ')', ',', ';', '\n']

def isOrdinary (c : Char) : Bool := !specials.contains c

theorem ne_of_isOrdinary {c : Char} (h : isOrdinary c = true) : ∀ x ∈ specials, c ≠ x := by
  intro x hx
  rintro rfl
  simp [isOrdinary, hx] at h

theorem lexical_step_of_isOrdinary {c : Char} (h : isOrdinary c = true) (st : Lexical) :
    st.step c = st.step 'A' := by
  have hne := ne_of_isOrdinary h
  simp only [specials, List.forall_mem_cons] at hne
  obtain ⟨hdash, hslash, hstar, hback, hsingle, hdouble, htick, -, -, -, -, hbreak, -⟩ := hne
  have hopen : Lexical.opening c = Lexical.opening 'A' := by
    simp [Lexical.opening, Quote.ofChar?, hdash, hslash, hsingle, hdouble, htick]
  cases st with
  | plain => exact hopen
  | dash => simp [Lexical.step, hdash, hopen]
  | slash => simp [Lexical.step, hstar, hopen]
  | quoted q => cases q <;> simp [Lexical.step, Quote.char, hback, hsingle, hdouble, htick]
  | escaped q => rfl
  | lineComment => simp [Lexical.step, hbreak]
  | blockComment => simp [Lexical.step, hstar]
  | blockStar => simp [Lexical.step, hslash, hstar]

theorem Place.read_of_isOrdinary {c : Char} (h : isOrdinary c = true) (p : Place) :
    p.read c = p.fill := by
  have hne := ne_of_isOrdinary h
  simp only [specials, List.forall_mem_cons] at hne
  obtain ⟨-, -, -, -, -, -, -, hopen, hclose, hcomma, hsemi, -⟩ := hne
  rcases p with _ | ⟨_ | n, b⟩ | ⟨_ | n⟩ | k | _ <;>
    simp [Place.read, Place.fill, hopen, hclose, hcomma, hsemi]

theorem Place.readPlain_of_isOrdinary {c : Char} (h : isOrdinary c = true) (p : Place) :
    p.readPlain c = if isBlank c = true then p.pass else p.fill := by
  have hne := ne_of_isOrdinary h
  unfold Place.readPlain
  rw [Place.read_of_isOrdinary h]
  by_cases hb : isBlank c = true
  · rw [if_pos (Or.inl hb), if_pos hb]
  · have hdash := hne '-' (by decide)
    have hslash := hne '/' (by decide)
    rw [if_neg (by simp [hb, hdash, hslash]), if_neg hb]

theorem Place.pass_of_fill {p : Place} (h : p.fill = p) : p.pass = p := by
  rw [← h, Place.pass_fill]

namespace Reading

/-! ## Ordinary characters -/

theorem step_of_isOrdinary (r : Reading) {c : Char} (h : isOrdinary c = true)
    (hb : isBlank c = false) : r.step c = r.step 'A' := by
  obtain ⟨l, p⟩ := r
  have hA : isOrdinary 'A' = true := by decide
  have hAb : isBlank 'A' = false := by decide
  have hplain : ∀ p : Place, p.readPlain c = p.readPlain 'A' := fun p => by
    rw [Place.readPlain_of_isOrdinary h, Place.readPlain_of_isOrdinary hA, hb, hAb]
  have hdash := ne_of_isOrdinary h '-' (by decide)
  have hstar := ne_of_isOrdinary h '*' (by decide)
  unfold step
  rw [lexical_step_of_isOrdinary h l]
  cases l <;> simp [hplain, hdash, hstar]

theorem steady_step (r : Reading) : (r.step 'A').step 'A' = r.step 'A' := by
  obtain ⟨l, p⟩ := r
  have hplain : ∀ p : Place, p.readPlain 'A' = p.fill := fun p => by
    rw [Place.readPlain_of_isOrdinary (by decide), if_neg (by decide)]
  cases l with
  | plain => simp [step, hplain, Lexical.step, Lexical.opening, Quote.ofChar?]
  | dash => simp [step, hplain, Lexical.step, Lexical.opening, Quote.ofChar?]
  | slash => simp [step, hplain, Lexical.step, Lexical.opening, Quote.ofChar?]
  | quoted q => cases q <;> simp [step, Lexical.step, Quote.char]
  | escaped q => cases q <;> simp [step, Lexical.step, Quote.char]
  | lineComment => simp [step, Lexical.step]
  | blockComment => simp [step, Lexical.step]
  | blockStar => simp [step, Lexical.step]

theorem lexical_of_steady {r : Reading} (h : r.step 'A' = r) :
    r.lexical = .plain ∨ (∃ q, r.lexical = .quoted q) ∨ r.lexical = .lineComment
      ∨ r.lexical = .blockComment := by
  obtain ⟨l, p⟩ := r
  have hl : l.step 'A' = l := congrArg lexical h
  cases l with
  | plain => exact Or.inl rfl
  | quoted q => exact Or.inr (Or.inl ⟨q, rfl⟩)
  | lineComment => exact Or.inr (Or.inr (Or.inl rfl))
  | blockComment => exact Or.inr (Or.inr (Or.inr rfl))
  | _ => cases hl

theorem fill_of_steady {r : Reading} (h : r.step 'A' = r)
    (hl : r.lexical = .plain ∨ ∃ q, r.lexical = .quoted q) : r.place.fill = r.place := by
  obtain ⟨l, p⟩ := r
  have hp := congrArg place h
  rcases hl with rfl | ⟨q, rfl⟩
  · simp only [step] at hp
    rwa [Place.readPlain_of_isOrdinary (by decide), if_neg (by decide)] at hp
  · exact hp

theorem pass_of_steady {r : Reading} (h : r.step 'A' = r) : r.place.pass = r.place := by
  obtain ⟨l, p⟩ := r
  rcases lexical_of_steady h with hl | hl | hl | hl
  · exact Place.pass_of_fill (fill_of_steady h (Or.inl hl))
  · exact Place.pass_of_fill (fill_of_steady h (Or.inr hl))
  · obtain rfl : l = _ := hl
    exact congrArg place h
  · obtain rfl : l = _ := hl
    exact congrArg place h

theorem step_of_steady {r : Reading} (h : r.step 'A' = r) {c : Char} (hc : isOrdinary c = true) :
    r.step c = r := by
  by_cases hb : isBlank c = true
  · have hpass := pass_of_steady h
    have hl := lexical_of_steady h
    have hlex : r.lexical.step c = r.lexical :=
      (lexical_step_of_isOrdinary hc _).trans (congrArg lexical h)
    have hfill := fill_of_steady h
    obtain ⟨l, p⟩ := r
    unfold step
    rw [hlex]
    rcases hl with rfl | ⟨q, rfl⟩ | rfl | rfl
    · simp only [Place.readPlain_of_isOrdinary hc, if_pos hb]
      rw [hpass]
    · simp only
      rw [hfill (Or.inr ⟨q, rfl⟩)]
    · simp only
      rw [hpass]
    · simp only
      rw [hpass]
  · rw [step_of_isOrdinary r hc (by simpa using hb), h]

theorem run_of_steady {r : Reading} (h : r.step 'A' = r) {m : Text}
    (hm : ∀ c ∈ m, isOrdinary c = true) : r.run m = r := by
  induction m with
  | nil => rfl
  | cons c m ih =>
    rw [run_cons, step_of_steady h (hm c (by simp)), ih fun d hd => hm d (by simp [hd])]

theorem run_word (r : Reading) {c : Char} {m : Text} (hb : isBlank c = false)
    (hm : ∀ d ∈ c :: m, isOrdinary d = true) : r.run (c :: m) = r.step 'A' := by
  rw [run_cons, step_of_isOrdinary r (hm c (by simp)) hb,
    run_of_steady (steady_step r) fun d hd => hm d (by simp [hd])]

/-! ## Settled readings -/

/-- A reading that ordinary text leaves alone, in a list that has been opened. -/
structure IsSettled (r : Reading) : Prop where
  steady : r.step 'A' = r
  opened : r.place ≠ .before

instance (r : Reading) : Decidable r.IsSettled :=
  decidable_of_iff (r.step 'A' = r ∧ r.place ≠ .before)
    ⟨fun h => ⟨h.1, h.2⟩, fun h => ⟨h.steady, h.opened⟩⟩

/-- Inside quotes or a comment punctuation has no meaning. -/
theorem step_punctuation {r : Reading} (h : r.step 'A' = r) (hl : r.lexical ≠ .plain) {c : Char}
    (hc : c ∈ ['(', ',', ')']) : r.step c = r := by
  have hpass := pass_of_steady h
  have hcases := lexical_of_steady h
  have hfill := fill_of_steady h
  have hne : c ≠ '-' ∧ c ≠ '/' ∧ c ≠ '*' ∧ c ≠ '\\' ∧ c ≠ '\'' ∧ c ≠ '"' ∧ c ≠ '`' ∧ c ≠ '\n' := by
    revert hc c
    decide
  obtain ⟨hdash, hslash, hstar, hback, hsingle, hdouble, htick, hbreak⟩ := hne
  obtain ⟨l, p⟩ := r
  rcases hcases with rfl | ⟨q, rfl⟩ | rfl | rfl
  · exact absurd rfl hl
  · have hf : p.fill = p := hfill (Or.inr ⟨q, rfl⟩)
    cases q <;> simp [step, Lexical.step, Quote.char, hback, hsingle, hdouble, htick, hf]
  · have hp : p.pass = p := hpass
    simp [step, Lexical.step, hbreak, hp]
  · have hp : p.pass = p := hpass
    simp [step, Lexical.step, hstar, hp]

theorem run_of_commas {r : Reading} (h : r.step 'A' = r) (hcomma : r.step ',' = r) {m : Text}
    (hm : ∀ c ∈ m, isOrdinary c = true ∨ c = ',') : r.run m = r := by
  induction m with
  | nil => rfl
  | cons c m ih =>
    have hstep : r.step c = r := by
      rcases hm c (by simp) with hc | rfl
      · exact step_of_steady h hc
      · exact hcomma
    rw [run_cons, hstep, ih fun d hd => hm d (by simp [hd])]

theorem IsSettled.run_group {r : Reading} (h : r.IsSettled) {m : Text}
    (hm : ∀ c ∈ m, isOrdinary c = true ∨ c = ',') : r.run ('(' :: (m ++ [')'])) = r := by
  have hsteady := h.steady
  have hopened := h.opened
  rw [run_cons, run_append, run_cons, run_nil]
  by_cases hl : r.lexical = .plain
  · have hfill := fill_of_steady hsteady (Or.inl hl)
    obtain ⟨l, p⟩ := r
    obtain rfl : l = _ := hl
    rcases p with _ | ⟨n, b⟩ | n | k | _
    · exact absurd rfl hopened
    · obtain rfl : b = true := by injection hfill with _ hb; exact hb.symm
      have hopen : step ⟨.plain, .inside n true⟩ '(' = ⟨.plain, .inside (n + 1) true⟩ := by
        cases n <;> rfl
      rw [hopen, run_of_commas rfl rfl hm]
      rfl
    · have hopen : step ⟨.plain, .after n⟩ '(' = ⟨.plain, .after (n + 1)⟩ := by
        cases n <;> rfl
      rw [hopen, run_of_commas rfl rfl hm]
      rfl
    · cases hfill
    · exact (congrArg (step · ')') (run_of_commas rfl rfl hm)).trans rfl
  · rw [step_punctuation hsteady hl (by simp),
      run_of_commas hsteady (step_punctuation hsteady hl (by simp)) hm,
      step_punctuation hsteady hl (by simp)]

end Reading

end SchemaDialects.Script
