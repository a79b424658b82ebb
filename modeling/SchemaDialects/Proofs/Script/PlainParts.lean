import SchemaDialects.Proofs.Script.Sqlite

/-!
# Parts that end in plain text

A statement that is put together from quoted parts and from text that opens nothing
is read part by part. A reader that finds each quoted part's end stands in plain text
again behind it, so that whatever the quotes hold ends no statement.
-/

namespace SchemaDialects.Script

open Text Lexical

/-- Where a reader stands behind a text, if it meets no semicolon outside quotes and
comments on the way. -/
def readThrough (step : Lexical → Char → Lexical) (st : Lexical) : Text → Option Lexical
  | [] => some st
  | c :: s => if c = ';' ∧ st.isOutside then none else readThrough step (step st c) s

/-- Outside quotes and comments the character opens nothing and ends nothing. -/
def IsCalm (c : Char) : Prop := c ≠ ';' ∧ opening c = plain

instance : DecidablePred IsCalm := fun c =>
  inferInstanceAs (Decidable (c ≠ ';' ∧ opening c = plain))

def StaysPlain (step : Lexical → Char → Lexical) (s : Text) : Prop :=
  readThrough step plain s = some plain

/-- The reader takes every character of the text inside the quotes as text, except the
quote character, which closes them. -/
def ClosesAt (step : Lexical → Char → Lexical) (q : Quote) (s : Text) : Prop :=
  ∀ c ∈ q.char :: s, step (.quoted q) c = if c = q.char then plain else .quoted q

/-! ## Reading on -/

section
variable {step : Lexical → Char → Lexical} {st st' : Lexical} {s t : Text}

theorem readThrough_append (st : Lexical) (s t : Text) :
    readThrough step st (s ++ t) = (readThrough step st s).bind (readThrough step · t) := by
  induction s generalizing st with
  | nil => rfl
  | cons c s ih =>
    rw [List.cons_append, readThrough, readThrough]
    split
    · rfl
    · exact ih (step st c)

theorem endsAtSemicolon_append (h : readThrough step st s = some st') (t : Text) :
    endsAtSemicolon step st (s ++ t) = endsAtSemicolon step st' t := by
  induction s generalizing st with
  | nil =>
    cases h
    rfl
  | cons c s ih =>
    rw [readThrough] at h
    split at h
    · cases h
    · next hc =>
      rw [List.cons_append, endsAtSemicolon, if_neg hc]
      exact ih h

theorem leavesOpen_of_readThrough (h : readThrough Lexical.step st s = some st') :
    LeavesOpen st s := by
  induction s generalizing st with
  | nil => exact fun u => (prepend_nil _).symm
  | cons c s ih =>
    rw [readThrough] at h
    split at h
    · cases h
    · next hc =>
      intro u
      rw [List.cons_append, pieces_cons, if_neg hc, ih h u, prepend_prepend]
      rfl

theorem statements_of_pieces (h : pieces plain s = [s]) (hne : s ≠ []) (htrim : trim s = s) :
    statements s = [s] := by
  simp [statements, h, htrim, hne]

end

/-! ## Parts -/

theorem opening_char (q : Quote) : opening q.char = .quoted q := by
  cases q <;> rfl

theorem char_ne_semicolon (q : Quote) : q.char ≠ ';' := by
  cases q <;> decide

section
variable {step : Lexical → Char → Lexical} {s t : Text}

theorem StaysPlain.append (hs : StaysPlain step s) (ht : StaysPlain step t) :
    StaysPlain step (s ++ t) := by
  rw [StaysPlain, readThrough_append, hs]
  exact ht

theorem StaysPlain.join {sep : Text} (hsep : StaysPlain step sep) {parts : List Text}
    (h : ∀ s ∈ parts, StaysPlain step s) : StaysPlain step (Text.join sep parts) := by
  fun_induction Text.join sep parts with
  | case1 => rfl
  | case2 s => exact h s (by simp)
  | case3 s t rest ih =>
    exact ((h s (by simp)).append hsep).append (ih fun u hu => h u (List.mem_cons_of_mem s hu))

variable (hplain : ∀ c, step plain c = opening c)
include hplain

theorem staysPlain_of_calm (h : ∀ c ∈ s, IsCalm c) : StaysPlain step s := by
  induction s with
  | nil => rfl
  | cons c s ih =>
    obtain ⟨hsemi, hopen⟩ := h c (by simp)
    rw [StaysPlain, readThrough, if_neg fun hc => hsemi hc.1, hplain, hopen]
    exact ih fun d hd => h d (List.mem_cons_of_mem c hd)

/-- Behind the opening quote: a doubled quote closes the quotes and opens them again. -/
theorem readThrough_double {q : Quote} (h : ClosesAt step q s) :
    readThrough step (.quoted q) (double q.char s ++ [q.char]) = some plain := by
  have hclose : step (.quoted q) q.char = plain := by
    rw [h _ (by simp), if_pos rfl]
  induction s with
  | nil => simp [readThrough, isOutside, hclose]
  | cons c s ih =>
    have hrest := ih fun d hd => h d (by
      rcases List.mem_cons.1 hd with rfl | hd
      · simp
      · simp [hd])
    by_cases hc : c = q.char
    · subst hc
      rw [double, if_pos rfl, List.cons_append, List.cons_append, readThrough,
        if_neg (by simp [isOutside]), hclose, readThrough,
        if_neg fun hc => char_ne_semicolon q hc.1, hplain, opening_char]
      exact hrest
    · rw [double, if_neg hc, List.cons_append, readThrough, if_neg (by simp [isOutside]),
        h c (by simp), if_neg hc]
      exact hrest

theorem staysPlain_quoted {q : Quote} (h : ClosesAt step q s) :
    StaysPlain step (Text.quoted q.char s) := by
  rw [StaysPlain, Text.quoted, List.cons_append, readThrough,
    if_neg fun hc => char_ne_semicolon q hc.1, hplain, opening_char]
  exact readThrough_double hplain h

end

theorem closesAt_stepSqlite (q : Quote) (s : Text) : ClosesAt stepSqlite q s :=
  fun _ _ => rfl

theorem closesAt_step {q : Quote} {s : Text} (h : q.escapes = true → '\\' ∉ s) :
    ClosesAt Lexical.step q s := by
  intro c hc
  refine if_neg fun hescape => ?_
  rcases List.mem_cons.1 hc with rfl | hc
  · cases q <;> simp [Quote.char] at hescape
  · exact h hescape.2 (hescape.1 ▸ hc)

end SchemaDialects.Script
