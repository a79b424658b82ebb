import SchemaDialects.Proofs.Script.Ending
import SchemaDialects.Proofs.Script.Splitting

/-!
# Scripts in parts

A script that nothing is left open in can be split on its own, whatever follows:
behind a semicolon outside quotes and comments the splitter starts afresh, and
blanks in plain text count for nothing.
-/

namespace SchemaDialects.Script

open Text Lexical

/-- A script that is blank, or whose last semicolon is read outside quotes and
comments and has only blanks behind it. -/
def IsClosed (a : Text) : Prop :=
  (∀ c ∈ a, isBlank c = true)
    ∨ ∃ s blanks, a = s ++ ';' :: blanks ∧ (plain.run s).isOutside = true
      ∧ ∀ c ∈ blanks, isBlank c = true

/-! ## Pieces -/

theorem pieces_ne_nil (st : Lexical) {s : Text} (h : s ≠ []) : pieces st s ≠ [] := by
  rw [pieces_eq_cons st h]
  exact List.cons_ne_nil _ _

theorem prepend_append {ps : List Text} (h : ps ≠ []) (m : Text) (qs : List Text) :
    prepend m (ps ++ qs) = prepend m ps ++ qs := by
  obtain ⟨p, ps, rfl⟩ := List.exists_cons_of_ne_nil h
  rfl

theorem pieces_append_semicolon {st : Lexical} {s : Text} (h : (st.run s).isOutside = true)
    (t : Text) : pieces st (s ++ ';' :: t) = pieces st (s ++ [';']) ++ pieces plain t := by
  induction s generalizing st with
  | nil =>
    have hst : st.isOutside = true := h
    rw [List.nil_append, List.nil_append, pieces_cons, pieces_cons, if_pos ⟨rfl, hst⟩,
      if_pos ⟨rfl, hst⟩]
    rfl
  | cons c s ih =>
    rw [List.cons_append, List.cons_append, pieces_cons, pieces_cons]
    split
    · next hc =>
      have hplain : (plain.run s).isOutside = true := by
        rwa [run_cons, hc.1, step_semicolon hc.2] at h
      rw [ih hplain, List.cons_append]
    · rw [ih h, prepend_append (pieces_ne_nil _ (by simp))]

theorem ne_semicolon_of_isBlank {c : Char} (h : isBlank c = true) : c ≠ ';' := by
  rintro rfl
  exact absurd h (by decide)

theorem run_blanks {b : Text} (hb : ∀ c ∈ b, isBlank c = true) : plain.run b = plain := by
  induction b with
  | nil => rfl
  | cons c b ih =>
    have hc : plain.step c = plain := opening_of_isBlank (hb c (by simp))
    rw [run_cons, hc, ih fun d hd => hb d (by simp [hd])]

theorem pieces_append_of_not_mem {b : Text} (hb : ';' ∉ b) (st : Lexical) (s : Text) :
    pieces st (b ++ s) = prepend b (pieces (st.run b) s) := by
  induction b generalizing st with
  | nil => exact (prepend_nil _).symm
  | cons c b ih =>
    obtain ⟨hc, hb⟩ := not_or.1 (mt List.mem_cons.2 hb)
    rw [List.cons_append, pieces_cons_of_ne (Ne.symm hc), ih hb, prepend_prepend]
    rfl

theorem semicolon_not_mem_blanks {b : Text} (hb : ∀ c ∈ b, isBlank c = true) : ';' ∉ b :=
  fun h => ne_semicolon_of_isBlank (hb _ h) rfl

theorem pieces_blanks_append {b : Text} (hb : ∀ c ∈ b, isBlank c = true) (s : Text) :
    pieces plain (b ++ s) = prepend b (pieces plain s) := by
  rw [pieces_append_of_not_mem (semicolon_not_mem_blanks hb), run_blanks hb]

/-! ## Statements -/

/-- The pieces of a text that are not blank, without their outer blanks. -/
def trimmed (ps : List Text) : List Text := (ps.map trim).filter (· ≠ [])

theorem trimmed_append (ps qs : List Text) : trimmed (ps ++ qs) = trimmed ps ++ trimmed qs := by
  rw [trimmed, List.map_append, List.filter_append]
  rfl

theorem trim_blanks {b : Text} (hb : ∀ c ∈ b, isBlank c = true) : trim b = [] := by
  have h := trim_append_of_blank (t := []) hb
  rwa [List.append_nil] at h

theorem trimmed_prepend_blanks {b : Text} (hb : ∀ c ∈ b, isBlank c = true) (ps : List Text) :
    trimmed (prepend b ps) = trimmed ps := by
  cases ps with
  | nil =>
    by_cases h : b = []
    · simp [prepend, h]
    · simp [prepend, h, trimmed, trim_blanks hb]
  | cons p ps => simp [prepend, trimmed, trim_append_of_blank hb]

theorem statements_blanks_append {b : Text} (hb : ∀ c ∈ b, isBlank c = true) (s : Text) :
    statements (b ++ s) = statements s := by
  show trimmed (pieces plain (b ++ s)) = trimmed (pieces plain s)
  rw [pieces_blanks_append hb, trimmed_prepend_blanks hb]

theorem statements_blanks {b : Text} (hb : ∀ c ∈ b, isBlank c = true) : statements b = [] := by
  have h := statements_blanks_append hb []
  rwa [List.append_nil] at h

theorem statements_append_semicolon {s : Text} (h : (plain.run s).isOutside = true) (t : Text) :
    statements (s ++ ';' :: t) = statements (s ++ [';']) ++ statements t := by
  show trimmed (pieces plain (s ++ ';' :: t)) = _
  rw [pieces_append_semicolon h, trimmed_append]
  rfl

/-- The statements of a closed script come first, whatever follows it. -/
theorem statements_append {a : Text} (ha : IsClosed a) (b : Text) :
    statements (a ++ b) = statements a ++ statements b := by
  rcases ha with hblank | ⟨s, blanks, rfl, hs, hblank⟩
  · rw [statements_blanks_append hblank, statements_blanks hblank, List.nil_append]
  · rw [List.append_assoc, List.cons_append, statements_append_semicolon hs (blanks ++ b),
      statements_append_semicolon hs blanks, statements_blanks_append hblank,
      statements_blanks hblank, List.append_nil]

end SchemaDialects.Script
