import SchemaDialects.Proofs.Script.Apart

/-!
# Statements in SQLite's syntax

To SQLite a backslash is a character like any other. The splitter lets it take the
meaning of a quote away, as MySQL does, in the scripts of either dialect. The two
read a statement alike where every closing quote stands behind an even number of
backslashes.
-/

namespace SchemaDialects

namespace Lexical

/-- Reads a character as SQLite does. A quote inside its own quotes always closes
them; doubled, it opens them again. -/
def stepSqlite : Lexical → Char → Lexical
  | quoted q, c => if c = q.char then plain else quoted q
  | st, c => st.step c

/-- Whether the character closes quotes in which the splitter knows escapes. -/
def closes : Lexical → Char → Bool
  | quoted q, c => q.escapes && c == q.char
  | _, _ => false

/-- Whether an odd number of backslashes stands behind `c`, where an odd number of
them stands before it or not. -/
def oddBehind (odd : Bool) (c : Char) : Bool := c == '\\' && !odd

/-- The state of the splitter where SQLite's is `st`. -/
def escapedIf (odd : Bool) : Lexical → Lexical
  | quoted q => if odd && q.escapes then escaped q else quoted q
  | st => st

def isEscaped : Lexical → Bool
  | escaped _ => true
  | _ => false

theorem isEscaped_opening (c : Char) : (opening c).isEscaped = false := by
  unfold opening
  split
  · rfl
  · split
    · rfl
    · split <;> rfl

theorem isEscaped_stepSqlite {st : Lexical} (h : st.isEscaped = false) (c : Char) :
    (st.stepSqlite c).isEscaped = false := by
  cases st with
  | plain => exact isEscaped_opening c
  | dash | slash =>
    simp only [stepSqlite, step]
    split
    · rfl
    · exact isEscaped_opening c
  | escaped q => cases h
  | blockStar =>
    simp only [stepSqlite, step]
    split
    · rfl
    · split <;> rfl
  | quoted q | lineComment | blockComment =>
    simp only [stepSqlite, step]
    split <;> rfl

@[simp] theorem escapedIf_false (st : Lexical) : st.escapedIf false = st := by
  cases st <;> rfl

theorem oddBehind_of_ne {c : Char} (h : c ≠ '\\') (odd : Bool) : oddBehind odd c = false := by
  simp [oddBehind, h]

/-- The two readers take a step alike, unless the splitter takes a closing quote's
meaning away. -/
theorem step_escapedIf {st : Lexical} (h : st.isEscaped = false) {odd : Bool} {c : Char}
    (hc : (odd && st.closes c) = false) :
    (st.escapedIf odd).step c = (st.stepSqlite c).escapedIf (oddBehind odd c) := by
  by_cases hb : c = '\\'
  · subst hb
    cases st with
    | quoted q => cases q <;> cases odd <;> rfl
    | escaped q => cases h
    | _ => rfl
  · rw [oddBehind_of_ne hb, escapedIf_false]
    cases st with
    | quoted q =>
      rw [escapedIf]
      split
      · next hodd =>
        obtain ⟨rfl, hescapes⟩ := (Bool.and_eq_true _ _).mp hodd
        have hne : c ≠ q.char := by simpa [closes, hescapes] using hc
        exact (if_neg hne).symm
      · exact if_neg fun hc => hb hc.1
    | escaped q => cases h
    | _ => rfl

@[simp] theorem isOutside_escapedIf (odd : Bool) (st : Lexical) :
    (st.escapedIf odd).isOutside = st.isOutside := by
  cases st with
  | quoted q =>
    rw [escapedIf]
    split <;> rfl
  | _ => rfl

end Lexical

namespace Script

open Lexical

/-- Whether every single or double quote that closes its part stands behind an even
number of backslashes. An odd number of them stands before the text or not. -/
def closesEvenly (st : Lexical) (odd : Bool) : Text → Bool
  | [] => true
  | c :: s => !(odd && st.closes c) && closesEvenly (st.stepSqlite c) (oddBehind odd c) s

theorem endsAtSemicolon_escapedIf {st : Lexical} (hst : st.isEscaped = false) {odd : Bool}
    {s : Text} (h : closesEvenly st odd s = true) :
    endsAtSemicolon Lexical.step (st.escapedIf odd) s = endsAtSemicolon stepSqlite st s := by
  induction s generalizing st odd with
  | nil => rfl
  | cons c s ih =>
    rw [closesEvenly, Bool.and_eq_true, Bool.not_eq_true'] at h
    rw [endsAtSemicolon, endsAtSemicolon, isOutside_escapedIf, step_escapedIf hst h.1,
      ih (isEscaped_stepSqlite hst c) h.2]

theorem splitApart_of_closesEvenly {ss : List Text}
    (h : ∀ s ∈ ss, endsAtSemicolon stepSqlite plain s = true ∧ closesEvenly plain false s = true) :
    SplitApart ss := by
  induction ss with
  | nil => trivial
  | cons s ss ih =>
    obtain ⟨hends, heven⟩ := h s (by simp)
    rw [← endsAtSemicolon_escapedIf rfl heven] at hends
    exact (splitApart_cons_of_ends hends ss).2 (ih fun t ht => h t (List.mem_cons_of_mem s ht))

end Script

end SchemaDialects
