import SchemaDialects.Script.Lexical

/-!
# Statements of a script

A script is cut after every semicolon outside quotes and comments. A statement
may have comments and blanks before it. Main statements: the pieces put together
are the script, and none is empty.
-/

namespace SchemaDialects.Script

open Lexical

/-- The pieces of a text that is read from the state `st` on. A piece ends with
its semicolon, the last one perhaps without. -/
def pieces (st : Lexical) : Text → List Text
  | [] => []
  | c :: s =>
    if c = ';' ∧ st.isOutside then [c] :: pieces plain s
    else match pieces (st.step c) s with
      | [] => [[c]]
      | p :: ps => (c :: p) :: ps

/-- The statements of a script between their outer blanks. Blank pieces are no
statements. -/
def statements (script : Text) : List Text :=
  ((pieces plain script).map Text.trim).filter (· ≠ [])

theorem flatten_pieces (st : Lexical) (s : Text) : (pieces st s).flatten = s := by
  induction s generalizing st with
  | nil => rfl
  | cons c s ih =>
    simp only [pieces]
    split
    · simp [ih]
    · have h := ih (st.step c)
      split <;> simp_all

theorem ne_nil_of_mem_pieces {st : Lexical} {s p : Text} (h : p ∈ pieces st s) : p ≠ [] := by
  induction s generalizing st p with
  | nil => simp [pieces] at h
  | cons c s ih =>
    simp only [pieces] at h
    split at h
    · rcases List.mem_cons.1 h with rfl | h
      · simp
      · exact ih h
    · split at h
      · simp_all
      · next hp =>
        rcases List.mem_cons.1 h with rfl | h
        · simp
        · exact ih (hp ▸ List.mem_cons_of_mem _ h)

/-! ## Leading comments -/

/-- What is being skipped before a statement. -/
inductive Skipping where
  | blanks
  | lineComment
  | blockComment

/-- The text after its leading blanks and comments. A comment without an end
takes everything. -/
def skip : Skipping → Text → Text
  | _, [] => []
  | .blanks, c :: s =>
    if Text.isBlank c then skip .blanks s
    else if c = '-' ∧ s.head? = some '-' then skip .lineComment s
    -- The star is still to be read, so it may close the comment that it opens.
    else if c = '/' ∧ s.head? = some '*' then skip .blockComment s
    else c :: s
  | .lineComment, c :: s => if c = '\n' then skip .blanks s else skip .lineComment s
  | .blockComment, '*' :: '/' :: s => skip .blanks s
  | .blockComment, _ :: s => skip .blockComment s

/-- The statement after its leading comments, between its outer blanks. -/
def body (statement : Text) : Text := skip .blanks (Text.trim statement)

end SchemaDialects.Script
