import SchemaDialects.Text.Basic

/-!
# Lexical states

Where a reader of SQL stands between two characters: in plain text, in a quoted
part, or in a comment. One machine reads every script, one character at a
time. A comment opens with two characters, so plain text has a state after
either first one, and so has a block comment before its last.
-/

namespace SchemaDialects

/-- The three ways to quote. -/
inductive Quote where
  | single
  | double
  | backtick
  deriving DecidableEq

namespace Quote

def char : Quote → Char
  | single => '\''
  | double => '"'
  | backtick => '`'

/-- Whether a backslash inside takes the next character's meaning away. -/
def escapes : Quote → Bool
  | single | double => true
  | backtick => false

def ofChar? (c : Char) : Option Quote :=
  if c = '\'' then some single
  else if c = '"' then some double
  else if c = '`' then some backtick
  else none

end Quote

inductive Lexical where
  | plain
  /-- In plain text, after a dash. -/
  | dash
  /-- In plain text, after a slash. -/
  | slash
  | quoted (q : Quote)
  /-- In quotes, after a backslash. -/
  | escaped (q : Quote)
  | lineComment
  | blockComment
  /-- In a block comment, after a star. -/
  | blockStar
  deriving DecidableEq

namespace Lexical

/-- Whether the next character is read outside quotes and comments. -/
def isOutside : Lexical → Bool
  | plain | dash | slash => true
  | _ => false

/-- Reads a character of plain text that does not complete an opening. -/
def opening (c : Char) : Lexical :=
  if c = '-' then dash
  else if c = '/' then slash
  else match Quote.ofChar? c with
    | some q => quoted q
    | none => plain

def step : Lexical → Char → Lexical
  | plain, c => opening c
  | dash, c => if c = '-' then lineComment else opening c
  | slash, c => if c = '*' then blockComment else opening c
  | quoted q, c =>
    if c = '\\' ∧ q.escapes then escaped q
    else if c = q.char then plain
    else quoted q
  | escaped q, _ => quoted q
  | lineComment, c => if c = '\n' then plain else lineComment
  | blockComment, c => if c = '*' then blockStar else blockComment
  | blockStar, c =>
    if c = '/' then plain else if c = '*' then blockStar else blockComment

/-- Reads a whole text. -/
def run (st : Lexical) (s : Text) : Lexical := s.foldl step st

@[simp] theorem run_nil (st : Lexical) : st.run [] = st := rfl

@[simp] theorem run_cons (st : Lexical) (c : Char) (s : Text) :
    st.run (c :: s) = (st.step c).run s := rfl

theorem run_append (st : Lexical) (s t : Text) : st.run (s ++ t) = (st.run s).run t := by
  simp [run]

/-- A semicolon outside quotes and comments leads back to the start. -/
theorem step_semicolon {st : Lexical} (h : st.isOutside = true) : st.step ';' = plain := by
  cases st <;> simp_all [isOutside, step, opening, Quote.ofChar?]

end Lexical

end SchemaDialects
