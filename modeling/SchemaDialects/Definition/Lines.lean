import SchemaDialects.Text.Basic

/-!
# The lines of a table definition

A table definition gets the quotes of the other dialect around its names and is
then read line by line: a header, definitions, and the line with the closing
parenthesis. Indentation, blank lines and comments at the ends of lines do not
count.
-/

namespace SchemaDialects.Definition

open Text

/-! ## Quoted names -/

/-- Writes `new` for the quote character `old`, except inside string literals. A single quote opens or
closes a literal, except inside a quoted name. -/
def requoteFrom (old new : Char) (inString inName : Bool) : Text → Text
  | [] => []
  | c :: s =>
    if c = '\'' ∧ inName = false then c :: requoteFrom old new (!inString) inName s
    else if c = old ∧ inString = false then new :: requoteFrom old new inString (!inName) s
    else c :: requoteFrom old new inString inName s

def requote (old new : Char) (s : Text) : Text := requoteFrom old new false false s

def backticksToDoubleQuotes (s : Text) : Text := requote '`' '"' s

def doubleQuotesToBackticks (s : Text) : Text := requote '"' '`' s

theorem length_requoteFrom (old new : Char) (inString inName : Bool) (s : Text) :
    (requoteFrom old new inString inName s).length = s.length := by
  induction s generalizing inString inName with
  | nil => rfl
  | cons c s ih =>
    simp only [requoteFrom]
    split
    · simp [ih]
    · split <;> simp [ih]

/-! ## Lines -/

/-- The text before the first `--` outside quotes; `none` where there is none.
The quote character that is open, if any, is `quote`. -/
def beforeComment (quote : Option Char) : Text → Option Text
  | [] => none
  | c :: s =>
    match quote with
    | some q => (beforeComment (if c = q then none else some q) s).map (c :: ·)
    | none =>
      if c = '-' ∧ s.head? = some '-' then some []
      else
        let opened := if c = '\'' ∨ c = '"' ∨ c = '`' then some c else none
        (beforeComment opened s).map (c :: ·)

def withoutComment (line : Text) : Text :=
  match beforeComment none line with
  | some s => trimEnd s
  | none => line

/-- The lines that hold something, without their comments and outer blanks. -/
def contentLines (s : Text) : List Text :=
  ((lines s).map fun line => withoutComment (trim line)).filter (· ≠ [])

def withoutComma (line : Text) : Text := trimEnd (dropEndWhile (· == ',') line)

def isClosing (line : Text) : Bool := line.head? == some ')'

/-- The parts of a table definition. -/
structure Layout where
  header : Text
  definitions : List Text
  /-- The line with the closing parenthesis, if there is one. -/
  closing? : Option Text

def Layout.ofLines (ls : List Text) : Layout where
  header := ls.headD []
  definitions := (ls.tail.takeWhile fun l => !isClosing l).map withoutComma
  -- Lines after the closing one are no part of the table.
  closing? := (ls.tail.dropWhile fun l => !isClosing l).head?

/-- Whether something follows the first opening parenthesis of the header. -/
def Layout.isCrowded (layout : Layout) : Bool :=
  trim ((layout.header.dropWhile (· != '(')).drop 1) != []

/-- What the closing line holds besides the parenthesis and semicolons. -/
def closingOptions (closing : Text) : Text :=
  trim (dropEndWhile (· == ';') (trim (closing.drop 1)))

end SchemaDialects.Definition
