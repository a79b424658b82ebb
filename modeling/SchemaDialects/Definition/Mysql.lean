import SchemaDialects.Definition.Name
import SchemaDialects.TypeMap

/-!
# What SQLite lacks

The parts of a MySQL definition that have no place in SQLite: inline indexes,
the name of a unique key, and column attributes. They are searched in the line
as it stands, names and literals included, and names have double quotes by
now.
-/

namespace SchemaDialects.Definition

open Text

/-! ## Indexes -/

/-- Reads `KEY` or `INDEX` and the blanks after it. -/
def keyOrIndex : Scanner := fun s =>
  (keywordBlanks "KEY".toList s).or (keywordBlanks "INDEX".toList s)

/-- Reads `FULLTEXT` or `SPATIAL` and the blanks after it. -/
def indexClass : Scanner := fun s =>
  (keywordBlanks "FULLTEXT".toList s).or (keywordBlanks "SPATIAL".toList s)

def indexName : Scanner := fun s => (quotedBy '"' s).or (word s)

/-- The name of the index that a line such as `KEY name (…` defines, as it is
spelled. -/
def inlineIndexName? (line : Text) : Option Text := do
  let s ← keyOrIndex (optional indexClass line)
  let (name, s) ← read indexName s
  let _ ← char '(' (blanks s)
  some name

/-- A line that looks like an index is a column named `key` or `index` where a
type stands in the place of the index name. -/
def isInlineIndex (line : Text) : Bool :=
  (inlineIndexName? line).any fun name => (MysqlType.ofName? (upper name)).isNone

/-- Reads `UNIQUE KEY name (` at the start of a line. -/
def uniqueKey : Scanner := fun s => do
  let s ← keywordBlanks "UNIQUE".toList s
  let s ← keyOrIndex s
  let s ← indexName s
  char '(' (blanks s)

def withoutUniqueName (line : Text) : Text :=
  match uniqueKey line with
  | some rest => "UNIQUE (".toList ++ rest
  | none => line

/-! ## Column attributes -/

/-- Reads ` ON UPDATE CURRENT_TIMESTAMP`, with a precision or without. -/
def onUpdate : Scanner := fun s => do
  let s ← blanks1 s
  let s ← keywords ["ON".toList, "UPDATE".toList] s
  let s ← keyword "CURRENT_TIMESTAMP".toList s
  some (optional precision s)

/-- Reads a string literal after its opening quote. A quote inside it is doubled
or has a backslash. -/
def literalRest : Scanner
  -- If nothing behind two quotes closes the literal, the first of them does.
  | '\'' :: '\'' :: s => (literalRest s).or (some ('\'' :: s))
  | '\'' :: s => some s
  | '\\' :: c :: s => if c = '\n' then none else literalRest s
  | ['\\'] => none
  | _ :: s => literalRest s
  | [] => none

/-- Reads ` COMMENT 'text'`. -/
def commentClause : Scanner := fun s => do
  let s ← blanks1 s
  let s ← keywordBlanks "COMMENT".toList s
  let s ← char '\'' s
  literalRest s

/-- Reads an attribute of numbers or texts and the blanks before it. -/
def typeAttribute : Scanner := fun s => do
  let s ← blanks1 s
  ((keywordEnd "UNSIGNED".toList s).or (keywordEnd "ZEROFILL".toList s)).or
    ((keywords ["CHARACTER".toList, "SET".toList] s >>= word).or
      (keywordBlanks "COLLATE".toList s >>= word))

def hasOnUpdate (line : Text) : Bool := occurs (anywhere onUpdate) line

def withoutAttributes (line : Text) : Text :=
  let line := eraseAll (anywhere onUpdate) line
  let line := eraseAll (anywhere commentClause) line
  eraseAll (anywhere typeAttribute) line

end SchemaDialects.Definition
