import SchemaDialects.Script.Split
import SchemaDialects.Text.Search

/-!
# Kinds of statements

What a statement does, judged by its first words, and the table that it does it
to. A name is read up to its end whether or not it is quoted, and the quotes do
not belong to it.
-/

namespace SchemaDialects.Script

open Text

inductive Kind where
  | createTable
  | insert
  | createIndex
  | alterTable
  | dropTable
  | unknown
  deriving DecidableEq

def Kind.name : Kind → Text
  | .createTable => "CREATE TABLE".toList
  | .insert => "INSERT".toList
  | .createIndex => "CREATE INDEX".toList
  | .alterTable => "ALTER TABLE".toList
  | .dropTable => "DROP TABLE".toList
  | .unknown => "unknown".toList

/-! ## Words and names -/

/-- A character of a name, where the characters of `ends` end one. -/
def isNameChar (ends : Text) (c : Char) : Bool :=
  !isBlank c && c != '`' && c != '"' && !ends.contains c

/-- Reads a name of one character or more, after a quote or without. -/
def name (ends : Text) (s : Text) : Option Text :=
  let s := match s with
    | c :: t => if c = '`' ∨ c = '"' then t else s
    | [] => []
  (run (isNameChar ends) s).map Prod.fst

/-- Reads a name after the keywords if they are there. Where no name follows
them, the first keyword is the name. -/
def nameAfter (ks : List Text) (ends s : Text) : Option Text :=
  (keywords ks s >>= name ends).or (name ends s)

/-! ## Statements by their first words -/

def temporary : Scanner := fun s =>
  (keywordBlanks "TEMPORARY".toList s).or (keywordBlanks "TEMP".toList s)

/-- The table of `CREATE [TEMP[ORARY]] TABLE [IF NOT EXISTS] name`. -/
def createdTable? (s : Text) : Option Text := do
  let s ← keywordBlanks "CREATE".toList (blanks s)
  let s ← keywordBlanks "TABLE".toList (optional temporary s)
  nameAfter ["IF".toList, "NOT".toList, "EXISTS".toList] "(".toList s

def orAction : Scanner := fun s => do
  let s ← keywordBlanks "OR".toList s
  let s ← word s
  blanks1 s

/-- The table of `INSERT [OR action] INTO name`. -/
def insertedTable? (s : Text) : Option Text := do
  let s ← keywordBlanks "INSERT".toList (blanks s)
  let s ← keywordBlanks "INTO".toList (optional orAction s)
  name "(".toList s

/-- Reads the word `ON` and the name after it. -/
def onName : Reader Text := fun prev s =>
  if wordStarts prev then keywordBlanks "ON".toList s >>= name "(;".toList else none

/-- The table of `CREATE [UNIQUE] INDEX … ON name`. The word `ON` stands on the
line of the word `INDEX`. -/
def indexedTable? (s : Text) : Option Text := do
  let s ← keywordBlanks "CREATE".toList (blanks s)
  let s ← keywordEnd "INDEX".toList (optional (keywordBlanks "UNIQUE".toList) s)
  onLine (some 'X') s
where
  onLine (prev : Option Char) : Text → Option Text
    | [] => none
    | c :: s => (onName prev (c :: s)).or (if c = '\n' then none else onLine (some c) s)

/-- The table of `ALTER TABLE name`. -/
def alteredTable? (s : Text) : Option Text := do
  let s ← keywords ["ALTER".toList, "TABLE".toList] (blanks s)
  name ";".toList s

/-- The table of `DROP TABLE [IF EXISTS] name`. -/
def droppedTable? (s : Text) : Option Text := do
  let s ← keywords ["DROP".toList, "TABLE".toList] (blanks s)
  nameAfter ["IF".toList, "EXISTS".toList] ";".toList s

/-! ## Classification -/

/-- The kind of a statement, and its table; an unknown statement has none. -/
def classify (statement : Text) : Kind × Text :=
  let s := body statement
  let readers : List (Kind × (Text → Option Text)) :=
    [(.createTable, createdTable?), (.insert, insertedTable?), (.createIndex, indexedTable?),
     (.alterTable, alteredTable?), (.dropTable, droppedTable?)]
  (readers.findSome? fun (kind, reader) => (reader s).map fun table => (kind, table)).getD
    (.unknown, [])

/-- Whether a statement starts with `CREATE TABLE`. A temporary table has a word
in between, and is no plain one. -/
def isPlainCreateTable (statement : Text) : Bool :=
  (keywordBlanks "CREATE".toList (blanks (body statement)) >>= keywordEnd "TABLE".toList).isSome

/-- The table that a table definition defines. -/
def tableName? (statement : Text) : Option Text := createdTable? (body statement)

end SchemaDialects.Script
