import SchemaDialects.Rendering
import SchemaDialects.Text.Search

/-!
# Catalogs

The queries that ask either dialect for the columns of a table, the rows that
answer them, and the columns that the rows stand for. MySQL's catalog holds
defaults as bare values: a number, a keyword such as `CURRENT_TIMESTAMP`, and a
value in quotes or parentheses are expressions as they stand; every other value
is the content of a string literal.
-/

namespace SchemaDialects

/-! ## Queries -/

/-- A text as a string literal, which is how the name of a table stands in a query. -/
def Text.literal (s : Text) : Text := Text.quoted '\'' s

def Dialect.columnsQuery : Dialect → Text → Text
  | .mysql, table =>
    "SELECT COLUMN_NAME, COLUMN_TYPE, IS_NULLABLE, COLUMN_KEY, COLUMN_DEFAULT, EXTRA ".toList
      ++ "FROM INFORMATION_SCHEMA.COLUMNS ".toList
      ++ "WHERE TABLE_SCHEMA = DATABASE() AND TABLE_NAME = ".toList ++ Text.literal table
      ++ " ORDER BY ORDINAL_POSITION".toList
  | .sqlite, table => "PRAGMA table_info(".toList ++ Text.literal table ++ ");".toList

/-- SQLite's query for the stored statement of a table. -/
def storedStatementQuery (table : Text) : Text :=
  "SELECT sql FROM sqlite_master WHERE type = 'table' AND name = ".toList ++ Text.literal table
    ++ ";".toList

/-! ## Default values -/

namespace DefaultExpr

open Text

/-! ### Numbers -/

def sign : Scanner
  | c :: s => if c = '+' ∨ c = '-' then some s else none
  | [] => none

/-- Digits with an optional fraction, or a fraction alone. -/
def magnitude : Scanner := fun s =>
  match many1 isDigit s with
  | some s => some (optional (fun s => (char '.' s).map (·.dropWhile isDigit)) s)
  | none => char '.' s >>= many1 isDigit

def exponent : Scanner
  | c :: s => if c = 'e' ∨ c = 'E' then many1 isDigit (optional sign s) else none
  | [] => none

def isNumber (s : Text) : Bool :=
  (magnitude (optional sign s)).any fun s => (optional exponent s).isEmpty

/-! ### Keywords -/

def keywords : List Text :=
  ["NULL".toList, "TRUE".toList, "FALSE".toList, "CURRENT_TIMESTAMP".toList,
   "CURRENT_DATE".toList, "CURRENT_TIME".toList, "LOCALTIME".toList, "LOCALTIMESTAMP".toList,
   "NOW".toList]

def isKeyword (s : Text) : Bool :=
  keywords.any fun k => (keyword k s).any fun rest =>
    rest.isEmpty || precision rest == some []

/-! ### Expressions -/

def isQuoted (s : Text) : Bool :=
  2 ≤ s.length && s.head? == some '\'' && s.getLast? == some '\''

def isParenthesised (s : Text) : Bool :=
  s.head? == some '(' && s.getLast? == some ')'

def isExpression (s : Text) : Bool :=
  isNumber s || isKeyword s || isQuoted s || isParenthesised s

/-- The expression for a bare value. -/
def ofRaw (raw : Text) : Text :=
  if isExpression (trim raw) then trim raw else literal raw

end DefaultExpr

/-! ## Rows of MySQL -/

/-- A row of `INFORMATION_SCHEMA.COLUMNS`. -/
structure MysqlRow where
  columnName : Text
  columnType : Text
  /-- `YES` or `NO`. -/
  isNullable : Text
  /-- `PRI` for a column of the primary key. -/
  columnKey : Text
  /-- The bare default value. -/
  columnDefault : Option Text
  extra : Text
  deriving DecidableEq

def MysqlRow.toColumn (row : MysqlRow) : Column where
  name := row.columnName
  declaredType := row.columnType
  nullable := Text.sameUpToCase row.isNullable "YES".toList
  default? := row.columnDefault.map DefaultExpr.ofRaw
  isPrimaryKey := Text.sameUpToCase row.columnKey "PRI".toList
  extra := row.extra

/-! ## Rows of SQLite -/

/-- A row of `PRAGMA table_info`. -/
structure SqliteRow where
  /-- The position of the column in its table. -/
  cid : Int
  name : Text
  declaredType : Text
  /-- Zero where the column is nullable. -/
  notNull : Int
  /-- Text of the default expression. -/
  default? : Option Text
  /-- The position in the primary key, from one; zero outside the key. -/
  pk : Int
  deriving DecidableEq

def SqliteRow.toColumn (row : SqliteRow) : Column where
  name := row.name
  declaredType := row.declaredType
  nullable := row.notNull == 0
  default? := row.default?
  isPrimaryKey := 0 < row.pk
  extra := []

/-- Whether the statement that created a table holds SQLite's marker as a word. -/
def declaresMarker (statement : Text) : Bool :=
  Text.occurs (Text.wholeWord Dialect.sqlite.marker) statement

/-- Gives the marker to the primary key, if the key is a single column. -/
def markSoleKey (columns : List Column) : List Column :=
  if (columns.filter (·.isPrimaryKey)).length = 1 then
    columns.map fun c => if c.isPrimaryKey then { c with extra := Dialect.sqlite.marker } else c
  else columns

/-- The columns of a table in the order of their positions. The rows do not say
whether the key is an auto-increment column; the table's stored statement
does. -/
def columnsOfSqlite (rows : List SqliteRow) (statement : Option Text) : List Column :=
  let columns := (rows.mergeSort fun a b => a.cid ≤ b.cid).map SqliteRow.toColumn
  if statement.any declaresMarker then markSoleKey columns else columns

end SchemaDialects
