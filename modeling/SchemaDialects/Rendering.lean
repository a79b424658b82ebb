import SchemaDialects.Column
import SchemaDialects.Settings

/-!
# Rendering

The statement that creates a table from its columns, in either dialect. The
primary key is a clause after the columns. Only SQLite, which takes its marker
on a lone primary key and nowhere else, declares such a key on its column.
-/

namespace SchemaDialects

/-! ## Identifiers -/

def Dialect.quoteChar : Dialect → Char
  | .mysql => '`'
  | .sqlite => '"'

/-- An identifier between quotes. A quote inside it is written twice. -/
def Dialect.quote (d : Dialect) (name : Text) : Text := Text.quoted d.quoteChar name

/-! ## Statements -/

/-- Who renders: a dialect, and for MySQL the storage that tables get. -/
inductive Renderer where
  | mysql (storage : Storage)
  | sqlite
  deriving DecidableEq

namespace Renderer

def dialect : Renderer → Dialect
  | mysql _ => .mysql
  | sqlite => .sqlite

def ofDialect : Dialect → Storage → Renderer
  | .mysql, storage => mysql storage
  | .sqlite, _ => sqlite

/-- What stands between the closing parenthesis and the semicolon. -/
def tableOptions : Renderer → Option Text
  | mysql storage => some storage.clause
  | sqlite => none

/-- The columns of the primary key, each with its index. -/
def keyColumns (columns : List Column) : List (Column × Nat) :=
  columns.zipIdx.filter (·.1.isPrimaryKey)

/-- The index of the column that declares the primary key itself. -/
def inlineKey? : Renderer → List Column → Option Nat
  | mysql _, _ => none
  | sqlite, columns =>
    match keyColumns columns with
    | [(c, i)] => if Dialect.sqlite.isMarked c.extra then some i else none
    | _ => none

/-- The markers that go unrendered. -/
def inlineKeyEvents : Renderer → List Column → List Event
  | mysql _, _ => []
  | sqlite, columns =>
    -- Beside a column that declares the key itself no other marker is told of.
    if (inlineKey? sqlite columns).isSome then []
    else (columns.filter fun c => Dialect.sqlite.isMarked c.extra).map fun c =>
      .markerUnrendered c.name

/-- What follows the default in a column definition. -/
def keyAttributes : Renderer → Column → (inline : Bool) → Text
  | mysql _, c, _ =>
    if Dialect.mysql.isMarked c.extra then ' ' :: Dialect.mysql.marker else []
  | sqlite, _, false => []
  | sqlite, c, true =>
    " PRIMARY KEY".toList
      ++ if Dialect.sqlite.isMarked c.extra then ' ' :: Dialect.sqlite.marker else []

def column (r : Renderer) (c : Column) (inline : Bool) : Text :=
  r.dialect.quote c.name ++ ' ' :: c.declaredType
    ++ (if c.nullable then [] else " NOT NULL".toList)
    ++ (c.default?.elim [] fun expr => " DEFAULT ".toList ++ expr)
    ++ r.keyAttributes c inline

/-- The clause that names the columns of the primary key. There is none where a
column declares the key, and none without key columns. -/
def keyClause (r : Renderer) (columns : List Column) : List Text :=
  let names := (columns.filter (·.isPrimaryKey)).map fun c => r.dialect.quote c.name
  if (r.inlineKey? columns).isSome ∨ names = [] then []
  else ["PRIMARY KEY (".toList ++ Text.join ", ".toList names ++ ")".toList]

def columnDefinitions (r : Renderer) (columns : List Column) : List Text :=
  columns.zipIdx.map fun (c, i) => r.column c (r.inlineKey? columns == some i)

def definitions (r : Renderer) (columns : List Column) : List Text :=
  r.columnDefinitions columns ++ r.keyClause columns

def createTable (r : Renderer) (table : Text) (columns : List Column) : Text :=
  "CREATE TABLE ".toList ++ r.dialect.quote table ++ " (\n  ".toList
    ++ Text.join ",\n  ".toList (r.definitions columns) ++ "\n)".toList
    ++ (r.tableOptions.elim [] fun options => ' ' :: options) ++ ";".toList

end Renderer

end SchemaDialects
