import SchemaDialects.Text.Lowercase

/-!
# Dialects

The two dialects of SQL, their names, and their auto-increment markers.
-/

namespace SchemaDialects

inductive Dialect where
  | mysql
  | sqlite
  deriving DecidableEq

namespace Dialect

def name : Dialect → Text
  | mysql => "mysql".toList
  | sqlite => "sqlite".toList

/-- The word that makes a column an auto-increment column. -/
def marker : Dialect → Text
  | mysql => "AUTO_INCREMENT".toList
  | sqlite => "AUTOINCREMENT".toList

/-- Case is ignored, and each dialect has a second name. -/
def ofName? (s : Text) : Option Dialect :=
  let s := Text.lowercase s
  if s = "mysql".toList ∨ s = "mariadb".toList then some mysql
  else if s = "sqlite".toList ∨ s = "sqlite3".toList then some sqlite
  else none

def isMarkerChar (c : Char) : Bool := c.isAlphanum || c == '_'

/-- The words of a column's extra attributes: runs of ASCII letters, digits and
underscores, with empty ones between neighbouring separators. -/
def markerWords : Text → List Text
  | [] => [[]]
  | c :: s =>
    if !isMarkerChar c then [] :: markerWords s
    else match markerWords s with
      | [] => [[c]]
      | w :: ws => (c :: w) :: ws

/-- Whether the extra attributes of a column hold the marker as a word,
whatever its case. -/
def isMarked (d : Dialect) (extra : Text) : Bool :=
  (markerWords (Text.upper extra)).contains d.marker

end Dialect

/-- Why the name of a dialect or a direction was not understood. -/
inductive NameError where
  | unknownDialect (name : Text)
  | unknownDirection (name : Text)
  | sameDialect (d : Dialect)
  deriving DecidableEq

/-- Said where the source dialect is the target dialect too. -/
def sameDialectMessage (d : Dialect) : Text :=
  "unsupported translation direction: ".toList ++ d.name ++ " -> ".toList ++ d.name

def NameError.message : NameError → Text
  | unknownDialect s =>
    "Unknown dialect: ".toList ++ s ++ ". Valid options: mysql, sqlite".toList
  | unknownDirection s =>
    "Unknown direction: ".toList ++ s
      ++ ". Valid options: mysql-to-sqlite, sqlite-to-mysql".toList
  | sameDialect d => sameDialectMessage d

def Dialect.ofName (s : Text) : Except NameError Dialect :=
  match ofName? s with
  | some d => .ok d
  | none => .error (.unknownDialect s)

end SchemaDialects
