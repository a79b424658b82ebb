import SchemaDialects.Direction
import SchemaDialects.Text.Printable

/-!
# Warnings and events

A warning is what a conversion has to say about a statement that it did convert,
or skipped: features that the target dialect lacks, types that lose something,
types that are not known, and statements that are no plain table definitions. An
event is what a run writes to its journal: a level, a message, and named values.
Every kind of event of the library is listed here, and its text is made here
only.
-/

namespace SchemaDialects

/-! ## Warnings -/

inductive Warning where
  | unsupportedFeature (feature : Text) (suggestion : Option Text)
  | lossyConversion (source target : Text) (table column : Option Text)
  | unmappedType (typeName : Text) (table column : Option Text)
  | skippedStatement (reason preview : Text)
  deriving DecidableEq

namespace Warning

/-- Where a warning applies. Either name can be missing. -/
def location : (table column : Option Text) → Text
  | some t, some c => " in table ".toList ++ t ++ ".".toList ++ c
  | some t, none => " in table ".toList ++ t
  | none, some c => " in column ".toList ++ c
  | none, none => []

def message : Warning → Text
  | unsupportedFeature feature suggestion =>
    "Unsupported feature: ".toList ++ feature
      ++ suggestion.elim [] fun s => " (".toList ++ s ++ ")".toList
  | lossyConversion source target table column =>
    "Lossy conversion: ".toList ++ source ++ " → ".toList ++ target ++ location table column
  | unmappedType typeName table column =>
    "Unmapped type ".toList ++ typeName ++ " kept as-is".toList ++ location table column
  | skippedStatement reason preview =>
    "Skipped: ".toList ++ reason ++ " (".toList ++ preview ++ ")".toList

/-- Whether two warnings say the same thing: about one feature, or about one
type of one table, in whatever column. Skipped statements are all different. -/
def resembles : Warning → Warning → Bool
  | unsupportedFeature f _, unsupportedFeature g _ => f == g
  | lossyConversion s t table _, lossyConversion s' t' table' _ =>
    s == s' && t == t' && table == table'
  | unmappedType n table _, unmappedType n' table' _ => n == n' && table == table'
  | _, _ => false

end Warning

/-! ## Events -/

inductive Level where
  | debug
  | info
  | warn
  deriving DecidableEq

inductive FieldValue where
  | text (t : Text)
  | count (n : Nat)
  deriving DecidableEq

inductive Event where
  /-- A table definition is about to be converted. -/
  | statementStarted (table : Option Text) (direction : Direction)
  /-- A table-level key clause went, since the column `column` declares it. -/
  | keyClauseDropped (column : Text)
  | scriptFinished (converted skipped : Nat)
  /-- A warning was kept by the log. -/
  | warned (w : Warning)
  | transferStarted (table : Text) (direction : Direction)
  | tableCreated (table : Text) (columns : Nat)
  | typeUnmapped (column declaredType : Text)
  | typeLossy (column source target : Text)
  /-- A second auto-increment column lost its marker. -/
  | autoIncrementDropped (column : Text)
  | extraDropped (column extra : Text)
  /-- A marker that the rendered statement has no place for. -/
  | markerUnrendered (column : Text)
  deriving DecidableEq

namespace Event

def level : Event → Level
  | statementStarted .. | keyClauseDropped .. | scriptFinished .. | extraDropped .. => .debug
  | transferStarted .. | tableCreated .. => .info
  | warned .. | typeUnmapped .. | typeLossy .. | autoIncrementDropped ..
  | markerUnrendered .. => .warn

def message : Event → Text
  | statementStarted .. => "Rewriting CREATE TABLE".toList
  | keyClauseDropped .. => "Dropping table-level primary key now declared inline".toList
  | scriptFinished .. => "Script conversion finished".toList
  | warned w => w.message
  | transferStarted .. => "Migrating table structure".toList
  | tableCreated .. => "Table created".toList
  | typeUnmapped .. => "Unmapped type kept as-is".toList
  | typeLossy .. => "Lossy type conversion".toList
  | autoIncrementDropped .. =>
    "Dropping auto-increment: only one surrogate key per table is kept".toList
  | extraDropped .. => "Dropping column extra".toList
  | markerUnrendered column =>
    "Dropping ".toList ++ Dialect.sqlite.marker ++ " on column ".toList ++ column
      ++ ": SQLite requires it on a single-column primary key".toList

/-- A name that can be missing, with its text escaped. -/
def presence : Option Text → Text
  | some t => "Some(".toList ++ Text.escaped t ++ ")".toList
  | none => "None".toList

def fields : Event → List (Text × FieldValue)
  | statementStarted table direction =>
    [("table".toList, .text (presence table)), ("direction".toList, .text direction.name)]
  | keyClauseDropped column => [("column".toList, .text column)]
  | scriptFinished converted skipped =>
    [("converted".toList, .count converted), ("skipped".toList, .count skipped)]
  | transferStarted table direction =>
    [("table".toList, .text table), ("direction".toList, .text direction.name)]
  | tableCreated table columns =>
    [("table".toList, .text table), ("columns".toList, .count columns)]
  | typeUnmapped column declaredType =>
    [("column".toList, .text column), ("declared_type".toList, .text declaredType)]
  | typeLossy column source target =>
    [("column".toList, .text column), ("from".toList, .text source), ("to".toList, .text target)]
  | autoIncrementDropped column => [("column".toList, .text column)]
  | extraDropped column extra =>
    [("column".toList, .text column), ("extra".toList, .text extra)]
  | warned .. | markerUnrendered .. => []

end Event

end SchemaDialects
