import SchemaDialects.Event
import SchemaDialects.TypeMap

/-!
# Columns

One column of a table, in no dialect's syntax: the declared type is spelled in
the dialect that the column belongs to, and so are its extra attributes. In the
other dialect the columns of a table have its types and its marker. Names,
nullability, defaults and key flags stay. A table keeps one auto-increment
column, the first, and no other extra attribute.
-/

namespace SchemaDialects

structure Column where
  name : Text
  declaredType : Text
  nullable : Bool
  /-- Text of the default expression. -/
  default? : Option Text
  isPrimaryKey : Bool
  extra : Text
  deriving DecidableEq

namespace Column

/-- A column that is nullable and has no other property. -/
def ofType (name declaredType : Text) : Column :=
  ⟨name, declaredType, true, none, false, []⟩

def notNull (c : Column) : Column := { c with nullable := false }

def primaryKey (c : Column) : Column := { c with isPrimaryKey := true }

def withDefault (c : Column) (expr : Text) : Column := { c with default? := some expr }

def withExtra (c : Column) (extra : Text) : Column := { c with extra := extra }

end Column

/-! ## In the other dialect -/

/-- A converted column and the events of its conversion. -/
structure ColumnOutcome where
  column : Column
  events : List Event

namespace Column

def typeEvents (m : TypeMap) (d : Direction) (c : Column) : List Event :=
  match m.ofDeclared? d c.declaredType with
  | none => [.typeUnmapped c.name c.declaredType]
  | some mapping =>
    if mapping.lossy then [.typeLossy c.name c.declaredType mapping.target] else []

/-- What is to be said about the extra attributes of a column. `seen` says that
the table has an auto-increment column before it. -/
def extraEvents (d : Direction) (seen : Bool) (c : Column) : List Event :=
  if d.source.isMarked c.extra then
    if seen then [.autoIncrementDropped c.name] else []
  else if c.extra = [] then []
  else [.extraDropped c.name c.extra]

def convert (m : TypeMap) (d : Direction) (seen : Bool) (c : Column) : ColumnOutcome where
  column :=
    { c with
      declaredType := m.target d c.declaredType
      extra := if d.source.isMarked c.extra ∧ seen = false then d.target.marker else [] }
  events := c.typeEvents m d ++ c.extraEvents d seen

/-- Converts columns after an auto-increment column (`seen`) or without one. -/
def convertFrom (m : TypeMap) (d : Direction) (seen : Bool) : List Column → List ColumnOutcome
  | [] => []
  | c :: cs => c.convert m d seen :: convertFrom m d (seen || d.source.isMarked c.extra) cs

def outcomes (m : TypeMap) (d : Direction) (columns : List Column) : List ColumnOutcome :=
  convertFrom m d false columns

def convertAll (m : TypeMap) (d : Direction) (columns : List Column) : List Column :=
  (outcomes m d columns).map ColumnOutcome.column

def convertAllEvents (m : TypeMap) (d : Direction) (columns : List Column) : List Event :=
  (outcomes m d columns).flatMap ColumnOutcome.events

end Column

end SchemaDialects
