import SchemaDialects.Definition.Marker
import SchemaDialects.Definition.Mysql
import SchemaDialects.Traced

/-!
# Converting a definition

A definition is one line of a table: a column or a constraint. It is converted
on its own. What becomes of it depends on the direction, the type map and, for
the warnings, the table's name. Where an auto-increment column declares the
primary key itself, a clause over that column alone says it a second time and is
dropped.
-/

namespace SchemaDialects.Definition

open Text

def constraintKeywords : List Text :=
  ["PRIMARY".toList, "UNIQUE".toList, "KEY".toList, "INDEX".toList, "CONSTRAINT".toList,
   "FOREIGN".toList, "CHECK".toList, "FULLTEXT".toList, "SPATIAL".toList]

def isConstraintKeyword (s : Text) : Bool := constraintKeywords.any fun k => sameUpToCase k s

/-! ## The type -/

/-- A line whose type is converted, and what is to be said about the type. -/
structure TypeOutcome where
  line : Text
  unmapped? : Option Warning
  lossy? : Option Warning

/-- Converts the type of the first typed name of a line. -/
def convertType (m : TypeMap) (d : Direction) (table : Option Text) (line : Text) : TypeOutcome :=
  match typedName? line with
  | none => ⟨line, none, none⟩
  | some (lead, t) =>
    let column := bareName t.name
    match m.ofDeclared? d t.declaredType with
    | none =>
      -- What follows a constraint keyword may well be no type.
      ⟨line,
        if isConstraintKeyword column then none
        else some (.unmappedType (upper t.keyword) table (some column)),
        none⟩
    | some mapping =>
      ⟨lead ++ t.name ++ t.gap ++ mapping.target ++ t.rest, none,
        if mapping.lossy then
          some (.lossyConversion t.declaredType mapping.target table (some column))
        else none⟩

section
variable {m : TypeMap} {d : Direction} {table? : Option Text} {line lead : Text} {t : TypedName}

theorem convertType_of_untyped (h : typedName? line = none) :
    convertType m d table? line = ⟨line, none, none⟩ := by
  rw [convertType, h]

theorem convertType_of_unknown (h : typedName? line = some (lead, t))
    (hm : m.ofDeclared? d t.declaredType = none) :
    convertType m d table? line = ⟨line,
      if isConstraintKeyword (bareName t.name) then none
      else some (.unmappedType (upper t.keyword) table? (some (bareName t.name))), none⟩ := by
  simp only [convertType, h, hm]

theorem convertType_of_known {mapping : Mapping} (h : typedName? line = some (lead, t))
    (hm : m.ofDeclared? d t.declaredType = some mapping) :
    convertType m d table? line = ⟨lead ++ t.name ++ t.gap ++ mapping.target ++ t.rest, none,
      if mapping.lossy then
        some (.lossyConversion t.declaredType mapping.target table? (some (bareName t.name)))
      else none⟩ := by
  simp only [convertType, h, hm]

end

/-! ## The whole line -/

structure Outcome where
  /-- What is to be said about the line, apart from a lossy type. -/
  warnings : List Warning
  lossy? : Option Warning
  /-- The converted line, unless the line is dropped. -/
  line? : Option Text
  /-- The bare name of the column that got the auto-increment phrase. -/
  autoColumn? : Option Text

def inlineIndexWarning (line : Text) : Warning :=
  .unsupportedFeature ("inline index `".toList ++ line ++ "`".toList)
    (some "create it with a separate CREATE INDEX".toList)

def onUpdateWarning : Warning :=
  .unsupportedFeature "ON UPDATE CURRENT_TIMESTAMP".toList (some "use a trigger".toList)

def convertColumn (m : TypeMap) (d : Direction) (table : Option Text) (line : Text) : Outcome :=
  let t := convertType m d table line
  let respelled? := respellMarker d t.line
  { warnings := t.unmapped?.toList
    lossy? := t.lossy?
    line? := some (respelled?.getD t.line)
    autoColumn? := respelled?.bind leadingName? }

/-- Going to SQLite, an inline index is dropped, and what SQLite lacks is taken
out of the line first. -/
def convert (m : TypeMap) (d : Direction) (table : Option Text) (line : Text) : Outcome :=
  match d with
  | .sqliteToMysql => convertColumn m d table line
  | .mysqlToSqlite =>
    if isInlineIndex line then ⟨[inlineIndexWarning line], none, none, none⟩
    else
      let line := withoutUniqueName line
      let o := convertColumn m d table (withoutAttributes line)
      { o with warnings := (if hasOnUpdate line then [onUpdateWarning] else []) ++ o.warnings }

/-! ## Key clauses -/

/-- The columns of `PRIMARY KEY (…)`. The clause is the whole line. -/
def keyClauseColumns? (line : Text) : Option (List Text) := do
  let s ← keywordBlanks "PRIMARY".toList line
  let s ← keyword "KEY".toList s
  let s ← char '(' (blanks s)
  if s.dropWhile (· != ')') = [')'] then
    some ((splitOn ',' (s.takeWhile (· != ')'))).map fun c => bareName (trim c))
  else none

def compositeKeyWarning (auto : Text) (columns : List Text) : Warning :=
  .unsupportedFeature
    ("auto-increment column ".toList ++ auto ++ " inside composite primary key (".toList
      ++ join ", ".toList columns ++ ")".toList)
    (some "text mode assumes a single-column surrogate key".toList)

def isSoleKeyOf (auto line : Text) : Bool := keyClauseColumns? line == some [auto]

def compositeWarning? (auto line : Text) : Option Warning := do
  let columns ← keyClauseColumns? line
  if columns ≠ [auto] ∧ auto ∈ columns then some (compositeKeyWarning auto columns) else none

def eraseLast {α : Type} (p : α → Bool) (l : List α) : List α := (l.reverse.eraseP p).reverse

/-- The definitions without the clause that the column `auto` makes redundant. -/
def dropSoleKey {ε : Type} (auto : Text) (defs : List Text) : Traced ε (List Text) := do
  Traced.warn (defs.filterMap (compositeWarning? auto))
  if defs.any (isSoleKeyOf auto) then
    Traced.note (.keyClauseDropped auto)
    return eraseLast (isSoleKeyOf auto) defs
  else
    return defs

end SchemaDialects.Definition
