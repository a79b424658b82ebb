import SchemaDialects.Definition.Convert
import SchemaDialects.Definition.Lines
import SchemaDialects.Script.Kind
import SchemaDialects.Settings

/-!
# Converting a statement

One table definition, from one dialect to the other. Its lines are converted
one by one; the header stays, and the closing line becomes that of the target
dialect.
-/

namespace SchemaDialects

inductive ConversionError where
  /-- The statement is no plain table definition, one definition a line. -/
  | unsupportedStatement (preview : Text)
  /-- A lossy type where losses are errors. -/
  | lossyConversion (w : Warning)
  deriving DecidableEq

namespace ConversionError

def message : ConversionError → Text
  | unsupportedStatement preview => "unsupported SQL statement type: ".toList ++ preview
  | lossyConversion w => "strict mode: ".toList ++ w.message

def ofStatement (statement : Text) : ConversionError :=
  unsupportedStatement (Text.preview statement)

end ConversionError

/-- How statements are converted. -/
structure Conversion where
  direction : Direction
  types : TypeMap := default
  /-- What tables get in MySQL. -/
  storage : Storage := default
  /-- Whether a lossy type is an error. -/
  strict : Bool := false

namespace Conversion

open Text Definition

/-! ## The ends of a statement -/

/-- Reads `) ENGINE = …` up to the semicolon. -/
def storageClause : Scanner := fun s => do
  let s ← char ')' s
  let s ← keyword "ENGINE".toList (blanks s)
  let s ← char '=' (blanks s)
  some (optional (char ';') (s.dropWhile (· != ';')))

/-- The statement with the target dialect's quotes. MySQL's storage clause is
dropped on the way. -/
def requoted : Direction → Text → Text
  | .mysqlToSqlite, body =>
    backticksToDoubleQuotes (replaceFirst (anywhere storageClause) ");".toList body)
  | .sqliteToMysql, body => doubleQuotesToBackticks body

def optionsWarning (options : Text) : Warning :=
  .unsupportedFeature ("table options `".toList ++ options ++ "`".toList)
    (some "dropped".toList)

def closingWarnings (closing? : Option Text) : List Warning :=
  match closing?.map closingOptions with
  | none | some [] => []
  | some options => [optionsWarning options]

/-- The target dialect's ending. -/
def finish (c : Conversion) (out : Text) : Text :=
  match c.direction with
  | .mysqlToSqlite => if endsWith out ';' then out else out ++ [';']
  | .sqliteToMysql => trimEnd (dropEndWhile (· == ';') out) ++ ' ' :: c.storage.clause ++ [';']

theorem getLast?_finish (c : Conversion) (out : Text) : (c.finish out).getLast? = some ';' := by
  unfold finish
  cases c.direction with
  | mysqlToSqlite =>
    simp only
    split
    · next h => simpa [endsWith] using h
    · simp
  | sqliteToMysql => exact List.getLast?_concat

/-- The header, the definitions with commas between them, and the closing
parenthesis. -/
def assemble (header : Text) (defs : List Text) (closed : Bool) : Text :=
  header ++ (if defs = [] then [] else "\n  ".toList ++ join ",\n  ".toList defs)
    ++ (if closed then "\n)".toList else [])

/-! ## The statement -/

/-- Gives the warnings of a definition. Of its lossy type it gives a warning or
an error. -/
def settle (strict : Bool) (o : Outcome) : Traced ConversionError Unit := do
  Traced.warn o.warnings
  match o.lossy? with
  | none => pure ()
  | some w => if strict then Traced.fail (.lossyConversion w) else Traced.warn [w]

/-- Converts the lines of a table definition for the table `table?`. -/
def convertLayout (c : Conversion) (table? : Option Text) (layout : Layout) :
    Traced ConversionError Text := do
  let outcomes := layout.definitions.map (convert c.types c.direction table?)
  outcomes.forM (settle c.strict)
  Traced.warn (closingWarnings layout.closing?)
  let defs := outcomes.filterMap Outcome.line?
  let defs ← match outcomes.findSome? Outcome.autoColumn? with
    | some auto => dropSoleKey auto defs
    | none => pure defs
  return c.finish (assemble layout.header defs layout.closing?.isSome)

/-- Converts a statement. It has to be a plain table definition whose
definitions start on the line after the opening parenthesis. -/
def statement (c : Conversion) (sql : Text) : Traced ConversionError Text := do
  let body := Script.body sql
  if Script.isPlainCreateTable body then
    let table? := Script.tableName? body
    Traced.note (.statementStarted table? c.direction)
    let layout := Layout.ofLines (contentLines (requoted c.direction body))
    if layout.isCrowded then Traced.fail (.ofStatement sql)
    else c.convertLayout table? layout
  else Traced.fail (.ofStatement sql)

end Conversion

end SchemaDialects
