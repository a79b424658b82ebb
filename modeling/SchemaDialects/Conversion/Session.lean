import SchemaDialects.Conversion.Statement
import SchemaDialects.Warning.Log

/-!
# Scripts and sessions

The table definitions of a script are converted one after the other. Every
other statement is skipped with a warning; fragments that hold comments only are
no statements. A session converts one statement or script after another and
keeps one warning log. A conversion that fails leaves the warnings that it gave
before.
-/

namespace SchemaDialects

namespace Conversion

open Text

structure ScriptResult where
  sql : Text
  processed : Nat
  converted : Nat
  skipped : Nat
  deriving DecidableEq

def skipReason : Script.Kind → Text
  | .createTable => "temporary tables are not translated".toList
  | kind => kind.name ++ " statements are not translated".toList

def skippedWarning (statement : Text) : Warning :=
  .skippedStatement (skipReason (Script.classify statement).1) (preview (Script.body statement))

/-- Converts a statement of a script, or skips it. -/
def scriptStatement (c : Conversion) (statement : Text) : Traced ConversionError (Option Text) := do
  if Script.isPlainCreateTable statement then
    some <$> c.statement statement
  else
    Traced.warn [skippedWarning statement]
    return none

/-- The statements of a script that hold more than comments. -/
def scriptItems (script : Text) : List Text :=
  (Script.statements script).filter fun s => Script.body s ≠ []

/-- The converted statements, with an empty line between two of them. -/
def joinStatements (converted : List Text) : Text :=
  match join "\n\n".toList converted with
  | [] => []
  | sql => sql ++ ['\n']

def script (c : Conversion) (text : Text) : Traced ConversionError ScriptResult := do
  let items := scriptItems text
  let results ← items.mapM c.scriptStatement
  let converted := results.filterMap id
  let skipped := items.length - converted.length
  Traced.note (.scriptFinished converted.length skipped)
  return ⟨joinStatements converted, items.length, converted.length, skipped⟩

end Conversion

/-! ## Sessions -/

structure Session where
  conversion : Conversion
  log : WarningLog := default

namespace Session

/-- The result of a step of a session, the session after it, and what the step
wrote to the journal. -/
structure Step (α : Type) where
  value : Except ConversionError α
  session : Session
  events : List Event

def absorb {α : Type} (s : Session) (x : Traced ConversionError α) : Step α :=
  let r := s.log.absorb x.notices
  ⟨x.value, { s with log := r.1 }, r.2⟩

def statement (s : Session) (sql : Text) : Step Text := s.absorb (s.conversion.statement sql)

def script (s : Session) (text : Text) : Step Conversion.ScriptResult :=
  s.absorb (s.conversion.script text)

end Session

end SchemaDialects
