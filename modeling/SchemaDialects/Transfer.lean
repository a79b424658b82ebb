import SchemaDialects.Rendering

/-!
# Transfers

Copies the structure of a table from a database of one dialect to a database of
the other. Each database is given by what it answers: a source by the columns of
a table, a target by the outcome of creating one. A transfer asks the source
once and the target at most once, and stops at the first error.
-/

namespace SchemaDialects

/-- A database to read from. Its errors are of type `ε`. -/
structure Source (ε : Type) where
  dialect : Dialect
  columns : Text → Except ε (List Column)

/-- A database to create tables in. Its errors are of type `τ`. What it writes to
the journal meanwhile counts as part of the transfer. -/
structure Target (τ : Type) where
  dialect : Dialect
  create : Text → List Column → List Event × Except τ Unit

inductive TransferError (ε τ : Type) where
  | sameDialect (d : Dialect)
  /-- The source failed. -/
  | source (e : ε)
  /-- The source knows no column of the table. -/
  | emptyTable (table : Text)
  /-- The target failed. -/
  | target (e : τ)
  deriving DecidableEq

/-- A failed database speaks for itself. -/
def TransferError.message {ε τ : Type} (sourceMessage : ε → Text) (targetMessage : τ → Text) :
    TransferError ε τ → Text
  | sameDialect d => sameDialectMessage d
  | source e => sourceMessage e
  | emptyTable table => "table ".toList ++ table ++ " has no columns (does it exist?)".toList
  | target e => targetMessage e

structure Transfer (ε τ : Type) where
  outcome : Except (TransferError ε τ) Unit
  /-- The tables that the source was asked for. -/
  reads : List Text
  /-- The tables that the target was told to create. -/
  creations : List (Text × List Column)
  events : List Event

namespace Transfer

variable {ε τ : Type}

/-- The columns `columns` of `table` go to the target. -/
def toTarget (m : TypeMap) (d : Direction) (table : Text) (columns : List Column)
    (target : Target τ) : Transfer ε τ :=
  let converted := Column.convertAll m d columns
  let events := Column.convertAllEvents m d columns
  match target.create table converted with
  | (written, .error e) =>
    -- What a failed creation wrote to the journal stays there.
    ⟨.error (.target e), [table], [(table, converted)], events ++ written⟩
  | (written, .ok ()) =>
    ⟨.ok (), [table], [(table, converted)],
      events ++ written ++ [.tableCreated table converted.length]⟩

def run (m : TypeMap) (table : Text) (source : Source ε) (target : Target τ) : Transfer ε τ :=
  match Direction.between? source.dialect target.dialect with
  | none => ⟨.error (.sameDialect source.dialect), [], [], []⟩
  | some d =>
    let started := Event.transferStarted table d
    match source.columns table with
    | .error e => ⟨.error (.source e), [table], [], [started]⟩
    | .ok [] => ⟨.error (.emptyTable table), [table], [], [started]⟩
    | .ok columns =>
      let r := toTarget m d table columns target
      { r with events := started :: r.events }

end Transfer

/-- A database that creates tables by rendering their statements, and that fails
with `failure?` after it has rendered one. -/
def Target.rendering {τ : Type} (r : Renderer) (failure? : Option τ) : Target τ where
  dialect := r.dialect
  create := fun _ columns =>
    (r.inlineKeyEvents columns, match failure? with
      | some e => .error e
      | none => .ok ())

end SchemaDialects
