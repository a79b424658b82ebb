import SchemaDialects.Dialect

/-!
# Directions

From one dialect to the other. No direction leads from a dialect to itself.
-/

namespace SchemaDialects

inductive Direction where
  | mysqlToSqlite
  | sqliteToMysql
  deriving DecidableEq

namespace Direction

def source : Direction → Dialect
  | mysqlToSqlite => .mysql
  | sqliteToMysql => .sqlite

def target : Direction → Dialect
  | mysqlToSqlite => .sqlite
  | sqliteToMysql => .mysql

def reverse : Direction → Direction
  | mysqlToSqlite => sqliteToMysql
  | sqliteToMysql => mysqlToSqlite

def between? : Dialect → Dialect → Option Direction
  | .mysql, .sqlite => some mysqlToSqlite
  | .sqlite, .mysql => some sqliteToMysql
  | _, _ => none

def name (d : Direction) : Text :=
  d.source.name ++ "-to-".toList ++ d.target.name

/-- The text before the first occurrence of `sep`, and the text after it. -/
def cutAt (sep : Text) : Text → Option (Text × Text)
  | [] => none
  | c :: s =>
    if sep.isPrefixOf (c :: s) then some ([], (c :: s).drop sep.length)
    else (cutAt sep s).map fun r => (c :: r.1, r.2)

/-- Reads `mysql-to-sqlite` or `sqlite2mysql`, whatever the case. The names on
both sides are names of dialects; of two bad ones the first is reported. -/
def ofName (s : Text) : Except NameError Direction :=
  let lower := Text.lowercase s
  match (cutAt "-to-".toList lower).or (cutAt "2".toList lower) with
  | none => .error (.unknownDirection s)
  | some (left, right) => do
    let source ← Dialect.ofName left
    let target ← Dialect.ofName right
    match between? source target with
    | some d => .ok d
    | none => .error (.sameDialect source)

theorem between?_source_target (d : Direction) : between? d.source d.target = some d := by
  cases d <;> rfl

theorem between?_eq_none_iff {a b : Dialect} : between? a b = none ↔ a = b := by
  cases a <;> cases b <;> simp [between?]

@[simp] theorem source_reverse (d : Direction) : d.reverse.source = d.target := by cases d <;> rfl

@[simp] theorem target_reverse (d : Direction) : d.reverse.target = d.source := by cases d <;> rfl

@[simp] theorem reverse_reverse (d : Direction) : d.reverse.reverse = d := by cases d <;> rfl

end Direction

end SchemaDialects
