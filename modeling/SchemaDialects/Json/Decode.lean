import SchemaDialects.Catalog.Row
import SchemaDialects.Json

/-!
# Decoding JSON

Columns, catalog rows and settings from JSON. A record is an object or an array
in the order of its fields. Fields that a record does not have are ignored; a
field given twice is refused.
-/

namespace SchemaDialects.Json

/-! ## Values -/

def text? : Json → Option Text
  | str s => s
  | _ => none

def bool? : Json → Option Bool
  | bool b => some b
  | _ => none

/-- A missing value is `null`. -/
def optionalText? : Json → Option (Option Text)
  | null => some none
  | str (some s) => some (some s)
  | _ => none

def int64? : Json → Option Int
  | int n => if Int64.minValue.toInt ≤ n ∧ n ≤ Int64.maxValue.toInt then some n else none
  | _ => none

/-- An integer of 32 bits without a sign. -/
def nat32? : Json → Option Nat
  | int n => if 0 ≤ n ∧ n.toNat < UInt32.size then some n.toNat else none
  | _ => none

/-! ## Records -/

/-- The value of the field `name`, if it is given. It fails where it is given
twice. -/
def field? (fields : List (Option Text × Json)) (name : Text) : Option (Option Json) :=
  match fields.filter fun f => f.1 == some name with
  | [] => some none
  | [f] => some (some f.2)
  | _ => none

/-- The values of the fields `names` of a record, those that are given. An array
gives the first ones. -/
def record? (names : List Text) : Json → Option (List (Option Json))
  | obj fields =>
    if fields.all fun f => f.1.isSome then names.mapM (field? fields) else none
  | arr items =>
    if items.length ≤ names.length then
      some (items.map some ++ List.replicate (names.length - items.length) none)
    else none
  | _ => none

/-- Whether a record that is an array gives every field. -/
def isWhole (names : List Text) : Json → Bool
  | arr items => items.length == names.length
  | _ => true

/-- Reads a field that has a default. -/
def orElse {α : Type} (default : α) (read : Json → Option α) : Option Json → Option α
  | none => some default
  | some j => read j

def columnFields : List Text :=
  ["name".toList, "declared_type".toList, "nullable".toList, "default_value".toList,
   "is_primary_key".toList, "extra".toList]

/-- Every field of a column has a default. -/
def column? (j : Json) : Option Column := do
  match ← record? columnFields j with
  | [name, declaredType, nullable, default?, isPrimaryKey, extra] =>
    some ⟨← orElse [] text? name, ← orElse [] text? declaredType, ← orElse false bool? nullable,
      ← orElse none optionalText? default?, ← orElse false bool? isPrimaryKey,
      ← orElse [] text? extra⟩
  | _ => none

def mysqlRowFields : List Text :=
  ["COLUMN_NAME".toList, "COLUMN_TYPE".toList, "IS_NULLABLE".toList, "COLUMN_KEY".toList,
   "COLUMN_DEFAULT".toList, "EXTRA".toList]

/-- A row has all its fields, but an object can leave the default out. -/
def mysqlRow? (j : Json) : Option MysqlRow := do
  if !isWhole mysqlRowFields j then none
  match ← record? mysqlRowFields j with
  | [some name, some type, some nullable, some key, default?, some extra] =>
    some ⟨← text? name, ← text? type, ← text? nullable, ← text? key,
      ← orElse none optionalText? default?, ← text? extra⟩
  | _ => none

def sqliteRowFields : List Text :=
  ["cid".toList, "name".toList, "type".toList, "notnull".toList, "dflt_value".toList,
   "pk".toList]

/-- A row has all its fields, but an object can leave the default out. -/
def sqliteRow? (j : Json) : Option SqliteRow := do
  if !isWhole sqliteRowFields j then none
  match ← record? sqliteRowFields j with
  | [some cid, some name, some type, some notNull, default?, some pk] =>
    some ⟨← int64? cid, ← text? name, ← text? type, ← int64? notNull,
      ← orElse none optionalText? default?, ← int64? pk⟩
  | _ => none

def settingsFields : List Text :=
  ["text_length".toList, "engine".toList, "charset".toList, "strict".toList]

/-- Every setting has a default. The settings are not validated. -/
def settings? (j : Json) : Option Settings := do
  let defaults : Settings := default
  match ← record? settingsFields j with
  | [textLength, engine, charset, strict] =>
    some ⟨← orElse defaults.textLength nat32? textLength, ← orElse defaults.engine text? engine,
      ← orElse defaults.charset text? charset, ← orElse defaults.strict bool? strict⟩
  | _ => none

/-- A dialect is its first name, or an object with that name and `null`. -/
def dialect? : Json → Option Dialect
  | str (some s) => [Dialect.mysql, Dialect.sqlite].find? (·.name == s)
  | obj [(some s, null)] => [Dialect.mysql, Dialect.sqlite].find? (·.name == s)
  | _ => none

/-- The items of an array, each read by `read`. -/
def list? {α : Type} (read : Json → Option α) : Json → Option (List α)
  | arr items => items.mapM read
  | _ => none

end SchemaDialects.Json
