import SchemaDialects.Direction
import SchemaDialects.Text.Scan

/-!
# Types of the two dialects

The type keywords of MySQL, the storage classes of SQLite, and the map between
them. Going to SQLite every keyword lands in a storage class. Going back a
storage class gets one MySQL type, so a length or a precision does not come
back.
-/

namespace SchemaDialects

/-! ## The two tables -/

inductive StorageClass where
  | integer | real | text | blob | numeric
  deriving DecidableEq

namespace StorageClass

def all : List StorageClass := [integer, real, text, blob, numeric]

def name : StorageClass → Text
  | integer => "INTEGER".toList
  | real => "REAL".toList
  | text => "TEXT".toList
  | blob => "BLOB".toList
  | numeric => "NUMERIC".toList

/-- Case counts: the names are upper case. -/
def ofName? (s : Text) : Option StorageClass := all.find? (·.name == s)

/-- The MySQL type of a storage class. Text is given the length
`textLength`. -/
def toMysql (textLength : Nat) : StorageClass → Text
  | integer => "INT".toList
  | real => "DOUBLE".toList
  | text => "VARCHAR(".toList ++ Text.ofNat textLength ++ ")".toList
  | blob => "BLOB".toList
  | numeric => "DECIMAL".toList

/-- Integers lose their upper half, text its freedom of length, and numbers of
the numeric class their type. -/
def losesInMysql : StorageClass → Bool
  | integer | text | numeric => true
  | real | blob => false

theorem mem_all (c : StorageClass) : c ∈ all := by cases c <;> decide

theorem ofName?_name (c : StorageClass) : ofName? c.name = some c := by cases c <;> decide

theorem name_of_ofName? {s : Text} {c : StorageClass} (h : ofName? s = some c) : c.name = s := by
  simpa using List.find?_some h

end StorageClass

inductive MysqlType where
  | tinyInt | smallInt | mediumInt | int | integer | bigInt
  | bool | boolean | year
  | float | double | real | decimal
  | char | varchar | tinyText | text | mediumText | longText
  | date | dateTime | timestamp | time | json
  | binary | varBinary | tinyBlob | blob | mediumBlob | longBlob
  deriving DecidableEq

namespace MysqlType

def all : List MysqlType :=
  [tinyInt, smallInt, mediumInt, int, integer, bigInt, bool, boolean, year,
   float, double, real, decimal, char, varchar, tinyText, text, mediumText, longText,
   date, dateTime, timestamp, time, json,
   binary, varBinary, tinyBlob, blob, mediumBlob, longBlob]

def name : MysqlType → Text
  | tinyInt => "TINYINT".toList
  | smallInt => "SMALLINT".toList
  | mediumInt => "MEDIUMINT".toList
  | int => "INT".toList
  | integer => "INTEGER".toList
  | bigInt => "BIGINT".toList
  | bool => "BOOL".toList
  | boolean => "BOOLEAN".toList
  | year => "YEAR".toList
  | float => "FLOAT".toList
  | double => "DOUBLE".toList
  | real => "REAL".toList
  | decimal => "DECIMAL".toList
  | char => "CHAR".toList
  | varchar => "VARCHAR".toList
  | tinyText => "TINYTEXT".toList
  | text => "TEXT".toList
  | mediumText => "MEDIUMTEXT".toList
  | longText => "LONGTEXT".toList
  | date => "DATE".toList
  | dateTime => "DATETIME".toList
  | timestamp => "TIMESTAMP".toList
  | time => "TIME".toList
  | json => "JSON".toList
  | binary => "BINARY".toList
  | varBinary => "VARBINARY".toList
  | tinyBlob => "TINYBLOB".toList
  | blob => "BLOB".toList
  | mediumBlob => "MEDIUMBLOB".toList
  | longBlob => "LONGBLOB".toList

/-- Case counts: the names are upper case. -/
def ofName? (s : Text) : Option MysqlType := all.find? (·.name == s)

def toSqlite : MysqlType → StorageClass
  | tinyInt | smallInt | mediumInt | int | integer | bigInt | bool | boolean | year => .integer
  | float | double | real | decimal => .real
  | char | varchar | tinyText | text | mediumText | longText
  | date | dateTime | timestamp | time | json => .text
  | binary | varBinary | tinyBlob | blob | mediumBlob | longBlob => .blob

/-- Types whose values the storage class cannot tell apart from others, whether
or not they have a size. -/
def losesInSqlite : MysqlType → Bool
  | decimal | date | dateTime | timestamp | time | year => true
  | _ => false

theorem mem_all (t : MysqlType) : t ∈ all := by cases t <;> decide

theorem ofName?_name (t : MysqlType) : ofName? t.name = some t := by cases t <;> decide

theorem name_of_ofName? {s : Text} {t : MysqlType} (h : ofName? s = some t) : t.name = s := by
  simpa using List.find?_some h

end MysqlType

/-! ## The map -/

/-- What a known type becomes, and whether the target type fails to hold some
value or some property of it. -/
structure Mapping where
  target : Text
  lossy : Bool
  deriving DecidableEq

/-- The length that text gets in MySQL is the map's one parameter. -/
structure TypeMap where
  textLength : Nat := 255
  deriving DecidableEq

instance : Inhabited TypeMap := ⟨{}⟩

/-- A declared type is an ASCII word and what follows it; here the word in upper
case and whether a size follows. -/
def declaredKeyword? (declared : Text) : Option (Text × Bool) :=
  (Text.run Char.isAlpha (Text.blanks declared)).map fun (word, rest) =>
    (Text.upper word, (Text.size (Text.blanks rest)).isSome)

namespace TypeMap

/-- Maps an upper-case keyword of the source dialect. -/
def ofKeyword? (m : TypeMap) (d : Direction) (keyword : Text) : Option Mapping :=
  match d with
  | .mysqlToSqlite =>
    (MysqlType.ofName? keyword).map fun t => ⟨t.toSqlite.name, t.losesInSqlite⟩
  | .sqliteToMysql =>
    (StorageClass.ofName? keyword).map fun c => ⟨c.toMysql m.textLength, c.losesInMysql⟩

/-- Maps a declared type such as `varchar(100)` or `INT(11) UNSIGNED`. The size
and whatever else follows the keyword are dropped, and a size that is dropped
is a loss. -/
def ofDeclared? (m : TypeMap) (d : Direction) (declared : Text) : Option Mapping := do
  let (keyword, sized) ← declaredKeyword? declared
  let mapping ← m.ofKeyword? d keyword
  some { mapping with lossy := mapping.lossy || sized }

section
variable {m : TypeMap} {d : Direction} {declared : Text} {mapping : Mapping}

theorem exists_of_ofDeclared? (h : m.ofDeclared? d declared = some mapping) :
    ∃ word rest plain, Text.run Char.isAlpha (Text.blanks declared) = some (word, rest)
      ∧ m.ofKeyword? d (Text.upper word) = some plain ∧ mapping.target = plain.target := by
  obtain ⟨⟨keyword, sized⟩, hkeyword, h⟩ := Option.bind_eq_some_iff.1 h
  obtain ⟨plain, hplain, h⟩ := Option.bind_eq_some_iff.1 h
  obtain rfl := Option.some.inj h
  obtain ⟨⟨word, rest⟩, hword, he⟩ := Option.map_eq_some_iff.1 hkeyword
  obtain ⟨rfl, -⟩ := Prod.mk.inj he
  exact ⟨word, rest, plain, hword, hplain, rfl⟩

theorem exists_name_eq_target (h : m.ofDeclared? .mysqlToSqlite declared = some mapping) :
    ∃ c : StorageClass, c.name = mapping.target := by
  obtain ⟨word, rest, plain, -, hplain, htarget⟩ := exists_of_ofDeclared? h
  obtain ⟨t, -, rfl⟩ := Option.map_eq_some_iff.1 hplain
  exact ⟨t.toSqlite, htarget.symm⟩

theorem exists_toMysql_eq_target (h : m.ofDeclared? .sqliteToMysql declared = some mapping) :
    ∃ c : StorageClass, c.toMysql m.textLength = mapping.target := by
  obtain ⟨word, rest, plain, -, hplain, htarget⟩ := exists_of_ofDeclared? h
  obtain ⟨c, -, rfl⟩ := Option.map_eq_some_iff.1 hplain
  exact ⟨c, htarget.symm⟩

end

/-- The declared type in the target dialect. A type that is not known stays as it
is. -/
def target (m : TypeMap) (d : Direction) (declared : Text) : Text :=
  ((m.ofDeclared? d declared).map Mapping.target).getD declared

end TypeMap

end SchemaDialects
