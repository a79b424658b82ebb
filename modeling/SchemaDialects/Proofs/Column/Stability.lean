import SchemaDialects.Proofs.Column.Markers
import SchemaDialects.Proofs.Rendering.RoundTrip

/-!
# Columns there and back again

Columns that went from MySQL to SQLite come back unchanged from a trip through
MySQL. One kind of type does not come back: SQLite's `NUMERIC`, which is no type
of MySQL, so that it arrives in SQLite as it was and leaves it as `DECIMAL`.
-/

namespace SchemaDialects

open Text

/-! ## The word of a type -/

/-- The leading run of letters of a declared type. Blanks before it do not
count. -/
def leadingLetters (declared : Text) : Text := (blanks declared).takeWhile Char.isAlpha

theorem fst_declaredKeyword? (declared : Text) :
    (declaredKeyword? declared).map Prod.fst
      = if leadingLetters declared = [] then none else some (upper (leadingLetters declared)) := by
  rw [declaredKeyword?, run, leadingLetters]
  split
  · rfl
  · rfl

namespace TypeMap

variable (m : TypeMap) (d : Direction)

theorem ofKeyword?_nil : m.ofKeyword? d [] = none := by cases d <;> rfl

/-- Whether a type is known, and what it becomes, is decided by its leading letters. -/
theorem map_target_ofDeclared? (declared : Text) :
    (m.ofDeclared? d declared).map Mapping.target
      = (m.ofKeyword? d (upper (leadingLetters declared))).map Mapping.target := by
  have hfst := fst_declaredKeyword? declared
  rw [ofDeclared?]
  cases hk : declaredKeyword? declared with
  | none =>
    rw [hk] at hfst
    have hnil : leadingLetters declared = [] := by
      by_contra hne
      rw [if_neg hne] at hfst
      cases hfst
    have hnone : m.ofKeyword? d (upper []) = none := ofKeyword?_nil m d
    rw [hnil, hnone]
    rfl
  | some x =>
    obtain ⟨keyword, sized⟩ := x
    rw [hk] at hfst
    split at hfst
    · cases hfst
    · obtain rfl := Option.some.inj hfst
      cases hm : m.ofKeyword? d (upper (leadingLetters declared)) with
      | none => simp [hm]
      | some mapping => simp [hm]

theorem target_eq (declared : Text) :
    m.target d declared
      = ((m.ofKeyword? d (upper (leadingLetters declared))).map Mapping.target).getD declared := by
  rw [target, map_target_ofDeclared?]

variable {m}

theorem target_of_mysqlType {declared : Text} {t : MysqlType}
    (h : MysqlType.ofName? (upper (leadingLetters declared)) = some t) :
    m.target .mysqlToSqlite declared = t.toSqlite.name := by
  rw [target_eq, ofKeyword?, h]
  rfl

theorem target_of_not_mysqlType {declared : Text}
    (h : MysqlType.ofName? (upper (leadingLetters declared)) = none) :
    m.target .mysqlToSqlite declared = declared := by
  rw [target_eq, ofKeyword?, h]
  rfl

theorem target_of_storageClass {declared : Text} {c : StorageClass}
    (h : StorageClass.ofName? (upper (leadingLetters declared)) = some c) :
    m.target .sqliteToMysql declared = c.toMysql m.textLength := by
  rw [target_eq, ofKeyword?, h]
  rfl

theorem target_of_not_storageClass {declared : Text}
    (h : StorageClass.ofName? (upper (leadingLetters declared)) = none) :
    m.target .sqliteToMysql declared = declared := by
  rw [target_eq, ofKeyword?, h]
  rfl

theorem eq_numeric_of_not_mysqlType {c : StorageClass} (h : MysqlType.ofName? c.name = none) :
    c = .numeric := by
  have hall : ∀ c ∈ StorageClass.all, MysqlType.ofName? c.name = none → c = .numeric := by decide
  exact hall c (StorageClass.mem_all c) h

theorem toSqlite_mem_roundTripTypes (t : MysqlType) : t.toSqlite.name ∈ roundTripTypes := by
  have hall : ∀ t ∈ MysqlType.all, t.toSqlite.name ∈ roundTripTypes := by decide
  exact hall t (MysqlType.mem_all t)

theorem target_settles_iff (declared : Text) :
    m.target .mysqlToSqlite (m.target .sqliteToMysql (m.target .mysqlToSqlite declared))
        = m.target .mysqlToSqlite declared
      ↔ sameUpToCase (leadingLetters declared) "NUMERIC".toList = false := by
  have hup : upper "NUMERIC".toList = "NUMERIC".toList := by decide
  rw [sameUpToCase, hup, beq_eq_false_iff_ne]
  cases ht : MysqlType.ofName? (upper (leadingLetters declared)) with
  | some t =>
    rw [target_of_mysqlType ht, target_target (toSqlite_mem_roundTripTypes t) m m]
    refine iff_of_true rfl fun hn => ?_
    rw [hn] at ht
    cases ht
  | none =>
    rw [target_of_not_mysqlType ht]
    cases hc : StorageClass.ofName? (upper (leadingLetters declared)) with
    | none =>
      rw [target_of_not_storageClass hc, target_of_not_mysqlType ht]
      refine iff_of_true rfl fun hn => ?_
      rw [hn] at hc
      cases hc
    | some c =>
      -- The class has a name of its own, `DECIMAL` has not: it stands for `REAL`.
      have hname := StorageClass.name_of_ofName? hc
      rw [← hname] at ht
      obtain rfl := eq_numeric_of_not_mysqlType ht
      rw [target_of_storageClass hc]
      refine iff_of_false (fun h => ?_) fun h => h hname.symm
      have hreal : declared = "REAL".toList := h.symm
      rw [hreal] at hname
      exact absurd hname (by decide)

end TypeMap

/-! ## The columns -/

namespace Column

section
variable (m : TypeMap) (d : Direction)

/-- The columns that come out behind a marked column (`seen`) or without one. -/
def convertedFrom (seen : Bool) (columns : List Column) : List Column :=
  (convertFrom m d seen columns).map ColumnOutcome.column

theorem convertedFrom_cons (seen : Bool) (c : Column) (columns : List Column) :
    convertedFrom m d seen (c :: columns)
      = (c.convert m d seen).column
        :: convertedFrom m d (seen || d.source.isMarked c.extra) columns :=
  rfl

/-- Behind a converted column the way back has seen a marker where the way there
had. -/
theorem seen_or_isMarked_target (seen : Bool) (c : Column) :
    (seen || d.target.isMarked (c.convert m d seen).column.extra)
      = (seen || d.source.isMarked c.extra) := by
  rw [isMarked_target_convert]
  cases seen <;> simp

theorem convertedFrom_reverse_cons (seen : Bool) (c : Column) (columns : List Column) :
    convertedFrom m d.reverse seen ((c.convert m d seen).column :: columns)
      = ((c.convert m d seen).column.convert m d.reverse seen).column
        :: convertedFrom m d.reverse (seen || d.source.isMarked c.extra) columns := by
  rw [convertedFrom_cons, Direction.source_reverse, seen_or_isMarked_target]

theorem extra_convert (seen : Bool) (c : Column) :
    (c.convert m d seen).column.extra
      = if d.source.isMarked c.extra && !seen then d.target.marker else [] := by
  rw [convert]
  cases seen <;> simp

theorem extra_convert_reverse (seen : Bool) (c : Column) :
    (((c.convert m d seen).column.convert m d.reverse seen).column.convert m d seen).column.extra
      = (c.convert m d seen).column.extra := by
  have hback := isMarked_target_convert m d.reverse seen (c.convert m d seen).column
  rw [Direction.target_reverse, Direction.source_reverse, isMarked_target_convert] at hback
  rw [extra_convert, hback, extra_convert]
  cases seen <;> simp

theorem convert_settles_iff (seen : Bool) (c : Column) :
    let once := (c.convert m .mysqlToSqlite seen).column
    ((once.convert m .sqliteToMysql seen).column.convert m .mysqlToSqlite seen).column = once
      ↔ sameUpToCase (leadingLetters c.declaredType) "NUMERIC".toList = false := by
  intro once
  have hextra := extra_convert_reverse m .mysqlToSqlite seen c
  rw [← TypeMap.target_settles_iff (m := m)]
  constructor
  · exact fun h => congrArg Column.declaredType h
  · intro h
    -- Name, nullability, default and key flag never change.
    exact congrArg₂ (Column.mk c.name · c.nullable c.default? c.isPrimaryKey ·) h hextra

theorem convertedFrom_settles_iff (seen : Bool) (columns : List Column) :
    let once := convertedFrom m .mysqlToSqlite seen columns
    convertedFrom m .mysqlToSqlite seen (convertedFrom m .sqliteToMysql seen once) = once
      ↔ ∀ c ∈ columns, sameUpToCase (leadingLetters c.declaredType) "NUMERIC".toList = false := by
  induction columns generalizing seen with
  | nil => simp [convertedFrom, convertFrom]
  | cons c columns ih =>
    have hback := convertedFrom_reverse_cons m .mysqlToSqlite seen c
    have hagain := convertedFrom_reverse_cons m .sqliteToMysql seen (c.convert m .mysqlToSqlite seen).column
    have hseen := seen_or_isMarked_target m .mysqlToSqlite seen c
    simp only [Direction.reverse, Direction.source, Direction.target] at hback hagain hseen
    -- All three runs have seen a marker at the same columns.
    simp only [convertedFrom_cons m .mysqlToSqlite seen c, hback, hagain, hseen, List.cons.injEq,
      List.forall_mem_cons]
    exact and_congr (convert_settles_iff m seen c) (ih _)

end

/-- Columns that are converted to SQLite, back to MySQL and to SQLite again are
those that were converted once, unless a type's word is `NUMERIC`. -/
theorem convertAll_settles_iff (m : TypeMap) (columns : List Column) :
    let once := convertAll m .mysqlToSqlite columns
    convertAll m .mysqlToSqlite (convertAll m .sqliteToMysql once) = once
      ↔ ∀ c ∈ columns, sameUpToCase (leadingLetters c.declaredType) "NUMERIC".toList = false :=
  convertedFrom_settles_iff m false columns

end Column

end SchemaDialects
