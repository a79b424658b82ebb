import SchemaDialects.Proofs.Column.Stability
import SchemaDialects.Proofs.Definition.TypeWords

/-!
# Types that are mapped already

What the map writes it leaves alone. A storage class that it writes is also a keyword of
MySQL, and one that loses nothing; what it writes for MySQL is unknown to SQLite or is what
it becomes. What stands around the letters of a type does not count for any of this.
-/

namespace SchemaDialects

open Text

namespace TypeMap

variable (m : TypeMap) (d : Direction)

theorem ofDeclared?_toSqlite (t : MysqlType) :
    m.ofDeclared? .mysqlToSqlite t.toSqlite.name = some ⟨t.toSqlite.name, false⟩ := by
  have hmem := toSqlite_mem_roundTripTypes t
  simp only [roundTripTypes, List.mem_cons, List.not_mem_nil, or_false] at hmem
  rcases hmem with h | h | h | h <;> rw [h] <;> rfl

theorem target_toMysql (c : StorageClass) :
    m.target .sqliteToMysql (c.toMysql m.textLength) = c.toMysql m.textLength := by
  cases c with
  | integer => exact target_of_not_storageClass rfl
  | real => exact target_of_not_storageClass rfl
  | text => exact target_of_not_storageClass rfl
  | blob => rfl
  | numeric => exact target_of_not_storageClass rfl

theorem target_target_eq (declared : Text) :
    m.target d (m.target d declared) = m.target d declared := by
  cases d with
  | mysqlToSqlite =>
    cases ht : MysqlType.ofName? (upper (leadingLetters declared)) with
    | none => rw [target_of_not_mysqlType ht, target_of_not_mysqlType ht]
    | some t => rw [target_of_mysqlType ht, target, ofDeclared?_toSqlite, Option.map_some, Option.getD_some]
  | sqliteToMysql =>
    cases hc : StorageClass.ofName? (upper (leadingLetters declared)) with
    | none => rw [target_of_not_storageClass hc, target_of_not_storageClass hc]
    | some c => rw [target_of_storageClass hc, target_toMysql]

theorem ofDeclared?_target {declared : Text} {mapping : Mapping}
    (h : m.ofDeclared? .mysqlToSqlite declared = some mapping) :
    m.ofDeclared? .mysqlToSqlite mapping.target = some ⟨mapping.target, false⟩ := by
  have htarget := m.map_target_ofDeclared? .mysqlToSqlite declared
  rw [h, ofKeyword?, Option.map_map, Option.map_some] at htarget
  obtain ⟨t, -, ht⟩ := Option.map_eq_some_iff.1 htarget.symm
  rw [← ht]
  exact m.ofDeclared?_toSqlite t

theorem isKnown_iff (declared : Text) :
    (m.ofDeclared? d declared).isSome = true
      ↔ d.source.hasTypeKeyword (leadingLetters declared) = true := by
  have hknown := congrArg Option.isSome (m.map_target_ofDeclared? d declared)
  rw [Option.isSome_map, Option.isSome_map] at hknown
  rw [hknown, isSome_ofKeyword?]

/-- A type that has been mapped stays as it is when it is mapped again, and going to SQLite it
is then known and loses nothing. A type is known exactly if its leading letters are a keyword
of the source dialect, and what it becomes is the same for all types with these letters, in
any case and whatever stands around them. -/
theorem mapped_type_stays (declared : Text) :
    m.target d (m.target d declared) = m.target d declared ∧
    (d = .mysqlToSqlite → ∀ mapping, m.ofDeclared? d declared = some mapping →
      m.ofDeclared? d mapping.target = some ⟨mapping.target, false⟩) ∧
    ((m.ofDeclared? d declared).isSome = true
      ↔ d.source.hasTypeKeyword (leadingLetters declared) = true) ∧
    ∀ other, sameUpToCase (leadingLetters other) (leadingLetters declared) = true →
      (m.ofDeclared? d other).map Mapping.target = (m.ofDeclared? d declared).map Mapping.target := by
  refine ⟨m.target_target_eq d declared, ?_, m.isKnown_iff d declared, fun other hother => ?_⟩
  · rintro rfl mapping h
    exact m.ofDeclared?_target h
  · rw [sameUpToCase, beq_iff_eq] at hother
    rw [map_target_ofDeclared?, map_target_ofDeclared?, hother]

/-- The letters end before the digit, and blanks outside ASCII count as blanks. -/
theorem mapped_type_stays_decimal :
    let m : TypeMap := ⟨80⟩
    let declared := "\u2003DeCimal(10, 2) unsigned".toList
    let other := "\tdecimaL8".toList
    m.ofDeclared? .mysqlToSqlite declared = some ⟨"REAL".toList, true⟩
      ∧ m.ofDeclared? .mysqlToSqlite "REAL".toList = some ⟨"REAL".toList, false⟩
      ∧ sameUpToCase (leadingLetters other) (leadingLetters declared) = true
      ∧ (m.ofDeclared? .mysqlToSqlite other).map Mapping.target = some "REAL".toList := by
  intro m declared other
  have hdeclared : m.ofDeclared? .mysqlToSqlite declared = some ⟨"REAL".toList, true⟩ := by decide
  have hother : sameUpToCase (leadingLetters other) (leadingLetters declared) = true := by decide
  obtain ⟨-, hagain, -, hletters⟩ := m.mapped_type_stays .mysqlToSqlite declared
  have hmapped := hletters other hother
  rw [hdeclared] at hmapped
  exact ⟨hdeclared, hagain rfl _ hdeclared, hother, hmapped⟩

end TypeMap

end SchemaDialects
