import SchemaDialects.Proofs.Conversion.Lines
import SchemaDialects.Proofs.Conversion.TypeWarnings
import SchemaDialects.Proofs.Definition.TypeWords

/-!
# Types that stay

A type is not known exactly if the letters that its word begins with are no keyword of the
source dialect. It then stays as it is, alone and in the line of a column, and the log has it
by those letters.
-/

namespace SchemaDialects

open Text

namespace Definition

namespace DefinesColumn

variable {m : TypeMap} {d : Direction} {name w size line : Text}
variable (h : DefinesColumn d name w size line)
include h

theorem hasUnknownType_iff (table? : Option Text) :
    HasUnknownType m d table? line (.unmappedType (upper (typeLetters w)) table? (some name))
      ↔ d.source.hasTypeKeyword (typeLetters w) = false := by
  obtain ⟨x, rest, htyped, hx⟩ := h.typedName?
  have hname := bareName_bare h.named.ne h.named.word
  rw [← h.ofDeclared?_eq_none_iff (m := m) hx]
  constructor
  · intro ⟨_, lead, t, ht, hnone, _⟩
    obtain ⟨-, rfl⟩ := Prod.mk.inj (Option.some.inj (htyped.symm.trans ht))
    exact hnone
  · intro hnone
    refine ⟨h.isDropped, [], _, htyped, hnone, ?_, ?_⟩
    · rw [hname]
      exact h.named.isConstraintKeyword
    · rw [hname]

theorem keyClauseColumns?_rewritten (hw : d.source.hasTypeKeyword (typeLetters w) = false) :
    keyClauseColumns? (rewritten m d line) = none := by
  obtain ⟨lead, hlead, rest, hline, -⟩ := h.typedAs_rewritten (m := m) hw
  rw [hline]
  cases hlead with
  | inl hname =>
    rw [hname]
    exact h.named.keyClauseColumns? (wordEnds_blank _)
  | inr hmarked =>
    rw [hmarked.1]
    rfl

end DefinesColumn

end Definition

namespace Session

open Conversion Definition

/-- A type is left as it is exactly if the letters that its word begins with are no keyword of
the source dialect, whatever the rest of its word. In a line too it then stays, with its size,
and it is reported, by the letters alone. -/
theorem type_left_iff {s : Session} (hs : s.conversion.strict = false) {w : Text}
    (hw : IsTypeWord w) :
    let m := s.conversion.types
    let d := s.conversion.direction
    (∀ r, wordEnds r = true →
      ((m.ofDeclared? d (w ++ r) = none ∧ m.target d (w ++ r) = w ++ r) ↔
        d.source.hasTypeKeyword (typeLetters w) = false)) ∧
    ∀ {name size line sql out : Text}, DefinesColumn d name w size line →
      (s.statement sql).value = .ok out → line ∈ (layout d sql).definitions →
      let table? := Script.tableName? sql
      let log := (s.statement sql).session.log
      (HasUnknownType m d table? line (.unmappedType (upper (typeLetters w)) table? (some name)) ↔
        d.source.hasTypeKeyword (typeLetters w) = false) ∧
      (d.source.hasTypeKeyword (typeLetters w) = false →
        (∃ kept, IsKept m d (layout d sql).definitions kept ∧ line ∈ kept ∧
          out = s.conversion.finish (assemble (layout d sql).header (kept.map (rewritten m d))
            (layout d sql).closing?.isSome)) ∧
        (∃ lead, (lead = name ∨ lead = [] ∧ sameUpToCase name d.source.marker = true) ∧
          TypedAs lead w size (rewritten m d line)) ∧
        (log.isFull = true ∨
          ∃ column', .unmappedType (upper (typeLetters w)) table? column' ∈ log.kept)) := by
  intro m d
  constructor
  · intro r hr
    obtain ⟨u, hu, halpha⟩ := exists_typeLetters (w := w) (not_isAlpha_of_wordEnds hr)
    rw [hu, ← m.ofDeclared?_eq_none_iff d hw.typeLetters_ne_nil isAlpha_of_mem_typeLetters halpha]
    exact ⟨fun h => h.1, fun h => ⟨h, m.target_of_ofDeclared?_eq_none d h⟩⟩
  · intro name size line sql out hcolumn hok hline table? log
    have hunknown := hcolumn.hasUnknownType_iff (m := m) table?
    refine ⟨hunknown, fun hletters => ⟨?_, hcolumn.typedAs_rewritten hletters, ?_⟩⟩
    · obtain ⟨kept, hkept, hlines⟩ := exists_isKept s.conversion (layout d sql)
      refine ⟨kept, hkept, ?_, ?_⟩
      · exact hkept.mem hline hcolumn.isDropped (hcolumn.keyClauseColumns?_rewritten hletters)
      · rw [eq_output_of_ok hok, output, hlines]
    · exact isFull_or_unmappedType_kept hs hok hline (hunknown.2 hletters)

/-- The letters of the word are no keyword. It stays, and the attributes behind it are taken out. -/
theorem type_left_iff_geometry :
    let s : Session := ⟨{ direction := .mysqlToSqlite }, default⟩
    let sql := "CREATE TABLE t (\n  `id` INT,\n  shape GEOMETRY2D UNSIGNED COMMENT 'x' NOT NULL,\n".toList
      ++ "  PRIMARY KEY (`id`)\n);".toList
    let line := "shape GEOMETRY2D UNSIGNED COMMENT 'x' NOT NULL".toList
    s.conversion.strict = false ∧ IsTypeWord "GEOMETRY2D".toList
      ∧ DefinesColumn .mysqlToSqlite "shape".toList "GEOMETRY2D".toList [] line
      ∧ (∃ out, (s.statement sql).value = .ok out) ∧ line ∈ (layout .mysqlToSqlite sql).definitions
      ∧ s.conversion.types.ofDeclared? .mysqlToSqlite "GEOMETRY2D(3)".toList = none
      ∧ (∃ lead, (lead = "shape".toList
          ∨ lead = [] ∧ sameUpToCase "shape".toList Dialect.mysql.marker = true)
        ∧ TypedAs lead "GEOMETRY2D".toList [] (rewritten s.conversion.types .mysqlToSqlite line))
      ∧ ∃ column', .unmappedType "GEOMETRY".toList (some "t".toList) column'
        ∈ (s.statement sql).session.log.kept := by
  intro s sql line
  have hw : IsTypeWord "GEOMETRY2D".toList := ⟨by decide, by decide⟩
  have hcolumn : DefinesColumn .mysqlToSqlite "shape".toList "GEOMETRY2D".toList [] line := by
    refine ⟨⟨by decide, by decide +kernel, by decide⟩, ⟨hw, .inl rfl, by decide, by decide⟩,
      ⟨" UNSIGNED COMMENT 'x' NOT NULL".toList, by decide, by decide +kernel⟩, ?_, ?_⟩
    · exact fun _ _ => by decide +kernel
    · exact fun _ _ => by decide +kernel
  have hok : (s.statement sql).value =
      .ok "CREATE TABLE t (\n  \"id\" INTEGER,\n  shape GEOMETRY2D NOT NULL,\n  PRIMARY KEY (\"id\")\n);".toList := by
    decide +kernel
  have hline : line ∈ (layout .mysqlToSqlite sql).definitions := by decide +kernel
  have htable : Script.tableName? sql = some "t".toList := by decide +kernel
  have hroom : ¬ (s.statement sql).session.log.isFull = true := by decide +kernel
  obtain ⟨hmap, hstatement⟩ := type_left_iff (s := s) rfl hw
  obtain ⟨-, hleft⟩ := hstatement hcolumn hok hline
  obtain ⟨-, htyped, hlog⟩ := hleft (by decide)
  rw [htable] at hlog
  have hnone := ((hmap "(3)".toList (by decide +kernel)).2 (by decide)).1
  exact ⟨rfl, hw, hcolumn, ⟨_, hok⟩, hline, hnone, htyped, hlog.resolve_left hroom⟩

/-- A word that only begins like a keyword is taken for it. Alone it loses the digit, in a line
the digit goes to the new type, and nothing is said about either. -/
theorem type_not_left :
    let c : Conversion := { direction := .mysqlToSqlite }
    let sql := "CREATE TABLE t (\n  id INT8\n);".toList
    IsTypeWord "INT8".toList ∧ Dialect.mysql.hasTypeKeyword "INT8".toList = false
      ∧ c.types.ofDeclared? .mysqlToSqlite "INT8".toList = some ⟨"INTEGER".toList, false⟩
      ∧ (c.statement sql).value = .ok "CREATE TABLE t (\n  id INTEGER8\n);".toList
      ∧ Notice.warnings (c.statement sql).notices = [] := by
  exact ⟨⟨by decide, by decide⟩, by decide, by decide, by decide +kernel, by decide +kernel⟩

end Session

end SchemaDialects
