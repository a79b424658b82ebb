import SchemaDialects.Proofs.Conversion.Lines
import SchemaDialects.Proofs.Conversion.TypeWarnings
import SchemaDialects.Proofs.Definition.InlineIndex

/-!
# Indexes of a table

Going to SQLite, an index that is found is dropped, and the log of the session says so. One that is
not found stays in the table, which has a definition then that SQLite does not read. A column named
`key` or `index` stays a column.
-/

namespace SchemaDialects

open Text Definition

namespace Conversion

theorem IsKept.not_dropped {m : TypeMap} {d : Direction} {definitions kept : List Text}
    (h : IsKept m d definitions kept) {line : Text} (hline : line ∈ kept) :
    isDropped d line = false := by
  have hother : line ∈ definitions.filter fun line => !isDropped d line := by
    rcases h with rfl | ⟨auto, before, clause, after, -, -, hl, rfl⟩
    · exact hline
    · rw [hl]
      exact ((List.Sublist.refl before).append (List.sublist_cons_self clause after)).subset hline
  simpa using (List.mem_filter.1 hother).2

theorem mem_warnings_of_definition {c : Conversion} {sql out line : Text}
    (h : (c.statement sql).value = .ok out) (hline : line ∈ (layout c.direction sql).definitions)
    {w : Warning}
    (hw : w ∈ (convert c.types c.direction (Script.tableName? sql) line).warnings) :
    w ∈ Notice.warnings (c.statement sql).notices := by
  have hlenient := statement_lenient_of_ok h
  rw [hlenient] at h ⊢
  obtain ⟨rest, hwarnings, -⟩ := exists_warnings_statement (c := c.withStrict false) rfl h
  rw [hwarnings, List.mem_append, List.flatMap_map, List.mem_flatMap]
  exact .inl ⟨line, hline, List.mem_append_left _ hw⟩

end Conversion

namespace Session

open Conversion

theorem exists_kept_of_inlineIndex {s : Session} (hs : s.conversion.direction = .mysqlToSqlite)
    {sql out line : Text} (h : (s.statement sql).value = .ok out)
    (hline : line ∈ (layout .mysqlToSqlite sql).definitions) (hi : isInlineIndex line = true) :
    (s.statement sql).session.log.isFull = true ∨ ∃ suggestion,
      .unsupportedFeature ("inline index `".toList ++ line ++ "`".toList) suggestion
        ∈ (s.statement sql).session.log.kept := by
  have hconvert : inlineIndexWarning line ∈ (convert s.conversion.types s.conversion.direction
      (Script.tableName? sql) line).warnings := by
    rw [convert_eq, hs, isDropped, if_pos hi]
    exact List.mem_singleton_self _
  have hsaid := mem_warnings_of_definition h (by rw [hs]; exact hline) hconvert
  refine (isFull_or_kept_of_said hsaid rfl).imp_right ?_
  rintro ⟨v, hv, hsubject⟩
  cases v with
  | unsupportedFeature feature suggestion =>
    obtain rfl := Warning.Subject.feature.inj (Option.some.inj hsubject)
    exact ⟨suggestion, hv⟩
  | _ => cases hsubject

/-- Of the lines that define an index exactly those are dropped that have a name which is no type,
and no method, and each of them is in the log, unless the log is full. The line of a column named
`key` or `index` stays, whatever follows its type. It keeps its name, and has the new type if its
type is a word still once the attributes are out. -/
theorem indexes_dropped {s : Session} (hs : s.conversion.direction = .mysqlToSqlite)
    {sql out line : Text} (h : (s.statement sql).value = .ok out)
    (hline : line ∈ (layout .mysqlToSqlite sql).definitions) :
    let m := s.conversion.types
    let l := layout .mysqlToSqlite sql
    let log := (s.statement sql).session.log
    ∃ kept, IsKept m .mysqlToSqlite l.definitions kept
      ∧ out = s.conversion.finish (assemble l.header (kept.map (rewritten m .mysqlToSqlite))
          l.closing?.isSome)
      ∧ (∀ name? hasMethod, IsIndexLine name? hasMethod line →
        (line ∉ kept ↔ IsFound name? hasMethod)
        ∧ (IsFound name? hasMethod → log.isFull = true ∨ ∃ suggestion,
          .unsupportedFeature ("inline index `".toList ++ line ++ "`".toList) suggestion ∈ log.kept))
      ∧ ∀ key gap type, IsKeyColumn key gap type line → line ∈ kept
        ∧ ∀ t tail, MysqlType.ofName? (upper type) = some t →
          cleaned .mysqlToSqlite line = key ++ (gap ++ (type ++ tail)) → wordEnds tail = true →
          ∃ rest, rewritten m .mysqlToSqlite line = key ++ (gap ++ (t.toSqlite.name ++ rest)) := by
  intro m l log
  obtain ⟨kept, hkept, hlines⟩ := exists_isKept s.conversion l
  rw [hs] at hkept hlines
  have hout : out = s.conversion.finish (assemble l.header (kept.map (rewritten m .mysqlToSqlite))
      l.closing?.isSome) := by
    rw [eq_output_of_ok h, hs, output, hlines]
  refine ⟨kept, hkept, hout, fun name? hasMethod hindex => ?_, fun key gap type hcolumn => ?_⟩
  · have hfound := isInlineIndex_iff hindex
    refine ⟨⟨fun hnot => ?_, fun hf hmem => ?_⟩, fun hf => ?_⟩
    · by_contra hf
      rw [← hfound, Bool.not_eq_true] at hf
      exact hnot (hkept.mem hline hf (keyClauseColumns?_of_isIndexLine m hindex))
    · have hi : isInlineIndex line = false := hkept.not_dropped hmem
      rw [hfound.2 hf] at hi
      cases hi
    · exact exists_kept_of_inlineIndex hs h hline (hfound.2 hf)
  · refine ⟨?_, fun t tail ht hcleaned htail => ?_⟩
    · exact hkept.mem hline (isInlineIndex_of_isKeyColumn hcolumn)
        (keyClauseColumns?_of_isKeyColumn m hcolumn)
    · exact exists_rewritten_of_isKeyColumn m hcolumn ht hcleaned htail

/-- Of a table with a column named `key` and a full-text index, whose name is in quotes. -/
theorem indexes_dropped_settings :
    let s : Session := ⟨{ direction := .mysqlToSqlite }, default⟩
    let sql := "CREATE TABLE t (\n  key VARCHAR(50) NOT NULL,\n  FULLTEXT KEY `by-name` (name),\n".toList
      ++ "  name TEXT\n);".toList
    let index := "FULLTEXT KEY \"by-name\" (name)".toList
    let column := "key VARCHAR(50) NOT NULL".toList
    let definitions := (layout .mysqlToSqlite sql).definitions
    (∃ out, (s.statement sql).value = .ok out) ∧ index ∈ definitions ∧ column ∈ definitions
      ∧ IsIndexLine (some (.quoted "by-name".toList)) false index
      ∧ IsKeyColumn "key".toList " ".toList "VARCHAR".toList column
      ∧ (∃ kept, IsKept s.conversion.types .mysqlToSqlite definitions kept ∧ index ∉ kept)
      ∧ (∃ suggestion, .unsupportedFeature ("inline index `".toList ++ index ++ "`".toList) suggestion
        ∈ (s.statement sql).session.log.kept)
      ∧ ∃ kept rest, IsKept s.conversion.types .mysqlToSqlite definitions kept ∧ column ∈ kept
        ∧ rewritten s.conversion.types .mysqlToSqlite column = "key TEXT".toList ++ rest := by
  intro s sql index column definitions
  obtain ⟨hout, hroom⟩ : (s.statement sql).value
      = .ok "CREATE TABLE t (\n  key TEXT NOT NULL,\n  name TEXT\n);".toList
        ∧ ¬ (s.statement sql).session.log.isFull = true := by
    decide +kernel
  obtain ⟨hindex, hcolumn⟩ : index ∈ definitions ∧ column ∈ definitions := by decide +kernel
  have hkey : IsOneOf ["KEY".toList, "INDEX".toList] "key".toList := by decide
  have hgap : IsSpacing " ".toList := by decide
  have hisIndex : IsIndexLine (some (.quoted "by-name".toList)) false index := by
    refine ⟨"FULLTEXT ".toList, "KEY".toList, " \"by-name\"".toList, [], " ".toList, "name)".toList,
      rfl, .inr ⟨"FULLTEXT".toList, " ".toList, rfl, by decide, hgap⟩, by decide,
      ⟨⟨by decide, by decide⟩, _, hgap, rfl⟩, rfl, by decide⟩
  have hisColumn : IsKeyColumn "key".toList " ".toList "VARCHAR".toList column :=
    ⟨hkey, hgap, by decide, "(50) NOT NULL".toList, rfl, by decide +kernel⟩
  obtain ⟨kept, hkept, -, hdropped, -⟩ := indexes_dropped rfl hout hindex
  obtain ⟨kept', hkept', -, -, hstays⟩ := indexes_dropped rfl hout hcolumn
  obtain ⟨hnot, hlog⟩ := hdropped _ _ hisIndex
  obtain ⟨hmem, hrewritten⟩ := hstays _ _ _ hisColumn
  obtain ⟨rest, hrest⟩ := hrewritten .varchar "(50) NOT NULL".toList (by decide) (by decide +kernel)
    (by decide +kernel)
  have hfound : IsFound (some (.quoted "by-name".toList)) false := ⟨rfl, _, rfl, rfl⟩
  exact ⟨⟨_, hout⟩, hindex, hcolumn, hisIndex, hisColumn, ⟨kept, hkept, hnot.2 hfound⟩,
    (hlog hfound).resolve_left hroom, kept', rest, hkept', hmem, hrest⟩

/-- An index with a method before its list is not found. It stays in the table, and nothing is
said. -/
theorem index_not_dropped :
    let s : Session := ⟨{ direction := .mysqlToSqlite }, default⟩
    let sql := "CREATE TABLE t (\n  id INT,\n  KEY idx USING BTREE (id)\n);".toList
    let line := "KEY idx USING BTREE (id)".toList
    IsIndexLine (some (.bare "idx".toList)) true line ∧ line ∈ (layout .mysqlToSqlite sql).definitions
      ∧ (s.statement sql).value
        = .ok "CREATE TABLE t (\n  id INTEGER,\n  KEY idx USING BTREE (id)\n);".toList
      ∧ (s.statement sql).session.log.kept = [] := by
  intro s sql line
  have hgap : IsSpacing " ".toList := by decide
  have hindex : IsIndexLine (some (.bare "idx".toList)) true line := by
    refine ⟨[], "KEY".toList, " idx".toList, " USING BTREE".toList, " ".toList, "id)".toList, rfl,
      .inl rfl, by decide, ⟨⟨by decide, by decide +kernel⟩, _, hgap, rfl⟩,
      ⟨" ".toList, "USING".toList, " ".toList, "BTREE".toList, hgap, by decide, hgap, by decide, rfl⟩,
      by decide⟩
  exact ⟨hindex, by decide +kernel⟩

end Session

end SchemaDialects
