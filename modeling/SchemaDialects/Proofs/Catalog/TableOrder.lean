import SchemaDialects.Proofs.Catalog.KeyOrder
import SchemaDialects.Proofs.Definition.SourceMarker

/-!
# Columns in the order of the table

The rows of SQLite's catalog become columns in the order of their positions, each with what
its row says. What no row says, the marker, is taken from the stored statement and given to
the key if the key is one column. Rows that come in another order give the same columns, if
no position is given twice.
-/

namespace SchemaDialects

open Text
open Definition (HasKeyword)

namespace SqliteRow

/-! ## Sorting -/

/-- The rows in increasing order of their positions, where rows with one position stand as
they stood. -/
structure IsTableOrder (rows sorted : List SqliteRow) : Prop where
  perm : sorted.Perm rows
  ordered : sorted.Pairwise fun a b => a.cid ≤ b.cid
  stable : ∀ n, sorted.filter (fun row => row.cid = n) = rows.filter fun row => row.cid = n

/-- Rows with one position are in order as they stand, and sorting leaves what is in order. -/
theorem filter_cid_inTableOrder (rows : List SqliteRow) (n : Int) :
    (inTableOrder rows).filter (fun row => row.cid = n) = rows.filter fun row => row.cid = n := by
  let same := rows.filter fun row => row.cid = n
  have hordered : same.Pairwise fun a b => decide (a.cid ≤ b.cid) = true := by
    refine List.pairwise_of_forall_mem_list fun a ha b hb => ?_
    have hab : a.cid = n ∧ b.cid = n := by
      simpa using And.intro (List.mem_filter.1 ha).2 (List.mem_filter.1 hb).2
    exact decide_eq_true (Int.le_of_eq (hab.1.trans hab.2.symm))
  have hsub : same.Sublist (inTableOrder rows) :=
    List.sublist_mergeSort trans_cid total_cid hordered List.filter_sublist
  have hsame : same.filter (fun row => row.cid = n) = same :=
    List.filter_eq_self.2 fun row hrow => (List.mem_filter.1 hrow).2
  have hfilter := hsub.filter fun row => row.cid = n
  rw [hsame] at hfilter
  exact (hfilter.eq_of_length ((inTableOrder_perm rows).filter _).length_eq.symm).symm

theorem isTableOrder_inTableOrder (rows : List SqliteRow) : IsTableOrder rows (inTableOrder rows) :=
  ⟨inTableOrder_perm rows, ordered_inTableOrder rows, filter_cid_inTableOrder rows⟩

theorem inTableOrder_of_perm {rows rows' : List SqliteRow} (h : rows'.Perm rows)
    (hcid : (rows.map SqliteRow.cid).Nodup) : inTableOrder rows' = inTableOrder rows := by
  have hcid' : (rows'.map SqliteRow.cid).Nodup := (h.map SqliteRow.cid).nodup_iff.2 hcid
  have hperm : (inTableOrder rows').Perm (inTableOrder rows) :=
    ((inTableOrder_perm rows').trans h).trans (inTableOrder_perm rows).symm
  exact hperm.eq_of_pairwise (fun a b _ _ hab hba => by omega) (pairwise_cid_inTableOrder hcid')
    (pairwise_cid_inTableOrder hcid)

/-! ## Marking -/

/-- One row alone is in the key, and the statement has the marker as a word. -/
def HasMarkedKey (rows : List SqliteRow) (statement : Option Text) : Prop :=
  (rows.filter fun row => 0 < row.pk).length = 1
    ∧ ∃ t ∈ statement, HasKeyword Dialect.sqlite.marker t

instance (rows : List SqliteRow) (statement : Option Text) : Decidable (HasMarkedKey rows statement) :=
  inferInstanceAs (Decidable (_ ∧ _))

theorem declaresMarker_iff {t : Text} :
    declaresMarker t = true ↔ HasKeyword Dialect.sqlite.marker t :=
  Definition.occurs_wholeWord_iff (Definition.areKeywords_marker .sqlite)

theorem any_declaresMarker_iff {statement : Option Text} :
    statement.any declaresMarker = true ↔ ∃ t ∈ statement, HasKeyword Dialect.sqlite.marker t := by
  simp only [Option.any_eq_true, Option.mem_def, declaresMarker_iff]

theorem length_filter_key (rows : List SqliteRow) :
    (((inTableOrder rows).map toColumn).filter (·.isPrimaryKey)).length
      = (rows.filter fun row => 0 < row.pk).length := by
  rw [List.filter_map, List.length_map]
  exact (keyRows_perm rows).length_eq

/-- The column of a row, with the marker if the key is marked and is this row. -/
def columnIn (rows : List SqliteRow) (statement : Option Text) (row : SqliteRow) : Column :=
  { row.toColumn with
    extra := if HasMarkedKey rows statement ∧ 0 < row.pk then Dialect.sqlite.marker else [] }

theorem columnsOfSqlite_eq (rows : List SqliteRow) (statement : Option Text) :
    columnsOfSqlite rows statement = (inTableOrder rows).map (columnIn rows statement) := by
  have hkey := length_filter_key rows
  rw [columnsOfSqlite, ← inTableOrder]
  by_cases hmarked : HasMarkedKey rows statement
  · rw [if_pos (any_declaresMarker_iff.2 hmarked.2), markSoleKey, if_pos (hkey.trans hmarked.1),
      List.map_map]
    refine List.map_congr_left fun row _ => ?_
    by_cases hpk : 0 < row.pk
    · simp [columnIn, toColumn, hmarked, hpk]
    · simp [columnIn, toColumn, hpk]
  · have hunmarked : (inTableOrder rows).map (columnIn rows statement)
        = (inTableOrder rows).map toColumn :=
      List.map_congr_left fun row _ => by simp [columnIn, toColumn, hmarked]
    rw [hunmarked]
    split
    · next hword =>
      have hmany : (rows.filter fun row => 0 < row.pk).length ≠ 1 :=
        fun hone => hmarked ⟨hone, any_declaresMarker_iff.1 hword⟩
      rw [markSoleKey, if_neg (by rwa [hkey])]
    · rfl

end SqliteRow

open SqliteRow

/-- Every row becomes one column, which says what the row says and has the marker exactly if
it is the whole key and the statement has the marker as a word. The columns stand in the order
of their positions, whatever the order of the rows if no position is given twice. -/
theorem columnsOfSqlite_in_table_order (rows : List SqliteRow) (statement : Option Text) :
    (∃ sorted, IsTableOrder rows sorted ∧ columnsOfSqlite rows statement = sorted.map fun row =>
      { name := row.name
        declaredType := row.declaredType
        nullable := decide (row.notNull = 0)
        default? := row.default?
        isPrimaryKey := decide (0 < row.pk)
        extra := if HasMarkedKey rows statement ∧ 0 < row.pk then "AUTOINCREMENT".toList else [] })
    ∧ ((rows.map SqliteRow.cid).Nodup → ∀ rows' : List SqliteRow, rows'.Perm rows →
        columnsOfSqlite rows' statement = columnsOfSqlite rows statement) := by
  refine ⟨⟨inTableOrder rows, isTableOrder_inTableOrder rows, columnsOfSqlite_eq rows statement⟩,
    fun hcid rows' hperm => ?_⟩
  rw [columnsOfSqlite, columnsOfSqlite, ← inTableOrder, ← inTableOrder,
    inTableOrder_of_perm hperm hcid]

/-- Rows out of order, and a key whose marker the statement has in small letters. -/
theorem columnsOfSqlite_in_table_order_notes :
    let id : SqliteRow := ⟨0, "id".toList, "INTEGER".toList, 0, none, 1⟩
    let note : SqliteRow := ⟨1, "note".toList, "TEXT".toList, 1, some "''".toList, 0⟩
    let statement := some
      "CREATE TABLE notes (id INTEGER PRIMARY KEY autoincrement, note TEXT NOT NULL DEFAULT '')".toList
    ([id, note].map SqliteRow.cid).Nodup ∧ [note, id].Perm [id, note]
      ∧ columnsOfSqlite [note, id] statement
        = [⟨"id".toList, "INTEGER".toList, true, none, true, "AUTOINCREMENT".toList⟩,
          ⟨"note".toList, "TEXT".toList, false, some "''".toList, false, []⟩] := by
  intro id note statement
  have hcid : ([id, note].map SqliteRow.cid).Nodup := by decide
  have hperm : [note, id].Perm [id, note] := List.Perm.swap id note []
  have hsorted : inTableOrder [id, note] = [id, note] := List.mergeSort_of_pairwise (by decide)
  have hcolumns := columnsOfSqlite_eq [id, note] statement
  rw [hsorted] at hcolumns
  refine ⟨hcid, hperm, ?_⟩
  rw [(columnsOfSqlite_in_table_order [id, note] statement).2 hcid _ hperm, hcolumns]
  decide +kernel

end SchemaDialects
