import SchemaDialects.Catalog.Row
import SchemaDialects.Proofs.Rendering.Agreement

/-!
# The order of a composite key

A catalog row of SQLite says where in the key a column stands; of this a column
keeps whether it is in the key at all. So the key of a table that is copied to
MySQL lists its columns in the order of the table.
-/

namespace SchemaDialects

namespace SqliteRow

/-- The rows in the order of the table. -/
def inTableOrder (rows : List SqliteRow) : List SqliteRow :=
  rows.mergeSort fun a b => a.cid ≤ b.cid

/-- The rows of the key, in the order of the table. -/
def keyRows (rows : List SqliteRow) : List SqliteRow :=
  (inTableOrder rows).filter fun row => 0 < row.pk

/-- The clause that makes a key of some rows. -/
def keyClause (keys : List SqliteRow) : Text :=
  "PRIMARY KEY (".toList
    ++ Text.join ", ".toList (keys.map fun row => Dialect.mysql.quote row.name) ++ ")".toList

theorem trans_cid (a b c : SqliteRow) (hab : decide (a.cid ≤ b.cid) = true)
    (hbc : decide (b.cid ≤ c.cid) = true) : decide (a.cid ≤ c.cid) = true := by
  rw [decide_eq_true_eq] at hab hbc ⊢
  omega

theorem total_cid (a b : SqliteRow) :
    (decide (a.cid ≤ b.cid) || decide (b.cid ≤ a.cid)) = true := by
  rw [Bool.or_eq_true, decide_eq_true_eq, decide_eq_true_eq]
  omega

theorem inTableOrder_perm (rows : List SqliteRow) : (inTableOrder rows).Perm rows :=
  List.mergeSort_perm rows _

theorem ordered_inTableOrder (rows : List SqliteRow) :
    (inTableOrder rows).Pairwise fun a b => a.cid ≤ b.cid :=
  (List.pairwise_mergeSort trans_cid total_cid rows).imp (by simp)

theorem pairwise_cid_inTableOrder {rows : List SqliteRow} (h : (rows.map SqliteRow.cid).Nodup) :
    (inTableOrder rows).Pairwise fun a b => a.cid < b.cid := by
  have hne : (inTableOrder rows).Pairwise fun a b => a.cid ≠ b.cid :=
    List.pairwise_map.1 (((inTableOrder_perm rows).map SqliteRow.cid).nodup_iff.2 h)
  refine ((ordered_inTableOrder rows).and hne).imp fun {a b} hab => ?_
  obtain ⟨hle, hne⟩ := hab
  omega

theorem keyRows_perm (rows : List SqliteRow) :
    (keyRows rows).Perm (rows.filter fun row => 0 < row.pk) :=
  (inTableOrder_perm rows).filter _

theorem pairwise_cid_keyRows {rows : List SqliteRow} (h : (rows.map SqliteRow.cid).Nodup) :
    (keyRows rows).Pairwise fun a b => a.cid < b.cid :=
  (pairwise_cid_inTableOrder h).filter _

theorem mem_keyRows {rows : List SqliteRow} {row : SqliteRow} :
    row ∈ keyRows rows ↔ row ∈ rows ∧ 0 < row.pk := by
  rw [(keyRows_perm rows).mem_iff, List.mem_filter, decide_eq_true_eq]

/-- The order of the table is that of the key where the two agree on every two
columns of the key. -/
theorem pairwise_pk_keyRows_iff {rows : List SqliteRow} (h : (rows.map SqliteRow.cid).Nodup) :
    (keyRows rows).Pairwise (fun a b => a.pk < b.pk)
      ↔ ∀ a ∈ rows, ∀ b ∈ rows, 0 < a.pk → 0 < b.pk → a.cid < b.cid → a.pk < b.pk := by
  have hcid := pairwise_cid_keyRows h
  constructor
  · intro hpk a ha b hb hka hkb
    obtain ⟨i, hi, rfl⟩ := List.getElem_of_mem (mem_keyRows.2 ⟨ha, hka⟩)
    obtain ⟨j, hj, rfl⟩ := List.getElem_of_mem (mem_keyRows.2 ⟨hb, hkb⟩)
    intro hab
    rcases Nat.lt_trichotomy i j with hij | rfl | hji
    · exact List.pairwise_iff_getElem.1 hpk i j hi hj hij
    · exact absurd hab (Int.lt_irrefl _)
    · have := List.pairwise_iff_getElem.1 hcid j i hj hi hji
      omega
  · intro hagree
    refine hcid.imp_of_mem fun {a b} ha hb hab => ?_
    obtain ⟨ha, hka⟩ := mem_keyRows.1 ha
    obtain ⟨hb, hkb⟩ := mem_keyRows.1 hb
    exact hagree a ha b hb hka hkb hab

/-! ## The columns of the rows -/

theorem keyNames_markSoleKey (columns : List Column) :
    Renderer.keyNames (markSoleKey columns) = Renderer.keyNames columns := by
  have hmap : ∀ cs : List Column, Renderer.keyNames
      (cs.map fun c => if c.isPrimaryKey then { c with extra := Dialect.sqlite.marker } else c)
      = Renderer.keyNames cs := by
    intro cs
    rw [Renderer.keyNames, Renderer.keyNames, List.filter_map, List.map_map]
    have hkey : ((fun c : Column => c.isPrimaryKey) ∘ fun c : Column =>
        if c.isPrimaryKey then { c with extra := Dialect.sqlite.marker } else c)
        = fun c => c.isPrimaryKey := by
      funext c
      simp only [Function.comp]
      split <;> rfl
    rw [hkey]
    refine List.map_congr_left fun c _ => ?_
    simp only [Function.comp]
    split <;> rfl
  rw [markSoleKey]
  split
  · exact hmap columns
  · rfl

theorem keyNames_columnsOfSqlite (rows : List SqliteRow) (statement : Option Text) :
    Renderer.keyNames (columnsOfSqlite rows statement) = (keyRows rows).map SqliteRow.name := by
  have hrows : Renderer.keyNames ((inTableOrder rows).map SqliteRow.toColumn)
      = (keyRows rows).map SqliteRow.name := by
    rw [Renderer.keyNames, List.filter_map, List.map_map]
    rfl
  rw [columnsOfSqlite]
  split
  · exact (keyNames_markSoleKey _).trans hrows
  · exact hrows

theorem keyClause_convertAll_columnsOfSqlite {m : TypeMap} {storage : Storage} {rows : List SqliteRow}
    {statement : Option Text} (hkey : ∃ row ∈ rows, 0 < row.pk) :
    (Renderer.mysql storage).keyClause
        (Column.convertAll m .sqliteToMysql (columnsOfSqlite rows statement))
      = [keyClause (keyRows rows)] := by
  have hne : (keyRows rows).map SqliteRow.name ≠ [] := by
    obtain ⟨row, hrow, hpk⟩ := hkey
    exact List.ne_nil_of_mem (List.mem_map_of_mem (mem_keyRows.2 ⟨hrow, hpk⟩))
  rw [Renderer.keyClause_of_none rfl, keyNames_convertAll, keyNames_columnsOfSqlite, if_neg hne,
    List.map_map]
  rfl

end SqliteRow

open SqliteRow

/-- A table of SQLite with a key, in MySQL: the key clause lists the columns of the key
in the order of the table. That is their order in the key exactly if of two columns of
the key the one that comes first in the table comes first in the key. -/
theorem keyClause_follows_table (m : TypeMap) (storage : Storage) (table : Text)
    (statement : Option Text) {rows : List SqliteRow} (hcid : (rows.map SqliteRow.cid).Nodup)
    (hkey : ∃ row ∈ rows, 0 < row.pk) :
    let columns := Column.convertAll m .sqliteToMysql (columnsOfSqlite rows statement)
    let r := Renderer.mysql storage
    ∃ keys : List SqliteRow,
      r.createTable table columns
          = r.createTableOf table (r.columnDefinitions columns ++ [SqliteRow.keyClause keys])
        ∧ keys.Perm (rows.filter fun row => 0 < row.pk)
        ∧ keys.Pairwise (fun a b => a.cid < b.cid)
        ∧ (keys.Pairwise (fun a b => a.pk < b.pk)
          ↔ ∀ a ∈ rows, ∀ b ∈ rows, 0 < a.pk → 0 < b.pk → a.cid < b.cid → a.pk < b.pk) := by
  intro columns r
  refine ⟨keyRows rows, ?_, keyRows_perm rows, pairwise_cid_keyRows hcid,
    pairwise_pk_keyRows_iff hcid⟩
  rw [Renderer.createTable_eq, Renderer.definitions, keyClause_convertAll_columnsOfSqlite hkey]

/-- Rows that come out of order, of a table whose order is that of its key. -/
theorem keyClause_follows_table_agreeing :
    let rows : List SqliteRow :=
      [⟨2, "note".toList, "TEXT".toList, 0, none, 0⟩, ⟨1, "day".toList, "TEXT".toList, 1, none, 2⟩,
        ⟨0, "room".toList, "INTEGER".toList, 1, none, 1⟩]
    let columns := Column.convertAll {} .sqliteToMysql (columnsOfSqlite rows none)
    let r := Renderer.mysql default
    (rows.map SqliteRow.cid).Nodup ∧ (∃ row ∈ rows, 0 < row.pk)
      ∧ ∃ keys : List SqliteRow,
        r.createTable "bookings".toList columns = r.createTableOf "bookings".toList
            (r.columnDefinitions columns ++ [SqliteRow.keyClause keys])
          ∧ keys.Perm (rows.filter fun row => 0 < row.pk)
          ∧ keys.Pairwise fun a b => a.pk < b.pk := by
  intro rows columns r
  have hcid : (rows.map SqliteRow.cid).Nodup := by decide
  have hkey : ∃ row ∈ rows, 0 < row.pk := by decide
  obtain ⟨keys, hclause, hperm, -, horder⟩ := keyClause_follows_table {} default "bookings".toList none
    hcid hkey
  exact ⟨hcid, hkey, keys, hclause, hperm, horder.2 (by decide)⟩

/-- The second column is the first of the key. -/
theorem key_order_not_kept :
    let a : SqliteRow := ⟨0, "a".toList, "INTEGER".toList, 0, none, 2⟩
    let b : SqliteRow := ⟨1, "b".toList, "INTEGER".toList, 0, none, 1⟩
    let rows := [a, b]
    let columns := Column.convertAll {} .sqliteToMysql (columnsOfSqlite rows none)
    let r := Renderer.mysql default
    (rows.map SqliteRow.cid).Nodup
      ∧ ((rows.filter fun row => 0 < row.pk).map SqliteRow.pk).Nodup
      ∧ 2 ≤ (rows.filter fun row => 0 < row.pk).length
      ∧ r.keyClause columns = ["PRIMARY KEY (`a`, `b`)".toList]
      ∧ ¬ ∃ keys : List SqliteRow, keys.Perm (rows.filter fun row => 0 < row.pk)
        ∧ keys.Pairwise (fun x y => x.pk < y.pk) ∧ r.keyClause columns = [SqliteRow.keyClause keys] := by
  intro a b rows columns r
  have hrows : keyRows rows = [a, b] := by
    have hsorted : inTableOrder rows = rows := List.mergeSort_of_pairwise (by decide)
    rw [keyRows, hsorted]
    decide
  have hclause : r.keyClause columns = ["PRIMARY KEY (`a`, `b`)".toList] := by
    rw [keyClause_convertAll_columnsOfSqlite (by decide), hrows]
    decide
  refine ⟨by decide, by decide, by decide, hclause, ?_⟩
  rintro ⟨keys, hperm, hpk, hkeys⟩
  have hsorted : [b, a].Pairwise fun x y => x.pk < y.pk := by decide
  have hba : keys = [b, a] :=
    (hperm.trans (List.Perm.swap b a [])).eq_of_pairwise (fun x y _ _ hxy hyx => by omega) hpk hsorted
  rw [hclause, hba] at hkeys
  exact absurd hkeys (by decide)

end SchemaDialects
