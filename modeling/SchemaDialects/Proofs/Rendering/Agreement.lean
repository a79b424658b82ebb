import SchemaDialects.Proofs.Column.Markers
import SchemaDialects.Proofs.Rendering.KeptLines

/-!
# Both kinds of conversion agree

Converting the statement that is rendered from plain columns gives the statement
that is rendered from the converted columns. Only where SQLite declares the key
on a column do the two differ: text keeps the key there, and columns have it in a
clause.
-/

namespace SchemaDialects

open Text Definition Renderer

/-- A table of plain columns. -/
structure IsPlainTable (d : Dialect) (table : Text) (columns : List Column) : Prop where
  table : Settings.isBareIdentifier table = true
  plain : ∀ c ∈ columns, c.IsPlain d
  ne_nil : columns ≠ []

/-- No column has the dialect's marker. -/
def Unmarked (d : Dialect) (columns : List Column) : Prop :=
  ∀ c ∈ columns, d.isMarked c.extra = false

/-- One column has the dialect's marker, and that column alone is the key. -/
def SoleKeyMarked (d : Dialect) (columns : List Column) : Prop :=
  ∃ k, columns.filter (d.isMarked ·.extra) = [k] ∧ columns.filter (·.isPrimaryKey) = [k]

theorem SoleKeyMarked.exists_split {d : Dialect} {columns : List Column}
    (h : SoleKeyMarked d columns) :
    ∃ pre k post, columns = pre ++ k :: post ∧ IsSoleKey pre k post
      ∧ d.isMarked k.extra = true ∧ Unmarked d (pre ++ post) := by
  obtain ⟨k, hm, hk⟩ := h
  obtain ⟨pre, post, rfl, -⟩ := List.filter_eq_cons_iff.1 hk
  obtain ⟨hmk, hothers⟩ := filter_split_eq_singleton_iff.1 hm
  exact ⟨pre, k, post, rfl, isSoleKey_iff_filter.2 hk, hmk, hothers⟩

/-! ## Converted columns -/

section
variable (m : TypeMap) (d : Direction)

/-- What does not look at the extra attributes is the same for every converted
column, whatever came before it. -/
theorem map_convertFrom {β : Type} {g h : Column → β}
    (hg : ∀ c seen, g (c.convert m d seen).column = h c) (seen : Bool) (columns : List Column) :
    ((Column.convertFrom m d seen columns).map ColumnOutcome.column).map g = columns.map h := by
  induction columns generalizing seen with
  | nil => rfl
  | cons c cs ih =>
    rw [Column.convertFrom, List.map_cons, List.map_cons, hg, ih, List.map_cons]

theorem columnLines_convertAll (columns : List Column) :
    columnLines (Column.convertAll m d columns) = columnLines (columns.map (·.retyped m d)) := by
  have := map_convertFrom (g := fun c => c.line []) (h := fun c => (c.retyped m d).line []) m d
    (fun _ _ => rfl) false columns
  rw [columnLines, columnLines, List.map_map]
  exact this

theorem keyNames_convertFrom (seen : Bool) (columns : List Column) :
    keyNames ((Column.convertFrom m d seen columns).map ColumnOutcome.column)
      = keyNames columns := by
  induction columns generalizing seen with
  | nil => rfl
  | cons c cs ih =>
    have ih := ih (seen || d.source.isMarked c.extra)
    rw [keyNames] at ih ⊢
    rw [keyNames, Column.convertFrom, List.map_cons]
    by_cases hk : c.isPrimaryKey = true
    · rw [List.filter_cons_of_pos hk, List.filter_cons_of_pos (by simpa [Column.convert] using hk),
        List.map_cons, ih]
      rfl
    · rw [List.filter_cons_of_neg hk, List.filter_cons_of_neg (by simpa [Column.convert] using hk), ih]
      rfl

theorem keyNames_convertAll (columns : List Column) :
    keyNames (Column.convertAll m d columns) = keyNames columns :=
  keyNames_convertFrom m d false columns

theorem keyLines_convertAll (columns : List Column) :
    keyLines (Column.convertAll m d columns) = keyLines columns := by
  rw [keyLines, keyLines, keyNames_convertAll]

theorem map_name_convertAll (columns : List Column) :
    (Column.convertAll m d columns).map Column.name = columns.map Column.name :=
  map_convertFrom m d (fun _ _ => rfl) false columns

theorem extra_convertAll {columns : List Column} (h : Unmarked d.source columns) :
    ∀ c ∈ Column.convertAll m d columns, c.extra = [] := by
  have hall : ∀ (seen : Bool) {cs : List Column}, Unmarked d.source cs →
      ∀ c ∈ (Column.convertFrom m d seen cs).map ColumnOutcome.column, c.extra = [] := by
    intro seen cs hcs
    induction cs generalizing seen with
    | nil => simp [Column.convertFrom]
    | cons c cs ih =>
      have hc := hcs c (by simp)
      rw [Column.convertFrom, List.map_cons]
      refine List.forall_mem_cons.2 ⟨?_, ih _ fun x hx => hcs x (by simp [hx])⟩
      simp [Column.convert, hc]
  exact hall false h

end

/-! ## Rendered lines -/

section
variable {d : Dialect} {columns : List Column}

theorem IsPlainTable.names {table : Text} (h : IsPlainTable d table columns) :
    ∀ c ∈ columns, IsPlainName c.name := fun c hc => (h.plain c hc).name

theorem definitions_of_none {r : Renderer} (hn : ∀ c ∈ columns, IsPlainName c.name)
    (h : r.inlineKey? columns = none) {key : Column → List Text}
    (hk : ∀ c ∈ columns, r.keyParts c false = key c) :
    r.definitions columns
      = (columns.map (fun c => c.line (key c)) ++ keyLines columns).map
          (TableLine.text r.dialect.quoteChar) := by
  have hmap : columns.map (fun c => c.line (r.keyParts c false))
      = columns.map fun c => c.line (key c) := List.map_congr_left fun c hc => by rw [hk c hc]
  rw [definitions, columnDefinitions_eq r hn h, keyClause_eq r hn h, hmap, List.map_append]

theorem inlineKey?_of_unmarked (storage : Storage) (h : Unmarked d columns) :
    (ofDialect d storage).inlineKey? columns = none := by
  cases d with
  | mysql => rfl
  | sqlite =>
    refine Option.eq_none_iff_forall_ne_some.2 fun i hi => ?_
    obtain ⟨pre, k, post, rfl, -, hm⟩ := exists_of_inlineKey? hi
    rw [h k (by simp)] at hm
    cases hm

theorem keyParts_of_unmarked (storage : Storage) (h : Unmarked d columns) :
    ∀ c ∈ columns, (ofDialect d storage).keyParts c false = [] := by
  intro c hc
  cases d with
  | mysql => rw [ofDialect, keyParts, h c hc]; rfl
  | sqlite => rfl

theorem createTable_of_none {r : Renderer} {table : Text}
    (hb : Settings.isBareIdentifier table = true) (hn : ∀ c ∈ columns, IsPlainName c.name)
    (h : r.inlineKey? columns = none) (hk : ∀ c ∈ columns, r.keyParts c false = []) :
    r.createTable table columns
      = tableText r.dialect.quoteChar table (columnLines columns ++ keyLines columns) r.ending :=
  createTable_of_definitions hb (definitions_of_none hn h hk)

theorem createTable_of_unmarked {table : Text} (hb : Settings.isBareIdentifier table = true)
    (hn : ∀ c ∈ columns, IsPlainName c.name) (storage : Storage) (hu : Unmarked d columns) :
    (ofDialect d storage).createTable table columns
      = tableText d.quoteChar table (columnLines columns ++ keyLines columns)
          (endingOf d storage) := by
  rw [createTable_of_none hb hn (inlineKey?_of_unmarked storage hu) (keyParts_of_unmarked storage hu)]
  cases d <;> rfl

end

theorem unmarked_of_extra {d : Dialect} {columns : List Column} (h : ∀ c ∈ columns, c.extra = []) :
    Unmarked d columns := by
  intro c hc
  rw [h c hc, isMarked_nil]

/-! ## Without a marker -/

theorem names_convertAll {m : TypeMap} {d : Direction} {columns : List Column}
    (hn : ∀ c ∈ columns, IsPlainName c.name) :
    ∀ k ∈ Column.convertAll m d columns, IsPlainName k.name := by
  intro k hk
  have : k.name ∈ (Column.convertAll m d columns).map Column.name := List.mem_map_of_mem hk
  rw [map_name_convertAll] at this
  obtain ⟨x, hx, he⟩ := List.mem_map.1 this
  exact he ▸ hn x hx

theorem source_ending {d : Direction} {storage : Storage} (hs : d.source = .mysql → storage.IsBare) :
    d.source = .sqlite ∨ (d = .mysqlToSqlite ∧ storage.IsBare) := by
  cases d with
  | mysqlToSqlite => exact Or.inr ⟨rfl, hs rfl⟩
  | sqliteToMysql => exact Or.inl rfl

theorem statement_of_unmarked {c : Conversion} (hc : c.strict = false) {table : Text}
    {columns : List Column} (ht : IsPlainTable c.direction.source table columns) (storage : Storage)
    (hs : c.direction.source = .mysql → storage.IsBare) (hu : Unmarked c.direction.source columns) :
    (c.statement ((ofDialect c.direction.source storage).createTable table columns)).value
      = .ok ((ofDialect c.direction.target c.storage).createTable table
          (Column.convertAll c.types c.direction columns)) := by
  have hplain : ∀ l ∈ columnLines columns ++ keyLines columns, l.IsPlain := by
    intro l hl
    rcases List.mem_append.1 hl with hl | hl
    · exact isPlain_columnLines ht.plain l hl
    · exact isPlain_keyLines ht.names l hl
  have hlines := List.rel_append (convertsTo_columnLines (m := c.types) ht.plain)
    (convertsTo_keyLines ht.names)
  have htarget := createTable_of_unmarked (d := c.direction.target) ht.table
    (names_convertAll (m := c.types) (d := c.direction) ht.names) c.storage
    (unmarked_of_extra (extra_convertAll c.types c.direction hu))
  rw [createTable_of_unmarked ht.table ht.names storage hu, htarget, columnLines_convertAll,
    keyLines_convertAll]
  exact statement_of_lines hc (isNameQuote_quoteChar _) ht.table storage (source_ending hs) hplain
    (by simp [columnLines, ht.ne_nil]) hlines

/-! ## The marked key -/

theorem keyLines_of_sole {pre post : List Column} {k : Column} (h : IsSoleKey pre k post) :
    keyLines (pre ++ k :: post) = [.key [k.name]] := by
  rw [keyLines, keyNames_of_sole h, if_neg (by simp)]

section
variable {pre post : List Column} {k : Column} (hn : ∀ c ∈ pre ++ k :: post, IsPlainName c.name)
variable (h : IsSoleKey pre k post)
include hn h

/-- MySQL writes the marker on the column and the key after the columns. -/
theorem mysql_definitions_of_sole (storage : Storage) (hm : Dialect.mysql.isMarked k.extra = true)
    (hu : Unmarked .mysql (pre ++ post)) :
    (mysql storage).columnDefinitions (pre ++ k :: post)
        = (inlineLines pre k post [Dialect.mysql.marker]).map (TableLine.text '`')
      ∧ (mysql storage).keyClause (pre ++ k :: post) = [(TableLine.key [k.name]).text '`'] := by
  have hparts : ∀ {cs : List Column}, (∀ c ∈ cs, c ∈ pre ++ post) →
      cs.map (fun c => c.line ((mysql storage).keyParts c false)) = columnLines cs := by
    intro cs hcs
    refine List.map_congr_left fun c hc => ?_
    rw [keyParts, hu c (hcs c hc)]
    rfl
  have hk : (mysql storage).keyParts k false = [Dialect.mysql.marker] := by
    rw [keyParts, hm]
    rfl
  have hlines : (pre ++ k :: post).map (fun c => c.line ((mysql storage).keyParts c false))
      = inlineLines pre k post [Dialect.mysql.marker] := by
    rw [List.map_append, List.map_cons, hparts fun c hc => by simp [hc],
      hparts fun c hc => by simp [hc], hk, inlineLines]
  constructor
  · rw [columnDefinitions_eq _ hn rfl, hlines]
    rfl
  · rw [keyClause_eq _ hn rfl, keyLines_of_sole h]
    rfl

/-- SQLite writes the key and the marker on the column. -/
theorem sqlite_definitions_of_sole (hm : Dialect.sqlite.isMarked k.extra = true) :
    sqlite.definitions (pre ++ k :: post)
      = (inlineLines pre k post (phraseParts .mysqlToSqlite)).map (TableLine.text '"') := by
  have hinline : inlineKey? sqlite (pre ++ k :: post) = some pre.length := by
    rw [inlineKey?_of_sole h, if_pos hm]
  have hk : sqlite.keyParts k true = phraseParts .mysqlToSqlite := by
    rw [keyParts, hm]
    rfl
  rw [definitions, columnDefinitions_of_sole hn hinline, keyClause_of_isSome hinline, hk,
    List.append_nil]
  rfl

end

theorem convertAll_of_marked {m : TypeMap} {d : Direction} {pre post : List Column} {k : Column}
    (hm : d.source.isMarked k.extra = true) (hu : Unmarked d.source (pre ++ post)) :
    Column.convertAll m d (pre ++ k :: post)
      = pre.map (fun c => (c.retyped m d).withExtra [])
        ++ (k.retyped m d).withExtra d.target.marker
          :: post.map (fun c => (c.retyped m d).withExtra []) := by
  have hpost : ∀ {cs : List Column}, Unmarked d.source cs → ∀ seen,
      (Column.convertFrom m d seen cs).map ColumnOutcome.column
        = cs.map fun c => (c.retyped m d).withExtra [] := by
    intro cs hcs
    induction cs with
    | nil => exact fun _ => rfl
    | cons c cs ih =>
      intro seen
      have hc := hcs c (by simp)
      rw [Column.convertFrom, List.map_cons, ih fun x hx => hcs x (by simp [hx])]
      simp [Column.convert, Column.retyped, Column.withExtra, hc]
  rw [Column.convertAll, Column.outcomes]
  induction pre with
  | nil =>
    rw [List.nil_append, Column.convertFrom, List.map_cons, hpost fun x hx => hu x (by simpa using hx)]
    simp [Column.convert, Column.retyped, Column.withExtra, hm]
  | cons c pre ih =>
    have hc := hu c (by simp)
    rw [List.cons_append, Column.convertFrom, List.map_cons, hc, Bool.or_false,
      ih fun x hx => hu x (List.mem_cons_of_mem _ hx)]
    simp [Column.convert, Column.retyped, Column.withExtra, hc]

section
variable {m : TypeMap} {d : Direction} {table : Text} {pre post : List Column} {k : Column}

theorem isSoleKey_retyped (h : IsSoleKey pre k post) :
    IsSoleKey (pre.map fun c => (c.retyped m d).withExtra [])
      ((k.retyped m d).withExtra d.target.marker) (post.map fun c => (c.retyped m d).withExtra []) := by
  refine ⟨h.key, fun c hc => ?_⟩
  rw [← List.map_append] at hc
  obtain ⟨x, hx, rfl⟩ := List.mem_map.1 hc
  exact h.others x hx

theorem inlineLines_retyped (key : List Text) :
    inlineLines (pre.map fun c => (c.retyped m d).withExtra [])
        ((k.retyped m d).withExtra d.target.marker) (post.map fun c => (c.retyped m d).withExtra []) key
      = inlineLines (pre.map (·.retyped m d)) (k.retyped m d) (post.map (·.retyped m d)) key := by
  rw [inlineLines, inlineLines, columnLines, columnLines, columnLines, columnLines, List.map_map,
    List.map_map, List.map_map, List.map_map]
  rfl

theorem unmarked_retyped (e : Dialect) :
    Unmarked e (pre.map (fun c => (c.retyped m d).withExtra [])
      ++ post.map fun c => (c.retyped m d).withExtra []) := by
  refine unmarked_of_extra fun c hc => ?_
  rw [← List.map_append] at hc
  obtain ⟨x, -, rfl⟩ := List.mem_map.1 hc
  rfl

end

section
variable {m : TypeMap} {table : Text} {columns : List Column}

theorem statement_of_marked_mysql {storage st : Storage} (ht : IsPlainTable .mysql table columns)
    (hs : storage.IsBare) (hm : SoleKeyMarked .mysql columns) :
    (Conversion.statement ⟨.mysqlToSqlite, m, st, false⟩
        ((mysql storage).createTable table columns)).value
      = .ok (sqlite.createTable table (Column.convertAll m .mysqlToSqlite columns)) := by
  obtain ⟨pre, k, post, rfl, hkey, hmk, hu⟩ := hm.exists_split
  have hall := convertAll_of_marked (m := m) (d := .mysqlToSqlite) hmk hu
  have hnames := names_convertAll (m := m) (d := .mysqlToSqlite) ht.names
  rw [hall] at hnames
  have hname : ∀ n ∈ [k.name], IsPlainName n := by simpa using (ht.plain k (by simp)).name
  -- The source has the marker on the column and a key clause, which goes.
  obtain ⟨hcols, hclause⟩ := mysql_definitions_of_sole ht.names hkey storage hmk hu
  have hsource : (mysql storage).definitions (pre ++ k :: post)
      = (inlineLines pre k post [Dialect.mysql.marker] ++ [TableLine.key [k.name]]).map
          (TableLine.text '`') := by
    rw [definitions, hcols, hclause, List.map_append]
    rfl
  have hplain : ∀ l ∈ inlineLines pre k post [Dialect.mysql.marker] ++ [.key [k.name]], l.IsPlain := by
    intro l hl
    rcases List.mem_append.1 hl with hl | hl
    · exact isPlain_inlineLines ht.plain (List.forall_mem_singleton.2 (isAtom_marker .mysql)) l hl
    · rw [List.mem_singleton.1 hl]
      exact hname
  have hkept := keptLines_of_sole m (d := .mysqlToSqlite) ht.plain [] [] (Or.inl rfl)
    (.cons ⟨none, TableLine.convertsTo_key m .mysqlToSqlite hname⟩ .nil)
  have hdrop := hkept.trans (eraseLast_key .sqlite (hname _ (by simp)) _)
  -- The target has the key on the column.
  have htarget := sqlite_definitions_of_sole hnames
    (isSoleKey_retyped (m := m) (d := .mysqlToSqlite) hkey) (isMarked_marker .sqlite)
  rw [inlineLines_retyped] at htarget
  have hvalue := value_statement_tableText (c := ⟨.mysqlToSqlite, m, st, false⟩) (e := .mysql) rfl
    (isNameQuote_quoteChar .mysql) ht.table hplain (by simp) (Or.inr ⟨rfl, hs⟩)
    (by simp [inlineLines]) hdrop
  have hin := createTable_of_definitions ht.table hsource
  have hout := createTable_of_definitions ht.table htarget
  rw [hin, hall, hout]
  exact hvalue

theorem findIdx_of_sole {pre post : List Column} {k : Column} (h : IsSoleKey pre k post) :
    (pre ++ k :: post).findIdx (·.isPrimaryKey) = pre.length := by
  have hpre : pre.findIdx (·.isPrimaryKey) = pre.length :=
    List.findIdx_eq_length.2 fun c hc => h.others c (List.mem_append_left _ hc)
  rw [List.findIdx_append, hpre, if_neg (Nat.lt_irrefl _), List.findIdx_cons, h.key, cond_true,
    Nat.zero_add]

theorem text_phraseParts (c : Column) :
    (c.line (phraseParts .sqliteToMysql)).text '`'
      = (c.line [Dialect.mysql.marker]).text '`' ++ " PRIMARY KEY".toList := by
  have hp : spaced (phraseParts .sqliteToMysql)
      = spaced [Dialect.mysql.marker] ++ " PRIMARY KEY".toList := by decide
  rw [Column.line, Column.line, TableLine.text, TableLine.text, columnLine_eq, columnLine_eq,
    spaced_cons, spaced_cons, spaced_append, spaced_append, hp]
  simp

/-- Text keeps the key on its column, where columns have it in a clause. -/
theorem statement_of_marked_sqlite {storage : Storage} (ht : IsPlainTable .sqlite table columns)
    (hm : SoleKeyMarked .sqlite columns) :
    ∃ before key after clause,
      (mysql storage).columnDefinitions (Column.convertAll m .sqliteToMysql columns)
          = before ++ key :: after
        ∧ before.length = columns.findIdx (·.isPrimaryKey)
        ∧ (mysql storage).keyClause (Column.convertAll m .sqliteToMysql columns) = [clause]
        ∧ (Conversion.statement ⟨.sqliteToMysql, m, storage, false⟩
            (sqlite.createTable table columns)).value
          = .ok ((mysql storage).createTableOf table
              (before ++ (key ++ " PRIMARY KEY".toList) :: after)) := by
  obtain ⟨pre, k, post, rfl, hkey, hmk, hu⟩ := hm.exists_split
  have hall := convertAll_of_marked (m := m) (d := .sqliteToMysql) hmk hu
  have hnames := names_convertAll (m := m) (d := .sqliteToMysql) ht.names
  rw [hall] at hnames
  obtain ⟨hcols, hclause⟩ := mysql_definitions_of_sole hnames
    (isSoleKey_retyped (m := m) (d := .sqliteToMysql) hkey) storage (isMarked_marker .mysql)
    (unmarked_retyped .mysql)
  rw [inlineLines_retyped, inlineLines, List.map_append, List.map_cons] at hcols
  refine ⟨_, _, _, _, hall ▸ hcols, ?_, hall ▸ hclause, ?_⟩
  · rw [findIdx_of_sole hkey, columnLines, List.length_map, List.length_map, List.length_map]
  · have hvalue := statement_of_inline (c := ⟨.sqliteToMysql, m, storage, false⟩) (e := .sqlite)
      rfl (isNameQuote_quoteChar .sqlite) ht.table default (Or.inl rfl) ht.plain
      ["PRIMARY".toList, "KEY".toList] [] rfl
    have hin := createTable_of_definitions ht.table (sqlite_definitions_of_sole ht.names hkey hmk)
    have hout := createTableOf_lines (mysql storage) ht.table
      (inlineLines (pre.map (·.retyped m .sqliteToMysql)) (k.retyped m .sqliteToMysql)
        (post.map (·.retyped m .sqliteToMysql)) (phraseParts .sqliteToMysql))
    rw [inlineLines, List.map_append, List.map_cons] at hout
    rw [hin, ← text_phraseParts]
    exact hvalue.trans (congrArg Except.ok hout.symm)

end

/-- Converting the statement of a plain table is rendering its converted columns. -/
theorem createTable_agrees {table : Text} {columns : List Column} {storage : Storage}
    (hs : storage.IsBare) {c : Conversion} (hc : c.strict = false) :
    (IsPlainTable .mysql table columns → c.direction = .mysqlToSqlite →
        Unmarked .mysql columns ∨ SoleKeyMarked .mysql columns →
      (c.statement ((mysql storage).createTable table columns)).value
        = .ok (sqlite.createTable table (Column.convertAll c.types .mysqlToSqlite columns)))
    ∧ (IsPlainTable .sqlite table columns → c.direction = .sqliteToMysql →
      (Unmarked .sqlite columns →
        (c.statement (sqlite.createTable table columns)).value
          = .ok ((mysql c.storage).createTable table
              (Column.convertAll c.types .sqliteToMysql columns)))
      ∧ (SoleKeyMarked .sqlite columns →
        ∃ before key after clause,
          (mysql c.storage).columnDefinitions (Column.convertAll c.types .sqliteToMysql columns)
              = before ++ key :: after
            ∧ before.length = columns.findIdx (·.isPrimaryKey)
            ∧ (mysql c.storage).keyClause (Column.convertAll c.types .sqliteToMysql columns)
              = [clause]
            ∧ (c.statement (sqlite.createTable table columns)).value
              = .ok ((mysql c.storage).createTableOf table
                  (before ++ (key ++ " PRIMARY KEY".toList) :: after)))) := by
  obtain ⟨d, m, st, strict⟩ := c
  obtain rfl : strict = false := hc
  refine ⟨?_, ?_⟩
  · rintro ht rfl (hu | hm)
    · exact statement_of_unmarked (c := ⟨.mysqlToSqlite, m, st, false⟩) rfl ht _ (fun _ => hs) hu
    · exact statement_of_marked_mysql ht hs hm
  · rintro ht rfl
    refine ⟨fun hu => ?_, fun hm => statement_of_marked_sqlite ht hm⟩
    exact statement_of_unmarked (c := ⟨.sqliteToMysql, m, st, false⟩) rfl ht default
      (by rintro ⟨⟩) hu

/-- Columns of a plain table in both dialects, the first with the markers `extra`. -/
def sampleColumns (extra : Text) : List Column :=
  [((Column.ofType "id".toList "Integer".toList).notNull.primaryKey).withExtra extra,
   (Column.ofType "comment".toList "text".toList).withDefault "NULL".toList,
   (Column.ofType "PRIMARY".toList "REAL(10,2)".toList).withDefault "-1.5e-3".toList]

theorem isPlainTable_sampleColumns (d : Dialect) (extra : Text) :
    IsPlainTable d "orders".toList (sampleColumns extra) := by
  have hname : ∀ n ∈ ["id".toList, "comment".toList, "PRIMARY".toList], IsPlainName n := by
    intro n hn
    have hb : ∀ n ∈ ["id".toList, "comment".toList, "PRIMARY".toList],
        Settings.isBareIdentifier n = true ∧ ∀ d ∈ [Dialect.mysql, .sqlite], upper n ≠ d.marker := by
      decide
    exact ⟨(hb n hn).1, fun d => (hb n hn).2 d (by cases d <;> simp)⟩
  have hsize : IsSize "(10,2)".toList :=
    Or.inr (Or.inr ⟨"10".toList, "2".toList, ⟨by decide, by decide⟩, ⟨by decide, by decide⟩, by decide⟩)
  refine ⟨by decide, ?_, by simp [sampleColumns]⟩
  refine List.forall_mem_cons.2 ⟨⟨hname _ (by simp [Column.withExtra, Column.primaryKey, Column.notNull,
      Column.ofType]), ⟨"Integer".toList, [], by cases d <;> decide, Or.inl rfl, rfl⟩, by rintro v ⟨⟩⟩, ?_⟩
  refine List.forall_mem_cons.2 ⟨⟨hname _ (by simp [Column.withDefault, Column.ofType]),
    ⟨"text".toList, [], by cases d <;> decide, Or.inl rfl, by decide⟩, ?_⟩, ?_⟩
  · rintro v ⟨⟩
    exact Or.inr (Or.inl rfl)
  refine List.forall_mem_singleton.2 ⟨hname _ (by simp [Column.withDefault, Column.ofType]),
    ⟨"REAL".toList, "(10,2)".toList, by cases d <;> decide, hsize, by decide⟩, ?_⟩
  rintro v ⟨⟩
  exact Or.inl ⟨by decide, by decide +kernel⟩

theorem createTable_agrees_orders :
    (Conversion.statement { direction := .mysqlToSqlite }
        ((mysql default).createTable "orders".toList (sampleColumns "auto_increment".toList))).value
      = .ok (sqlite.createTable "orders".toList
          (Column.convertAll default .mysqlToSqlite (sampleColumns "auto_increment".toList)))
    ∧ (Conversion.statement { direction := .sqliteToMysql }
        (sqlite.createTable "orders".toList (sampleColumns []))).value
      = .ok ((mysql default).createTable "orders".toList
          (Column.convertAll default .sqliteToMysql (sampleColumns [])))
    ∧ ∃ out, (Conversion.statement { direction := .sqliteToMysql }
        (sqlite.createTable "orders".toList (sampleColumns "AUTOINCREMENT".toList))).value = .ok out := by
  have hbare : Storage.IsBare default := ⟨by decide, by decide⟩
  refine ⟨?_, ?_, ?_⟩
  · exact (createTable_agrees (c := { direction := .mysqlToSqlite }) hbare rfl).1
      (isPlainTable_sampleColumns .mysql _) rfl (Or.inr ⟨_, rfl, rfl⟩)
  · exact ((createTable_agrees (c := { direction := .sqliteToMysql }) hbare rfl).2
      (isPlainTable_sampleColumns .sqlite _) rfl).1 (by unfold Unmarked; decide)
  · obtain ⟨_, _, _, _, -, -, -, h⟩ :=
      ((createTable_agrees (c := { direction := .sqliteToMysql }) hbare rfl).2
        (isPlainTable_sampleColumns .sqlite "AUTOINCREMENT".toList) rfl).2 ⟨_, rfl, rfl⟩
    exact ⟨_, h⟩

end SchemaDialects
