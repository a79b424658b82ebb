import SchemaDialects.Proofs.Column.Markers
import SchemaDialects.Proofs.Rendering.Lines

/-!
# Where a table declares its key

A rendered table declares its primary key once: in a clause behind the columns
that lists the key columns in their order, or, in SQLite, on the one key column
if that is marked. The marker itself stands on every marked column in MySQL, and
in SQLite on the column that declares the key.
-/

namespace SchemaDialects

namespace Renderer

/-! ## The key -/

/-- The definition of a column whose key is declared elsewhere. MySQL has its
marker there all the same. -/
def unkeyed (r : Renderer) (c : Column) : Text :=
  r.dialect.quote c.name ++ ' ' :: c.declaredType
    ++ (if c.nullable then [] else " NOT NULL".toList)
    ++ (c.default?.elim [] fun expr => " DEFAULT ".toList ++ expr)
    ++ if r.dialect = .mysql ∧ Dialect.mysql.isMarked c.extra = true then " AUTO_INCREMENT".toList
      else []

/-- The place of the key, given the definitions of the columns and what follows
them. -/
inductive KeyPlace (r : Renderer) (columns : List Column) : List Text → List Text → Prop
  | nowhere (hkey : ∀ c ∈ columns, c.isPrimaryKey = false) :
      KeyPlace r columns (columns.map r.unkeyed) []
  | clause (hkey : ∃ c ∈ columns, c.isPrimaryKey = true)
      (hinline : r = sqlite → ∀ k, columns.filter (·.isPrimaryKey) = [k] →
        ¬ Dialect.sqlite.Marks k.extra) :
      KeyPlace r columns (columns.map r.unkeyed)
        ["PRIMARY KEY (".toList
          ++ Text.join ", ".toList ((columns.filter (·.isPrimaryKey)).map fun c => r.dialect.quote c.name)
          ++ ")".toList]
  | inline {pre post : List Column} {k : Column} (hr : r = sqlite) (hcolumns : columns = pre ++ k :: post)
      (hkey : k.isPrimaryKey = true) (hothers : ∀ c ∈ pre ++ post, c.isPrimaryKey = false)
      (hmark : Dialect.sqlite.Marks k.extra) :
      KeyPlace r columns
        (pre.map r.unkeyed ++ (r.unkeyed k ++ " PRIMARY KEY AUTOINCREMENT".toList) :: post.map r.unkeyed)
        []

theorem column_false (r : Renderer) (c : Column) : r.column c false = r.unkeyed c := by
  cases r with
  | mysql storage =>
    have hmarker : " AUTO_INCREMENT".toList = ' ' :: Dialect.mysql.marker := rfl
    rw [column, keyAttributes_mysql, unkeyed, hmarker]
    simp only [dialect, true_and]
  | sqlite =>
    have hno : ¬ (sqlite.dialect = .mysql ∧ Dialect.mysql.isMarked c.extra = true) :=
      fun h => absurd h.1 (by decide)
    rw [column, unkeyed, if_neg hno]
    rfl

theorem column_true_of_isMarked {c : Column} (h : Dialect.sqlite.isMarked c.extra = true) :
    sqlite.column c true = sqlite.unkeyed c ++ " PRIMARY KEY AUTOINCREMENT".toList := by
  have hphrase : " PRIMARY KEY".toList ++ ' ' :: Dialect.sqlite.marker
      = " PRIMARY KEY AUTOINCREMENT".toList := rfl
  rw [← column_false, column, column, keyAttributes_inline, if_pos h, hphrase]
  exact congrArg (· ++ _) (List.append_nil _).symm

theorem inlineKey?_eq_none_of_filter {columns : List Column} (h : sqlite.inlineKey? columns = none)
    {k : Column} (hk : columns.filter (·.isPrimaryKey) = [k]) :
    Dialect.sqlite.isMarked k.extra = false := by
  by_contra hm
  obtain ⟨i, -, hi⟩ := exists_inlineKey? hk (by simpa using hm)
  rw [h] at hi
  cases hi

theorem keyPlace_of_none {r : Renderer} {columns : List Column} (h : r.inlineKey? columns = none) :
    r.KeyPlace columns (r.columnDefinitions columns) (r.keyClause columns) := by
  have hcolumns : (columns.map fun c => r.column c false) = columns.map r.unkeyed :=
    List.map_congr_left fun c _ => column_false r c
  rw [columnDefinitions_of_none h, hcolumns, keyClause_of_none h]
  by_cases hkey : ∃ c ∈ columns, c.isPrimaryKey = true
  · have hnames : keyNames columns ≠ [] := by
      obtain ⟨c, hc, hk⟩ := hkey
      exact List.ne_nil_of_mem (List.mem_map_of_mem (List.mem_filter.2 ⟨hc, hk⟩))
    rw [if_neg hnames, keyNames, List.map_map]
    refine .clause hkey ?_
    rintro rfl k hk hm
    exact absurd (isMarked_iff.2 hm) (by simp [inlineKey?_eq_none_of_filter h hk])
  · have hnone : ∀ c ∈ columns, c.isPrimaryKey = false := fun c hc => by
      simpa using fun hk => hkey ⟨c, hc, hk⟩
    have hnames : keyNames columns = [] := by rw [keyNames, filter_not_key hnone, List.map_nil]
    rw [if_pos hnames]
    exact .nowhere hnone

theorem keyPlace_of_sole {pre post : List Column} {k : Column} (h : IsSoleKey pre k post)
    (hm : Dialect.sqlite.isMarked k.extra = true) :
    sqlite.KeyPlace (pre ++ k :: post) (sqlite.columnDefinitions (pre ++ k :: post))
      (sqlite.keyClause (pre ++ k :: post)) := by
  have hi : sqlite.inlineKey? (pre ++ k :: post) = some pre.length := by
    rw [inlineKey?_of_sole h, if_pos hm]
  have hcolumns : ∀ cs : List Column, (cs.map fun c => sqlite.column c false) = cs.map sqlite.unkeyed :=
    fun cs => List.map_congr_left fun c _ => column_false sqlite c
  rw [columnDefinitions_of_some hi, hcolumns, hcolumns, column_true_of_isMarked hm,
    keyClause_of_isSome hi]
  exact .inline rfl rfl h.key h.others (isMarked_iff.1 hm)

theorem keyPlace (r : Renderer) (columns : List Column) :
    r.KeyPlace columns (r.columnDefinitions columns) (r.keyClause columns) := by
  cases h : r.inlineKey? columns with
  | none => exact keyPlace_of_none h
  | some i =>
    cases r with
    | mysql storage => cases h
    | sqlite =>
      obtain ⟨pre, k, post, rfl, hsole, hm⟩ := exists_of_inlineKey? h
      exact keyPlace_of_sole hsole hm

/-- The statement has one definition for each column, in the order of the
columns, and declares the key in one place, if there is one to declare. -/
theorem createTable_declares_key_once (r : Renderer) (table : Text) (columns : List Column) :
    ∃ definitions clause, r.createTable table columns = r.createTableOf table (definitions ++ clause)
      ∧ r.KeyPlace columns definitions clause :=
  ⟨_, _, createTable_eq r table columns, keyPlace r columns⟩

/-! ## The marker -/

/-- The column at `i` is rendered as it would be without extra attributes, and
with the marker behind. -/
def RendersMarker (r : Renderer) (columns : List Column) (i : Nat) : Prop :=
  ∃ c, columns[i]? = some c ∧ (r.columnDefinitions columns)[i]?
    = some (r.column (c.withExtra []) (r.inlineKey? columns == some i) ++ ' ' :: r.dialect.marker)

theorem keyAttributes_eq (r : Renderer) (c : Column) (inline : Bool) :
    r.keyAttributes c inline = r.keyAttributes (c.withExtra []) inline
      ++ if r.dialect.isMarked c.extra = true ∧ (r.dialect = .mysql ∨ inline = true)
        then ' ' :: r.dialect.marker else [] := by
  have hnil : ∀ d : Dialect, d.isMarked (c.withExtra []).extra = false := isMarked_nil
  cases r with
  | mysql storage =>
    rw [keyAttributes_mysql, keyAttributes_mysql, hnil]
    simp only [dialect, Bool.false_eq_true, if_false, List.nil_append, true_or, and_true]
  | sqlite =>
    cases inline with
    | false =>
      have hno : ¬ (sqlite.dialect.isMarked c.extra = true ∧ (sqlite.dialect = .mysql ∨ false = true)) :=
        fun h => absurd h.2 (by decide)
      rw [if_neg hno]
      rfl
    | true =>
      rw [keyAttributes_inline, keyAttributes_inline, hnil]
      simp only [dialect, Bool.false_eq_true, if_false, List.append_nil, or_true, and_true]

theorem column_eq_withoutExtra (r : Renderer) (c : Column) (inline : Bool) :
    r.column c inline = r.column (c.withExtra []) inline
      ++ if r.dialect.isMarked c.extra = true ∧ (r.dialect = .mysql ∨ inline = true)
        then ' ' :: r.dialect.marker else [] := by
  rw [column, keyAttributes_eq, ← List.append_assoc]
  rfl

theorem getElem?_columnDefinitions (r : Renderer) (columns : List Column) (i : Nat) :
    (r.columnDefinitions columns)[i]?
      = columns[i]?.map fun c => r.column c (r.inlineKey? columns == some i) := by
  rw [columnDefinitions_zipIdx, List.getElem?_map, List.getElem?_zipIdx, Option.map_map]
  simp [Function.comp_def]

theorem rendersMarker_iff {r : Renderer} {columns : List Column} {i : Nat} :
    r.RendersMarker columns i ↔ ∃ c, columns[i]? = some c ∧ r.dialect.isMarked c.extra = true
      ∧ (r.dialect = .mysql ∨ r.inlineKey? columns = some i) := by
  refine exists_congr fun c => and_congr_right fun hc => ?_
  rw [getElem?_columnDefinitions, hc, Option.map_some, column_eq_withoutExtra, Option.some_inj,
    List.append_cancel_left_eq]
  split
  · next h => exact iff_of_true rfl (by simpa using h)
  · next h => exact iff_of_false (by simp) (by simpa using h)

end Renderer

end SchemaDialects
