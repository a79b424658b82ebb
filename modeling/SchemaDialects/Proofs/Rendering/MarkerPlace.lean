import SchemaDialects.Proofs.Rendering.KeyPlace

/-!
# The marker in SQLite

SQLite takes its marker on a lone key column of the type `INTEGER` only. The
renderer writes it on a lone key column of any type. Where no such column is
marked, it tells of every marker, and where one is, of none: a marker on another
column is then lost without a word.
-/

namespace SchemaDialects

namespace Renderer

section
variable {columns : List Column} {i : Nat} {k : Column}

/-! ## Rendered markers -/

theorem rendersMarker_iff_inlineKey? :
    sqlite.RendersMarker columns i ↔ sqlite.inlineKey? columns = some i := by
  rw [rendersMarker_iff]
  constructor
  · rintro ⟨_, _, _, h | h⟩
    · cases h
    · exact h
  · intro h
    obtain ⟨k, hi, -, hm⟩ := inlineKey?_eq_some_iff.1 h
    exact ⟨k, hi, hm, Or.inr h⟩

theorem rendersMarker_sqlite_iff :
    sqlite.RendersMarker columns i ↔ ∃ k, columns[i]? = some k
      ∧ columns.filter (·.isPrimaryKey) = [k] ∧ Dialect.sqlite.Marks k.extra := by
  simp only [rendersMarker_iff_inlineKey?, inlineKey?_eq_some_iff, isMarked_iff]

theorem exists_rendersMarker (hk : columns.filter (·.isPrimaryKey) = [k])
    (hm : Dialect.sqlite.Marks k.extra) :
    ∃ i, columns[i]? = some k ∧ sqlite.RendersMarker columns i := by
  simp only [rendersMarker_iff_inlineKey?]
  exact exists_inlineKey? hk (isMarked_iff.2 hm)

/-- Whatever is rendered with the marker is what SQLite takes it on. -/
def MarkersTaken (columns : List Column) : Prop :=
  ∀ i c, columns[i]? = some c → sqlite.RendersMarker columns i →
    columns.filter (·.isPrimaryKey) = [c]
      ∧ Text.sameUpToCase c.declaredType "INTEGER".toList = true

theorem markersTaken_iff :
    MarkersTaken columns ↔ ∀ k, columns.filter (·.isPrimaryKey) = [k] → Dialect.sqlite.Marks k.extra →
      Text.sameUpToCase k.declaredType "INTEGER".toList = true := by
  constructor
  · intro h k hk hm
    obtain ⟨i, hi, hrendered⟩ := exists_rendersMarker hk hm
    exact (h i k hi hrendered).2
  · intro h i c hi hrendered
    obtain ⟨k, hget, hk, hm⟩ := rendersMarker_sqlite_iff.1 hrendered
    obtain rfl : c = k := Option.some_inj.1 (hi.symm.trans hget)
    exact ⟨hk, h c hk hm⟩

/-! ## Told markers -/

theorem inlineKeyEvents_of_rendersMarker (h : sqlite.RendersMarker columns i) :
    sqlite.inlineKeyEvents columns = [] := by
  rw [inlineKeyEvents, rendersMarker_iff_inlineKey?.1 h]
  rfl

/-- Where no marker is rendered, every one is told of, in the order of the columns. -/
theorem inlineKeyEvents_of_not_rendersMarker (h : ∀ i, ¬ sqlite.RendersMarker columns i) :
    sqlite.inlineKeyEvents columns
      = (columns.filter fun c => Dialect.sqlite.isMarked c.extra).map fun c =>
          .markerUnrendered c.name := by
  have hnone : sqlite.inlineKey? columns = none :=
    Option.eq_none_iff_forall_ne_some.2 fun i hi => h i (rendersMarker_iff_inlineKey?.2 hi)
  rw [inlineKeyEvents, hnone]
  rfl

/-- A warning tells of every marker that is not rendered, and names its column. -/
def MarkersTold (columns : List Column) : Prop :=
  ∀ i c, columns[i]? = some c → Dialect.sqlite.Marks c.extra → ¬ sqlite.RendersMarker columns i →
    ∃ e ∈ sqlite.inlineKeyEvents columns, e.level = .warn
      ∧ e.message = "Dropping AUTOINCREMENT on column ".toList ++ c.name
        ++ ": SQLite requires it on a single-column primary key".toList

theorem markersTold_of_not_rendersMarker (h : ∀ i, ¬ sqlite.RendersMarker columns i) :
    MarkersTold columns := by
  intro i c hi hm _
  have hmarked : c ∈ columns.filter fun c => Dialect.sqlite.isMarked c.extra :=
    List.mem_filter.2 ⟨List.mem_of_getElem? hi, isMarked_iff.2 hm⟩
  rw [inlineKeyEvents_of_not_rendersMarker h]
  exact ⟨_, List.mem_map_of_mem hmarked, rfl, rfl⟩

/-- Beside a rendered marker none is told of, so there must be none. -/
theorem markersTold_iff_of_rendersMarker (hi : columns[i]? = some k)
    (h : sqlite.RendersMarker columns i) :
    MarkersTold columns ↔ columns.filter (fun c => Dialect.sqlite.isMarked c.extra) = [k] := by
  rw [filter_eq_singleton_iff hi]
  constructor
  · intro told
    obtain ⟨_, hget, -, hm⟩ := rendersMarker_sqlite_iff.1 h
    obtain rfl := Option.some_inj.1 (hi.symm.trans hget)
    refine ⟨isMarked_iff.2 hm, fun j c hj hc => ?_⟩
    by_contra hne
    have hother : ¬ sqlite.RendersMarker columns j := by
      rw [rendersMarker_iff_inlineKey?, rendersMarker_iff_inlineKey?.1 h, Option.some_inj]
      exact Ne.symm hne
    obtain ⟨e, he, -⟩ := told j c hj (isMarked_iff.1 hc) hother
    rw [inlineKeyEvents_of_rendersMarker h] at he
    cases he
  · rintro ⟨-, honly⟩ j c hj hc hother
    obtain rfl := honly j c hj (isMarked_iff.2 hc)
    exact absurd h hother

theorem markersTold_iff :
    MarkersTold columns ↔ ∀ k, columns.filter (·.isPrimaryKey) = [k] → Dialect.sqlite.Marks k.extra →
      columns.filter (fun c => Dialect.sqlite.isMarked c.extra) = [k] := by
  constructor
  · intro h k hk hm
    obtain ⟨i, hi, hrendered⟩ := exists_rendersMarker hk hm
    exact (markersTold_iff_of_rendersMarker hi hrendered).1 h
  · intro h
    by_cases hrendered : ∃ i, sqlite.RendersMarker columns i
    · obtain ⟨i, hrendered⟩ := hrendered
      obtain ⟨k, hi, hk, hm⟩ := rendersMarker_sqlite_iff.1 hrendered
      exact (markersTold_iff_of_rendersMarker hi hrendered).2 (h k hk hm)
    · exact markersTold_of_not_rendersMarker (not_exists.1 hrendered)

/-- Of the markers that a conversion hands on, none is lost without a word. -/
theorem markersTold_convertAll (m : TypeMap) {d : Direction} (hd : d.target = .sqlite)
    (columns : List Column) : MarkersTold (Column.convertAll m d columns) := by
  have hcount := Column.count_marked_convertAll_le m d columns
  rw [hd] at hcount
  refine markersTold_iff.2 fun k hk hm => ?_
  have hmem := List.mem_of_mem_filter (hk ▸ List.mem_singleton_self k)
  exact filter_eq_singleton_of_countP_le hcount hmem (isMarked_iff.2 hm)

end

/-! ## The statement -/

/-- The marker is rendered on the one key column, if that is marked. With such a column
no marker is told of, and without one every marker is, in the order of the columns. So
SQLite takes what is rendered exactly if such a column has the type `INTEGER`, and no
marker is lost without a word exactly if no column but that one is marked. -/
theorem markers_taken_and_told_iff (table : Text) (columns : List Column) :
    sqlite.createTable table columns
        = sqlite.createTableOf table (sqlite.columnDefinitions columns ++ sqlite.keyClause columns)
      ∧ (∀ i, sqlite.RendersMarker columns i ↔ ∃ k, columns[i]? = some k
          ∧ columns.filter (·.isPrimaryKey) = [k] ∧ Dialect.sqlite.Marks k.extra)
      ∧ (∀ i, sqlite.RendersMarker columns i → sqlite.inlineKeyEvents columns = [])
      ∧ ((∀ i, ¬ sqlite.RendersMarker columns i) → sqlite.inlineKeyEvents columns
          = (columns.filter fun c => Dialect.sqlite.isMarked c.extra).map fun c =>
              .markerUnrendered c.name)
      ∧ (MarkersTaken columns ↔ ∀ k, columns.filter (·.isPrimaryKey) = [k] →
          Dialect.sqlite.Marks k.extra → Text.sameUpToCase k.declaredType "INTEGER".toList = true)
      ∧ (MarkersTold columns ↔ ∀ k, columns.filter (·.isPrimaryKey) = [k] →
          Dialect.sqlite.Marks k.extra →
            columns.filter (fun c => Dialect.sqlite.isMarked c.extra) = [k]) :=
  ⟨createTable_eq sqlite table columns, fun _ => rendersMarker_sqlite_iff,
    fun _ => inlineKeyEvents_of_rendersMarker, inlineKeyEvents_of_not_rendersMarker,
    markersTaken_iff, markersTold_iff⟩

/-- A key of another type is rendered with the marker, and the marker of a column beside the
key is lost. -/
theorem marker_misplaced_and_untold :
    let code := (Column.ofType "code".toList "TEXT".toList).primaryKey.withExtra
      "AUTOINCREMENT".toList
    let id := (Column.ofType "id".toList "INTEGER".toList).primaryKey.withExtra
      "AUTOINCREMENT".toList
    let n := (Column.ofType "n".toList "INTEGER".toList).withExtra "AUTOINCREMENT".toList
    sqlite.createTable "t".toList [code]
        = "CREATE TABLE \"t\" (\n  \"code\" TEXT PRIMARY KEY AUTOINCREMENT\n);".toList
      ∧ ¬ MarkersTaken [code]
      ∧ sqlite.createTable "t".toList [id, n]
        = ("CREATE TABLE \"t\" (\n  \"id\" INTEGER PRIMARY KEY AUTOINCREMENT,\n"
          ++ "  \"n\" INTEGER\n);").toList
      ∧ sqlite.inlineKeyEvents [id, n] = []
      ∧ ¬ MarkersTold [id, n] := by
  intro code id n
  have hmarks : Dialect.sqlite.Marks "AUTOINCREMENT".toList := isMarked_iff.1 (by decide)
  refine ⟨by decide +kernel, fun h => ?_, by decide +kernel, by decide, fun h => ?_⟩
  · exact absurd (markersTaken_iff.1 h code rfl hmarks) (by decide)
  · exact absurd (markersTold_iff.1 h id rfl hmarks) (by decide)

end Renderer

end SchemaDialects
