import SchemaDialects.Proofs.Rendering.Agreement

/-!
# There and back again

Statements that SQLite's renderer writes come back from MySQL as they were, and
are left alone where they are taken for MySQL's own. What is added on the way
there, a length, a marker before the key, a storage clause, is taken away on the
way back.
-/

namespace SchemaDialects

open Text Definition Renderer
open Dialect (isMarkerChar)

/-! ## Types that come back -/

/-- The storage classes that are types of MySQL too, and come back from it. -/
def roundTripTypes : List Text := ["INTEGER".toList, "REAL".toList, "TEXT".toList, "BLOB".toList]

section
variable {w : Text} (hw : w ∈ roundTripTypes)
include hw

theorem isPlainType_of_roundTrip (d : Dialect) : IsPlainType d w := by
  have hall : ∀ d ∈ [Dialect.mysql, .sqlite], ∀ w ∈ roundTripTypes, d.hasTypeKeyword w = true := by
    decide
  exact ⟨w, [], hall d (by cases d <;> simp) w hw, Or.inl rfl, (List.append_nil w).symm⟩

theorem target_mysqlToSqlite (m : TypeMap) : m.target .mysqlToSqlite w = w := by
  simp only [roundTripTypes, List.mem_cons, List.not_mem_nil, or_false] at hw
  rcases hw with rfl | rfl | rfl | rfl <;> rfl

theorem target_target (m m' : TypeMap) :
    m'.target .mysqlToSqlite (m.target .sqliteToMysql w) = w := by
  simp only [roundTripTypes, List.mem_cons, List.not_mem_nil, or_false] at hw
  rcases hw with rfl | rfl | rfl | rfl
  · rfl
  · rfl
  · have ht : m.target .sqliteToMysql "TEXT".toList
        = "VARCHAR".toList ++ ('(' :: ofNat m.textLength ++ [')']) := rfl
    have hsize : IsSize ('(' :: ofNat m.textLength ++ [')']) :=
      Or.inr (Or.inl ⟨_, isDigits_ofNat _, rfl⟩)
    rw [ht]
    exact target_plain (d := .mysqlToSqlite) (by decide) hsize (show _ = some ⟨"TEXT".toList, false⟩ from rfl)
  · rfl

end

/-! ## Columns that come back -/

/-- A column of a round trip. -/
structure Column.IsRoundTrip (c : Column) : Prop where
  name : IsPlainName c.name
  type : c.declaredType ∈ roundTripTypes
  default : ∀ v ∈ c.default?, IsPlainDefault v

section
variable {c : Column} (h : c.IsRoundTrip)
include h

theorem Column.IsRoundTrip.isPlain (d : Dialect) : c.IsPlain d :=
  ⟨h.name, isPlainType_of_roundTrip h.type d, h.default⟩

theorem Column.IsRoundTrip.isPlain_retyped (m : TypeMap) : (c.retyped m .sqliteToMysql).IsPlain .mysql :=
  ⟨h.name, isPlainType_target m (d := .sqliteToMysql) (isPlainType_of_roundTrip h.type .sqlite), h.default⟩

theorem Column.IsRoundTrip.retyped_eq (m : TypeMap) : c.retyped m .mysqlToSqlite = c := by
  rw [Column.retyped, target_mysqlToSqlite h.type]

theorem Column.IsRoundTrip.retyped_retyped (m m' : TypeMap) :
    (c.retyped m .sqliteToMysql).retyped m' .mysqlToSqlite = c := by
  rw [Column.retyped, Column.retyped, target_target h.type]

end

section
variable {cs : List Column} (h : ∀ c ∈ cs, c.IsRoundTrip)
include h

theorem map_retyped (m : TypeMap) : cs.map (·.retyped m .mysqlToSqlite) = cs := by
  have := List.map_congr_left fun c hc => (h c hc).retyped_eq m
  rw [this, List.map_id']

theorem map_retyped_retyped (m m' : TypeMap) :
    (cs.map (·.retyped m .sqliteToMysql)).map (·.retyped m' .mysqlToSqlite) = cs := by
  have := List.map_congr_left fun c hc => (h c hc).retyped_retyped m m'
  rw [List.map_map, Function.comp_def, this, List.map_id']

end

theorem isBare_of_validate {s : Settings} (h : s.validate = .ok s) : s.storage.IsBare := by
  rw [Settings.validate] at h
  split at h
  · cases h
  · split at h
    · cases h
    · next he =>
      split at h
      · cases h
      · next hc => exact ⟨by simpa [Settings.storage] using he, by simpa [Settings.storage] using hc⟩

/-! ## Statements that come back -/

/-- Taken for MySQL's own, the phrase of SQLite has no marker. -/
theorem avoids_sqlitePhrase : ∀ t ∈ phraseParts .mysqlToSqlite,
    IsAtom t ∧ Avoids (searchedWords .mysqlToSqlite) t := by
  have hw : ∀ t ∈ phraseParts .mysqlToSqlite, t ≠ [] ∧ (∀ c ∈ t, isMarkerChar c = true)
      ∧ upper t ∉ searchedWords .mysqlToSqlite := by decide
  intro t ht
  obtain ⟨hne, hchars, hu⟩ := hw t ht
  exact ⟨isAtom_of_word hne hchars, Avoids.of_word hchars hu⟩

section
variable {table : Text} (hb : Settings.isBareIdentifier table = true) {m m' : TypeMap}
variable {storage st : Storage} (hs : storage.IsBare)
include hb hs

/-- A table without a key on a column. -/
theorem roundTrip_of_columns {cs : List Column} (hne : cs ≠ []) (hc : ∀ c ∈ cs, c.IsRoundTrip) :
    let y := tableText '"' table (columnLines cs ++ keyLines cs) [';']
    ∃ z, (Conversion.statement ⟨.sqliteToMysql, m, storage, false⟩ y).value = .ok z
      ∧ (Conversion.statement ⟨.mysqlToSqlite, m', st, false⟩ z).value = .ok y
      ∧ (Conversion.statement ⟨.mysqlToSqlite, m', st, false⟩ y).value = .ok y := by
  have hn : ∀ c ∈ cs, IsPlainName c.name := fun c hm => (hc c hm).name
  have hplain : ∀ {ds : List Column} {d : Dialect}, (∀ c ∈ ds, c.IsPlain d) →
      ∀ l ∈ columnLines ds ++ keyLines cs, l.IsPlain := by
    intro ds d hd l hl
    rcases List.mem_append.1 hl with hl | hl
    · exact isPlain_columnLines hd l hl
    · exact isPlain_keyLines hn l hl
  have hthere := statement_of_lines (c := ⟨.sqliteToMysql, m, storage, false⟩) (e := .sqlite)
    rfl (isNameQuote_quoteChar .sqlite) hb default (Or.inl rfl)
    (hplain fun c hm => (hc c hm).isPlain .sqlite) (by simp [columnLines, hne])
    (List.rel_append (convertsTo_columnLines (d := .sqliteToMysql) fun c hm => (hc c hm).isPlain .sqlite)
      (convertsTo_keyLines hn))
  have hretyped : ∀ c ∈ cs.map (·.retyped m .sqliteToMysql), c.IsPlain .mysql := by
    intro c hm
    obtain ⟨x, hx, rfl⟩ := List.mem_map.1 hm
    exact (hc x hx).isPlain_retyped m
  have hback := statement_of_lines (c := ⟨.mysqlToSqlite, m', st, false⟩) (e := .mysql)
    rfl (isNameQuote_quoteChar .mysql) hb storage (Or.inr ⟨rfl, hs⟩)
    (hplain hretyped) (by simp [columnLines, hne])
    (List.rel_append (convertsTo_columnLines (d := .mysqlToSqlite) hretyped) (convertsTo_keyLines hn))
  have hstay := statement_of_lines (c := ⟨.mysqlToSqlite, m', st, false⟩) (e := .sqlite)
    rfl (isNameQuote_quoteChar .sqlite) hb default (Or.inl rfl)
    (hplain fun c hm => (hc c hm).isPlain .mysql) (by simp [columnLines, hne])
    (List.rel_append (convertsTo_columnLines (d := .mysqlToSqlite) fun c hm => (hc c hm).isPlain .mysql)
      (convertsTo_keyLines hn))
  simp only at hback hstay
  rw [map_retyped_retyped hc] at hback
  rw [map_retyped hc] at hstay
  exact ⟨_, hthere, hback, hstay⟩

/-- A table whose column `k` declares the key. -/
theorem roundTrip_of_inline {pre post : List Column} {k : Column}
    (hc : ∀ c ∈ pre ++ k :: post, c.IsRoundTrip) :
    let y := tableText '"' table (inlineLines pre k post (phraseParts .mysqlToSqlite)) [';']
    ∃ z, (Conversion.statement ⟨.sqliteToMysql, m, storage, false⟩ y).value = .ok z
      ∧ (Conversion.statement ⟨.mysqlToSqlite, m', st, false⟩ z).value = .ok y
      ∧ (Conversion.statement ⟨.mysqlToSqlite, m', st, false⟩ y).value = .ok y := by
  have hpre : ∀ c ∈ pre, c.IsRoundTrip := fun c hm => hc c (List.mem_append_left _ hm)
  have hpost : ∀ c ∈ post, c.IsRoundTrip := fun c hm =>
    hc c (List.mem_append_right _ (List.mem_cons_of_mem _ hm))
  have hk : k.IsRoundTrip := hc k (by simp)
  have hthere := statement_of_inline (c := ⟨.sqliteToMysql, m, storage, false⟩) (e := .sqlite)
    rfl (isNameQuote_quoteChar .sqlite) hb default (Or.inl rfl)
    (fun c hm => (hc c hm).isPlain .sqlite) ["PRIMARY".toList, "KEY".toList] [] rfl
  have hretyped : ∀ c ∈ pre.map (·.retyped m .sqliteToMysql) ++ k.retyped m .sqliteToMysql
      :: post.map (·.retyped m .sqliteToMysql), c.IsPlain .mysql := by
    rw [← List.map_cons, ← List.map_append]
    intro c hm
    obtain ⟨x, hx, rfl⟩ := List.mem_map.1 hm
    exact (hc x hx).isPlain_retyped m
  have hback := statement_of_inline (c := ⟨.mysqlToSqlite, m', st, false⟩) (e := .mysql)
    rfl (isNameQuote_quoteChar .mysql) hb storage (Or.inr ⟨rfl, hs⟩) hretyped
    [] ["PRIMARY".toList, "KEY".toList] rfl
  have hlines : List.Forall₂ (fun l l' => TableLine.ConvertsTo m' .mysqlToSqlite l l' none)
      (inlineLines pre k post (phraseParts .mysqlToSqlite))
      (inlineLines (pre.map (·.retyped m' .mysqlToSqlite)) (k.retyped m' .mysqlToSqlite)
        (post.map (·.retyped m' .mysqlToSqlite)) (phraseParts .mysqlToSqlite)) :=
    List.rel_append
      (convertsTo_columnLines (d := .mysqlToSqlite) fun c hm => (hpre c hm).isPlain .mysql)
      (.cons (Column.convertsTo_line (d := .mysqlToSqlite) (hk.isPlain .mysql) m' avoids_sqlitePhrase)
        (convertsTo_columnLines (d := .mysqlToSqlite) fun c hm => (hpost c hm).isPlain .mysql))
  have hstay := statement_of_lines (c := ⟨.mysqlToSqlite, m', st, false⟩) (e := .sqlite)
    rfl (isNameQuote_quoteChar .sqlite) hb default (Or.inl rfl)
    (isPlain_inlineLines (fun c hm => (hc c hm).isPlain .mysql) fun t ht => (avoids_sqlitePhrase t ht).1)
    (by simp [inlineLines]) hlines
  simp only at hback hstay
  rw [map_retyped_retyped hpre, map_retyped_retyped hpost, hk.retyped_retyped] at hback
  rw [map_retyped hpre, map_retyped hpost, hk.retyped_eq] at hstay
  exact ⟨_, hthere, hback, hstay⟩

end

/-- SQLite's statements survive a round trip, and are left alone on the way back. -/
theorem createTable_roundTrip {s : Settings} (hs : s.validate = .ok s) (table : Text)
    (hb : Settings.isBareIdentifier table = true) (columns : List Column) (hne : columns ≠ [])
    (hc : ∀ c ∈ columns, c.IsRoundTrip) :
    let y := sqlite.createTable table columns
    let there : Conversion := ⟨.sqliteToMysql, s.types, s.storage, false⟩
    let back : Conversion := ⟨.mysqlToSqlite, s.types, s.storage, false⟩
    ∃ z, (there.statement y).value = .ok z ∧ (back.statement z).value = .ok y
      ∧ (back.statement y).value = .ok y := by
  have hn : ∀ c ∈ columns, IsPlainName c.name := fun c hm => (hc c hm).name
  cases h : inlineKey? sqlite columns with
  | none =>
    have hy := createTable_of_none hb hn h fun _ _ => rfl
    simp only [hy]
    exact roundTrip_of_columns hb (isBare_of_validate hs) hne hc
  | some i =>
    obtain ⟨pre, k, post, rfl, hkey, hm⟩ := exists_of_inlineKey? h
    have hy := createTable_of_definitions hb (sqlite_definitions_of_sole hn hkey hm)
    simp only [hy]
    exact roundTrip_of_inline hb (isBare_of_validate hs) hc

theorem createTable_roundTrip_orders :
    let y := sqlite.createTable "orders".toList
      [((Column.ofType "id".toList "INTEGER".toList).primaryKey).withExtra "AUTOINCREMENT".toList,
       (Column.ofType "note".toList "TEXT".toList).withDefault "NULL".toList]
    ∃ z, (Conversion.statement { direction := .sqliteToMysql } y).value = .ok z
      ∧ (Conversion.statement { direction := .mysqlToSqlite } z).value = .ok y := by
  have hname : ∀ n ∈ ["id".toList, "note".toList], IsPlainName n := by
    have hb : ∀ n ∈ ["id".toList, "note".toList],
        Settings.isBareIdentifier n = true ∧ ∀ d ∈ [Dialect.mysql, .sqlite], upper n ≠ d.marker := by
      decide
    exact fun n hn => ⟨(hb n hn).1, fun d => (hb n hn).2 d (by cases d <;> simp)⟩
  obtain ⟨z, hz, hy, -⟩ := createTable_roundTrip (s := default) (by decide)
    "orders".toList (by decide)
    [((Column.ofType "id".toList "INTEGER".toList).primaryKey).withExtra "AUTOINCREMENT".toList,
      (Column.ofType "note".toList "TEXT".toList).withDefault "NULL".toList] (by simp)
    (List.forall_mem_cons.2 ⟨⟨hname "id".toList (by simp), by decide, by rintro v ⟨⟩⟩,
      List.forall_mem_singleton.2 ⟨hname "note".toList (by simp), by decide,
        by rintro v ⟨⟩; exact Or.inr (Or.inl rfl)⟩⟩)
  exact ⟨z, hz, hy⟩

end SchemaDialects
