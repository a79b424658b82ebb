import SchemaDialects.Proofs.Rendering.Convert

/-!
# Rendered columns as lines

What a renderer writes for plain columns is a table of plain lines: one line for
each column, with the key phrase on the column that declares the key, and else a
key clause after them.
-/

namespace SchemaDialects

open Text Definition
open Dialect (isMarkerChar markerWords)

/-! ## Lines of columns -/

namespace Column

/-- The parts of a column's definition between its type and its key. -/
def attributes (c : Column) : List Text :=
  (if c.nullable then [] else ["NOT".toList, "NULL".toList])
    ++ c.default?.elim [] fun expr => ["DEFAULT".toList, expr]

def line (c : Column) (key : List Text) : TableLine :=
  .column c.name (c.declaredType :: (c.attributes ++ key))

theorem IsPlain.attributes {d : Dialect} {c : Column} (h : c.IsPlain d) :
    ∀ t ∈ c.attributes, IsAtom t ∧ Avoids reservedWords t := by
  have hword : ∀ w ∈ ["NOT".toList, "NULL".toList, "DEFAULT".toList],
      IsAtom w ∧ Avoids reservedWords w := by
    have hw : ∀ w ∈ ["NOT".toList, "NULL".toList, "DEFAULT".toList],
        w ≠ [] ∧ (∀ c ∈ w, isMarkerChar c = true) ∧ upper w ∉ reservedWords := by decide
    intro w hm
    obtain ⟨hne, hc, hr⟩ := hw w hm
    exact ⟨isAtom_of_word hne hc, Avoids.of_word hc hr⟩
  intro t ht
  rcases List.mem_append.1 ht with ht | ht
  · split at ht
    · cases ht
    · exact hword t (by
        rcases List.mem_cons.1 ht with rfl | ht
        · simp
        · simp [List.mem_singleton.1 ht])
  · cases hd : c.default? with
    | none => simp [hd] at ht
    | some v =>
      rw [hd, Option.elim_some] at ht
      rcases List.mem_cons.1 ht with rfl | ht
      · exact hword _ (by simp)
      · rw [List.mem_singleton.1 ht]
        have := h.default v hd
        exact ⟨this.isAtom, this.avoids⟩

theorem IsPlain.line {d : Dialect} {c : Column} (h : c.IsPlain d) {key : List Text}
    (hk : ∀ t ∈ key, IsAtom t) : (c.line key).IsPlain := by
  refine ⟨h.name, List.forall_mem_cons.2 ⟨h.type.isAtom, fun t ht => ?_⟩⟩
  rcases List.mem_append.1 ht with ht | ht
  · exact (h.attributes t ht).1
  · exact hk t ht

end Column

theorem double_of_not_mem {q : Char} {s : Text} (h : q ∉ s) : double q s = s := by
  induction s with
  | nil => rfl
  | cons c s ih =>
    obtain ⟨hc, hs⟩ := not_or.1 (List.mem_cons.not.1 h)
    rw [double, if_neg (Ne.symm hc), ih hs]

theorem quote_of_not_mem {d : Dialect} {name : Text} (h : d.quoteChar ∉ name) :
    d.quote name = quotedName d.quoteChar name := by
  rw [Dialect.quote, quoted, double_of_not_mem h]
  rfl

theorem quote_eq_quotedName (d : Dialect) {name : Text} (h : ∀ c ∈ name, isMarkerChar c = true) :
    d.quote name = quotedName d.quoteChar name := by
  refine quote_of_not_mem fun hm => ?_
  have hq := h _ hm
  revert hq
  cases d <;> decide

namespace Renderer

/-- The parts that a renderer writes for a key on its column. -/
def keyParts (r : Renderer) (c : Column) (inline : Bool) : List Text :=
  match r, inline with
  | mysql _, _ => if Dialect.mysql.isMarked c.extra then [Dialect.mysql.marker] else []
  | sqlite, false => []
  | sqlite, true =>
    "PRIMARY".toList :: "KEY".toList
      :: if Dialect.sqlite.isMarked c.extra then [Dialect.sqlite.marker] else []

theorem keyAttributes_mysql (storage : Storage) (c : Column) (inline : Bool) :
    (mysql storage).keyAttributes c inline
      = if Dialect.mysql.isMarked c.extra then ' ' :: Dialect.mysql.marker else [] :=
  rfl

theorem keyAttributes_inline (c : Column) :
    sqlite.keyAttributes c true
      = " PRIMARY KEY".toList
        ++ if Dialect.sqlite.isMarked c.extra then ' ' :: Dialect.sqlite.marker else [] :=
  rfl

theorem forall_keyAttributes {p : Char → Prop} (hmarker : ∀ d : Dialect, ∀ x ∈ ' ' :: d.marker, p x)
    (hkey : ∀ x ∈ " PRIMARY KEY".toList, p x) (r : Renderer) (c : Column) (inline : Bool) :
    ∀ x ∈ r.keyAttributes c inline, p x := by
  have hmarked (d : Dialect) (b : Prop) [Decidable b] :
      ∀ x ∈ if b then ' ' :: d.marker else [], p x := by
    split
    · exact hmarker d
    · simp
  cases r with
  | mysql storage => exact hmarked .mysql _
  | sqlite =>
    cases inline with
    | false => exact fun x hx => nomatch hx
    | true => exact List.forall_mem_append.2 ⟨hkey, hmarked .sqlite _⟩

theorem spaced_keyParts (r : Renderer) (c : Column) (inline : Bool) :
    r.keyAttributes c inline = spaced (r.keyParts c inline) := by
  cases r with
  | mysql storage =>
    rw [keyAttributes_mysql, keyParts]
    split
    · simp [spaced]
    · rfl
  | sqlite =>
    cases inline with
    | false => rfl
    | true =>
      rw [keyAttributes_inline, keyParts]
      split
      · simp [spaced]
      · simp [spaced]

theorem column_eq_text (r : Renderer) {c : Column} (hn : IsPlainName c.name) (inline : Bool) :
    r.column c inline = (c.line (r.keyParts c inline)).text r.dialect.quoteChar := by
  have hnull : (if c.nullable = true then [] else " NOT NULL".toList)
      = spaced (if c.nullable then [] else ["NOT".toList, "NULL".toList]) := by
    split
    · rfl
    · simp [spaced]
  have hdefault : (c.default?.elim [] fun expr => " DEFAULT ".toList ++ expr)
      = spaced (c.default?.elim [] fun expr => ["DEFAULT".toList, expr]) := by
    cases c.default? with
    | none => rfl
    | some v => simp [spaced]
  rw [column, quote_eq_quotedName _ hn.chars, hnull, hdefault, spaced_keyParts, Column.line,
    TableLine.text, columnLine_eq, spaced_cons, Column.attributes, spaced_append, spaced_append]
  simp

/-! ## The key clause -/

def keyNames (columns : List Column) : List Text :=
  (columns.filter (·.isPrimaryKey)).map Column.name

def keyLines (columns : List Column) : List TableLine :=
  if keyNames columns = [] then [] else [.key (keyNames columns)]

theorem isPlain_keyLines {columns : List Column} (hn : ∀ c ∈ columns, IsPlainName c.name) :
    ∀ l ∈ keyLines columns, l.IsPlain := by
  intro l hl
  rw [keyLines] at hl
  split at hl
  · cases hl
  · rw [List.mem_singleton.1 hl]
    intro n hm
    obtain ⟨c, hc, rfl⟩ := List.mem_map.1 hm
    exact hn c (List.mem_filter.1 hc).1

/-- The key clause, in the words of the names that it lists. -/
theorem keyClause_of_none {r : Renderer} {columns : List Column} (h : r.inlineKey? columns = none) :
    r.keyClause columns
      = if keyNames columns = [] then []
        else ["PRIMARY KEY (".toList
          ++ Text.join ", ".toList ((keyNames columns).map r.dialect.quote) ++ ")".toList] := by
  have hnames : (columns.filter (·.isPrimaryKey)).map (fun c => r.dialect.quote c.name)
      = (keyNames columns).map r.dialect.quote := by
    rw [keyNames, List.map_map]
    rfl
  simp only [keyClause, hnames, h, List.map_eq_nil_iff, Option.isSome_none, Bool.false_eq_true,
    false_or]

theorem keyClause_eq (r : Renderer) {columns : List Column} (hn : ∀ c ∈ columns, IsPlainName c.name)
    (h : r.inlineKey? columns = none) :
    r.keyClause columns = (keyLines columns).map (TableLine.text r.dialect.quoteChar) := by
  have hnames : (keyNames columns).map r.dialect.quote
      = (keyNames columns).map (quotedName r.dialect.quoteChar) := by
    refine List.map_congr_left fun n hm => ?_
    obtain ⟨c, hc, rfl⟩ := List.mem_map.1 hm
    exact quote_eq_quotedName _ (hn c (List.mem_filter.1 hc).1).chars
  rw [keyClause_of_none h, hnames, keyLines]
  split
  · rfl
  · rw [List.map_singleton, TableLine.text, keyLine_eq, nameList]
    simp

theorem keyClause_of_isSome {r : Renderer} {columns : List Column} {i : Nat}
    (h : r.inlineKey? columns = some i) : r.keyClause columns = [] := by
  simp [keyClause, h]

/-! ## The columns -/

theorem columnDefinitions_zipIdx (r : Renderer) (columns : List Column) :
    r.columnDefinitions columns
      = columns.zipIdx.map fun x => r.column x.1 (r.inlineKey? columns == some x.2) :=
  rfl

theorem columnDefinitions_of_none {r : Renderer} {columns : List Column}
    (h : r.inlineKey? columns = none) :
    r.columnDefinitions columns = columns.map fun c => r.column c false := by
  have hfst : (columns.zipIdx.map fun x => r.column x.1 (r.inlineKey? columns == some x.2))
      = (columns.zipIdx.map Prod.fst).map fun c => r.column c false := by
    rw [List.map_map, h]
    rfl
  rw [columnDefinitions_zipIdx, hfst, List.zipIdx_map_fst]

theorem map_zipIdx_of_ne (r : Renderer) {i n : Nat} {columns : List Column}
    (h : ∀ x ∈ columns.zipIdx n, i ≠ x.2) :
    ((columns.zipIdx n).map fun x => r.column x.1 (some i == some x.2))
      = columns.map fun c => r.column c false := by
  have hfst : ((columns.zipIdx n).map fun x => r.column x.1 (some i == some x.2))
      = ((columns.zipIdx n).map Prod.fst).map fun c => r.column c false := by
    rw [List.map_map]
    refine List.map_congr_left fun x hx => ?_
    have hne : (some i == some x.2) = false := by simpa using h x hx
    simp only [Function.comp, hne]
  rw [hfst, List.zipIdx_map_fst]

theorem columnDefinitions_of_some {r : Renderer} {pre post : List Column} {k : Column}
    (h : r.inlineKey? (pre ++ k :: post) = some pre.length) :
    r.columnDefinitions (pre ++ k :: post)
      = pre.map (fun c => r.column c false) ++ r.column k true
        :: post.map fun c => r.column c false := by
  have hpre : ∀ x ∈ pre.zipIdx, pre.length ≠ x.2 := fun x hx => by
    have := List.snd_lt_of_mem_zipIdx hx
    omega
  have hpost : ∀ x ∈ post.zipIdx (pre.length + 1), pre.length ≠ x.2 := fun x hx => by
    have := List.le_snd_of_mem_zipIdx hx
    omega
  have hk : r.column k (some pre.length == some pre.length) = r.column k true := by
    rw [beq_self_eq_true]
  rw [columnDefinitions_zipIdx, h, List.zipIdx_append, List.map_append, map_zipIdx_of_ne r hpre,
    List.zipIdx_cons, List.map_cons, Nat.zero_add, map_zipIdx_of_ne r hpost]
  exact congrArg (_ ++ · :: _) hk

theorem columnDefinitions_eq (r : Renderer) {columns : List Column}
    (hn : ∀ c ∈ columns, IsPlainName c.name) (h : r.inlineKey? columns = none) :
    r.columnDefinitions columns
      = (columns.map fun c => c.line (r.keyParts c false)).map (TableLine.text r.dialect.quoteChar) := by
  rw [columnDefinitions_of_none h, List.map_map]
  exact List.map_congr_left fun c hc => column_eq_text r (hn c hc) false

/-! ## The one column with a property -/

section
variable {α : Type} {p : α → Bool} {l : List α} {i : Nat} {k : α}

theorem eq_take_append_cons_drop (h : l[i]? = some k) :
    l = l.take i ++ k :: l.drop (i + 1) := by
  obtain ⟨hlt, hget⟩ := List.getElem?_eq_some_iff.1 h
  rw [← hget, List.getElem_cons_drop, List.take_append_drop]

theorem filter_split_eq_singleton_iff {pre post : List α} :
    (pre ++ k :: post).filter p = [k] ↔ p k = true ∧ ∀ c ∈ pre ++ post, p c = false := by
  constructor
  · intro h
    have hk : p k = true :=
      (List.mem_filter.1 (h ▸ List.mem_singleton_self k : k ∈ (pre ++ k :: post).filter p)).2
    rw [List.filter_append, List.filter_cons_of_pos hk] at h
    obtain ⟨hpre, hpost⟩ | ⟨-, h⟩ := List.append_eq_singleton_iff.1 h
    · have hothers : (pre ++ post).filter p = [] := by
        rw [List.filter_append, hpre, (List.cons.inj hpost).2, List.append_nil]
      exact ⟨hk, fun c hc => by simpa using List.filter_eq_nil_iff.1 hothers c hc⟩
    · cases h
  · rintro ⟨hk, hothers⟩
    have hnone : pre.filter p = [] ∧ post.filter p = [] := by
      rw [← List.append_eq_nil_iff, ← List.filter_append, List.filter_eq_nil_iff]
      exact fun c hc => by simp [hothers c hc]
    rw [List.filter_append, List.filter_cons_of_pos hk, hnone.1, hnone.2, List.nil_append]

theorem filter_eq_singleton_iff (hi : l[i]? = some k) :
    l.filter p = [k] ↔ p k = true ∧ ∀ j c, l[j]? = some c → p c = true → j = i := by
  have hcut := eq_take_append_cons_drop hi
  have hothers : (∀ c ∈ l.take i ++ l.drop (i + 1), p c = false)
      ↔ ∀ j c, l[j]? = some c → p c = true → j = i := by
    rw [← List.eraseIdx_eq_take_drop_succ]
    simp only [List.mem_eraseIdx_iff_getElem?]
    constructor
    · intro h j c hj hc
      by_contra hne
      rw [h c ⟨j, hne, hj⟩] at hc
      cases hc
    · rintro h c ⟨j, hne, hj⟩
      simpa using fun hc => hne (h j c hj hc)
  rw [← hothers, ← filter_split_eq_singleton_iff, ← hcut]

theorem filter_eq_singleton_of_countP_le (h : l.countP p ≤ 1) (hk : k ∈ l) (hp : p k = true) :
    l.filter p = [k] := by
  have hmem : k ∈ l.filter p := List.mem_filter.2 ⟨hk, hp⟩
  rw [List.countP_eq_length_filter] at h
  obtain ⟨c, hc⟩ := List.length_eq_one_iff.1 (Nat.le_antisymm h (List.length_pos_of_mem hmem))
  rw [hc, List.mem_singleton] at hmem
  rw [hc, hmem]

end

/-! ## The key column -/

/-- The key column, among columns that are none. -/
structure IsSoleKey (pre : List Column) (k : Column) (post : List Column) : Prop where
  key : k.isPrimaryKey = true
  others : ∀ c ∈ pre ++ post, c.isPrimaryKey = false

theorem filter_not_key {cs : List Column} (h : ∀ c ∈ cs, c.isPrimaryKey = false) :
    cs.filter (·.isPrimaryKey) = [] :=
  List.filter_eq_nil_iff.2 fun c hc => by simp [h c hc]

theorem isSoleKey_iff_filter {pre post : List Column} {k : Column} :
    IsSoleKey pre k post ↔ (pre ++ k :: post).filter (·.isPrimaryKey) = [k] := by
  rw [filter_split_eq_singleton_iff]
  exact ⟨fun h => ⟨h.key, h.others⟩, fun h => ⟨h.1, h.2⟩⟩

theorem keyNames_of_sole {pre post : List Column} {k : Column} (h : IsSoleKey pre k post) :
    keyNames (pre ++ k :: post) = [k.name] := by
  rw [keyNames, isSoleKey_iff_filter.1 h, List.map_singleton]

theorem keyColumns_of_sole {pre post : List Column} {k : Column} (h : IsSoleKey pre k post) :
    keyColumns (pre ++ k :: post) = [(k, pre.length)] := by
  have hnone : ∀ {cs : List Column} {i : Nat}, (∀ c ∈ cs, c.isPrimaryKey = false) →
      (cs.zipIdx i).filter (·.1.isPrimaryKey) = [] := by
    intro cs i hcs
    refine List.filter_eq_nil_iff.2 fun x hx => ?_
    simp [hcs x.1 (List.fst_mem_of_mem_zipIdx hx)]
  rw [keyColumns, List.zipIdx_append, List.zipIdx_cons, List.filter_append,
    List.filter_cons_of_pos (by simpa using h.key),
    hnone fun c hc => h.others c (List.mem_append_left _ hc),
    hnone fun c hc => h.others c (List.mem_append_right _ hc)]
  simp

theorem inlineKey?_of_sole {pre post : List Column} {k : Column} (h : IsSoleKey pre k post) :
    inlineKey? sqlite (pre ++ k :: post)
      = if Dialect.sqlite.isMarked k.extra then some pre.length else none := by
  rw [inlineKey?, keyColumns_of_sole h]

theorem exists_of_inlineKey? {columns : List Column} {i : Nat}
    (h : inlineKey? sqlite columns = some i) :
    ∃ pre k post, columns = pre ++ k :: post ∧ IsSoleKey pre k post
      ∧ Dialect.sqlite.isMarked k.extra = true := by
  rw [inlineKey?] at h
  split at h
  · next k j hk =>
    split at h
    · next hm =>
      obtain ⟨l, r, hs, hl, hkey, hr⟩ := List.filter_eq_cons_iff.1 hk
      refine ⟨l.map Prod.fst, k, r.map Prod.fst, ?_, ⟨by simpa using hkey, ?_⟩, hm⟩
      · rw [← List.zipIdx_map_fst 0 columns, hs, List.map_append, List.map_cons]
      · intro c hc
        rw [← List.map_append] at hc
        obtain ⟨x, hx, rfl⟩ := List.mem_map.1 hc
        rcases List.mem_append.1 hx with hx | hx
        · simpa using hl x hx
        · simpa using List.filter_eq_nil_iff.1 hr x hx
    · cases h
  · cases h

/-- SQLite declares the key on the one key column, if that is marked. -/
theorem inlineKey?_eq_some_iff {columns : List Column} {i : Nat} :
    sqlite.inlineKey? columns = some i ↔ ∃ k, columns[i]? = some k
      ∧ columns.filter (·.isPrimaryKey) = [k] ∧ Dialect.sqlite.isMarked k.extra = true := by
  constructor
  · intro h
    obtain ⟨pre, k, post, rfl, hsole, hm⟩ := exists_of_inlineKey? h
    rw [inlineKey?_of_sole hsole, if_pos hm, Option.some_inj] at h
    subst h
    exact ⟨k, by simp, isSoleKey_iff_filter.1 hsole, hm⟩
  · rintro ⟨k, hi, hk, hm⟩
    have hcut := eq_take_append_cons_drop hi
    have hlt := (List.getElem?_eq_some_iff.1 hi).1
    have hsole : IsSoleKey (columns.take i) k (columns.drop (i + 1)) :=
      isSoleKey_iff_filter.2 (hcut ▸ hk)
    rw [hcut, inlineKey?_of_sole hsole, if_pos hm, List.length_take_of_le (Nat.le_of_lt hlt)]

theorem exists_inlineKey? {columns : List Column} {k : Column}
    (hk : columns.filter (·.isPrimaryKey) = [k]) (hm : Dialect.sqlite.isMarked k.extra = true) :
    ∃ i, columns[i]? = some k ∧ sqlite.inlineKey? columns = some i := by
  have hmem : k ∈ columns := List.mem_of_mem_filter (hk ▸ List.mem_singleton_self k)
  obtain ⟨i, hi⟩ := List.mem_iff_getElem?.1 hmem
  exact ⟨i, hi, inlineKey?_eq_some_iff.2 ⟨k, hi, hk, hm⟩⟩

theorem columnDefinitions_of_sole {pre post : List Column} {k : Column}
    (hn : ∀ c ∈ pre ++ k :: post, IsPlainName c.name)
    (h : inlineKey? sqlite (pre ++ k :: post) = some pre.length) :
    sqlite.columnDefinitions (pre ++ k :: post)
      = (pre.map (fun c => c.line []) ++ k.line (sqlite.keyParts k true)
          :: post.map fun c => c.line []).map (TableLine.text '"') := by
  have htext : ∀ {cs : List Column}, (∀ c ∈ cs, IsPlainName c.name) →
      (cs.map fun c => sqlite.column c false) = (cs.map fun c => c.line []).map (TableLine.text '"') := by
    intro cs hcs
    rw [List.map_map]
    exact List.map_congr_left fun c hc => column_eq_text sqlite (hcs c hc) false
  have hk : sqlite.column k true = (k.line (sqlite.keyParts k true)).text '"' :=
    column_eq_text sqlite (hn k (by simp)) true
  rw [columnDefinitions_of_some h, htext fun c hc => hn c (by simp [hc]),
    htext fun c hc => hn c (by simp [hc]), hk, List.map_append, List.map_cons]

/-! ## The table -/

def ending (r : Renderer) : Text := endingOf r.dialect (match r with
  | mysql storage => storage
  | sqlite => default)

/-- The statement with the definitions `defs` between its parentheses. -/
def createTableOf (r : Renderer) (table : Text) (defs : List Text) : Text :=
  "CREATE TABLE ".toList ++ r.dialect.quote table ++ " (\n  ".toList
    ++ Text.join ",\n  ".toList defs ++ "\n)".toList
    ++ (r.tableOptions.elim [] fun options => ' ' :: options) ++ ";".toList

theorem createTable_eq (r : Renderer) (table : Text) (columns : List Column) :
    r.createTable table columns = r.createTableOf table (r.definitions columns) :=
  rfl

theorem createTableOf_lines (r : Renderer) {table : Text}
    (hb : Settings.isBareIdentifier table = true) (ls : List TableLine) :
    r.createTableOf table (ls.map (TableLine.text r.dialect.quoteChar))
      = tableText r.dialect.quoteChar table ls r.ending := by
  have hq := quote_eq_quotedName r.dialect (chars_of_isBareIdentifier hb).2
  have hend : (r.tableOptions.elim [] fun options => ' ' :: options) ++ ";".toList = r.ending := by
    cases r <;> rfl
  unfold createTableOf
  rw [hq, List.append_assoc _ _ ";".toList, hend, tableText, laidOut, tableHeader_eq]
  simp

theorem createTable_of_definitions {r : Renderer} {table : Text}
    (hb : Settings.isBareIdentifier table = true) {columns : List Column} {ls : List TableLine}
    (h : r.definitions columns = ls.map (TableLine.text r.dialect.quoteChar)) :
    r.createTable table columns = tableText r.dialect.quoteChar table ls r.ending := by
  rw [createTable_eq, h, createTableOf_lines r hb]

end Renderer

end SchemaDialects
