import SchemaDialects.Proofs.Conversion.LineEnd
import SchemaDialects.Proofs.Rendering.Lines
import SchemaDialects.Proofs.Script.PlainParts

/-!
# Rendered tables read back

A rendered table is one statement to its own dialect, whatever the names in it are. The
table's name is read up to the first blank, quote or parenthesis although it stands in
quotes. A table is read back as it was rendered exactly if its name has none of these.
-/

namespace SchemaDialects

open Text Definition Script Lexical

/-- The kind of quotes around the dialect's names. -/
def Dialect.nameQuote : Dialect → Quote
  | .mysql => .backtick
  | .sqlite => .double

/-- How the dialect reads a character. -/
def Dialect.reader : Dialect → Lexical → Char → Lexical
  | .mysql => Lexical.step
  | .sqlite => stepSqlite

/-- Only the names of the table and its columns can hold quotes, dashes, slashes or
semicolons. -/
structure HasCalmParts (r : Renderer) (columns : List Column) : Prop where
  types : ∀ c ∈ columns, ∀ x ∈ c.declaredType, IsCalm x
  defaults : ∀ c ∈ columns, ∀ expr ∈ c.default?, ∀ x ∈ expr, IsCalm x
  options : ∀ o ∈ r.tableOptions, ∀ x ∈ o, IsCalm x

/-! ## One statement -/

theorem reader_plain (d : Dialect) (c : Char) : d.reader plain c = opening c := by
  cases d <;> rfl

theorem staysPlain_quote (d : Dialect) (name : Text) : StaysPlain d.reader (d.quote name) := by
  have hclose : ClosesAt d.reader d.nameQuote name := by
    cases d with
    | mysql => exact closesAt_step fun h => by cases h
    | sqlite => exact closesAt_stepSqlite _ _
  have hquoted := staysPlain_quoted (reader_plain d) hclose
  cases d <;> exact hquoted

theorem staysPlain_calm (d : Dialect) {s : Text} (h : ∀ c ∈ s, IsCalm c) :
    StaysPlain d.reader s :=
  staysPlain_of_calm (reader_plain d) h

section
variable {r : Renderer} {columns : List Column} (h : HasCalmParts r columns)

theorem isCalm_marker (d : Dialect) : ∀ x ∈ ' ' :: d.marker, IsCalm x := by
  cases d <;> decide

theorem isCalm_keyAttributes (r : Renderer) (c : Column) (inline : Bool) :
    ∀ x ∈ r.keyAttributes c inline, IsCalm x :=
  Renderer.forall_keyAttributes isCalm_marker (by decide) r c inline

include h

theorem staysPlain_column {c : Column} (hc : c ∈ columns) (inline : Bool) :
    StaysPlain r.dialect.reader (r.column c inline) := by
  have htype : ∀ x ∈ ' ' :: c.declaredType, IsCalm x :=
    List.forall_mem_cons.2 ⟨by decide, h.types c hc⟩
  have hnull : ∀ x ∈ (if c.nullable then [] else " NOT NULL".toList), IsCalm x := by
    cases c.nullable <;> decide
  have hdefault : ∀ x ∈ c.default?.elim [] fun expr => " DEFAULT ".toList ++ expr, IsCalm x := by
    cases hexpr : c.default? with
    | none => simp
    | some expr => exact List.forall_mem_append.2 ⟨by decide, h.defaults c hc expr hexpr⟩
  have hkey := isCalm_keyAttributes r c inline
  exact ((((staysPlain_quote _ c.name).append (staysPlain_calm _ htype)).append
    (staysPlain_calm _ hnull)).append (staysPlain_calm _ hdefault)).append (staysPlain_calm _ hkey)

theorem staysPlain_of_mem_definitions {s : Text} (hs : s ∈ r.definitions columns) :
    StaysPlain r.dialect.reader s := by
  rcases List.mem_append.1 hs with hs | hs
  · obtain ⟨⟨c, i⟩, hmem, rfl⟩ := List.mem_map.1 hs
    exact staysPlain_column h (List.fst_mem_of_mem_zipIdx hmem) _
  · rw [Renderer.keyClause] at hs
    split at hs
    · cases hs
    · obtain rfl := List.mem_singleton.1 hs
      have hnames : StaysPlain r.dialect.reader (join ", ".toList
          ((columns.filter (·.isPrimaryKey)).map fun c => r.dialect.quote c.name)) := by
        refine .join (staysPlain_calm _ (by decide)) fun name hname => ?_
        obtain ⟨c, -, rfl⟩ := List.mem_map.1 hname
        exact staysPlain_quote _ c.name
      exact ((staysPlain_calm _ (by decide)).append hnames).append
        (staysPlain_calm _ (by decide))

/-- To its own dialect a rendered table ends where it ends, and not before. -/
theorem endsAtSemicolon_createTable (table : Text) :
    endsAtSemicolon r.dialect.reader plain (r.createTable table columns) = true := by
  have hoptions : ∀ x ∈ r.tableOptions.elim [] fun options => ' ' :: options, IsCalm x := by
    cases ho : r.tableOptions with
    | none => simp
    | some o => exact List.forall_mem_cons.2 ⟨by decide, h.options o ho⟩
  have hstart : StaysPlain r.dialect.reader "CREATE TABLE ".toList :=
    staysPlain_calm _ (by decide)
  have hopen : StaysPlain r.dialect.reader " (\n  ".toList := staysPlain_calm _ (by decide)
  have hsep : StaysPlain r.dialect.reader ",\n  ".toList := staysPlain_calm _ (by decide)
  have hclose : StaysPlain r.dialect.reader "\n)".toList := staysPlain_calm _ (by decide)
  have hjoin := StaysPlain.join hsep fun s hs => staysPlain_of_mem_definitions h hs
  have hname := staysPlain_quote r.dialect table
  have hall := ((((hstart.append hname).append hopen).append hjoin).append hclose).append
    (staysPlain_calm _ hoptions)
  have hend : endsAtSemicolon r.dialect.reader plain ";".toList = true := rfl
  exact (endsAtSemicolon_append hall _).trans hend

end

/-- Whether the splitter reads a rendered table as its dialect does. -/
def SplitsAlike : Dialect → Text → Prop
  | .mysql, _ => True
  | .sqlite, s => closesEvenly plain false s = true

theorem endsAtSemicolon_of_reader {d : Dialect} {s : Text} (hs : SplitsAlike d s)
    (h : endsAtSemicolon d.reader plain s = true) :
    endsAtSemicolon Lexical.step plain s = true := by
  cases d with
  | mysql => exact h
  | sqlite =>
    have hread := endsAtSemicolon_escapedIf rfl hs
    exact hread.trans h

/-! ## Quoted names -/

theorem nameAfter_quote (d : Dialect) (ends s : Text) :
    nameAfter ["IF".toList, "NOT".toList, "EXISTS".toList] ends (d.quoteChar :: s) =
      (run (isNameChar ends) s).map Prod.fst := by
  cases d <;> rfl

theorem isNameChar_quoteChar (d : Dialect) (ends : Text) : isNameChar ends d.quoteChar = false := by
  cases d <;> simp [isNameChar, Dialect.quoteChar]

theorem quoteChar_not_mem {ends table : Text} (h : ∀ x ∈ table, isNameChar ends x = true)
    (d : Dialect) : d.quoteChar ∉ table := by
  intro hmem
  have hname := h _ hmem
  rw [isNameChar_quoteChar] at hname
  cases hname

theorem quote_append (d : Dialect) (name t : Text) :
    d.quote name ++ t = d.quoteChar :: (double d.quoteChar name ++ d.quoteChar :: t) := by
  simp [Dialect.quote, Text.quoted]

/-! ## The start of a table -/

theorem exists_createTable_eq (r : Renderer) (table : Text) (columns : List Column) :
    ∃ u, r.createTable table columns =
      "CREATE TABLE ".toList ++ (r.dialect.quote table ++ (" (\n  ".toList ++ u)) ∧
        u.getLast? = some ';' := by
  have hassoc (a b c d e f g : Text) :
      a ++ b ++ c ++ d ++ e ++ f ++ g = a ++ (b ++ (c ++ (d ++ (e ++ (f ++ g))))) := by
    simp only [List.append_assoc]
  refine ⟨join ",\n  ".toList (r.definitions columns) ++ ("\n)".toList ++
    ((r.tableOptions.elim [] fun options => ' ' :: options) ++ ";".toList)), ?_, ?_⟩
  · exact hassoc _ _ _ _ _ _ _
  · have hlast : ";".toList.getLast? = some ';' := rfl
    rw [List.getLast?_append, List.getLast?_append, List.getLast?_append, hlast]
    rfl

section
variable (r : Renderer) (table : Text) (columns : List Column)

theorem trim_createTable : trim (r.createTable table columns) = r.createTable table columns := by
  obtain ⟨u, hu, hlast⟩ := exists_createTable_eq r table columns
  rw [hu]
  refine trim_eq_self rfl ?_
  rw [List.getLast?_append, List.getLast?_append, List.getLast?_append, hlast]
  rfl

theorem start_createTable :
    body (r.createTable table columns) = r.createTable table columns ∧
      isPlainCreateTable (r.createTable table columns) = true ∧
      ∃ u, tableName? (r.createTable table columns) =
        (run (isNameChar "(".toList) (double r.dialect.quoteChar table ++
          r.dialect.quoteChar :: u)).map Prod.fst := by
  obtain ⟨u, hu, hlast⟩ := exists_createTable_eq r table columns
  rw [hu]
  have hlast' : (r.dialect.quote table ++ (" (\n  ".toList ++ u)).getLast?.any isBlank = false := by
    rw [List.getLast?_append, List.getLast?_append, hlast]
    rfl
  have hne : r.dialect.quote table ++ (" (\n  ".toList ++ u) ≠ [] := by
    rw [quote_append]
    simp
  have hhead : (r.dialect.quote table ++ (" (\n  ".toList ++ u)).head?.any isBlank = false := by
    cases r <;> rfl
  refine ⟨body_start hlast' hne, isPlainCreateTable_start hlast' hne, " (\n  ".toList ++ u, ?_⟩
  rw [tableName?_start hhead hlast' hne, quote_append, nameAfter_quote]

variable {table}

theorem tableName?_createTable_iff (hne : table ≠ []) :
    tableName? (r.createTable table columns) = some table ↔
      ∀ x ∈ table, isNameChar "(".toList x = true := by
  obtain ⟨-, -, u, hname⟩ := start_createTable r table columns
  rw [hname]
  refine ⟨all_of_run, fun h => ?_⟩
  rw [double_of_not_mem (quoteChar_not_mem h r.dialect),
    run_append hne h (by rw [List.head?_cons, Option.any_some, isNameChar_quoteChar])]
  rfl

end

/-! ## The header -/

section
variable {old new : Char} (hold : old ≠ '\'') {name : Text} (hname : old ∉ name)
include hname

theorem run_inName : Quoting.run old ⟨false, true⟩ name = ⟨false, true⟩ := by
  induction name with
  | nil => rfl
  | cons c name ih =>
    obtain ⟨hc, hname⟩ := not_or.1 (List.mem_cons.not.1 hname)
    have hstep : Quoting.step old ⟨false, true⟩ c = ⟨false, true⟩ := by
      simp [Quoting.step, Ne.symm hc]
    show Quoting.run old (Quoting.step old ⟨false, true⟩ c) name = _
    rw [hstep, ih hname]

include hold

theorem requoteAt_quotedName (t : Text) :
    requoteAt old new .closed (quotedName old name ++ t) =
      quotedName new name ++ requoteAt old new .closed t := by
  have hopen : Quoting.closed.step old old = ⟨false, true⟩ := by
    simp [Quoting.step, Quoting.closed, hold]
  have hclose : Quoting.step old ⟨false, true⟩ old = .closed := by
    simp [Quoting.step, Quoting.closed]
  have hfirst : requoteAt old new .closed (old :: (name ++ old :: t)) =
      new :: (name ++ requoteAt old new ⟨false, true⟩ (old :: t)) := by
    rw [requoteAt_cons, hopen, requoteAt_append, requoteAt_of_not_mem _ hname, run_inName hname]
    simp [Quoting.closed, hold]
  have hsecond : requoteAt old new ⟨false, true⟩ (old :: t) = new :: requoteAt old new .closed t := by
    rw [requoteAt_cons, hclose]
    simp
  have happend (q : Char) (s : Text) : quotedName q name ++ s = q :: (name ++ q :: s) := by
    simp [quotedName]
  rw [happend, hfirst, hsecond, happend]

end

/-! ## Reading back -/

section
variable {r : Renderer} {c : Conversion} {table : Text} {columns : List Column}
variable (hd : c.direction.source = r.dialect)

include hd

/-- The storage clause of a rendered table is behind its header, if its name holds none. -/
theorem exists_unclaused (columns : List Column) (hclause : r.dialect = .mysql →
    occurs (anywhere Conversion.clauseHead) (r.dialect.quote table) = false) :
    ∃ u, Conversion.unclaused c.direction (r.createTable table columns) =
      "CREATE TABLE ".toList ++ (r.dialect.quote table ++ (" (\n  ".toList ++ u)) := by
  obtain ⟨u, hu, -⟩ := exists_createTable_eq r table columns
  rw [hu]
  cases hdir : c.direction with
  | sqliteToMysql => exact ⟨u, rfl⟩
  | mysqlToSqlite =>
    rw [hdir] at hd
    have hnone : find (anywhere Conversion.clauseHead) none (r.dialect.quote table) = none := by
      simpa [occurs] using hclause hd.symm
    have hblank : wordEnds (" (\n  ".toList ++ u) = true := wordEnds_blank _
    refine ⟨Conversion.dropClause u, ?_⟩
    show Conversion.dropClause _ = _
    rw [Conversion.dropClause_append_of_not_mem (by decide),
      Conversion.dropClause_append_of_none hblank rfl hnone,
      Conversion.dropClause_append_of_not_mem (by decide)]

/-- The conversion finds the rendered header as the first line, in its own quotes. -/
theorem header_createTable (hname : ∀ x ∈ table, isNameChar "(".toList x = true)
    (hclause : r.dialect = .mysql →
      occurs (anywhere Conversion.clauseHead) (r.dialect.quote table) = false) :
    (Conversion.layout c.direction (r.createTable table columns)).header =
      tableHeader (Conversion.newQuote c.direction) table := by
  obtain ⟨u, hu⟩ := exists_unclaused hd columns hclause
  have hold : r.dialect.quoteChar = Conversion.oldQuote c.direction := by
    rw [← hd]
    cases c.direction <;> rfl
  have hmem : Conversion.oldQuote c.direction ∉ table := hold ▸ quoteChar_not_mem hname r.dialect
  have hquote : r.dialect.quote table = quotedName (Conversion.oldQuote c.direction) table := by
    rw [← hold] at hmem ⊢
    exact quote_of_not_mem hmem
  have hne : Conversion.oldQuote c.direction ≠ '\'' := by cases c.direction <;> decide
  have hstart : Conversion.oldQuote c.direction ∉ "CREATE TABLE ".toList := by
    cases c.direction <;> decide
  have hopen : Conversion.oldQuote c.direction ∉ " (\n  ".toList := by
    cases c.direction <;> decide
  have hnew : isNameQuote (Conversion.newQuote c.direction) = true := by
    cases c.direction <;> rfl
  have hline := isLine_tableHeader hnew hname
  have hcontent : content (tableHeader (Conversion.newQuote c.direction) table) =
      tableHeader (Conversion.newQuote c.direction) table := by
    simpa using hline.content_eq (b := []) (e := []) (by simp) (by simp)
  have hbreak (a b t : Text) : a ++ (b ++ (" (\n  ".toList ++ t)) =
      a ++ b ++ " (".toList ++ '\n' :: ("  ".toList ++ t) := by
    rw [List.append_assoc, List.append_assoc]
    rfl
  obtain ⟨v, hv⟩ : ∃ v, Conversion.requoted c.direction (r.createTable table columns) =
      tableHeader (Conversion.newQuote c.direction) table ++ '\n' :: v := by
    rw [Conversion.requoted_eq, hu, hquote, requoteAt_append, requoteAt_of_not_mem _ hstart,
      run_of_not_mem _ hstart (by decide), requoteAt_quotedName hne hmem, requoteAt_append,
      requoteAt_of_not_mem _ hopen, tableHeader_eq]
    exact ⟨_, hbreak _ _ _⟩
  rw [Conversion.layout, (start_createTable r table columns).1, hv, contentLines_append,
    contentLines_of_line hline.no_break, hcontent, if_neg hline.ne_nil]
  rfl

theorem accepts_createTable (hc : c.strict = false)
    (hname : ∀ x ∈ table, isNameChar "(".toList x = true)
    (hclause : r.dialect = .mysql →
      occurs (anywhere Conversion.clauseHead) (r.dialect.quote table) = false) :
    ∃ out, (c.statement (r.createTable table columns)).value = .ok out := by
  obtain ⟨hbody, hplain, -⟩ := start_createTable r table columns
  have hnew : isNameQuote (Conversion.newQuote c.direction) = true := by
    cases c.direction <;> rfl
  have hcrowded : (Conversion.layout c.direction (r.createTable table columns)).isCrowded = false := by
    rw [Layout.isCrowded, header_createTable hd hname hclause, not_crowded_tableHeader hnew hname]
    rfl
  have hloss (table? : Option Text) (l : Layout) : c.firstLoss? table? l = none := by
    simp [Conversion.firstLoss?, hc]
  rw [Conversion.value_statement, hbody, if_pos ⟨hplain, hcrowded⟩, hloss]
  exact ⟨_, rfl⟩

/-- A rendered table is one statement and a plain table definition, whatever its names
are. The table's name and a lenient conversion are had from it exactly if the name would
be read as a whole without its quotes. -/
theorem createTable_read_back_iff (hc : c.strict = false) (hne : table ≠ [])
    (hparts : HasCalmParts r columns)
    (hclause : r.dialect = .mysql →
      occurs (anywhere Conversion.clauseHead) (r.dialect.quote table) = false)
    (hsplit : SplitsAlike r.dialect (r.createTable table columns)) :
    (statements (r.createTable table columns) = [r.createTable table columns] ∧
      isPlainCreateTable (r.createTable table columns) = true) ∧
    ((tableName? (r.createTable table columns) = some table ∧
      ∃ out, (c.statement (r.createTable table columns)).value = .ok out) ↔
        ∀ x ∈ table, isNameChar "(".toList x = true) := by
  have hends := endsAtSemicolon_of_reader hsplit (endsAtSemicolon_createTable hparts table)
  have hone := statements_of_pieces (pieces_of_ends hends)
    (List.ne_nil_of_mem (List.mem_of_getLast? (getLast?_of_ends hends)))
    (trim_createTable r table columns)
  have hname := tableName?_createTable_iff r columns hne
  exact ⟨⟨hone, (start_createTable r table columns).2.1⟩, fun h => hname.1 h.1,
    fun h => ⟨hname.2 h, accepts_createTable hd hc h hclause⟩⟩

end

/-- Signs that mean something elsewhere may stand in the name. -/
theorem createTable_read_back_signs :
    let table := "it's;a--b\\".toList
    let columns := [Column.ofType "(`x)".toList "DECIMAL(10,2)".toList]
    let c : Conversion := ⟨.mysqlToSqlite, default, default, false⟩
    let sql := (Renderer.mysql default).createTable table columns
    (c.direction.source = (Renderer.mysql default).dialect ∧ c.strict = false ∧ table ≠ [] ∧
      HasCalmParts (.mysql default) columns ∧
      occurs (anywhere Conversion.clauseHead) (Dialect.mysql.quote table) = false ∧
      SplitsAlike .mysql sql) ∧
    (statements sql = [sql] ∧ isPlainCreateTable sql = true) ∧ tableName? sql = some table ∧
      ∃ out, (c.statement sql).value = .ok out := by
  intro table columns c sql
  have hparts : HasCalmParts (.mysql default) columns :=
    ⟨by decide, by decide, by decide⟩
  have hclause : occurs (anywhere Conversion.clauseHead) (Dialect.mysql.quote table) = false := by
    decide
  have hne : table ≠ [] := by decide
  have hsource : c.direction.source = (Renderer.mysql default).dialect := rfl
  have hread := createTable_read_back_iff hsource rfl hne hparts (fun _ => hclause) trivial
  exact ⟨⟨hsource, rfl, hne, hparts, hclause, trivial⟩, hread.1, hread.2.2 (by decide)⟩

/-- A name with a blank and a parenthesis is read up to the blank, and what follows the
parenthesis is taken for a definition on the header's line. -/
theorem createTable_not_read_back :
    let table := "price (net)".toList
    let columns := [Column.ofType "amount".toList "INT".toList]
    let c : Conversion := ⟨.mysqlToSqlite, default, default, false⟩
    let sql := (Renderer.mysql default).createTable table columns
    tableName? sql = some "price".toList ∧
      (c.statement sql).value = .error (.ofStatement sql) := by
  decide +kernel

end SchemaDialects
