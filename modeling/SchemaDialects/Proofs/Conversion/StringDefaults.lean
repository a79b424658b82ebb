import SchemaDialects.Proofs.Conversion.Counting
import SchemaDialects.Proofs.Conversion.Strictness

/-!
# Tables with a string default

A table of one column whose default is a string literal. Patterns are searched
in the text of a statement whether or not they stand in a literal. Main
statement: the output has the literal as it was exactly where no pattern is read
in it.
-/

namespace SchemaDialects.Conversion

open Text Definition Script

/-- The line of the only definition. -/
def defaultLine (name type s : Text) : Text := beforeDefault name type ++ stringLiteral s

def defaultHeader : Text := "CREATE TABLE t (".toList

def defaultTable (name type s : Text) : Text :=
  defaultHeader ++ '\n' :: defaultLine name type s ++ "\n);".toList

/-- No pattern of a conversion is read in the literal of `s`. -/
structure IsLeftAlone (d : Direction) (s : Text) : Prop extends IsInert d (stringLiteral s) where
  clause : d = .mysqlToSqlite → occurs (anywhere storageClause) (stringLiteral s) = false

/-! ## The quotes of a literal -/

section
variable {old new : Char}

theorem requoteAt_inString {s : Text} (h : '\'' ∉ s) :
    requoteAt old new ⟨true, false⟩ s = s ∧ Quoting.run old ⟨true, false⟩ s = ⟨true, false⟩ := by
  induction s with
  | nil => exact ⟨rfl, rfl⟩
  | cons c s ih =>
    rw [List.mem_cons, not_or] at h
    obtain ⟨hs, hrun⟩ := ih h.2
    have hstep : Quoting.step old ⟨true, false⟩ c = ⟨true, false⟩ := by
      simp [Quoting.step, Ne.symm h.1]
    refine ⟨?_, ?_⟩
    · rw [requoteAt_cons, hstep, hs]
      simp
    · show (Quoting.step old ⟨true, false⟩ c).run old s = _
      rw [hstep, hrun]

theorem requoteAt_literal (hold : old ≠ '\'') {s : Text} (h : '\'' ∉ s) :
    requoteAt old new .closed (stringLiteral s) = stringLiteral s := by
  have hopen : Quoting.step old .closed '\'' = ⟨true, false⟩ := by
    simp [Quoting.step, Quoting.closed]
  obtain ⟨hs, hrun⟩ : requoteAt old new ⟨true, false⟩ s = s
      ∧ Quoting.run old ⟨true, false⟩ s = ⟨true, false⟩ := requoteAt_inString h
  have hlast : requoteAt old new ⟨true, false⟩ ['\''] = ['\''] := by
    rw [requoteAt_cons]
    simp [requoteAt, requoteFrom]
  rw [stringLiteral, requoteAt_cons, hopen, requoteAt_append, hs, hrun, hlast]
  simp [Ne.symm hold]

theorem requoteAt_before_literal {a s : Text} (hold : old ≠ '\'') (ha : old ∉ a) (hq : '\'' ∉ a)
    (h : '\'' ∉ s) : requoteAt old new .closed (a ++ stringLiteral s) = a ++ stringLiteral s := by
  rw [requoteAt_append, requoteAt_of_not_mem _ ha, run_of_not_mem _ ha hq, requoteAt_literal hold h]

end

theorem beforeComment_of_parts {a : Text} (ha : ∀ c ∈ a, isPart c) (s : Text) :
    beforeComment none (a ++ s) = (beforeComment none s).map (a ++ ·) := by
  have hpart : ∀ x ∈ ['-', '\'', '"', '`'], ¬ isPart x := by
    simp only [isPart]
    decide
  exact beforeComment_unquoted (fun c hc hmem => hpart c hmem (ha c hc)) s

/-! ## The layout of the table -/

section
variable {name type s : Text} (hne : name ≠ []) (hword : ∀ ch ∈ name, isWord ch = true)
variable (ha : ∀ ch ∈ type, ch.isAlpha = true) (hquote : '\'' ∉ s) (hbreak : '\n' ∉ s)

include hword ha

theorem not_mem_beforeDefault {c : Char} (hc : isOrdinary c = false) : c ∉ beforeDefault name type := by
  intro hm
  rw [isOrdinary_beforeDefault hword ha c hm] at hc
  cases hc

include hne hquote hbreak in
theorem isDefinition_defaultLine : IsDefinition (defaultLine name type s) := by
  obtain ⟨x, xs, rfl⟩ := List.exists_cons_of_ne_nil hne
  have hlast : (defaultLine (x :: xs) type s).getLast? = some '\'' := by
    rw [defaultLine, stringLiteral, ← List.cons_append, ← List.append_assoc, List.getLast?_concat]
  refine ⟨⟨by simp [defaultLine, stringLiteral], ?_, ?_, ?_, ?_⟩, ?_, ?_⟩
  · have := not_mem_beforeDefault hword ha (c := '\n') (by decide)
    simp [defaultLine, stringLiteral, this, hbreak]
  · have hx := isBlank_of_mem_name hword x (by simp)
    simpa [defaultLine, beforeDefault] using hx
  · rw [hlast]
    decide
  · have hparts : ∀ c ∈ beforeDefault (x :: xs) type, isPart c := fun c hc =>
      Or.inl (isOrdinary_beforeDefault hword ha c hc)
    rw [defaultLine, beforeComment_of_parts hparts, stringLiteral, beforeComment]
    simp [beforeComment_inQuotes hquote, beforeComment]
  · rw [hlast]
    decide
  · have hx : x ≠ ')' := by
      rintro rfl
      exact absurd (hword ')' (by simp)) (by decide +kernel)
    simpa [isClosing, defaultLine, beforeDefault] using hx

theorem not_mem_above {c : Char} (hc : c ∈ ['\'', '"', '`', ')']) :
    c ∉ defaultHeader ++ '\n' :: beforeDefault name type := by
  have hall : ∀ x ∈ ['\'', '"', '`', ')'], isOrdinary x = false ∧ x ∉ defaultHeader ∧ x ≠ '\n' := by
    decide
  obtain ⟨hord, hheader, hbreak⟩ := hall c hc
  have hline := not_mem_beforeDefault hword ha hord
  simp [hheader, hline, hbreak]

theorem find_clauseHead_defaultLine (h : occurs (anywhere storageClause) (stringLiteral s) = false) :
    find (anywhere clauseHead) none (defaultHeader ++ '\n' :: defaultLine name type s) = none := by
  have hliteral : find (anywhere clauseHead) none (stringLiteral s) = none := by
    rw [occurs_storageClause] at h
    simpa [occurs] using h
  have hsplit : defaultHeader ++ '\n' :: defaultLine name type s
      = (defaultHeader ++ '\n' :: beforeDefault name type) ++ stringLiteral s := by
    simp [defaultLine]
  have hpass : Passes (anywhere clauseHead) none
      (defaultHeader ++ '\n' :: beforeDefault name type) (stringLiteral s) := by
    intro a b hab hb
    obtain ⟨c, b, rfl⟩ := List.exists_cons_of_ne_nil hb
    refine clauseHead_of_ne ?_ _
    rintro rfl
    exact not_mem_above (c := ')') hword ha (by simp) (by rw [hab]; simp)
  rw [hsplit, find_append hpass, find_anywhere _ _ none, hliteral]
  rfl

include hquote in
theorem requoteAt_above {d : Direction} :
    requoteAt (oldQuote d) (newQuote d) .closed (defaultHeader ++ '\n' :: defaultLine name type s)
      = defaultHeader ++ '\n' :: defaultLine name type s := by
  have hsplit : defaultHeader ++ '\n' :: defaultLine name type s
      = (defaultHeader ++ '\n' :: beforeDefault name type) ++ stringLiteral s := by
    simp [defaultLine]
  rw [hsplit]
  refine requoteAt_before_literal ?_ ?_ ?_ hquote
  · cases d <;> decide
  · apply not_mem_above hword ha
    cases d <;> decide
  · exact not_mem_above hword ha (by decide)

include hne hquote hbreak in
/-- The table is read as its header and its line where no storage clause starts
in the literal. -/
theorem isLaidOut_defaultTable {d : Direction}
    (hclause : d = .mysqlToSqlite → occurs (anywhere storageClause) (stringLiteral s) = false) :
    IsLaidOut d (defaultTable name type s) defaultHeader [defaultLine name type s] := by
  have hline := isDefinition_defaultLine hne hword ha hquote hbreak
  have hcontent : content (defaultLine name type s) = defaultLine name type s := by
    simpa using hline.content_eq (b := []) (e := []) (by simp) (by simp)
  refine ⟨⟨defaultHeader ++ '\n' :: defaultLine name type s, [], [';'], rfl, by simp, ?_, ?_⟩, ?_⟩
  · rw [requoteAt_above hword ha hquote, contentLines_append, contentLines_of_line hline.no_break,
      hcontent, if_neg hline.ne_nil]
    rfl
  · intro hd lead rest hf
    have hnone := find_clauseHead_defaultLine hword ha (hclause hd)
    have hblank : wordEnds "\n);".toList = true := by decide +kernel
    have hend : find (anywhere storageClause) none "\n);".toList = none := by decide
    rw [defaultTable, find_storageClause_append hblank (by decide) hnone, hend] at hf
    cases hf
  · intro line hl
    rw [List.mem_singleton.1 hl]
    exact hline.not_closing

end

/-! ## What becomes of the table -/

theorem body_defaultTable (name type s : Text) :
    body (defaultTable name type s) = defaultTable name type s := by
  have hlast : (defaultTable name type s).getLast? = some ';' := by
    rw [defaultTable, List.getLast?_append]
    rfl
  obtain ⟨w, hw⟩ : ∃ w, defaultTable name type s = "CREATE TABLE ".toList ++ 't' :: w := ⟨_, rfl⟩
  rw [hw, List.getLast?_append_of_ne_nil _ (List.cons_ne_nil _ _)] at hlast
  rw [hw]
  exact body_start (by rw [hlast]; rfl) (List.cons_ne_nil _ _)

theorem exists_requoted_defaultTable (d : Direction) (name type s : Text) :
    ∃ w, requoted d (defaultTable name type s) = defaultHeader ++ '\n' :: w := by
  obtain ⟨v, hv⟩ : ∃ v, unclaused d (defaultTable name type s) = (defaultHeader ++ ['\n']) ++ v := by
    have hsplit : defaultTable name type s
        = (defaultHeader ++ ['\n']) ++ (defaultLine name type s ++ "\n);".toList) := by
      simp [defaultTable]
    rw [hsplit]
    cases d with
    | mysqlToSqlite => exact ⟨_, dropClause_append_of_not_mem (by decide) _⟩
    | sqliteToMysql => exact ⟨_, rfl⟩
  have hquote : oldQuote d ∉ defaultHeader ++ ['\n'] := by cases d <;> decide
  refine ⟨requoteAt (oldQuote d) (newQuote d)
    (Quoting.closed.run (oldQuote d) (defaultHeader ++ ['\n'])) v, ?_⟩
  rw [requoted_eq, hv, requoteAt_append, requoteAt_of_not_mem _ hquote]
  simp

theorem header_defaultTable (d : Direction) (name type s : Text) :
    (layout d (defaultTable name type s)).header = defaultHeader := by
  obtain ⟨w, hw⟩ := exists_requoted_defaultTable d name type s
  have hheader : contentLines defaultHeader = [defaultHeader] := by decide
  rw [layout, body_defaultTable, hw, contentLines_append, hheader]
  rfl

theorem not_rejected_defaultTable (d : Direction) (name type s : Text) :
    ¬ Rejected d (defaultTable name type s) := by
  rw [not_rejected_iff, Layout.isCrowded, header_defaultTable, body_defaultTable]
  refine ⟨?_, by decide⟩
  rw [defaultTable, List.append_assoc]
  exact isPlainCreateTable_append_head (p := defaultHeader) (by decide +kernel) (by simp; decide)

section
variable {name type s : Text} (hne : name ≠ []) (hword : ∀ ch ∈ name, isWord ch = true)
variable (hquote : '\'' ∉ s) (hbreak : '\n' ∉ s) {c : Conversion}
variable (htype : c.direction.source.hasTypeKeyword type = true)
variable (hk : isConstraintKeyword name = false)
variable (hm : sameUpToCase name c.direction.source.marker = false)

include hword htype

/-- Of a statement without its storage clause an equals sign is missing. -/
theorem count_output_defaultTable_lt {out : Text} (hd : c.direction = .mysqlToSqlite)
    (hclause : occurs (anywhere storageClause) (stringLiteral s) = true)
    (hout : (c.statement (defaultTable name type s)).value = .ok out) :
    out.count '=' < (stringLiteral s).count '=' := by
  obtain ⟨-, ha, -⟩ := Dialect.hasTypeKeyword_spec htype
  have hsplit : defaultTable name type s = (defaultHeader ++ '\n' :: beforeDefault name type)
      ++ stringLiteral s ++ "\n);".toList := by
    simp [defaultTable, defaultLine]
  have hlt : (dropClause (defaultTable name type s)).count '=' < (defaultTable name type s).count '=' := by
    rw [hsplit]
    exact count_dropClause_lt (occurs_append hclause _ _)
  have hle := count_output_le hd (defaultTable name type s)
  rw [← eq_output_of_ok hout, body_defaultTable, requoted_eq,
    count_requoteAt (by decide) (by decide)] at hle
  have hname : '=' ∉ name := fun hmem => absurd (hword _ hmem) (by decide +kernel)
  have htype' : '=' ∉ type := fun hmem => absurd (ha _ hmem) (by decide)
  have hbefore : (defaultHeader ++ '\n' :: beforeDefault name type).count '=' = 0 := by
    refine List.count_eq_zero_of_not_mem ?_
    have hheader : '=' ∉ defaultHeader := by decide
    simp [hheader, beforeDefault, spaced, hname, htype']
  have htable : (defaultTable name type s).count '=' = (stringLiteral s).count '=' := by
    rw [hsplit, List.count_append, List.count_append, hbefore,
      show "\n);".toList.count '=' = 0 by decide]
    omega
  rw [← htable]
  exact Nat.lt_of_le_of_lt hle hlt

include hne hquote hbreak hk hm

theorem output_defaultTable {out : Text}
    (hclause : c.direction = .mysqlToSqlite →
      occurs (anywhere storageClause) (stringLiteral s) = false)
    (hout : (c.statement (defaultTable name type s)).value = .ok out) :
    out = defaultHeader ++ rows [beforeDefault name (c.types.target c.direction type)
      ++ respelled c.direction (cleaned c.direction (stringLiteral s))] ++ "\n)".toList ++ c.ending := by
  obtain ⟨-, ha, -⟩ := Dialect.hasTypeKeyword_spec htype
  have hline := isDefinition_defaultLine hne hword ha hquote hbreak
  have hlaid := isLaidOut_defaultTable hne hword ha hquote hbreak hclause
  rw [← body_defaultTable] at hlaid
  obtain ⟨kept, hkept, hlines, -⟩ := output_of_isLaidOut hlaid hout
  rw [List.map_singleton, withoutComma_eq_self hline] at hkept
  have hrewritten : rewritten c.types c.direction (defaultLine name type s)
      = beforeDefault name (c.types.target c.direction type)
        ++ respelled c.direction (cleaned c.direction (stringLiteral s)) :=
    rewritten_beforeDefault hne hword c.types htype hk hm _
  have hclause : keyClauseColumns? (rewritten c.types c.direction (defaultLine name type s)) = none := by
    rw [hrewritten]
    exact keyClauseColumns?_beforeDefault hword hk _ _
  have hmem := hkept.mem (List.mem_singleton_self _)
    (isDropped_beforeDefault hword ha c.direction _) hclause
  have hself : kept = [defaultLine name type s] := by
    rcases List.sublist_singleton.1 hkept.sublist with hnil | hself
    · rw [hnil] at hmem
      cases hmem
    · exact hself
  rw [hlines, hself, List.map_singleton, hrewritten]

/-- The literal is left as it was exactly where no pattern is read in it. -/
theorem literal_kept_iff {out : Text}
    (hout : (c.statement (defaultTable name type s)).value = .ok out) :
    out = defaultHeader ++ rows [defaultLine name (c.types.target c.direction type) s]
      ++ "\n)".toList ++ c.ending ↔ IsLeftAlone c.direction s := by
  by_cases hclause : c.direction = .mysqlToSqlite →
      occurs (anywhere storageClause) (stringLiteral s) = false
  · have hrows : ∀ line : Text, rows [line] = "\n  ".toList ++ line := fun _ => rfl
    rw [output_defaultTable hne hword hquote hbreak htype hk hm hclause hout, hrows, hrows,
      List.append_left_inj, List.append_left_inj, List.append_right_inj, List.append_right_inj,
      defaultLine, List.append_right_inj, respelled_cleaned_eq_iff hquote]
    exact ⟨fun h => ⟨h, hclause⟩, fun h => h.toIsInert⟩
  · obtain ⟨hd, hoccurs⟩ := Classical.not_imp.1 hclause
    have hlt := count_output_defaultTable_lt hword htype hd
      (by simpa using hoccurs) hout
    refine iff_of_false ?_ fun h => hclause h.clause
    rintro rfl
    have hsub : (stringLiteral s).Sublist
        (defaultHeader ++ rows [defaultLine name (c.types.target c.direction type) s]
          ++ "\n)".toList ++ c.ending) :=
      List.IsInfix.sublist ⟨defaultHeader ++ ("\n  ".toList
        ++ beforeDefault name (c.types.target c.direction type)), "\n)".toList ++ c.ending,
        by simp [rows, join, defaultLine]⟩
    exact absurd (Nat.lt_of_lt_of_le hlt (hsub.count_le '=')) (Nat.lt_irrefl _)

end

/-- A table with a string default is accepted, unless its type is lossy and losses
are errors. The output has the name, the mapped type and the literal exactly
where no pattern is read in the literal. -/
theorem default_kept_iff (c : Conversion) {name type s : Text} (hne : name ≠ [])
    (hword : ∀ ch ∈ name, isWord ch = true) (hk : isConstraintKeyword name = false)
    (hm : sameUpToCase name c.direction.source.marker = false)
    (htype : c.direction.source.hasTypeKeyword type = true) (hquote : '\'' ∉ s)
    (hbreak : '\n' ∉ s) :
    (c.strict = false → ∃ out, (c.statement (defaultTable name type s)).value = .ok out)
      ∧ ∀ out, (c.statement (defaultTable name type s)).value = .ok out →
        (out = defaultHeader ++ rows [defaultLine name (c.types.target c.direction type) s]
          ++ "\n)".toList ++ c.ending ↔ IsLeftAlone c.direction s) :=
  ⟨fun hc => ⟨_, value_lenient hc (not_rejected_defaultTable c.direction name type s)⟩,
    fun _ hout => literal_kept_iff hne hword hquote hbreak htype hk hm hout⟩

theorem default_kept_iff_note :
    let sql := "CREATE TABLE t (\nnote VARCHAR DEFAULT 'on; update -- `x`'\n);".toList
    let name := "note".toList
    let s := "on; update -- `x`".toList
    let c : Conversion := { direction := .mysqlToSqlite }
    let out := "CREATE TABLE t (\n  note TEXT DEFAULT 'on; update -- `x`'\n);".toList
    sql = defaultTable name "VARCHAR".toList s ∧ name ≠ [] ∧ (∀ ch ∈ name, isWord ch = true)
      ∧ isConstraintKeyword name = false ∧ sameUpToCase name Dialect.mysql.marker = false
      ∧ Dialect.mysql.hasTypeKeyword "VARCHAR".toList = true ∧ '\'' ∉ s ∧ '\n' ∉ s
      ∧ (c.statement sql).value = .ok out ∧ IsLeftAlone .mysqlToSqlite s := by
  intro sql name s c out
  have hsql : sql = defaultTable name "VARCHAR".toList s := by decide +kernel
  have hword : ∀ ch ∈ name, isWord ch = true := by decide +kernel
  have hk : isConstraintKeyword name = false := by decide +kernel
  have hm : sameUpToCase name Dialect.mysql.marker = false := by decide +kernel
  have htype : Dialect.mysql.hasTypeKeyword "VARCHAR".toList = true := by decide +kernel
  have hout : (c.statement sql).value = .ok out := by decide +kernel
  have hlines : out = defaultHeader
      ++ rows [defaultLine name (c.types.target .mysqlToSqlite "VARCHAR".toList) s]
      ++ "\n)".toList ++ c.ending := by decide +kernel
  refine ⟨hsql, by decide, hword, hk, hm, htype, by decide, by decide, hout, ?_⟩
  rw [hsql] at hout
  exact ((default_kept_iff c (by decide) hword hk hm htype (by decide) (by decide)).2 out hout).1
    hlines

/-- A literal with an attribute in it does not stay. -/
theorem default_not_kept :
    let sql := "CREATE TABLE t (\nnote TEXT DEFAULT 'is unsigned'\n);".toList
    let name := "note".toList
    let type := "TEXT".toList
    let s := "is unsigned".toList
    let c : Conversion := { direction := .mysqlToSqlite }
    let out := "CREATE TABLE t (\n  note TEXT DEFAULT 'is'\n);".toList
    sql = defaultTable name type s ∧ name ≠ [] ∧ (∀ ch ∈ name, isWord ch = true)
      ∧ isConstraintKeyword name = false ∧ (∀ d : Dialect, sameUpToCase name d.marker = false)
      ∧ Dialect.mysql.hasTypeKeyword type = true ∧ (∀ ch ∈ s, ch ∉ ['\'', '\\', '\n', '\r'])
      ∧ (c.statement sql).value = .ok out
      ∧ out ≠ defaultHeader ++ rows [defaultLine name (c.types.target .mysqlToSqlite type) s]
        ++ "\n)".toList ++ c.ending := by
  intro sql name type s c out
  exact ⟨by decide +kernel, by decide, by decide +kernel, by decide +kernel,
    fun d => by cases d <;> decide +kernel, by decide +kernel, by decide, by decide +kernel,
    by decide +kernel⟩

end SchemaDialects.Conversion
