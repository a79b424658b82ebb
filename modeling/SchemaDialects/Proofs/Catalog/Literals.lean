import SchemaDialects.Catalog.Row
import SchemaDialects.Direction
import SchemaDialects.Proofs.Script.PlainParts
import SchemaDialects.Proofs.Text.Trim

/-!
# Names read back

Doubling the quote character is undone by a reader that knows no other escape, whatever
follows the quotes but another quote character. So it is in SQLite. In MySQL a backslash
inside a string is an escape too, and doubling leaves it as it is: a name that holds one
is read as another name, if the string ends at all.
-/

namespace SchemaDialects

namespace Text

/-- Reads to the quote character that closes, where a backslash takes the next character
as it is, and gives the text and what follows. -/
def unescapeBody (q : Char) : Text → Option (Text × Text)
  | [] => none
  | c :: s =>
    if c = '\\' then
      match s with
      | [] => none
      | d :: r => (unescapeBody q r).map fun x => (d :: x.1, x.2)
    else if c = q then
      match s with
      | [] => some ([], [])
      | d :: r => if d = q then (unescapeBody q r).map fun x => (q :: x.1, x.2) else some ([], s)
    else (unescapeBody q s).map fun x => (c :: x.1, x.2)

def readEscaped (q : Char) : Text → Option (Text × Text)
  | [] => none
  | c :: s => if c = q then unescapeBody q s else none

/-! ## Doubling alone -/

variable {q : Char} {s t rest v r : Text}

theorem unquoteBody_double_ne (q : Char) (s rest : Text) :
    unquoteBody q (double q s ++ q :: q :: rest) ≠ some (s, q :: rest) := by
  intro h
  induction s with
  | nil => simp [unquoteBody] at h
  | cons c s ih =>
    by_cases hc : c = q
    · simp only [double, hc, if_true, List.cons_append, unquoteBody, Option.map_eq_some_iff,
        Prod.mk.injEq, List.cons.injEq, true_and] at h
      obtain ⟨x, hx, hs, hrest⟩ := h
      exact ih (by rw [hx, ← hs, ← hrest])
    · rw [double, if_neg hc, List.cons_append, unquoteBody.eq_def] at h
      simp only [hc, if_false, Option.map_eq_some_iff, Prod.mk.injEq, List.cons.injEq,
        true_and] at h
      obtain ⟨x, hx, hs, hrest⟩ := h
      exact ih (by rw [hx, ← hs, ← hrest])

theorem readQuoted_quoted_iff (q : Char) (s rest : Text) :
    readQuoted q (quoted q s ++ rest) = some (s, rest) ↔ rest.head? ≠ some q := by
  refine ⟨fun h hq => ?_, readQuoted_quoted q s⟩
  obtain ⟨rest, rfl⟩ := List.head?_eq_some_iff.1 hq
  refine unquoteBody_double_ne q s rest ?_
  simpa [readQuoted, quoted] using h

theorem quoted_injective (q : Char) : Function.Injective (quoted q) := by
  intro s t h
  have hs : readQuoted q (quoted q s ++ []) = some (s, []) := readQuoted_quoted q s (by simp)
  rw [h, readQuoted_quoted q t (by simp)] at hs
  exact (Prod.mk.inj (Option.some.inj hs)).1.symm

/-! ## Doubling and backslashes -/

theorem unescapeBody_double (hs : '\\' ∉ s) (hq : q ≠ '\\') (h : rest.head? ≠ some q) :
    unescapeBody q (double q s ++ q :: rest) = some (s, rest) := by
  induction s with
  | nil => cases rest <;> simp_all [unescapeBody]
  | cons c s ih =>
    obtain ⟨hc, hs⟩ := not_or.1 (List.mem_cons.not.1 hs)
    by_cases heq : c = q
    · simp [double, unescapeBody, heq, hq, ih hs]
    · rw [double, if_neg heq, List.cons_append, unescapeBody.eq_def]
      simp [heq, Ne.symm hc, ih hs]

theorem readEscaped_quoted (hs : '\\' ∉ s) (hq : q ≠ '\\') (h : rest.head? ≠ some q) :
    readEscaped q (quoted q s ++ rest) = some (s, rest) := by
  simp [readEscaped, quoted, unescapeBody_double hs hq h]

theorem length_double (q : Char) (s : Text) : (double q s).length = s.length + s.count q := by
  induction s with
  | nil => rfl
  | cons c s ih =>
    by_cases hc : c = q
    · simp [double, hc, ih]
      omega
    · simp [double, hc, ih]
      omega

theorem count_double (q : Char) (s : Text) : (double q s).count q = 2 * s.count q := by
  induction s with
  | nil => rfl
  | cons c s ih =>
    by_cases hc : c = q
    · simp [double, hc, ih]
      omega
    · simp [double, hc, ih]

theorem mem_double {c : Char} (h : c ∈ s) : c ∈ double q s := by
  induction s with
  | nil => cases h
  | cons d s ih =>
    rw [double]
    split
    · next hd =>
      rcases List.mem_cons.1 h with rfl | h
      · simp [hd]
      · simp [ih h]
    · rcases List.mem_cons.1 h with rfl | h
      · simp
      · simp [ih h]

/-- Read without a backslash, quote characters stand for half of their number and every
other character for itself. Each backslash makes the value shorter. -/
theorem exists_of_unescapeBody (hq : q ≠ '\\') (h : unescapeBody q s = some (v, r)) :
    ∃ m, s = m ++ r ∧
      m.count q + 2 * v.length + (if '\\' ∈ m then 2 else 1) ≤ 2 * m.length := by
  fun_induction unescapeBody q s generalizing v with
  | case1 => cases h
  | case2 => cases h
  | case3 d s ih =>
    obtain ⟨x, hx, heq⟩ := Option.map_eq_some_iff.1 h
    obtain ⟨rfl, rfl⟩ := Prod.mk.inj heq
    obtain ⟨m, rfl, hm⟩ := ih hx
    refine ⟨'\\' :: d :: m, rfl, ?_⟩
    have hd : (d :: m).count q ≤ m.count q + 1 := by
      rw [List.count_cons]
      split <;> omega
    rw [List.count_cons_of_ne (Ne.symm hq)]
    simp only [List.mem_cons, true_or, if_true, List.length_cons]
    split at hm <;> omega
  | case4 hc =>
    cases h
    refine ⟨[q], rfl, ?_⟩
    simp [Ne.symm hq]
  | case5 hc s ih =>
    obtain ⟨x, hx, heq⟩ := Option.map_eq_some_iff.1 h
    obtain ⟨rfl, rfl⟩ := Prod.mk.inj heq
    obtain ⟨m, rfl, hm⟩ := ih hx
    refine ⟨q :: q :: m, rfl, ?_⟩
    simp only [List.mem_cons, Ne.symm hq, false_or, List.count_cons_self, List.length_cons]
    omega
  | case6 hc d s hd =>
    cases h
    refine ⟨[q], rfl, ?_⟩
    simp [Ne.symm hq]
  | case7 c s hc hcq ih =>
    obtain ⟨x, hx, heq⟩ := Option.map_eq_some_iff.1 h
    obtain ⟨rfl, rfl⟩ := Prod.mk.inj heq
    obtain ⟨m, rfl, hm⟩ := ih hx
    refine ⟨c :: m, rfl, ?_⟩
    rw [List.count_cons_of_ne hcq]
    simp only [List.mem_cons, Ne.symm hc, false_or, List.length_cons]
    omega

theorem readEscaped_quoted_iff (hq : q ≠ '\\') (hrest : rest.head? ≠ some q) :
    readEscaped q (quoted q s ++ rest) = some (s, rest) ↔ '\\' ∉ s := by
  refine ⟨fun h hs => ?_, fun hs => readEscaped_quoted hs hq hrest⟩
  have hbody : unescapeBody q (double q s ++ q :: rest) = some (s, rest) := by
    simpa [readEscaped, quoted] using h
  obtain ⟨m, hm, hle⟩ := exists_of_unescapeBody hq hbody
  have hread : double q s ++ [q] = m := by
    rw [List.append_cons] at hm
    exact List.append_cancel_right hm
  have hmem : '\\' ∈ m := by
    rw [← hread]
    exact List.mem_append_left _ (mem_double hs)
  rw [if_pos hmem, ← hread, List.count_append, List.length_append, count_double, length_double,
    List.count_singleton_self, List.length_singleton] at hle
  omega

end Text

/-! ## Literals in queries -/

open Text

/-- Reads the literal behind the first `lead`, and gives the text and what follows. -/
def literalBehind (read : Text → Option (Text × Text)) (lead query : Text) :
    Option (Text × Text) :=
  (Direction.cutAt lead query).bind fun cut => read cut.2

theorem append_of_cutAt {sep s x y : Text} (h : Direction.cutAt sep s = some (x, y)) :
    s = x ++ (sep ++ y) := by
  fun_induction Direction.cutAt sep s generalizing x with
  | case1 => cases h
  | case2 c s hc =>
    cases h
    exact (List.prefix_iff_eq_append.1 (List.isPrefixOf_iff_prefix.1 hc)).symm
  | case3 c s hc ih =>
    obtain ⟨cut, hcut, heq⟩ := Option.map_eq_some_iff.1 h
    obtain ⟨rfl, rfl⟩ := Prod.mk.inj heq
    exact congrArg (c :: ·) (ih hcut)

theorem cutAt_append {sep s x y : Text} (h : Direction.cutAt sep s = some (x, y)) (t : Text) :
    Direction.cutAt sep (s ++ t) = some (x, y ++ t) := by
  fun_induction Direction.cutAt sep s generalizing x with
  | case1 => cases h
  | case2 c s hc =>
    have hpre := List.isPrefixOf_iff_prefix.1 hc
    have hlong := List.isPrefixOf_iff_prefix.2 (hpre.trans (List.prefix_append _ t))
    cases h
    rw [List.cons_append] at hlong ⊢
    rw [Direction.cutAt, if_pos hlong, ← List.cons_append, List.drop_append_of_le_length hpre.length_le]
  | case3 c s hc ih =>
    obtain ⟨cut, hcut, heq⟩ := Option.map_eq_some_iff.1 h
    obtain ⟨rfl, rfl⟩ := Prod.mk.inj heq
    have hlong : ¬ sep.isPrefixOf (c :: (s ++ t)) = true := by
      intro hpre
      refine hc (List.isPrefixOf_iff_prefix.2 (List.prefix_of_prefix_length_le
        (List.isPrefixOf_iff_prefix.1 hpre) (List.prefix_append (c :: s) t) ?_))
      rw [append_of_cutAt hcut]
      simp only [List.length_cons, List.length_append]
      omega
    rw [List.cons_append, Direction.cutAt, if_neg hlong, ih hcut]
    rfl

theorem literalBehind_append {lead front : Text}
    (h : (Direction.cutAt lead front).map Prod.snd = some [])
    (read : Text → Option (Text × Text)) (t : Text) :
    literalBehind read lead (front ++ t) = read t := by
  obtain ⟨⟨x, y⟩, hcut, rfl⟩ := Option.map_eq_some_iff.1 h
  rw [literalBehind, cutAt_append hcut]
  rfl

def columnsQueryStart : Dialect → Text
  | .mysql =>
    "SELECT COLUMN_NAME, COLUMN_TYPE, IS_NULLABLE, COLUMN_KEY, COLUMN_DEFAULT, EXTRA ".toList
      ++ "FROM INFORMATION_SCHEMA.COLUMNS ".toList
      ++ "WHERE TABLE_SCHEMA = DATABASE() AND TABLE_NAME = ".toList
  | .sqlite => "PRAGMA table_info(".toList

def columnsQueryEnd : Dialect → Text
  | .mysql => " ORDER BY ORDINAL_POSITION".toList
  | .sqlite => ");".toList

def storedStatementStart : Text :=
  "SELECT sql FROM sqlite_master WHERE type = 'table' AND name = ".toList

theorem columnsQuery_eq (d : Dialect) (table : Text) :
    d.columnsQuery table = columnsQueryStart d ++ (literal table ++ columnsQueryEnd d) := by
  cases d <;> exact List.append_assoc _ _ _

theorem storedStatementQuery_eq (table : Text) :
    storedStatementQuery table = storedStatementStart ++ (literal table ++ ";".toList) :=
  List.append_assoc _ _ _

theorem literal_injective (front tail : Text) :
    Function.Injective fun table => front ++ (literal table ++ tail) :=
  fun _ _ h => quoted_injective '\'' (List.append_cancel_right (List.append_cancel_left h))

/-- A quoted name is read back where no quote character follows it, and SQLite reads
the name in a query's literal back. No two names are written alike. -/
theorem quote_read_back :
    (∀ (d : Dialect) (name rest : Text),
      readQuoted d.quoteChar (d.quote name ++ rest) = some (name, rest) ↔
        rest.head? ≠ some d.quoteChar) ∧
    (∀ table, literalBehind (readQuoted '\'') "table_info(".toList
      (Dialect.sqlite.columnsQuery table) = some (table, ");".toList)) ∧
    (∀ table, literalBehind (readQuoted '\'') "name = ".toList (storedStatementQuery table) =
      some (table, ";".toList)) ∧
    (∀ d : Dialect, Function.Injective d.quote) ∧
    (∀ d : Dialect, Function.Injective d.columnsQuery) ∧
    Function.Injective storedStatementQuery := by
  refine ⟨fun d name rest => readQuoted_quoted_iff d.quoteChar name rest, fun table => ?_,
    fun table => ?_, fun d => quoted_injective d.quoteChar, fun d s t h => ?_, fun s t h => ?_⟩
  · rw [columnsQuery_eq, literalBehind_append (by decide)]
    exact readQuoted_quoted '\'' table (by decide)
  · rw [storedStatementQuery_eq, literalBehind_append (by decide)]
    exact readQuoted_quoted '\'' table (by decide)
  · rw [columnsQuery_eq, columnsQuery_eq] at h
    exact literal_injective _ _ h
  · rw [storedStatementQuery_eq, storedStatementQuery_eq] at h
    exact literal_injective _ _ h

theorem leavesOpen_columnsQuery {table : Text} (h : '\\' ∉ table) :
    Script.LeavesOpen .plain (Dialect.mysql.columnsQuery table) := by
  have hcalm {s : Text} (hs : ∀ c ∈ s, Script.IsCalm c) : Script.StaysPlain Lexical.step s :=
    Script.staysPlain_of_calm (fun _ => rfl) hs
  have hname : Script.StaysPlain Lexical.step (literal table) :=
    Script.staysPlain_quoted (q := .single) (fun _ => rfl) (Script.closesAt_step fun _ => h)
  rw [columnsQuery_eq]
  exact Script.leavesOpen_of_readThrough
    ((hcalm (by decide +kernel)).append (hname.append (hcalm (by decide +kernel))))

theorem columnsQuery_ne_nil (d : Dialect) (table : Text) : d.columnsQuery table ≠ [] := by
  have hstart : columnsQueryStart d ≠ [] := by cases d <;> decide
  rw [columnsQuery_eq]
  exact List.append_ne_nil_of_left_ne_nil hstart _

theorem trim_columnsQuery (d : Dialect) (table : Text) :
    trim (d.columnsQuery table) = d.columnsQuery table := by
  have hstart : columnsQueryStart d ≠ [] := by cases d <;> decide
  have hend : columnsQueryEnd d ≠ [] := by cases d <;> decide
  rw [columnsQuery_eq]
  refine trim_eq_self ?_ ?_
  · rw [List.head?_append_of_ne_nil _ hstart]
    cases d <;> decide
  · rw [List.getLast?_append_of_ne_nil _ (List.append_ne_nil_of_right_ne_nil _ hend),
      List.getLast?_append_of_ne_nil _ hend]
    cases d <;> decide

/-- MySQL's query is one statement about the table it is asked for exactly if the table's
name holds no backslash. -/
theorem columnsQuery_mysql_iff (table : Text) :
    (Script.statements (Dialect.mysql.columnsQuery table) = [Dialect.mysql.columnsQuery table] ∧
      literalBehind (readEscaped '\'') "TABLE_NAME = ".toList
        (Dialect.mysql.columnsQuery table) =
          some (table, " ORDER BY ORDINAL_POSITION".toList)) ↔ '\\' ∉ table := by
  have hread : literalBehind (readEscaped '\'') "TABLE_NAME = ".toList
      (Dialect.mysql.columnsQuery table) =
        readEscaped '\'' (literal table ++ columnsQueryEnd .mysql) := by
    rw [columnsQuery_eq, literalBehind_append (by decide +kernel)]
  have hname : readEscaped '\'' (literal table ++ columnsQueryEnd .mysql) =
      some (table, columnsQueryEnd .mysql) ↔ '\\' ∉ table :=
    readEscaped_quoted_iff (by decide) (by decide)
  rw [hread]
  refine ⟨fun h => hname.1 h.2, fun h => ⟨?_, hname.2 h⟩⟩
  have hne := columnsQuery_ne_nil .mysql table
  exact Script.statements_of_pieces (Script.pieces_of_open hne (leavesOpen_columnsQuery h)) hne
    (trim_columnsQuery .mysql table)

/-- The backslash hides the name's first quote, and the second statement is the name's. -/
theorem columnsQuery_mysql_escapes :
    let table := "\\'; DROP TABLE users; -- ".toList
    Script.statements (Dialect.mysql.columnsQuery table) ≠ [Dialect.mysql.columnsQuery table] ∧
      " DROP TABLE users;".toList ∈ (Script.pieces .plain (Dialect.mysql.columnsQuery table)) ∧
      literalBehind (readEscaped '\'') "TABLE_NAME = ".toList
        (Dialect.mysql.columnsQuery table) ≠
          some (table, " ORDER BY ORDINAL_POSITION".toList) := by
  decide +kernel

end SchemaDialects
