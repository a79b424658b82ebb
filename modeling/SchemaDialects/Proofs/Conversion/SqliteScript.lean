import SchemaDialects.Proofs.Conversion.ScriptParts
import SchemaDialects.Proofs.Conversion.Strictness
import SchemaDialects.Proofs.Script.Sqlite

/-!
# Converting SQLite scripts

A SQLite script of table definitions is converted table by table as long as the
splitter keeps its statements apart. A string of SQLite's may end with a backslash;
there the splitter reads on into the next statement, and its table is lost.
-/

namespace SchemaDialects.Conversion

open Text Script Lexical

/-- A plain table definition with its semicolon, whose definitions start on a new
line. -/
structure IsTableStatement (s : Text) : Prop extends IsTerminated s where
  not_rejected : ¬ Rejected .sqliteToMysql s

theorem isTableStatement_iff {s : Text} : IsTableStatement s ↔
    trim s = s ∧ s.getLast? = some ';' ∧ isPlainCreateTable (body s) = true
      ∧ (layout .sqliteToMysql s).isCrowded = false := by
  rw [← not_rejected_iff]
  exact ⟨fun h => ⟨h.trim_eq, h.getLast_eq, h.not_rejected⟩, fun h => ⟨⟨h.1, h.2.1⟩, h.2.2⟩⟩

instance decidableIsTableStatement (s : Text) : Decidable (IsTableStatement s) :=
  decidable_of_iff' _ isTableStatement_iff

section
variable {c : Conversion} {ss : List Text} {script : Text}

theorem isPlainCreateTable_of_not_rejected {d : Direction} {s : Text} (h : ¬ Rejected d s) :
    isPlainCreateTable s = true := by
  rw [← isPlainCreateTable_body]
  exact (not_rejected_iff.1 h).1

theorem body_ne_nil_of_plain {s : Text} (h : isPlainCreateTable s = true) : body s ≠ [] := by
  intro hnil
  rw [isPlainCreateTable, hnil] at h
  cases h

theorem scriptItems_of_tables (h : ∀ s ∈ ss, IsTableStatement s) (hsplit : statements script = ss) :
    scriptItems script = ss := by
  rw [scriptItems, hsplit, List.filter_eq_self]
  intro s hs
  simpa using body_ne_nil_of_plain (isPlainCreateTable_of_not_rejected (h s hs).not_rejected)

theorem value_mapM_of_ok {ε α β : Type} {f : α → Traced ε β} {g : α → β} {xs : List α}
    (h : ∀ x ∈ xs, (f x).value = .ok (g x)) : (xs.mapM f).value = .ok (xs.map g) := by
  induction xs with
  | nil => rfl
  | cons x xs ih =>
    rw [List.mapM_cons, Traced.bind_of_ok (h x (by simp)),
      Traced.bind_of_ok (ih fun y hy => h y (List.mem_cons_of_mem x hy))]
    rfl

theorem value_scriptStatement (hd : c.direction = .sqliteToMysql) (hs : c.strict = false)
    {s : Text} (h : IsTableStatement s) :
    (c.scriptStatement s).value = .ok (some (c.output (layout c.direction s))) := by
  have hr := h.not_rejected
  rw [← hd] at hr
  rw [scriptStatement_of_plain (isPlainCreateTable_of_not_rejected hr),
    Traced.bind_of_ok (value_lenient hs hr)]
  rfl

/-- Tables that are kept apart are all converted, each to an output of its own. -/
theorem value_script_of_tables (hd : c.direction = .sqliteToMysql) (hs : c.strict = false)
    (h : ∀ s ∈ ss, IsTableStatement s) (hsplit : statements script = ss) :
    (c.script script).value = .ok ⟨joinStatements (ss.map fun s => c.output (layout c.direction s)),
      ss.length, ss.length, 0⟩ := by
  have hall := value_mapM_of_ok fun s hmem => value_scriptStatement hd hs (h s hmem)
  rw [value_script, scriptItems_of_tables h hsplit, hall]
  simp [Except.map, List.filterMap_map]

theorem converted_le {r : ScriptResult} (h : (c.script script).value = .ok r) :
    r.converted ≤ (statements script).length := by
  obtain ⟨outs, houts, rfl⟩ := converts_script (s := ⟨c, default⟩) h
  exact houts.length_le.trans (List.length_filter_le _ _)

/-- A script of table definitions splits into them exactly if the splitter keeps
them apart. Then each is converted, to an output of its own. If they hold no other
semicolons, all are converted only then: elsewhere a table is lost. Definitions that
end where SQLite takes them to end are kept apart if their quotes close evenly. -/
theorem tables_kept_iff (hd : c.direction = .sqliteToMysql) (hs : c.strict = false)
    (hscript : ConsistsOf ss script) (htables : ∀ s ∈ ss, IsTableStatement s) :
    (statements script = ss ↔ SplitApart ss) ∧
    (SplitApart ss → ∃ outs, List.Forall₂ (fun s out => (c.statement s).value = .ok out) ss outs ∧
      (c.script script).value = .ok ⟨joinStatements outs, ss.length, ss.length, 0⟩) ∧
    ((∀ s ∈ ss, ';' ∉ s.dropLast) → ∀ r, (c.script script).value = .ok r →
      (r.converted = ss.length ↔ SplitApart ss)) ∧
    ((∀ s ∈ ss, endsAtSemicolon stepSqlite plain s = true ∧ closesEvenly plain false s = true) →
      SplitApart ss) := by
  have hterm : ∀ s ∈ ss, IsTerminated s := fun s h => (htables s h).toIsTerminated
  have hsplit := statements_eq_iff hscript hterm
  have hvalue := fun happart => value_script_of_tables hd hs htables (hsplit.2 happart)
  refine ⟨hsplit, fun happart => ⟨_, ?_, hvalue happart⟩, fun hsingle r hr => ?_,
    splitApart_of_closesEvenly⟩
  · rw [List.forall₂_map_right_iff, List.forall₂_same]
    exact fun s h => value_lenient hs (hd ▸ (htables s h).not_rejected)
  · constructor
    · intro hall
      have hge : ss.length ≤ (statements script).length := hall ▸ converted_le hr
      have hle : (statements script).length ≤ ss.length :=
        length_trimmed_pieces_le hscript hterm hsingle plain
      exact splitApart_of_length hscript hterm hsingle (le_antisymm hle hge)
    · intro happart
      rw [hvalue happart] at hr
      exact congrArg ScriptResult.converted (Except.ok.inj hr).symm

/-- A table with a path for a default. -/
def pathTable (path : Text) : Text :=
  "CREATE TABLE a (\n  p TEXT DEFAULT '".toList ++ path ++ "'\n);".toList

def nextTable : Text := "CREATE TABLE b (\n  q TEXT DEFAULT 'x'\n);".toList

theorem consistsOf_path_next (path : Text) :
    ConsistsOf [pathTable path, nextTable] (pathTable path ++ '\n' :: nextTable) :=
  .statement (b := []) (by decide) (.statement (b := ['\n']) (by decide)
    (.blanks (b := []) (by decide)))

/-- A backslash within the path does no harm. -/
theorem tables_kept_iff_path :
    ∃ outs, outs.length = 2 ∧ (Conversion.script ⟨.sqliteToMysql, default, default, false⟩
        (pathTable "C:\\a".toList ++ '\n' :: nextTable)).value
      = .ok ⟨joinStatements outs, 2, 2, 0⟩ := by
  obtain ⟨-, hkept, -, heven⟩ :=
    tables_kept_iff (c := ⟨.sqliteToMysql, default, default, false⟩) rfl rfl
      (consistsOf_path_next "C:\\a".toList) (by decide +kernel)
  obtain ⟨outs, houts, hvalue⟩ := hkept (heven (by decide +kernel))
  exact ⟨outs, houts.length_eq.symm, hvalue⟩

/-- A backslash at the end of the path takes the next table along. To SQLite both
are statements of their own. -/
theorem next_table_lost :
    ConsistsOf [pathTable "C:\\".toList, nextTable]
      (pathTable "C:\\".toList ++ '\n' :: nextTable) ∧
    (∀ s ∈ [pathTable "C:\\".toList, nextTable],
      IsTableStatement s ∧ endsAtSemicolon stepSqlite plain s = true) ∧
    ∃ r, (Conversion.script ⟨.sqliteToMysql, default, default, false⟩
        (pathTable "C:\\".toList ++ '\n' :: nextTable)).value = .ok r ∧
      r.processed = 1 ∧ r.converted = 1 ∧ r.skipped = 0 :=
  ⟨consistsOf_path_next _, by decide +kernel,
    ⟨"CREATE TABLE a (\n  p VARCHAR(255) DEFAULT 'C:\\'\n) ENGINE=InnoDB DEFAULT CHARSET=utf8;\n".toList,
      1, 1, 0⟩, by decide +kernel, rfl, rfl, rfl⟩

end

end SchemaDialects.Conversion
