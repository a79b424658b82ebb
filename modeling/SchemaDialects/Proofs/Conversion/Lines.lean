import SchemaDialects.Proofs.Conversion.Completeness
import SchemaDialects.Proofs.Conversion.LineEnd
import SchemaDialects.Proofs.Definition.LeadingName

/-!
# The lines of the output

Of a statement that has its closing parenthesis at the start of a line, the
lines above are the header and the definitions. The output has the header, then
each definition that is kept, rewritten on its own, in the order of the
statement, and then the target's ending.
-/

namespace SchemaDialects.Conversion

open Text Definition

/-- The closing parenthesis of `s` starts a line, and the lines above that one,
with the target's quotes, are a header and definitions. No storage clause starts
above it. -/
structure IsLaidOut (d : Direction) (s header : Text) (definitions : List Text) : Prop where
  split : ∃ above indent below, s = above ++ '\n' :: (indent ++ ')' :: below)
    ∧ (∀ c ∈ indent, isBlank c = true)
    ∧ contentLines (requoteAt (oldQuote d) (newQuote d) .closed above) = header :: definitions
    ∧ (d = .mysqlToSqlite → ∀ lead rest, find (anywhere storageClause) none s = some (lead, rest) →
      above.length < lead.length)
  definitions : ∀ line ∈ definitions, isClosing line = false

/-- What is kept of the definitions: all but the inline indexes, and but one key
clause over the auto-increment column alone, if there is such a clause. -/
def IsKept (m : TypeMap) (d : Direction) (definitions kept : List Text) : Prop :=
  let others := definitions.filter fun line => !isDropped d line
  kept = others ∨ ∃ auto before clause after, definitions.findSome? (autoColumn? m d) = some auto
    ∧ keyClauseColumns? (rewritten m d clause) = some [auto]
    ∧ others = before ++ clause :: after ∧ kept = before ++ after

/-- Each definition on a line of its own, with commas between them. -/
def rows : List Text → Text
  | [] => []
  | line :: lines => "\n  ".toList ++ join ",\n  ".toList (line :: lines)

/-- What stands behind the closing parenthesis. -/
def ending (c : Conversion) : Text :=
  match c.direction with
  | .mysqlToSqlite => [';']
  | .sqliteToMysql => ' ' :: c.storage.clause ++ [';']

/-! ## The layout -/

theorem passes_above {f : Reader Text} {above below : Text}
    (h : ∀ lead rest, find f none (above ++ below) = some (lead, rest) →
      above.length < lead.length) : Passes f none above below := by
  cases hf : find f none (above ++ below) with
  | none =>
    intro a b hab hb
    have := passes_of_find_eq_none hf a (b ++ below) (by rw [hab, List.append_assoc]) (by simp [hb])
    rwa [List.append_nil] at this
  | some r =>
    obtain ⟨lead, rest⟩ := r
    obtain ⟨t, hs, -, hpass, -⟩ := passes_of_find hf
    obtain ⟨u, rfl, hbelow⟩ : ∃ u, lead = above ++ u ∧ below = u ++ t := by
      rcases List.append_eq_append_iff.1 hs with ⟨u, hu, hb⟩ | ⟨u, hu, hb⟩
      · exact ⟨u, hu, hb⟩
      · have := h lead rest hf
        rw [hu, List.length_append] at this
        omega
    intro a b hab hb
    have := hpass a (b ++ u) (by rw [hab, List.append_assoc]) (by simp [hb])
    rwa [List.append_assoc, ← hbelow] at this

theorem find_clauseHead_above {above below : Text}
    (h : Passes (anywhere storageClause) none above below) :
    find (anywhere clauseHead) none above = none := by
  refine find_eq_none fun a b hab hb => ?_
  refine Option.eq_none_iff_forall_ne_some.2 fun r hr => ?_
  have hnone : storageClause (b ++ below) = none := h a b hab hb
  have hhead : clauseHead b = some r := by rwa [List.append_nil] at hr
  rw [storageClause_eq, clauseHead_append hhead below] at hnone
  cases hnone

theorem exists_layout {d : Direction} {sql header : Text} {definitions : List Text}
    (h : IsLaidOut d (Script.body sql) header definitions) :
    ∃ closing, layout d sql = ⟨header, definitions.map withoutComma, some closing⟩ := by
  obtain ⟨above, indent, below, hs, hindent, hlines, hclause⟩ := h.split
  have hnone : d = .mysqlToSqlite → find (anywhere clauseHead) none above = none := fun hd =>
    find_clauseHead_above (passes_above (by rw [← hs]; exact hclause hd))
  have hclosed : ClauseClosed d above := by
    intro hd lead w hf
    rw [hnone hd] at hf
    cases hf
  have habove : unclaused d above = above := by
    cases d with
    | mysqlToSqlite => exact dropClause_of_none (hnone rfl)
    | sqliteToMysql => rfl
  obtain ⟨w, hw⟩ := exists_requoted_closing hclosed hindent below
  obtain ⟨closing, rest, hclosing, hc⟩ := exists_contentLines_closing hindent w
  refine ⟨closing, ?_⟩
  rw [layout, hs, hw, contentLines_append, hclosing, requoted_eq, habove, hlines, List.cons_append]
  exact Layout.ofLines_of_closing h.definitions hc

/-! ## What is kept -/

theorem exists_eraseLast {α : Type} (p : α → Bool) (l : List α) :
    eraseLast p l = l ∨ ∃ before x after, p x = true ∧ l = before ++ x :: after
      ∧ eraseLast p l = before ++ after := by
  by_cases h : l.any p = true
  · obtain ⟨a, ha, hp⟩ := List.any_eq_true.1 h
    obtain ⟨x, after, before, -, hx, hl, he⟩ :=
      List.exists_of_eraseP (List.mem_reverse.2 ha) hp
    refine Or.inr ⟨before.reverse, x, after.reverse, hx, ?_, ?_⟩
    · rw [← List.reverse_reverse l, hl]
      simp
    · rw [eraseLast, he, List.reverse_append]
  · exact Or.inl (eraseLast_of_not_any (by simpa using h))

theorem filterMap_line?_outcomes (c : Conversion) (l : Layout) :
    (c.outcomes none l).filterMap Outcome.line?
      = (l.definitions.filter fun line => !isDropped c.direction line).map
        (rewritten c.types c.direction) := by
  rw [outcomes, List.filterMap_map, ← List.filterMap_eq_map, List.filterMap_filter]
  refine congrArg (List.filterMap · l.definitions) (funext fun line => ?_)
  rw [Function.comp_apply, line?_convert_eq]
  cases isDropped c.direction line <;> rfl

theorem findSome?_autoColumn?_outcomes (c : Conversion) (l : Layout) :
    (c.outcomes none l).findSome? Outcome.autoColumn?
      = l.definitions.findSome? (autoColumn? c.types c.direction) := by
  rw [outcomes, List.findSome?_map]
  exact congrArg (List.findSome? · l.definitions)
    (funext fun line => autoColumn?_convert_eq c.types c.direction none line)

theorem exists_isKept (c : Conversion) (l : Layout) :
    ∃ kept, IsKept c.types c.direction l.definitions kept
      ∧ keptLines (c.outcomes none l) = kept.map (rewritten c.types c.direction) := by
  rw [keptLines, filterMap_line?_outcomes, findSome?_autoColumn?_outcomes]
  cases hauto : l.definitions.findSome? (autoColumn? c.types c.direction) with
  | none => exact ⟨_, Or.inl rfl, rfl⟩
  | some auto =>
    refine ⟨_, ?_, (eraseLast_map _ _ _).symm⟩
    rcases exists_eraseLast (isSoleKeyOf auto ∘ rewritten c.types c.direction)
      (l.definitions.filter fun line => !isDropped c.direction line) with h | h
    · exact Or.inl h
    · obtain ⟨before, clause, after, hp, hl, he⟩ := h
      exact Or.inr ⟨auto, before, clause, after, hauto, by simpa [isSoleKeyOf] using hp, hl, he⟩

theorem IsKept.mem {m : TypeMap} {d : Direction} {definitions kept : List Text} {line : Text}
    (h : IsKept m d definitions kept) (hline : line ∈ definitions)
    (hd : isDropped d line = false) (hk : keyClauseColumns? (rewritten m d line) = none) :
    line ∈ kept := by
  have hother : line ∈ definitions.filter fun line => !isDropped d line :=
    List.mem_filter.2 ⟨hline, by rw [hd]; rfl⟩
  rcases h with rfl | ⟨auto, before, clause, after, -, hclause, hl, rfl⟩
  · exact hother
  · rw [hl] at hother
    rcases List.mem_append.1 hother with hm | hm
    · exact List.mem_append_left _ hm
    · rcases List.mem_cons.1 hm with rfl | hm
      · rw [hk] at hclause
        cases hclause
      · exact List.mem_append_right _ hm

/-! ## The output -/

theorem assemble_closed (header : Text) (defs : List Text) :
    assemble header defs true = header ++ rows defs ++ "\n)".toList := by
  cases defs with
  | nil => rfl
  | cons line defs =>
    rw [assemble, if_neg (List.cons_ne_nil _ _)]
    rfl

theorem finish_closed (c : Conversion) (s : Text) :
    c.finish (s ++ "\n)".toList) = s ++ "\n)".toList ++ c.ending := by
  have hlast : (s ++ "\n)".toList).getLast? = some ')' := by
    rw [List.getLast?_append]
    rfl
  unfold finish ending
  cases c.direction with
  | mysqlToSqlite =>
    have hend : endsWith (s ++ "\n)".toList) ';' = false := by
      rw [endsWith, hlast]
      decide
    simp only [hend]
    rfl
  | sqliteToMysql =>
    have hdrop : dropEndWhile (· == ';') (s ++ "\n)".toList) = s ++ "\n)".toList :=
      dropEndWhile_eq_self (by rw [hlast]; decide)
    have htrim : trimEnd (s ++ "\n)".toList) = s ++ "\n)".toList :=
      trimEnd_eq_self (by rw [hlast]; decide)
    simp only [hdrop, htrim, List.append_assoc]

theorem eq_output_of_ok {c : Conversion} {sql out : Text} (h : (c.statement sql).value = .ok out) :
    out = c.output (layout c.direction sql) := by
  rw [value_statement] at h
  split at h
  · split at h
    · cases h
    · exact (Except.ok.inj h).symm
  · cases h

/-- Of a statement that is laid out no definition is lost, none comes twice and
none changes its place, and each keeps the name that it begins with. A bare name
is kept if it is a word still once the attributes are out. -/
theorem output_of_isLaidOut {c : Conversion} {sql out header : Text} {definitions : List Text}
    (h : IsLaidOut c.direction (Script.body sql) header definitions)
    (hout : (c.statement sql).value = .ok out) :
    ∃ kept, IsKept c.types c.direction (definitions.map withoutComma) kept
      ∧ out = header ++ rows (kept.map (rewritten c.types c.direction)) ++ "\n)".toList ++ c.ending
      ∧ ∀ line ∈ kept, ∀ quote? name, BeginsWith quote? name line →
        isConstraintKeyword name = false → sameUpToCase name c.direction.source.marker = false →
        (quote? = none → BeginsWith none name (cleaned c.direction line)) →
        BeginsWith quote? name (rewritten c.types c.direction line) := by
  obtain ⟨closing, hlayout⟩ := exists_layout h
  obtain ⟨kept, hkept, hlines⟩ := exists_isKept c ⟨header, definitions.map withoutComma, some closing⟩
  refine ⟨kept, hkept, ?_, fun line _ quote? name hline hk hm => beginsWith_rewritten hline hk hm⟩
  rw [eq_output_of_ok hout, hlayout, output, hlines]
  show c.finish (assemble header _ true) = _
  rw [assemble_closed, finish_closed]

/-- Of a table with an index, a key clause, a comment and a marker. -/
theorem output_of_isLaidOut_users :
    let above := "CREATE TABLE `users` (\n  `id` INT UNSIGNED AUTO_INCREMENT, -- key\n\n".toList
      ++ "  name CHAR(9) COMMENT 'x',\n  KEY k (name),\n  PRIMARY KEY (`id`)".toList
    let sql := above ++ "\n) ENGINE=x;".toList
    let c : Conversion := { direction := .mysqlToSqlite }
    let header := "CREATE TABLE \"users\" (".toList
    let line := "name CHAR(9) COMMENT 'x'".toList
    let definitions := ["\"id\" INT UNSIGNED AUTO_INCREMENT,".toList,
      "name CHAR(9) COMMENT 'x',".toList, "KEY k (name),".toList, "PRIMARY KEY (\"id\")".toList]
    let out := header ++ "\n  \"id\" INTEGER PRIMARY KEY AUTOINCREMENT,\n  name TEXT\n);".toList
    IsLaidOut .mysqlToSqlite (Script.body sql) header definitions
      ∧ (c.statement sql).value = .ok out
      ∧ ∃ kept, IsKept c.types .mysqlToSqlite (definitions.map withoutComma) kept
        ∧ out = header ++ rows (kept.map (rewritten c.types .mysqlToSqlite)) ++ "\n)".toList
          ++ [';'] ∧ line ∈ kept
        ∧ BeginsWith none "name".toList (rewritten c.types .mysqlToSqlite line) := by
  intro above sql c header line definitions out
  have hfound : (find (anywhere storageClause) none (Script.body sql)).all
      fun r => above.length < r.1.length := by decide +kernel
  have hl : IsLaidOut .mysqlToSqlite (Script.body sql) header definitions := by
    refine ⟨⟨above, [], " ENGINE=x;".toList, by decide +kernel, by simp, by decide +kernel, ?_⟩,
      by decide +kernel⟩
    intro _ lead rest hf
    rw [hf] at hfound
    exact of_decide_eq_true hfound
  have hout : (c.statement sql).value = .ok out := by decide +kernel
  have hmem : line ∈ definitions.map withoutComma := by decide +kernel
  have hclause : keyClauseColumns? (rewritten c.types .mysqlToSqlite line) = none := by
    decide +kernel
  have hcleaned : BeginsWith none "name".toList (cleaned .mysqlToSqlite line) :=
    ⟨by decide, by decide +kernel, by simp, " CHAR(9)".toList, by decide +kernel,
      fun _ => by decide +kernel⟩
  have hname : BeginsWith none "name".toList line :=
    ⟨hcleaned.ne, hcleaned.word, hcleaned.quote, " CHAR(9) COMMENT 'x'".toList, rfl,
      fun _ => by decide +kernel⟩
  clear_value sql out header definitions
  obtain ⟨kept, hkept, hlines, hnames⟩ := output_of_isLaidOut hl hout
  have hline := hkept.mem hmem (by decide +kernel) hclause
  exact ⟨hl, hout, kept, hkept, hlines, hline, hnames line hline none _ hname (by decide)
    (by decide) fun _ => hcleaned⟩

/-- A bare name that a comment clause parts from the rest of a marker: with the
clause gone both are the marker, and the name goes too. -/
theorem not_beginsWith_glued :
    let above := "CREATE TABLE t (\n  AUTO_ COMMENT 'x'INCREMENT INT".toList
    let sql := above ++ "\n);".toList
    let c : Conversion := { direction := .mysqlToSqlite }
    let header := "CREATE TABLE t (".toList
    let line := "AUTO_ COMMENT 'x'INCREMENT INT".toList
    let line' := " INTEGER PRIMARY KEY AUTOINCREMENT".toList
    IsLaidOut .mysqlToSqlite (Script.body sql) header [line]
      ∧ (c.statement sql).value = .ok (header ++ "\n  ".toList ++ line' ++ "\n);".toList)
      ∧ BeginsWith none "AUTO_".toList line ∧ isConstraintKeyword "AUTO_".toList = false
      ∧ sameUpToCase "AUTO_".toList Dialect.mysql.marker = false
      ∧ rewritten c.types .mysqlToSqlite line = line' ∧ ¬ "AUTO_".toList <+: line' := by
  intro above sql c header line line'
  have hfound : find (anywhere storageClause) none (Script.body sql) = none := by decide +kernel
  have hl : IsLaidOut .mysqlToSqlite (Script.body sql) header [line] := by
    refine ⟨⟨above, [], ";".toList, by decide +kernel, by simp, by decide +kernel, ?_⟩,
      by decide +kernel⟩
    intro _ lead rest hf
    rw [hfound] at hf
    cases hf
  have hname : BeginsWith none "AUTO_".toList line :=
    ⟨by decide, by decide +kernel, by simp, " COMMENT 'x'INCREMENT INT".toList, by decide,
      fun _ => by decide +kernel⟩
  exact ⟨hl, by decide +kernel, hname, by decide, by decide, by decide +kernel, by decide⟩

end SchemaDialects.Conversion
