import SchemaDialects.Conversion.Session
import SchemaDialects.Proofs.Conversion.LineEnd
import SchemaDialects.Proofs.Definition.Breaks

/-!
# Statements with the same trimmed lines

A conversion reads a statement's comments, its first words, its name and its storage
clause before it cuts the statement into lines. All of this takes the blanks at a line
break for one blank, so that the layout on the page makes no difference.
-/

namespace SchemaDialects

open Text Definition Script

namespace Definition.SameBreaks

variable {s t : Text}

/-! ## Comments -/

theorem head?_eq_iff {x : Char} (hx : isBlank x = false) (h : SameBreaks s t) :
    s.head? = some x ↔ t.head? = some x := by
  have hne {c : Char} (hc : isBlank c = true) : (c == x) = false := by
    refine beq_eq_false_iff_ne.2 ?_
    rintro rfl
    rw [hx] at hc
    cases hc
  have hany : s.head?.any (· == x) = t.head?.any (· == x) :=
    h.any_head? fun c d hc hd => (hne hc).trans (hne hd).symm
  have hiff (o : Option Char) : o = some x ↔ o.any (· == x) = true := by
    cases o <;> simp
  rw [hiff, hiff, hany]

theorem exists_of_cons {x : Char} (hx : isBlank x = false) (h : SameBreaks (x :: s) t) :
    ∃ u, t = x :: u ∧ SameBreaks s u := by
  generalize hs : x :: s = s' at h
  cases h with
  | nil => cases hs
  | char c h =>
    obtain ⟨rfl, rfl⟩ := List.cons.inj hs
    exact ⟨_, rfl, h⟩
  | gap ha hb h =>
    obtain ⟨c, a, rfl, hc⟩ := ha.exists_cons
    obtain ⟨rfl, -⟩ := List.cons.inj hs
    rw [hx] at hc
    cases hc

end Definition.SameBreaks

namespace Script

theorem skip_blanks_append {b : Text} (hb : ∀ c ∈ b, isBlank c = true) (s : Text) :
    skip .blanks (b ++ s) = skip .blanks s := by
  induction b with
  | nil => rfl
  | cons c b ih =>
    rw [List.cons_append, skip, if_pos (hb c (by simp))]
    exact ih fun d hd => hb d (List.mem_cons_of_mem c hd)

theorem skip_lineComment_append {b : Text} (hb : '\n' ∉ b) (s : Text) :
    skip .lineComment (b ++ '\n' :: s) = skip .blanks s := by
  induction b with
  | nil => rw [List.nil_append, skip, if_pos rfl]
  | cons c b ih =>
    obtain ⟨hc, hb⟩ := not_or.1 (List.mem_cons.not.1 hb)
    rw [List.cons_append, skip, if_neg (Ne.symm hc), ih hb]

theorem skip_blockComment_cons {c : Char} {s : Text} (h : ¬ (c = '*' ∧ s.head? = some '/')) :
    skip .blockComment (c :: s) = skip .blockComment s := by
  rw [skip]
  rintro t rfl rfl
  exact h ⟨rfl, rfl⟩

theorem skip_blockComment_append {b : Text} (hb : ∀ c ∈ b, isBlank c = true) (s : Text) :
    skip .blockComment (b ++ s) = skip .blockComment s := by
  induction b with
  | nil => rfl
  | cons c b ih =>
    have hstar : c ≠ '*' := by
      rintro rfl
      exact absurd (hb '*' (by simp)) (by decide)
    rw [List.cons_append, skip_blockComment_cons fun h => hstar h.1]
    exact ih fun d hd => hb d (List.mem_cons_of_mem c hd)

/-- What is being skipped behind a line break. -/
def Skipping.behindBreak : Skipping → Skipping
  | .blanks | .lineComment => .blanks
  | .blockComment => .blockComment

theorem skip_break {b : Text} (hb : IsBreak b) (st : Skipping) (s : Text) :
    skip st (b ++ s) = skip st.behindBreak s := by
  cases st with
  | blanks => exact skip_blanks_append hb.blank s
  | blockComment => exact skip_blockComment_append hb.blank s
  | lineComment =>
    obtain ⟨x, y, rfl, hx⟩ := List.eq_append_cons_of_mem hb.mem
    have hy : ∀ c ∈ y, isBlank c = true := fun c hc => hb.blank c (by simp [hc])
    rw [List.append_assoc, List.cons_append, skip_lineComment_append hx]
    exact skip_blanks_append hy s

end Script

namespace Definition.SameBreaks

theorem skip {s t : Text} (h : SameBreaks s t) (st : Skipping) :
    SameBreaks (skip st s) (Script.skip st t) := by
  cases h with
  | nil => cases st <;> exact .nil
  | @gap a b s t ha hb h =>
    have hpos : 0 < a.length := List.length_pos_of_mem ha.mem
    rw [skip_break ha, skip_break hb]
    exact h.skip _
  | @char c s t h =>
    cases st with
    | blanks =>
      have hdash := h.head?_eq_iff (x := '-') (by decide)
      have hstar := h.head?_eq_iff (x := '*') (by decide)
      rw [Script.skip, Script.skip]
      simp only [hdash, hstar]
      split
      · exact h.skip _
      · split
        · exact h.skip _
        · split
          · exact h.skip _
          · exact .char c h
    | lineComment =>
      rw [Script.skip, Script.skip]
      split
      · exact h.skip _
      · exact h.skip _
    | blockComment =>
      by_cases hend : c = '*' ∧ s.head? = some '/'
      · obtain ⟨rfl, hs⟩ := hend
        obtain ⟨u, hu⟩ := List.head?_eq_some_iff.1 hs
        have hlt : u.length < s.length := by simp [hu]
        rw [hu] at h ⊢
        obtain ⟨v, rfl, h'⟩ := h.exists_of_cons (by decide)
        exact h'.skip .blanks
      · have hend' : ¬ (c = '*' ∧ t.head? = some '/') := by
          rwa [← h.head?_eq_iff (by decide)]
        rw [skip_blockComment_cons hend, skip_blockComment_cons hend']
        exact h.skip _
termination_by s.length
decreasing_by
  all_goals
    simp only [List.length_append, List.length_cons]
    omega

/-! ## Words and names -/

variable {s t : Text}

theorem name_eq (h : SameBreaks s t) (ends : Text) : name ends s = name ends t := by
  have hchar (c : Char) (hc : isBlank c = true) : isNameChar ends c = false := by
    simp [isNameChar, hc]
  have hquote {b : Text} (hb : IsBreak b) (y : Text) :
      name ends (b ++ y) = (Text.run (isNameChar ends) (b ++ y)).map Prod.fst := by
    obtain ⟨c, b, rfl, hc⟩ := hb.exists_cons
    have hne : ¬ (c = '`' ∨ c = '"') := by
      rintro (rfl | rfl) <;> exact absurd hc (by decide)
    simp [name, hne]
  cases h with
  | nil => rfl
  | @char c s t h =>
    rw [name, name]
    split
    · exact h.run_eq hchar
    · exact (SameBreaks.char c h).run_eq hchar
  | gap ha hb h =>
    rw [hquote ha, hquote hb]
    exact (SameBreaks.gap ha hb h).run_eq hchar

theorem nameAfter_eq (h : SameBreaks s t) {ks : List Text}
    (hks : ∀ k ∈ ks, ∀ x ∈ k, x.isAlpha = true) (ends : Text) :
    nameAfter ks ends s = nameAfter ks ends t := by
  have hafter : (keywords ks s >>= name ends) = (keywords ks t >>= name ends) :=
    bind_eq_of_rel (keepsBreaks_keywords hks h) fun _ _ h => h.name_eq ends
  rw [nameAfter, nameAfter, hafter, h.name_eq]

theorem createdTable?_eq (h : SameBreaks s t) : createdTable? s = createdTable? t := by
  have htemporary : KeepsBreaks temporary :=
    (keepsBreaks_keywordBlanks (by decide)).or (keepsBreaks_keywordBlanks (by decide))
  refine bind_eq_of_rel (keepsBreaks_keywordBlanks (by decide) h.blanks) fun s t h => ?_
  refine bind_eq_of_rel (keepsBreaks_keywordBlanks (by decide) (htemporary.optional h)) ?_
  exact fun s t h => h.nameAfter_eq (by decide) _

theorem isSome_createTable_eq (h : SameBreaks s t) :
    (createTable s).isSome = (createTable t).isSome :=
  isSome_eq_of_rel ((keepsBreaks_keywordBlanks (by decide)).bind
    (keepsBreaks_keywordEnd (by decide)) h)

end Definition.SameBreaks

namespace Conversion

/-! ## Clauses and quotes -/

theorem keepsBreaks_storageClause : KeepsBreaks storageClause := by
  intro s t h
  refine rel_bind (keepsBreaks_char (by decide) h) fun s t h => ?_
  refine rel_bind (keepsBreaks_keyword (by decide) h.blanks) fun s t h => ?_
  refine rel_bind (keepsBreaks_char (by decide) h.blanks) fun s t h => ?_
  have huniform : IsUniform (· != ';') := by
    have hne {c : Char} (hc : isBlank c = true) : (c != ';') = true := by
      refine bne_iff_ne.2 ?_
      rintro rfl
      exact absurd hc (by decide)
    exact fun c d hc hd => (hne hc).trans (hne hd).symm
  exact .some ((keepsBreaks_char (by decide)).optional (h.dropWhile huniform))

theorem dropClause_cons (c : Char) (s : Text) :
    dropClause (c :: s) = match storageClause (c :: s) with
      | some rest => ");".toList ++ rest
      | none => c :: dropClause s := by
  have hfind : find (anywhere storageClause) none (c :: s) =
      match storageClause (c :: s) with
      | some rest => some ([], rest)
      | none => (find (anywhere storageClause) none s).map fun r => (c :: r.1, r.2) := by
    rw [find, find_anywhere _ (some c) none, anywhere]
    cases storageClause (c :: s) <;> rfl
  rw [dropClause, replaceFirst, hfind]
  cases storageClause (c :: s) with
  | some rest => rfl
  | none =>
    rw [dropClause, replaceFirst]
    cases find (anywhere storageClause) none s <;> rfl

theorem sameBreaks_dropClause {s t : Text} (h : SameBreaks s t) :
    SameBreaks (dropClause s) (dropClause t) := by
  induction h with
  | nil => exact .refl _
  | @char c s t h ih =>
    have hrel := keepsBreaks_storageClause (SameBreaks.char c h)
    rw [dropClause_cons, dropClause_cons]
    generalize storageClause (c :: s) = x at hrel ⊢
    generalize storageClause (c :: t) = y at hrel ⊢
    cases hrel with
    | none => exact .char c ih
    | some hrest => exact (SameBreaks.refl _).append hrest
  | gap ha hb h ih =>
    rw [dropClause_append_of_not_mem (not_mem_of_blanks ha.blank (by decide)),
      dropClause_append_of_not_mem (not_mem_of_blanks hb.blank (by decide))]
    exact .gap ha hb ih

theorem sameBreaks_requoteAt {old new : Char} (hold : isBlank old = false) {s t : Text}
    (h : SameBreaks s t) (q : Quoting) :
    SameBreaks (requoteAt old new q s) (requoteAt old new q t) := by
  have hbreak {b : Text} (hb : IsBreak b) (q : Quoting) (y : Text) :
      requoteAt old new q (b ++ y) = b ++ requoteAt old new q y := by
    have hmem := not_mem_of_blanks hb.blank hold
    rw [requoteAt_append, requoteAt_of_not_mem _ hmem,
      run_of_not_mem _ hmem (not_mem_of_blanks hb.blank (by decide))]
  induction h generalizing q with
  | nil => exact .nil
  | char c h ih =>
    rw [requoteAt_cons, requoteAt_cons]
    exact .char _ (ih _)
  | gap ha hb h ih =>
    rw [hbreak ha, hbreak hb]
    exact .gap ha hb (ih q)

theorem sameBreaks_requoted (d : Direction) {s t : Text} (h : SameBreaks s t) :
    SameBreaks (requoted d s) (requoted d t) := by
  rw [requoted_eq, requoted_eq]
  refine sameBreaks_requoteAt (isBlank_oldQuote d) ?_ _
  cases d with
  | mysqlToSqlite => exact sameBreaks_dropClause h
  | sqliteToMysql => exact h

/-! ## Statements -/

/-- Two statements of which the same is read differ in the text of an error at most. -/
theorem statement_of_readings (c : Conversion) {sql sql' : Text}
    (hplain : isPlainCreateTable (Script.body sql) = isPlainCreateTable (Script.body sql'))
    (htable : tableName? (Script.body sql) = tableName? (Script.body sql'))
    (hlayout : layout c.direction sql = layout c.direction sql') :
    (c.statement sql).notices = (c.statement sql').notices ∧
      ((c.statement sql).value = (c.statement sql').value ∨
        ((c.statement sql).value = .error (.ofStatement sql) ∧
          (c.statement sql').value = .error (.ofStatement sql'))) := by
  rw [statement_eq, statement_eq, ← hplain, ← htable, ← hlayout]
  split
  · cases (layout c.direction sql).isCrowded with
    | false => exact ⟨rfl, .inl rfl⟩
    | true => exact ⟨rfl, .inr ⟨rfl, rfl⟩⟩
  · exact ⟨rfl, .inr ⟨rfl, rfl⟩⟩

section
variable {sql sql' : Text}

/-- Of two statements with the same trimmed lines the same is read, unless line breaks are
told apart. -/
theorem eq_of_trimmedLines (h : trimmedLines sql = trimmedLines sql') {α : Type} {f : Text → α}
    (hf : ∀ s t, SameBreaks s t → f s = f t) : f (Script.body sql) = f (Script.body sql') := by
  have hbody (s : Text) : f (Script.body s) = f (skip .blanks (join ['\n'] (trimmedLines s))) :=
    hf _ _ ((sameBreaks_trim s).skip .blanks)
  rw [hbody, hbody, h]

variable (h : trimmedLines sql = trimmedLines sql')
include h

theorem isPlainCreateTable_of_trimmedLines :
    isPlainCreateTable (Script.body sql) = isPlainCreateTable (Script.body sql') := by
  rw [isPlainCreateTable_eq, isPlainCreateTable_eq, body_body, body_body]
  exact eq_of_trimmedLines h fun _ _ h => h.isSome_createTable_eq

theorem tableName?_of_trimmedLines :
    tableName? (Script.body sql) = tableName? (Script.body sql') := by
  rw [tableName?, tableName?, body_body, body_body]
  exact eq_of_trimmedLines h fun _ _ h => h.createdTable?_eq

theorem layout_of_trimmedLines (d : Direction) : layout d sql = layout d sql' :=
  eq_of_trimmedLines (f := fun body => Layout.ofLines (contentLines (requoted d body))) h
    fun _ _ h => congrArg Layout.ofLines (sameBreaks_requoted d h).contentLines_eq

end

end Conversion

/-- Statements with the same trimmed lines are converted alike, whatever the session
has seen before. They give the same output or the same loss, or are both refused, each
with its own text, and the sessions go on alike. -/
theorem Session.statement_of_trimmedLines (s : Session) {sql sql' : Text}
    (h : trimmedLines sql = trimmedLines sql') :
    ((s.statement sql).value = (s.statement sql').value ∨
      ((s.statement sql).value = .error (.ofStatement sql) ∧
        (s.statement sql').value = .error (.ofStatement sql'))) ∧
    (s.statement sql).session = (s.statement sql').session ∧
    (s.statement sql).events = (s.statement sql').events := by
  obtain ⟨hnotices, hvalue⟩ := s.conversion.statement_of_readings
    (Conversion.isPlainCreateTable_of_trimmedLines h) (Conversion.tableName?_of_trimmedLines h)
    (Conversion.layout_of_trimmedLines h _)
  refine ⟨hvalue, ?_, ?_⟩
  · simp only [Session.statement, Session.absorb, hnotices]
  · simp only [Session.statement, Session.absorb, hnotices]

/-- Here the storage clause goes over two lines, and the session is strict. -/
theorem Session.statement_of_trimmedLines_clause :
    let sql := "CREATE TABLE t (\n  d DATETIME,\n  n INT\n)\nENGINE\n= InnoDB;".toList
    let sql' := "\r\n\tCREATE TABLE t ( \r\n\r\nd DATETIME,\r\n    n INT\r\n)\n\n  ENGINE  \n= InnoDB;\n".toList
    let s : Session := { conversion := ⟨.mysqlToSqlite, default, default, true⟩ }
    trimmedLines sql = trimmedLines sql' ∧ sql ≠ sql' ∧
    ((s.statement sql).value = (s.statement sql').value ∨
      ((s.statement sql).value = .error (.ofStatement sql) ∧
        (s.statement sql').value = .error (.ofStatement sql'))) ∧
    (s.statement sql).session = (s.statement sql').session ∧
    (s.statement sql).events = (s.statement sql').events := by
  intro sql sql' s
  have h : trimmedLines sql = trimmedLines sql' := by decide +kernel
  exact ⟨h, by decide +kernel, Session.statement_of_trimmedLines s h⟩

end SchemaDialects
